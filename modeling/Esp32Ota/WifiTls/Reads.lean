import Esp32Ota.WifiTls.Request

-- Which reads the request loop processes, and what ends it.
namespace Esp32Ota

open CLib Halting

-- How the reads of a list end, if the callback does not end them before.
inductive ReadEnd
  | eof
  | failed
  | pending
  deriving DecidableEq, Repr

def readEnd : List ReadResult → ReadEnd
  | [] => .pending
  | .eof :: _ => .eof
  | .error _ :: _ => .failed
  | .data _ :: reads => readEnd reads
  | .wantRead :: reads => readEnd reads
  | .wantWrite :: reads => readEnd reads

section Fragments

theorem take_flatten_append (fs : List Bytes) {m n : Nat} (h : m ≤ n) :
    ∃ more, (fs.take n).flatten = (fs.take m).flatten ++ more := by
  refine ⟨((fs.take n).drop m).flatten, ?_⟩
  rw [← List.flatten_append]
  conv_lhs => rw [← List.take_append_drop m (fs.take n), List.take_take, Nat.min_eq_left h]

theorem length_take_flatten_lt {fs : List Bytes} (hne : ∀ f ∈ fs, f ≠ []) {n : Nat} (h : n < fs.length) :
    (fs.take n).flatten.length < fs.flatten.length := by
  have hsplit := congrArg List.flatten (List.take_append_drop n fs)
  rw [List.drop_eq_getElem_cons h, List.flatten_append, List.flatten_cons] at hsplit
  have hpos := List.length_pos_of_ne_nil (hne fs[n] (List.getElem_mem h))
  rw [← hsplit, List.length_append, List.length_append]
  omega

end Fragments

section Loop

variable {σ : Type} {callback : Nat → Bytes → Nat → EStateM Halt σ Bool}
  {I : Nat → Bytes → Bytes → σ → Prop} {Q : Bytes → σ → Prop} {E : Halt → Bytes → σ → Prop}

-- The loop has gone on behind each of the first `n` reads.
def PausesBefore (I : Nat → Bytes → Bytes → σ → Prop) (stream : Bytes) (fragments : List Bytes)
    (n : Nat) : Prop :=
  ∀ k < n, ∃ index buffer client, I index (stream ++ (fragments.take k).flatten) buffer client

theorem pausesBefore_cons {index : Nat} {stream buffer fragment : Bytes} {client : σ}
    {rest : List Bytes} {n : Nat} (h : I index stream buffer client)
    (hrest : PausesBefore I (stream ++ fragment) rest n) :
    PausesBefore I stream (fragment :: rest) (n + 1) := by
  intro k hk
  cases k with
  | zero =>
      refine ⟨index, buffer, client, ?_⟩
      simpa using h
  | succ k =>
      obtain ⟨index, buffer, client, hI⟩ := hrest k (by omega)
      refine ⟨index, buffer, client, ?_⟩
      simpa using hI

theorem feed_cons_true {fragment : Bytes} {rest : List Bytes} {index : Nat} {buffer : Bytes} {s t : σ}
    (h : callback index (store buffer 0 fragment) fragment.length s = .ok true t) :
    feed callback (fragment :: rest) index buffer s =
      feed callback rest (index + 1) (store buffer 0 fragment) t := by
  simp [feed, bind, EStateM.bind, h]

theorem feed_cons_false {fragment : Bytes} {rest : List Bytes} {index : Nat} {buffer : Bytes} {s t : σ}
    (h : callback index (store buffer 0 fragment) fragment.length s = .ok false t) :
    feed callback (fragment :: rest) index buffer s = .ok false t := by
  simp [feed, bind, EStateM.bind, h, pure, EStateM.pure]

theorem feed_cons_error {fragment : Bytes} {rest : List Bytes} {index : Nat} {buffer : Bytes} {s t : σ} {e : Halt}
    (h : callback index (store buffer 0 fragment) fragment.length s = .error e t) :
    feed callback (fragment :: rest) index buffer s = .error e t := by
  simp [feed, bind, EStateM.bind, h]

variable (callback) (I) (Q) (E)

-- The loop returns because its callback stops it, or because the reads end.
inductive LoopReturns (fs : List Bytes) (ending : ReadEnd) (index : Nat) (stream buffer : Bytes) (s : σ)
    (result : Int) (bytes : Bytes) (t : σ) : Prop
  | stopped (n : Nat) (first : 0 < n) (bound : n ≤ fs.length) (hresult : result = 0)
      (processed : bytes = (fs.take n).flatten) (paused : PausesBefore I stream fs n)
      (done : Q (stream ++ bytes) t) (fed : feed callback fs index buffer s = .ok false t)
  | ended (lastIndex : Nat) (lastBuffer : Bytes)
      (hresult : ending = .eof ∧ result = 0 ∨ ending = .failed ∧ result = -1)
      (processed : bytes = fs.flatten) (paused : PausesBefore I stream fs fs.length)
      (pausing : I lastIndex (stream ++ bytes) lastBuffer t)
      (fed : feed callback fs index buffer s = .ok true t)

-- It halts in the callback, or waits for a read.
inductive LoopHalts (fs : List Bytes) (ending : ReadEnd) (index : Nat) (stream buffer : Bytes) (s : σ)
    (e : Halt) (bytes : Bytes) (t : σ) : Prop
  | halted (n : Nat) (first : 0 < n) (bound : n ≤ fs.length) (processed : bytes = (fs.take n).flatten)
      (paused : PausesBefore I stream fs n) (halt : E e (stream ++ bytes) t)
      (fed : feed callback fs index buffer s = .error e t)
  | blocked (lastIndex : Nat) (lastBuffer : Bytes) (pending : ending = .pending) (hhalt : e = .blocked)
      (processed : bytes = fs.flatten) (paused : PausesBefore I stream fs fs.length)
      (pausing : I lastIndex (stream ++ bytes) lastBuffer t)
      (fed : feed callback fs index buffer s = .ok true t)

variable {callback} {I} {Q} {E} {fs : List Bytes} {ending : ReadEnd} {index : Nat}
  {stream buffer fragment bytes : Bytes} {s t u : σ}

theorem LoopReturns.cons {result : Int} (h : I index stream buffer s)
    (hcontinue : callback index (store buffer 0 fragment) fragment.length s = .ok true t)
    (hrest : LoopReturns callback I Q fs ending (index + 1) (stream ++ fragment) (store buffer 0 fragment)
      t result bytes u) :
    LoopReturns callback I Q (fragment :: fs) ending index stream buffer s result (fragment ++ bytes) u := by
  cases hrest with
  | stopped n first bound hresult processed paused done fed =>
      refine .stopped (n + 1) (Nat.succ_pos n) (by simpa using bound) hresult (by simp [processed])
        (pausesBefore_cons h paused) ?_ ((feed_cons_true hcontinue).trans fed)
      rwa [← List.append_assoc]
  | ended lastIndex lastBuffer hresult processed paused pausing fed =>
      refine .ended lastIndex lastBuffer hresult (by simp [processed]) (pausesBefore_cons h paused) ?_
        ((feed_cons_true hcontinue).trans fed)
      rwa [← List.append_assoc]

theorem LoopHalts.cons {e : Halt} (h : I index stream buffer s)
    (hcontinue : callback index (store buffer 0 fragment) fragment.length s = .ok true t)
    (hrest : LoopHalts callback I E fs ending (index + 1) (stream ++ fragment) (store buffer 0 fragment)
      t e bytes u) :
    LoopHalts callback I E (fragment :: fs) ending index stream buffer s e (fragment ++ bytes) u := by
  cases hrest with
  | halted n first bound processed paused halt fed =>
      refine .halted (n + 1) (Nat.succ_pos n) (by simpa using bound) (by simp [processed])
        (pausesBefore_cons h paused) ?_ ((feed_cons_true hcontinue).trans fed)
      rwa [← List.append_assoc]
  | blocked lastIndex lastBuffer pending hhalt processed paused pausing fed =>
      refine .blocked lastIndex lastBuffer pending hhalt (by simp [processed]) (pausesBefore_cons h paused) ?_
        ((feed_cons_true hcontinue).trans fed)
      rwa [← List.append_assoc]

theorem wp_wifiTlsReadLoop_ends
    (hcallback : ∀ index stream buffer fragment s, I index stream buffer s →
      StepsTo callback I Q E index stream buffer fragment s)
    (reads : List ReadResult) {s : Conn σ} (h : I index stream buffer s.client) :
    wp (wifiTlsReadLoop callback reads index buffer)
      (fun result t => ∃ bytes, Closed s.tls t.tls bytes ∧
        LoopReturns callback I Q (fragments reads) (readEnd reads) index stream buffer s.client result bytes
          t.client)
      (fun e t => ∃ bytes, Exchanged s.tls t.tls bytes ∧
        LoopHalts callback I E (fragments reads) (readEnd reads) index stream buffer s.client e bytes
          t.client) s := by
  induction reads generalizing index stream buffer s with
  | nil =>
      simp only [wifiTlsReadLoop, wp_bind, wp_onTls, wp_tlsLog, wp_throw]
      refine ⟨[], Exchanged.log s.tls .sslRead rfl, ?_⟩
      exact .blocked index buffer rfl rfl rfl (fun k hk => by cases hk) (by rwa [List.append_nil]) rfl
  | cons read reads ih =>
      have hread : Exchanged s.tls { s.tls with trace := .sslRead :: s.tls.trace } [] :=
        Exchanged.log s.tls _ rfl
      have hnone : PausesBefore I stream [] ([] : List Bytes).length := fun k hk => by cases hk
      have hagain : wp (wifiTlsReadLoop callback reads index buffer)
          (fun result t => ∃ bytes, Closed s.tls t.tls bytes ∧
            LoopReturns callback I Q (fragments reads) (readEnd reads) index stream buffer s.client result
              bytes t.client)
          (fun e t => ∃ bytes, Exchanged s.tls t.tls bytes ∧
            LoopHalts callback I E (fragments reads) (readEnd reads) index stream buffer s.client e bytes
              t.client) { s with tls := { s.tls with trace := .sslRead :: s.tls.trace } } := by
        refine wp_mono (ih h) ?_ ?_
        · intro result t ht
          obtain ⟨bytes, hclosed, hreturns⟩ := ht
          exact ⟨bytes, hread.trans_closed hclosed, hreturns⟩
        · intro e t ht
          obtain ⟨bytes, hexchanged, hhalts⟩ := ht
          exact ⟨bytes, hread.trans hexchanged, hhalts⟩
      unfold wifiTlsReadLoop
      rw [wp_bind, wp_onTls, wp_tlsLog]
      cases read with
      | wantRead => exact hagain
      | wantWrite => exact hagain
      | eof =>
          simp only [wp_bind, wp_onTls, wp_pure]
          refine hread.disconnect _ _ fun u hu => ⟨[], hu, ?_⟩
          exact .ended index buffer (.inl ⟨rfl, rfl⟩) rfl hnone (by rwa [List.append_nil]) rfl
      | error _ =>
          simp only [wp_bind, wp_onTls, wp_pure]
          refine hread.disconnect _ _ fun u hu => ⟨[], hu, ?_⟩
          exact .ended index buffer (.inr ⟨rfl, rfl⟩) rfl hnone (by rwa [List.append_nil]) rfl
      | data fragment =>
          have hdata := hread.trans (Exchanged.log _ (.received fragment.val) rfl)
          have hone : fragments (.data fragment :: reads) = fragment.val :: fragments reads := rfl
          have hpaused : PausesBefore I stream (fragment.val :: fragments reads) 1 :=
            pausesBefore_cons h fun k hk => by cases hk
          simp only [wp_bind, wp_onTls, wp_tlsLog, wp_onClient, hone]
          have hstep := hcallback index stream buffer fragment s.client h
          unfold StepsTo at hstep
          refine wp_of_runs (fun continueReading t hx => ?_) (fun e t hx => ?_)
          · obtain ⟨hcontinue, hdone⟩ := wp_ok hstep hx
            cases continueReading with
            | false =>
                simp only [Bool.not_false, ite_true, wp_bind, wp_onTls, wp_pure]
                refine hdata.disconnect _ _ fun u hu => ⟨fragment.val, hu, ?_⟩
                exact .stopped 1 Nat.one_pos (by simp) rfl (by simp) hpaused (hdone rfl) (feed_cons_false hx)
            | true =>
                refine wp_mono (ih (s := ⟨_, t⟩) (hcontinue rfl)) ?_ ?_
                · intro result u hu
                  obtain ⟨bytes, hclosed, hreturns⟩ := hu
                  exact ⟨fragment.val ++ bytes, hdata.trans_closed hclosed, hreturns.cons h hx⟩
                · intro e u hu
                  obtain ⟨bytes, hexchanged, hhalts⟩ := hu
                  exact ⟨fragment.val ++ bytes, hdata.trans hexchanged, hhalts.cons h hx⟩
          · have herr := wp_error hstep hx
            exact ⟨fragment.val, hdata, .halted 1 Nat.one_pos (by simp) (by simp) hpaused herr
              (feed_cons_error hx)⟩

end Loop

end Esp32Ota

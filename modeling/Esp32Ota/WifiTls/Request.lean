import Esp32Ota.WifiTls.Connect

-- Rules for the request loop, over any response callback.
namespace Esp32Ota

open CLib Halting

section Traffic

-- The bytes of all reads, oldest first.
def received : List TlsEvent → Bytes
  | [] => []
  | .received bytes :: earlier => received earlier ++ bytes
  | _ :: earlier => received earlier

theorem received_append (later earlier : List TlsEvent) :
    received (later ++ earlier) = received earlier ++ received later := by
  induction later with
  | nil => simp [received]
  | cons event later ih => cases event <;> simp [received, ih]

-- `t` follows `s` by reads and writes alone, and the reads returned `bytes`.
structure Exchanged (s t : Tls) (bytes : Bytes) : Prop where
  isValid : t.isValid = s.isValid
  handshakeOver : t.handshakeOver = s.handshakeOver
  serverFd : t.serverFd = s.serverFd
  openSockets : t.openSockets = s.openSockets
  nextSocket : t.nextSocket = s.nextSocket
  trace : ∃ data, t.trace = data ++ s.trace ∧ (∀ event ∈ data, event.isData = true) ∧
    received data = bytes

theorem Exchanged.refl (s : Tls) : Exchanged s s [] :=
  ⟨rfl, rfl, rfl, rfl, rfl, [], rfl, by simp, rfl⟩

theorem Exchanged.trans {s t u : Tls} {bytes more : Bytes} (hst : Exchanged s t bytes)
    (htu : Exchanged t u more) : Exchanged s u (bytes ++ more) := by
  obtain ⟨data, htrace, hdata, hbytes⟩ := hst.trace
  obtain ⟨data', htrace', hdata', hmore⟩ := htu.trace
  refine ⟨htu.isValid.trans hst.isValid, htu.handshakeOver.trans hst.handshakeOver,
    htu.serverFd.trans hst.serverFd, htu.openSockets.trans hst.openSockets,
    htu.nextSocket.trans hst.nextSocket, data' ++ data, ?_, ?_, ?_⟩
  · rw [htrace', htrace, List.append_assoc]
  · intro event he
    exact (List.mem_append.mp he).elim (hdata' event) (hdata event)
  · rw [received_append, hbytes, hmore]

theorem Exchanged.log (s : Tls) (event : TlsEvent) (hevent : event.isData = true) :
    Exchanged s { s with trace := event :: s.trace } (received [event]) :=
  ⟨rfl, rfl, rfl, rfl, rfl, [event], rfl, by simpa using hevent, rfl⟩

-- Reads and writes, and then a disconnect.
structure Closed (s t : Tls) (bytes : Bytes) : Prop where
  isValid : t.isValid = false
  handshakeOver : t.handshakeOver = false
  trace : ∃ data, t.trace = .reset :: data ++ s.trace ∧ (∀ event ∈ data, event.isData = true) ∧
    received data = bytes

theorem Exchanged.trans_closed {s t u : Tls} {bytes more : Bytes} (hst : Exchanged s t bytes)
    (htu : Closed t u more) : Closed s u (bytes ++ more) := by
  obtain ⟨data, htrace, hdata, hbytes⟩ := hst.trace
  obtain ⟨data', htrace', hdata', hmore⟩ := htu.trace
  refine ⟨htu.isValid, htu.handshakeOver, data' ++ data, ?_, ?_, ?_⟩
  · simp only [htrace', htrace, List.cons_append, List.append_assoc]
  · intro event he
    exact (List.mem_append.mp he).elim (hdata' event) (hdata event)
  · rw [received_append, hbytes, hmore]

theorem Exchanged.disconnect {s t : Tls} {bytes : Bytes} (h : Exchanged s t bytes)
    (Q : Unit → Tls → Prop) (E : Halt → Tls → Prop) (hQ : ∀ u, Closed s u bytes → Q () u) :
    wp wifiTlsDisconnect Q E t := by
  obtain ⟨data, htrace, hdata, hbytes⟩ := h.trace
  rw [wp_wifiTlsDisconnect]
  exact hQ _ ⟨rfl, rfl, data, by rw [htrace]; rfl, hdata, hbytes⟩

theorem received_of_noData {events : List TlsEvent} (h : NoData events) : received events = [] := by
  induction events with
  | nil => rfl
  | cons event events ih =>
      have hevent := h event List.mem_cons_self
      have ih := ih fun e he => h e (List.mem_cons_of_mem _ he)
      cases event <;> simp_all [received, TlsEvent.isData]

theorem Silent.received {s t : Tls} (h : Silent s t) : received t.trace = received s.trace := by
  obtain ⟨events, htrace, hquiet⟩ := h
  rw [htrace, received_append, received_of_noData hquiet, List.append_nil]

theorem Exchanged.received {s t : Tls} {bytes : Bytes} (h : Exchanged s t bytes) :
    received t.trace = received s.trace ++ bytes := by
  obtain ⟨data, htrace, -, hbytes⟩ := h.trace
  rw [htrace, received_append, hbytes]

theorem Closed.received {s t : Tls} {bytes : Bytes} (h : Closed s t bytes) :
    received t.trace = received s.trace ++ bytes := by
  obtain ⟨data, htrace, -, hbytes⟩ := h.trace
  rw [htrace, received_append, ← hbytes]
  rfl

end Traffic

section Loops

variable {σ β : Type}

@[simp] theorem wp_onTls (x : TlsM β) (Q : β → Conn σ → Prop) (E : Halt → Conn σ → Prop)
    (s : Conn σ) :
    wp (onTls x) Q E s ↔
      wp x (fun b tls => Q b { s with tls }) (fun e tls => E e { s with tls }) s.tls := by
  simp only [onTls, wp_zoom]

@[simp] theorem wp_onClient (x : EStateM Halt σ β) (Q : β → Conn σ → Prop)
    (E : Halt → Conn σ → Prop) (s : Conn σ) :
    wp (onClient x) Q E s ↔
      wp x (fun b client => Q b { s with client }) (fun e client => E e { s with client }) s.client := by
  simp only [onClient, wp_zoom]

-- What goes on after an exchange without a read is the same for the whole.
theorem Exchanged.wp_trans {x : TlsM Bool} {s t : Tls} (h : Exchanged s t [])
    (hx : wp x (fun ok u => if ok then Exchanged t u [] else Closed t u [])
      (fun e u => e ≠ .restart ∧ Exchanged t u []) t) :
    wp x (fun ok u => if ok then Exchanged s u [] else Closed s u [])
      (fun e u => e ≠ .restart ∧ Exchanged s u []) t := by
  refine wp_mono hx ?_ (fun _ u hu => ⟨hu.1, h.trans hu.2⟩)
  intro ok u hu
  cases ok with
  | true => exact h.trans hu
  | false => exact h.trans_closed hu

theorem wifiTlsWriteLoop_spec (rets : List Int) (request : Bytes) (s : Tls) :
    wp (wifiTlsWriteLoop rets request)
      (fun written t => if written then Exchanged s t [] else Closed s t [])
      (fun e t => e ≠ .restart ∧ Exchanged s t []) s := by
  induction rets generalizing request s with
  | nil =>
      simp only [wifiTlsWriteLoop, wp_bind, wp_ite, wp_pure, wp_tlsLog, wp_throw, ite_true]
      exact ⟨fun _ => Exchanged.refl s, fun _ => ⟨by decide, Exchanged.log s _ rfl⟩⟩
  | cons ret rets ih =>
      simp only [wifiTlsWriteLoop, wp_bind, wp_ite, wp_pure, wp_tlsLog, wp_throw, ite_true]
      have hwrite : Exchanged s { s with trace := .sslWrite :: s.trace } [] := Exchanged.log s _ rfl
      refine ⟨fun _ => Exchanged.refl s, fun _ => ⟨fun hsent => ⟨fun _ => ⟨by decide, hwrite⟩, fun _ => ?_⟩,
        fun _ => ⟨fun _ => hwrite.wp_trans (ih request _), fun _ => ?_⟩⟩⟩
      · have hsent := hwrite.trans (Exchanged.log _ (.sent (request.take ret.toNat)) rfl)
        exact hsent.wp_trans (ih _ _)
      · exact hwrite.disconnect _ _ fun u hu => by simpa using hu

variable (callback : Nat → Bytes → Nat → EStateM Halt σ Bool)

-- `P` holds of each read that is handed to the callback: of the bytes received
-- before, the read itself, and the client that it meets.
def AlongReads (P : Bytes → Bytes → σ → Prop) : List ReadResult → Nat → Bytes → Bytes → σ → Prop
  | .data fragment :: reads, index, stream, buffer, s =>
      P stream fragment.val s ∧
        wp (callback index (store buffer 0 fragment.val) fragment.val.length)
          (fun continueReading t => continueReading = true →
            AlongReads P reads (index + 1) (stream ++ fragment.val) (store buffer 0 fragment.val) t)
          (fun _ _ => True) s
  | .wantRead :: reads, index, stream, buffer, s => AlongReads P reads index stream buffer s
  | .wantWrite :: reads, index, stream, buffer, s => AlongReads P reads index stream buffer s
  | _, _, _, _, _ => True

theorem alongReads_true (reads : List ReadResult) (index : Nat) (stream buffer : Bytes) (s : σ) :
    AlongReads callback (fun _ _ _ => True) reads index stream buffer s := by
  induction reads generalizing index stream buffer s with
  | nil => trivial
  | cons read reads ih =>
      cases read with
      | eof => trivial
      | error _ => trivial
      | wantRead => exact ih index stream buffer s
      | wantWrite => exact ih index stream buffer s
      | data fragment =>
          refine ⟨trivial, ?_⟩
          unfold wp
          cases callback index (store buffer 0 fragment.val) fragment.val.length s with
          | ok _ t => exact fun _ => ih _ _ _ t
          | error _ _ => trivial

-- One read of the loop: `I` holds again before the next read, or `Q` or
-- `E` holds at the exit that is taken.
def StepsTo (I : Nat → Bytes → Bytes → σ → Prop) (Q : Bytes → σ → Prop)
    (E : Halt → Bytes → σ → Prop) (index : Nat) (stream buffer : Bytes) (fragment : Fragment)
    (s : σ) : Prop :=
  wp (callback index (store buffer 0 fragment.val) fragment.val.length)
    (fun continueReading t =>
      (continueReading = true →
        I (index + 1) (stream ++ fragment.val) (store buffer 0 fragment.val) t) ∧
      (continueReading = false → Q (stream ++ fragment.val) t))
    (fun e t => E e (stream ++ fragment.val) t) s

-- The data read before reading ends.
def fragments : List ReadResult → List Bytes
  | .data fragment :: reads => fragment.val :: fragments reads
  | .wantRead :: reads => fragments reads
  | .wantWrite :: reads => fragments reads
  | _ => []

theorem length_of_fragments (reads : List ReadResult) :
    ∀ fragment ∈ fragments reads, 0 < fragment.length ∧ fragment.length ≤ tlsResponseBufferSize := by
  induction reads with
  | nil => simp [fragments]
  | cons read reads ih =>
      cases read with
      | eof => simp [fragments]
      | error _ => simp [fragments]
      | wantRead => exact ih
      | wantWrite => exact ih
      | data fragment =>
          intro bytes hbytes
          rcases List.mem_cons.mp hbytes with rfl | hbytes
          · exact fragment.property
          · exact ih bytes hbytes

theorem fragments_ne_nil (reads : List ReadResult) : ∀ fragment ∈ fragments reads, fragment ≠ [] :=
  fun fragment h => List.ne_nil_of_length_pos (length_of_fragments reads fragment h).1

-- The callbacks alone, until one of them does not want to continue.
def feed : List Bytes → Nat → Bytes → EStateM Halt σ Bool
  | [], _, _ => pure true
  | fragment :: rest, index, buffer => do
    if ← callback index (store buffer 0 fragment) fragment.length then
      feed rest (index + 1) (store buffer 0 fragment)
    else
      return false

theorem onTls_tlsLog (event : TlsEvent) (s : Conn σ) :
    onTls (tlsLog event) s = .ok () { s with tls := { s.tls with trace := event :: s.tls.trace } } := rfl

-- How the reads are interleaved with retries, and how they end, makes no
-- difference to the client.
theorem client_of_feed (reads : List ReadResult) (index : Nat) (buffer : Bytes) (s : Conn σ) :
    (final (wifiTlsReadLoop callback reads index buffer) s).client =
      final (feed callback (fragments reads) index buffer) s.client := by
  induction reads generalizing index buffer s with
  | nil => rfl
  | cons read reads ih =>
      cases read with
      | eof => rfl
      | error _ => rfl
      | wantRead => exact ih index buffer _
      | wantWrite => exact ih index buffer _
      | data fragment =>
          unfold wifiTlsReadLoop fragments feed
          simp only [final_bind, onTls_tlsLog, onClient, zoom]
          cases hx : callback index (store buffer 0 fragment.val) fragment.val.length s.client with
          | error _ _ => rfl
          | ok continueReading t =>
              cases continueReading with
              | false => rfl
              | true => exact ih (index + 1) (store buffer 0 fragment.val) _

variable {callback} {P : Bytes → Bytes → σ → Prop} {I J : Nat → Bytes → Bytes → σ → Prop}
  {Q : Bytes → σ → Prop} {E : Halt → Bytes → σ → Prop}

-- `I index stream buffer` holds of the client between two reads, when
-- `stream` is what has been received; `Q` and `E` hold at the two exits.
theorem wp_wifiTlsReadLoop_along
    (hcallback : ∀ index stream buffer fragment s, I index stream buffer s →
      P stream fragment.val s → StepsTo callback I Q E index stream buffer fragment s)
    (hstop : ∀ index stream buffer s, I index stream buffer s → Q stream s)
    (hblocked : ∀ index stream buffer s, I index stream buffer s → E .blocked stream s)
    (reads : List ReadResult) {index : Nat} {stream buffer : Bytes} {s : Conn σ}
    (h : I index stream buffer s.client)
    (hreads : AlongReads callback P reads index stream buffer s.client) :
    wp (wifiTlsReadLoop callback reads index buffer)
      (fun _ t => ∃ more, Q (stream ++ more) t.client ∧ Closed s.tls t.tls more)
      (fun e t => ∃ more, E e (stream ++ more) t.client ∧ Exchanged s.tls t.tls more) s := by
  have hend : ∀ {s : Conn σ} {stream bytes : Bytes} {tls : Tls} {client : σ},
      Q (stream ++ bytes) client → Exchanged s.tls tls bytes →
      wp (onTls wifiTlsDisconnect) (fun _ t => ∃ more, Q (stream ++ more) t.client ∧
        Closed s.tls t.tls more) (fun e t => ∃ more, E e (stream ++ more) t.client ∧
        Exchanged s.tls t.tls more) ⟨tls, client⟩ := by
    intro s stream bytes tls client hclient htls
    rw [wp_onTls]
    exact htls.disconnect _ _ fun u hu => ⟨bytes, hclient, hu⟩
  induction reads generalizing index stream buffer s with
  | nil =>
      simp only [wifiTlsReadLoop, wp_bind, wp_onTls, wp_tlsLog, wp_throw]
      refine ⟨[], ?_, Exchanged.log s.tls _ rfl⟩
      rw [List.append_nil]
      exact hblocked _ _ _ _ h
  | cons read reads ih =>
      have hread : Exchanged s.tls { s.tls with trace := .sslRead :: s.tls.trace } [] :=
        Exchanged.log s.tls _ rfl
      have hidle : Q (stream ++ []) s.client := by
        rw [List.append_nil]
        exact hstop _ _ _ _ h
      have hagain : AlongReads callback P reads index stream buffer s.client →
          wp (wifiTlsReadLoop callback reads index buffer)
          (fun _ t => ∃ more, Q (stream ++ more) t.client ∧ Closed s.tls t.tls more)
          (fun e t => ∃ more, E e (stream ++ more) t.client ∧ Exchanged s.tls t.tls more)
          { s with tls := { s.tls with trace := .sslRead :: s.tls.trace } } := by
        intro hrest
        refine wp_mono (ih h hrest) ?_ ?_
        · intro _ t ht
          obtain ⟨more, hstop, hclosed⟩ := ht
          exact ⟨more, hstop, hread.trans_closed hclosed⟩
        · intro e t ht
          obtain ⟨more, herr, hexchanged⟩ := ht
          exact ⟨more, herr, hread.trans hexchanged⟩
      unfold wifiTlsReadLoop
      rw [wp_bind, wp_onTls, wp_tlsLog]
      cases read with
      | eof => exact hend hidle hread
      | error _ => exact hend hidle hread
      | wantRead => exact hagain hreads
      | wantWrite => exact hagain hreads
      | data fragment =>
          have hdata := hread.trans (Exchanged.log _ (.received fragment.val) rfl)
          simp only [wp_bind, wp_onTls, wp_tlsLog, wp_onClient]
          apply wp_mono (wp_and (hcallback _ _ _ fragment _ h hreads.1) hreads.2)
          · intro continueReading client hpost
            obtain ⟨⟨hcontinue, hdone⟩, hrest⟩ := hpost
            cases continueReading with
            | false => exact hend (hdone rfl) hdata
            | true =>
                apply wp_mono (ih (hcontinue rfl) (hrest rfl))
                · intro _ t ht
                  obtain ⟨more, hstop, hclosed⟩ := ht
                  refine ⟨fragment.val ++ more, ?_, hdata.trans_closed hclosed⟩
                  rwa [← List.append_assoc]
                · intro e t ht
                  obtain ⟨more, herr, hexchanged⟩ := ht
                  refine ⟨fragment.val ++ more, ?_, hdata.trans hexchanged⟩
                  rwa [← List.append_assoc]
          · intro e client hpost
            obtain ⟨herr, -⟩ := hpost
            exact ⟨fragment.val, herr, hdata⟩

theorem wp_wifiTlsReadLoop
    (hcallback : ∀ index stream buffer fragment s, I index stream buffer s →
      StepsTo callback I Q E index stream buffer fragment s)
    (hstop : ∀ index stream buffer s, I index stream buffer s → Q stream s)
    (hblocked : ∀ index stream buffer s, I index stream buffer s → E .blocked stream s)
    (reads : List ReadResult) (index : Nat) (stream buffer : Bytes) {s : Conn σ}
    (h : I index stream buffer s.client) :
    wp (wifiTlsReadLoop callback reads index buffer)
      (fun _ t => ∃ more, Q (stream ++ more) t.client ∧ Closed s.tls t.tls more)
      (fun e t => ∃ more, E e (stream ++ more) t.client ∧ Exchanged s.tls t.tls more) s :=
  wp_wifiTlsReadLoop_along (P := fun _ _ _ => True)
    (fun index stream buffer fragment s hs _ => hcallback index stream buffer fragment s hs)
    hstop hblocked reads h (alongReads_true callback reads index stream buffer s.client)

-- Once a read fails `P`, the loop goes on under `J` instead.
theorem wp_wifiTlsReadLoop_not_along
    (hgood : ∀ index stream buffer fragment s, I index stream buffer s → P stream fragment.val s →
      StepsTo callback I (fun _ _ => True) (fun _ _ _ => True) index stream buffer fragment s)
    (hbad : ∀ index stream buffer fragment s, I index stream buffer s → ¬P stream fragment.val s →
      StepsTo callback J Q E index stream buffer fragment s)
    (hcallback : ∀ index stream buffer fragment s, J index stream buffer s →
      StepsTo callback J Q E index stream buffer fragment s)
    (hstop : ∀ index stream buffer s, J index stream buffer s → Q stream s)
    (hblocked : ∀ index stream buffer s, J index stream buffer s → E .blocked stream s)
    (reads : List ReadResult) {index : Nat} {stream buffer : Bytes} {s : Conn σ}
    (h : I index stream buffer s.client)
    (hreads : ¬AlongReads callback P reads index stream buffer s.client) :
    wp (wifiTlsReadLoop callback reads index buffer)
      (fun _ t => ∃ stream, Q stream t.client) (fun e t => ∃ stream, E e stream t.client) s := by
  induction reads generalizing index stream buffer s with
  | nil => exact absurd trivial hreads
  | cons read reads ih =>
      unfold wifiTlsReadLoop
      rw [wp_bind, wp_onTls, wp_tlsLog]
      cases read with
      | eof => exact absurd trivial hreads
      | error _ => exact absurd trivial hreads
      | wantRead => exact ih h hreads
      | wantWrite => exact ih h hreads
      | data fragment =>
          simp only [wp_bind, wp_onTls, wp_tlsLog, wp_onClient]
          by_cases hP : P stream fragment.val s.client
          · have hstep := hgood _ _ _ fragment _ h hP
            have hrest : ¬wp (callback index (store buffer 0 fragment.val) fragment.val.length)
                (fun continueReading t => continueReading = true → AlongReads callback P reads
                  (index + 1) (stream ++ fragment.val) (store buffer 0 fragment.val) t)
                (fun _ _ => True) s.client := fun hrest => hreads ⟨hP, hrest⟩
            unfold StepsTo at hstep
            unfold wp at hstep hrest ⊢
            cases hx : callback index (store buffer 0 fragment.val) fragment.val.length s.client with
            | error _ _ => simp [hx] at hrest
            | ok continueReading client =>
                simp only [hx, Classical.not_imp] at hstep hrest ⊢
                obtain ⟨rfl, hnot⟩ := hrest
                exact ih (hstep.1 rfl) hnot
          · apply wp_mono (hbad _ _ _ fragment _ h hP)
            · intro continueReading client hpost
              obtain ⟨hcontinue, hdone⟩ := hpost
              cases continueReading with
              | false => exact ⟨_, hdone rfl⟩
              | true =>
                  apply wp_mono (wp_wifiTlsReadLoop hcallback hstop hblocked reads _ _ _ (hcontinue rfl))
                  · intro _ t ht
                    obtain ⟨more, hstop, -⟩ := ht
                    exact ⟨_, hstop⟩
                  · intro e t ht
                    obtain ⟨more, herr, -⟩ := ht
                    exact ⟨_, herr⟩
            · intro e client herr
              exact ⟨_, herr⟩

end Loops

end Esp32Ota

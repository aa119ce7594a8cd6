import Esp32Ota.HttpsClient.Checked

-- Which reads keep the callback inside its buffers.
namespace Esp32Ota

open CLib Halting

section Scanned

variable {size : Nat} {received : Bytes}

-- The headers are complete, or reading ends before they are.
def HeaderDecided (size : Nat) (received : Bytes) : Prop :=
  size < received.length ∨ 0 ∈ received ∨ find crlfcrlf received ≠ none

-- The search ends behind each of the reads.
def HeadersScanned (size : Nat) : Bytes → List Bytes → Prop
  | _, [] => True
  | received, fragment :: fs =>
      ScanEnds size (received ++ fragment) ∧ HeadersScanned size (received ++ fragment) fs

instance decidableHeadersScanned (size : Nat) :
    (received : Bytes) → (fs : List Bytes) → Decidable (HeadersScanned size received fs)
  | _, [] => isTrue trivial
  | received, fragment :: fs =>
      have : Decidable (HeadersScanned size (received ++ fragment) fs) := decidableHeadersScanned size _ fs
      inferInstanceAs (Decidable (ScanEnds size (received ++ fragment) ∧
        HeadersScanned size (received ++ fragment) fs))

theorem HeaderDecided.append (h : HeaderDecided size received) (more : Bytes) :
    HeaderDecided size (received ++ more) := by
  rcases h with hover | hzero | hfound
  · left
    rw [List.length_append]
    omega
  · exact .inr (.inl (List.mem_append_left more hzero))
  · obtain ⟨i, hi⟩ := Option.ne_none_iff_exists'.mp hfound
    right
    right
    rw [find_append hi]
    exact Option.some_ne_none i

theorem HeaderDecided.scanEnds (h : HeaderDecided size received) : ScanEnds size received :=
  h.imp_left fun hover => Nat.ne_of_gt hover

theorem headersScanned_of_headerDecided (h : HeaderDecided size received) (fs : List Bytes) :
    HeadersScanned size received fs := by
  induction fs generalizing received with
  | nil => trivial
  | cons fragment fs ih => exact ⟨(h.append fragment).scanEnds, ih (h.append fragment)⟩

theorem headerDecided_of_found {i : Nat} (h : find crlfcrlf (cstr received) = some i) :
    HeaderDecided size received := by
  right
  by_cases hzero : 0 ∈ received
  · exact .inl hzero
  · right
    rw [cstr_of_notMem _ hzero] at h
    rw [h]
    exact Option.some_ne_none i

end Scanned

section Reads

variable {α : Type} {size index contentLength bodyBytes : Nat} {received content : Bytes} {s : Client α}

-- The client between two reads.
inductive Phase (size index : Nat) (received : Bytes) (s : Client α) : Prop
  | headers (hs : AwaitingHeaders received (s.atIndex index))
  | body (decided : HeaderDecided size received) (later : index ≠ 0) (contentLength bodyBytes : Nat)
      (content : Bytes) (hs : InBody contentLength bodyBytes content s)

theorem httpsProcessBody_inBody (request : ValidRequest α) (hs : InBody contentLength bodyBytes content s) :
    wp (httpsProcessBody request)
      (fun continueReading t => continueReading = true → ∃ content, InBody contentLength bodyBytes content t)
      (fun _ _ => True) s := by
  cases hmode : request.responseMode with
  | waitForCompleteBody =>
      rw [wp_httpsProcessBody_wait hmode hs]
      refine ⟨fun _ _ => ⟨content, hs⟩, fun _ => ?_⟩
      exact wp_of_forall (fun _ _ h => by cases h) (fun _ _ => trivial)
  | streamBody =>
      rw [wp_httpsProcessBody_stream hmode hs]
      refine ⟨fun _ _ => ⟨content, hs⟩, fun _ => ?_⟩
      refine wp_mono (invokeBodyCallback_called request _ s) (fun cr t ht => ?_) (fun _ _ _ => trivial)
      refine ⟨fun _ h => (by cases h), fun _ => ⟨fun _ => ?_, fun _ _ => ?_⟩⟩
      · exact wp_of_forall (fun _ _ h => by cases h) (fun _ _ => trivial)
      · exact ⟨[], (hs.congr ht.context ht.buffer).clear⟩

-- A read leaves the client between two reads, or reading ends with the headers decided.
def Proceeds (size index : Nat) (received : Bytes) : Bool → Client α → Prop
  | true, t => Phase size (index + 1) received t ∧ t.responseBuffer.length = size
  | false, _ => HeaderDecided size received

theorem httpsProcessBody_proceeds (request : ValidRequest α) (hdecided : HeaderDecided size received)
    (hs : InBody contentLength bodyBytes content s) (hsize : s.responseBuffer.length = size) :
    wp (httpsProcessBody request) (Proceeds size index received) (fun _ _ => HeaderDecided size received) s := by
  refine wp_mono (wp_and (httpsProcessBody_inBody request hs) (httpsProcessBody_buffer request s)) ?_
    (fun _ _ _ => hdecided)
  intro continueReading t ht
  cases continueReading with
  | false => exact hdecided
  | true =>
      obtain ⟨content, hcontent⟩ := ht.1 rfl
      exact ⟨.body hdecided (Nat.succ_ne_zero index) contentLength bodyBytes content hcontent, by rw [ht.2, hsize]⟩

theorem httpsTlsCallback_phase (request : ValidRequest α) (tls fragment : Bytes) (h : Phase size index received s)
    (hsize : s.responseBuffer.length = size) :
    wp (httpsTlsCallback request index (store tls 0 fragment) fragment.length)
      (Proceeds size index (received ++ fragment)) (fun _ _ => HeaderDecided size (received ++ fragment)) s := by
  cases h with
  | headers hs =>
      refine wp_httpsTlsCallback_headers hs (fun hfull => ?_) (fun _ t ht hst => ?_) ?_ ?_ ?_
      · have hdecided : HeaderDecided size (received ++ fragment) := by
          left
          rw [List.length_append]
          omega
        exact wp_of_forall (fun _ _ => hdecided) (fun _ _ => hdecided)
      · exact ⟨.headers (ht.later index), by rw [hst.bufferLen, hsize]⟩
      · intro _ i hfind _ t _ _
        have hdecided : HeaderDecided size (received ++ fragment) := headerDecided_of_found hfind
        exact ⟨fun _ _ _ => hdecided, fun _ _ _ _ => wp_of_forall (fun _ _ => hdecided) (fun _ _ => hdecided)⟩
      · intro _ i _ hfind _ _ _ _ _ _
        exact headerDecided_of_found hfind
      · intro _ i contentLength content hfind _ _ _ _ t ht hst _
        exact httpsProcessBody_proceeds request (headerDecided_of_found hfind) ht (by rw [hst.bufferLen, hsize])
  | body decided later contentLength bodyBytes content hs =>
      have hdecided := decided.append fragment
      refine wp_httpsTlsCallback_body hs later (fun _ => ?_) (fun _ t ht hst _ => ?_)
      · exact wp_of_forall (fun _ _ => hdecided) (fun _ _ => hdecided)
      · exact httpsProcessBody_proceeds request hdecided ht (by rw [hst.bufferLen, hsize])

end Reads

section Run

variable {α : Type} {size index : Nat} {received tls : Bytes} {request : ValidRequest (Watched α)}
  {s : Client (Watched α)}

theorem httpsTlsCallbackAt_eq (request : ValidRequest (Watched α)) {fragment : Bytes} (h : Phase size index received s)
    (hsize : s.responseBuffer.length = size) (htls : size ≤ tls.length) (hfragment : fragment.length ≤ tls.length)
    (hscan : ScanEnds size (received ++ fragment)) :
    httpsTlsCallbackAt request index (store tls 0 fragment) fragment.length s =
      httpsTlsCallback request index (store tls 0 fragment) fragment.length s := by
  cases h with
  | headers hs => exact httpsTlsCallbackAt_headers hs (by rwa [hsize]) hfragment (by rwa [hsize])
  | body _ later _ _ _ hs => exact httpsTlsCallbackAt_body hs later hfragment

-- Inside its buffers the client does what it does without a look at the accesses.
theorem feedAt_eq (fs : List Bytes) (h : Phase size index received s) (hsize : s.responseBuffer.length = size)
    (htls : size ≤ tls.length) (hfs : ∀ fragment ∈ fs, fragment.length ≤ tls.length)
    (hscan : HeadersScanned size received fs) :
    feed (httpsTlsCallbackAt request) fs index tls s = feed (httpsTlsCallback request) fs index tls s := by
  induction fs generalizing index received tls s with
  | nil => rfl
  | cons fragment fs ih =>
      obtain ⟨hscan, hrest⟩ := hscan
      have hfragment := hfs fragment List.mem_cons_self
      have hstored : (store tls 0 fragment).length = tls.length := length_store _ _ _ (by omega)
      refine bind_congr_runs (httpsTlsCallbackAt_eq request h hsize htls hfragment hscan) fun continueReading t ht => ?_
      cases continueReading with
      | false => rfl
      | true =>
          obtain ⟨hphase, hlen⟩ := wp_ok (httpsTlsCallback_phase request tls fragment h hsize) ht
          exact ih hphase hlen (by rwa [hstored])
            (fun f hf => by rw [hstored]; exact hfs f (List.mem_cons_of_mem _ hf)) hrest

theorem feedAt_runs_off (request : ValidRequest (Watched α)) (fs : List Bytes) (h : Phase size index received s)
    (hsize : s.responseBuffer.length = size) (htls : size ≤ tls.length)
    (hfs : ∀ fragment ∈ fs, fragment.length ≤ tls.length) (hscan : ¬HeadersScanned size received fs) :
    ∃ t, feed (httpsTlsCallbackAt request) fs index tls s = .error .undefined t ∧ t.app.outOfRange = true := by
  induction fs generalizing index received tls s with
  | nil => exact absurd trivial hscan
  | cons fragment fs ih =>
      have hfragment := hfs fragment List.mem_cons_self
      have hstored : (store tls 0 fragment).length = tls.length := length_store _ _ _ (by omega)
      by_cases hends : ScanEnds size (received ++ fragment)
      · have hrest : ¬HeadersScanned size (received ++ fragment) fs := fun hrest => hscan ⟨hends, hrest⟩
        have hundecided : ¬HeaderDecided size (received ++ fragment) := fun hdecided =>
          hrest (headersScanned_of_headerDecided hdecided fs)
        have hstep := httpsTlsCallbackAt_eq request h hsize htls hfragment hends
        have hphase := httpsTlsCallback_phase request tls fragment h hsize
        cases hrun : httpsTlsCallback request index (store tls 0 fragment) fragment.length s with
        | ok continueReading t =>
            rw [hrun] at hstep
            cases continueReading with
            | false => exact absurd (wp_ok hphase hrun) hundecided
            | true =>
                obtain ⟨hnext, hlen⟩ := wp_ok hphase hrun
                rw [feed_cons_true hstep]
                exact ih hnext hlen (by rwa [hstored])
                  (fun f hf => by rw [hstored]; exact hfs f (List.mem_cons_of_mem _ hf)) hrest
        | error e t => exact absurd (wp_error hphase hrun) hundecided
      · cases h with
        | headers hs =>
            obtain ⟨t, ht, hflag⟩ := httpsTlsCallbackAt_runs_off hs hfragment (by rwa [hsize])
            exact ⟨t, feed_cons_error ht, hflag⟩
        | body decided _ _ _ _ _ => exact absurd (decided.append fragment).scanEnds hends

end Run

end Esp32Ota

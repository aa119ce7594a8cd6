import Esp32Ota.HttpsClient.KeyValue
import Esp32Ota.HttpsClient.Protocol
import Esp32Ota.Lib.Watched

-- `https_tls_callback` with every access to its buffers.
namespace Esp32Ota

open CLib Halting

-- `sscanf(text, "HTTP/%d.%d %d ", ...)`
def scanStatusLineAt (text : CharPtr) : Access (Option (Int × Int × Int)) := do
  if !(← CharPtr.startsWith (ascii "HTTP/") text) then
    return none
  match ← CharPtr.strtol (text.drop 5) with
  | none => return none
  | some (httpVersionMajor, rest) =>
    if (← CharPtr.load rest) ≠ 46 then
      return none
    match ← CharPtr.strtol (rest.drop 1) with
    | none => return none
    | some (httpVersionMinor, rest) =>
      match ← CharPtr.strtol rest with
      | none => return none
      | some (httpStatusCode, rest) =>
        let _ ← CharPtr.span isSpace rest
        return some (httpVersionMajor, httpVersionMinor, httpStatusCode)

section Callback

variable {α : Type}

def accessBuffer {β : Type} (x : Access β) : ClientM (Watched α) β := onApp (access x)

def httpsProcessHeadersAt (request : ValidRequest (Watched α)) (tlsBuffer : Bytes) :
    ClientM (Watched α) (Option Bool) := do
  let s ← get
  match ← accessBuffer (CharPtr.strstr crlfcrlf s.responseBuffer) with
  | none => return some true
  | some endOfHeader =>
    let nofHeaderBytes := endOfHeader + 4
    let headers ← accessBuffer (storeByte s.responseBuffer endOfHeader 0)
    set { s with responseBuffer := headers }
    match ← accessBuffer (scanStatusLineAt headers) with
    | none =>
      invokeErrorCallback request .invalidStatusLine 0
      return some false
    | some (httpVersionMajor, _, httpStatusCode) =>
      if httpVersionMajor ≠ 1 then
        invokeErrorCallback request .versionNotSupported 0
        return some false
      if httpStatusCode ≠ 200 then
        invokeErrorCallback request .non200StatusCode httpStatusCode
        return some false
      match ← accessBuffer (httpParseKeyValueIntAt headers (ascii "Content-Length:")) with
      | none => return some false
      | some contentLength =>
        let count ← accessBuffer (subtract s.context.responseBufferCount nofHeaderBytes)
        let copied ← if count > 0 then accessBuffer (copyBytes headers 0 tlsBuffer nofHeaderBytes count)
          else pure headers
        let terminated ← accessBuffer (storeByte copied count 0)
        set { s with
          responseBuffer := terminated
          context := {
            responseBufferCount := count
            responseBodyTotalCount := sizeT count
            contentLength := toSize contentLength
            isProcessingHeaders := false } }
        return none

def httpsTlsCallbackAt (request : ValidRequest (Watched α)) (index : Nat) (tlsBuffer : Bytes) (len : Nat) :
    ClientM (Watched α) Bool := do
  if index = 0 then
    modify Client.reset
  let s ← get
  if s.context.responseBufferCount + len > s.responseBuffer.length then
    invokeErrorCallback request .bufferTooSmall 0
    return false
  let responseBuffer ← accessBuffer (copyBytes s.responseBuffer s.context.responseBufferCount tlsBuffer 0 len)
  set { s with
    responseBuffer
    context := { s.context with
      responseBufferCount := s.context.responseBufferCount + len
      responseBodyTotalCount := sizeT (s.context.responseBodyTotalCount + len) } }
  if s.context.isProcessingHeaders then
    match ← httpsProcessHeadersAt request tlsBuffer with
    | some continueReading => return continueReading
    | none => httpsProcessBody request
  else
    httpsProcessBody request

end Callback

section Terminated

theorem startsWith_of_nul {needle : Bytes} (hneedle : 0 ∉ needle) {p : CharPtr} (h : 0 ∈ p) :
    CharPtr.startsWith needle p = .ok (needle.isPrefixOf (cstr p)) := by
  by_cases hprefix : needle <+: p
  · rw [CharPtr.startsWith_of_leads hprefix,
      List.isPrefixOf_iff_prefix.mpr ((CharPtr.prefix_cstr_iff hneedle p).mpr hprefix)]
  · have hend : ¬p <+: needle := fun hend => hneedle (hend.subset h)
    have hnot : needle.isPrefixOf (cstr p) = false := by
      rw [← Bool.not_eq_true, List.isPrefixOf_iff_prefix, CharPtr.prefix_cstr_iff hneedle]
      exact hprefix
    rw [CharPtr.startsWith_of_differs hprefix hend, hnot]

theorem strtolAt_append_nul (text rest : Bytes) : CharPtr.strtol (text ++ 0 :: rest) =
    .ok ((strtol text).map fun number => (number.1, number.2 ++ 0 :: rest)) := by
  rw [CharPtr.strtol_of_ends (CharPtr.numberEnds_append_nul text rest), CharPtr.strtol_append_nul]

-- On a string the scan ends inside of it.
theorem scanStatusLineAt_eq {text : CharPtr} (h : 0 ∈ text) :
    scanStatusLineAt text = .ok (scanStatusLine (cstr text)) := by
  obtain ⟨more, hmore⟩ := eq_cstr_append h
  rw [scanStatusLineAt, startsWith_of_nul (by decide) h, scanStatusLine]
  generalize cstr text = line at hmore
  subst hmore
  simp only [bind, Except.bind]
  cases hprefix : (ascii "HTTP/").isPrefixOf line with
  | false => rfl
  | true =>
      have hlen : 5 ≤ line.length := (List.isPrefixOf_iff_prefix.mp hprefix).length_le
      rw [List.drop_append_of_le_length hlen, strtolAt_append_nul]
      cases strtol (line.drop 5) with
      | none => rfl
      | some major =>
          obtain ⟨httpVersionMajor, rest⟩ := major
          cases rest with
          | nil => rfl
          | cons b rest =>
              by_cases hdot : b = 46
              · subst hdot
                simp only [Option.map_some, List.cons_append, CharPtr.load, pure, Except.pure, ne_eq,
                  not_true_eq_false, ite_false, List.drop_succ_cons, List.drop_zero, strtolAt_append_nul]
                cases strtol rest with
                | none => rfl
                | some minor =>
                    obtain ⟨httpVersionMinor, rest⟩ := minor
                    simp only [Option.map_some, strtolAt_append_nul]
                    cases strtol rest with
                    | none => rfl
                    | some status =>
                        obtain ⟨httpStatusCode, rest⟩ := status
                        have hends : (rest ++ 0 :: more).dropWhile isSpace ≠ [] := by
                          rw [CharPtr.dropWhile_append_nul rfl]
                          simp
                        simp only [Option.map_some, CharPtr.span_of_ends hends]
                        rfl
              · simp [CharPtr.load, hdot, pure, Except.pure]

end Terminated

section Headers

variable {α : Type} {request : ValidRequest (Watched α)} {tlsBuffer received fragment : Bytes} {spare : Nat}
  {s : Client (Watched α)}

theorem accessBuffer_ok {β : Type} (b : β) : accessBuffer (α := α) (.ok b) = pure b := rfl

-- Where the search for the end of the headers stays inside the buffer, so does all the rest.
theorem httpsProcessHeadersAt_eq (hcount : s.context.responseBufferCount = received.length)
    (hbuffer : s.responseBuffer = received ++ List.replicate spare 0) (htls : received.length ≤ tlsBuffer.length)
    (hscan : 0 ∈ s.responseBuffer ∨ find crlfcrlf s.responseBuffer ≠ none) :
    httpsProcessHeadersAt request tlsBuffer s = httpsProcessHeaders request tlsBuffer s := by
  unfold httpsProcessHeadersAt httpsProcessHeaders
  refine bind_congr_runs rfl fun _ _ hget => ?_
  cases hget
  rw [CharPtr.strstr_of_found (by decide) (fun _ => by decide) hscan, accessBuffer_ok, pure_bind]
  cases hfind : strstr s.responseBuffer crlfcrlf with
  | none => rfl
  | some endOfHeader =>
      have hbound := find_bound hfind
      have hreceived : (cstr s.responseBuffer).length ≤ received.length := by
        rw [hbuffer, cstr_append_zeros]
        exact (cstr_isPrefix received).length_le
      rw [length_crlfcrlf] at hbound
      have hsize : received.length ≤ s.responseBuffer.length := by
        rw [hbuffer, List.length_append]
        exact Nat.le_add_right _ _
      have hlen : (store s.responseBuffer endOfHeader [0]).length = s.responseBuffer.length :=
        length_store _ _ _ (by simp only [List.length_singleton]; omega)
      have hnul : 0 ∈ store s.responseBuffer endOfHeader [0] := by
        simp [store]
      have hlength : httpParseKeyValueIntAt (store s.responseBuffer endOfHeader [0]) (ascii "Content-Length:") =
          .ok (httpParseKeyValueInt (store s.responseBuffer endOfHeader [0]) (ascii "Content-Length:")) :=
        httpParseKeyValueIntAt_eq (.inl hnul) (by decide) (by decide)
      simp only [storeByte_of_lt (show endOfHeader < s.responseBuffer.length by omega), accessBuffer_ok, pure_bind,
        scanStatusLineAt_eq hnul, hlength]
      refine bind_congr_runs rfl fun _ t _ => ?_
      cases scanStatusLine (cstr (store s.responseBuffer endOfHeader [0])) with
      | none => rfl
      | some status =>
          obtain ⟨httpVersionMajor, httpVersionMinor, httpStatusCode⟩ := status
          by_cases hversion : httpVersionMajor ≠ 1
          · simp only [hversion, ne_eq, not_false_eq_true, ite_true]
          by_cases hstatus : httpStatusCode ≠ 200
          · simp only [hversion, hstatus, ne_eq, not_false_eq_true, ite_true, ite_false]
          simp only [hversion, hstatus, ite_false]
          cases httpParseKeyValueInt (store s.responseBuffer endOfHeader [0]) (ascii "Content-Length:") with
          | none => rfl
          | some contentLength =>
              have hdefined : ¬(received.length - (endOfHeader + 4) > 0 ∧
                  endOfHeader + 4 + (received.length - (endOfHeader + 4)) > tlsBuffer.length) := by omega
              dsimp only
              rw [hcount, subtract_of_le (by omega), accessBuffer_ok, pure_bind, if_neg hdefined]
              generalize hn : received.length - (endOfHeader + 4) = count
              have hcopied : ∀ bytes : Bytes, bytes.length ≤ count →
                  (store (store s.responseBuffer endOfHeader [0]) 0 bytes).length = s.responseBuffer.length := by
                intro bytes hbytes
                rw [length_store _ _ _ (by omega), hlen]
              have hbytes : ((tlsBuffer.drop (endOfHeader + 4)).take count).length ≤ count := List.length_take_le _ _
              by_cases hpos : count > 0
              · rw [if_pos hpos, copyBytes_of_le (by omega) (by omega), accessBuffer_ok, pure_bind,
                  storeByte_of_lt (by rw [hcopied _ hbytes]; omega), accessBuffer_ok, pure_bind]
              · obtain rfl : count = 0 := by omega
                rw [if_neg hpos, storeByte_of_lt (by rw [hlen]; omega), accessBuffer_ok, pure_bind, List.take_zero,
                  store_nil]

end Headers

section Reads

variable {α : Type} {request : ValidRequest (Watched α)} {tls received fragment content : Bytes}
  {index contentLength bodyBytes : Nat} {s : Client (Watched α)}

-- The search for the end of the headers meets it, or a NUL.
def ScanEnds (size : Nat) (received : Bytes) : Prop :=
  received.length ≠ size ∨ 0 ∈ received ∨ find crlfcrlf received ≠ none

instance (size : Nat) (received : Bytes) : Decidable (ScanEnds size received) :=
  inferInstanceAs (Decidable (received.length ≠ size ∨ 0 ∈ received ∨ find crlfcrlf received ≠ none))

theorem httpsTlsCallbackAt_start (index : Nat) (len : Nat) : httpsTlsCallbackAt request index tls len s =
    httpsTlsCallbackAt request 1 tls len (s.atIndex index) := by
  by_cases h : index = 0
  · simp only [httpsTlsCallbackAt, Client.atIndex, h, ite_true, Nat.one_ne_zero, ite_false]
    rfl
  · simp only [httpsTlsCallbackAt, Client.atIndex, h, ite_false, Nat.one_ne_zero]

-- The state with the fragment in the response buffer.
def Client.copied (tlsBuffer : Bytes) (len : Nat) (s : Client α) : Client α :=
  { s with
    responseBuffer := store s.responseBuffer s.context.responseBufferCount (tlsBuffer.take len)
    context := { s.context with
      responseBufferCount := s.context.responseBufferCount + len
      responseBodyTotalCount := sizeT (s.context.responseBodyTotalCount + len) } }

def httpsAnswer (request : ValidRequest (Watched α)) : Option Bool → ClientM (Watched α) Bool
  | some continueReading => pure continueReading
  | none => httpsProcessBody request

theorem httpsTlsCallback_copies {len : Nat} (hfits : s.context.responseBufferCount + len ≤ s.responseBuffer.length) :
    httpsTlsCallback request 1 tls len s =
      (if s.context.isProcessingHeaders then httpsProcessHeaders request tls >>= httpsAnswer request
        else httpsProcessBody request) (s.copied tls len) := by
  have hover : ¬s.context.responseBufferCount + len > s.responseBuffer.length := by omega
  simp only [httpsTlsCallback, Nat.one_ne_zero, ite_false]
  change (ite _ _ _ : ClientM (Watched α) Bool) s = _
  rw [if_neg hover]
  change (ite _ _ _ : ClientM (Watched α) Bool) (s.copied tls len) = _
  cases s.context.isProcessingHeaders with
  | false => rfl
  | true => exact bind_congr_runs rfl fun answer _ _ => by cases answer <;> rfl

theorem httpsTlsCallbackAt_copies {len : Nat} (hlen : len ≤ tls.length)
    (hfits : s.context.responseBufferCount + len ≤ s.responseBuffer.length) :
    httpsTlsCallbackAt request 1 tls len s =
      (if s.context.isProcessingHeaders then httpsProcessHeadersAt request tls >>= httpsAnswer request
        else httpsProcessBody request) (s.copied tls len) := by
  have hover : ¬s.context.responseBufferCount + len > s.responseBuffer.length := by omega
  simp only [httpsTlsCallbackAt, Nat.one_ne_zero, ite_false]
  change (ite _ _ _ : ClientM (Watched α) Bool) s = _
  rw [if_neg hover, copyBytes_of_le hfits (by omega), accessBuffer_ok, pure_bind, List.drop_zero]
  change (ite _ _ _ : ClientM (Watched α) Bool) (s.copied tls len) = _
  cases s.context.isProcessingHeaders with
  | false => rfl
  | true => exact bind_congr_runs rfl fun answer _ _ => by cases answer <;> rfl

theorem httpsTlsCallbackAt_overflow {len : Nat}
    (hover : s.responseBuffer.length < s.context.responseBufferCount + len) :
    httpsTlsCallbackAt request 1 tls len s = httpsTlsCallback request 1 tls len s := by
  simp only [httpsTlsCallbackAt, httpsTlsCallback, Nat.one_ne_zero, ite_false]
  change (ite _ _ _ : ClientM (Watched α) Bool) s = (ite _ _ _ : ClientM (Watched α) Bool) s
  rw [if_pos hover, if_pos hover]

theorem buffer_copied (hs : AwaitingHeaders received s) :
    (s.copied (store tls 0 fragment) fragment.length).responseBuffer =
      received ++ fragment ++ List.replicate (s.responseBuffer.length - (received ++ fragment).length) 0 := by
  obtain ⟨spare, hbuffer⟩ := hs.buffer
  have hspare : s.responseBuffer.length - (received ++ fragment).length = spare - fragment.length := by
    rw [hbuffer, List.length_append, List.length_append, List.length_replicate]
    omega
  have htake : (store tls 0 fragment).take fragment.length = fragment := by
    rw [store_zero, List.take_left]
  rw [hspare, Client.copied]
  simp only [hs.count, htake]
  rw [hbuffer, store_append, List.drop_replicate]

-- Where the search ends, the callback does what it does without a look at the accesses.
theorem httpsTlsCallbackAt_headers (hs : AwaitingHeaders received (s.atIndex index))
    (htls : s.responseBuffer.length ≤ tls.length) (hfragment : fragment.length ≤ tls.length)
    (hscan : ScanEnds s.responseBuffer.length (received ++ fragment)) :
    httpsTlsCallbackAt request index (store tls 0 fragment) fragment.length s =
      httpsTlsCallback request index (store tls 0 fragment) fragment.length s := by
  rw [httpsTlsCallback_start, httpsTlsCallbackAt_start]
  rw [← (atIndex_same index s).bufferLen] at htls hscan
  generalize s.atIndex index = u at hs htls hscan
  have hstored : (store tls 0 fragment).length = tls.length := length_store _ _ _ (by omega)
  have hcount := hs.count
  rcases Nat.lt_or_ge u.responseBuffer.length (u.context.responseBufferCount + fragment.length) with hover | hfits
  · exact httpsTlsCallbackAt_overflow hover
  rw [httpsTlsCallback_copies hfits, httpsTlsCallbackAt_copies (by omega) hfits, hs.processing, if_pos rfl, if_pos rfl]
  have hbuffer := @buffer_copied _ tls _ fragment _ hs
  refine bind_congr_runs (httpsProcessHeadersAt_eq ?_ hbuffer ?_ ?_) fun _ _ _ => rfl
  · rw [Client.copied, List.length_append, hcount]
  · rw [hstored, List.length_append]
    omega
  · rw [hbuffer]
    rcases hscan with hlen | hzero | hfound
    · left
      rw [List.length_append] at hlen ⊢
      have hpos : u.responseBuffer.length - (received.length + fragment.length) ≠ 0 := by omega
      simp [hpos]
    · exact .inl (List.mem_append_left _ hzero)
    · obtain ⟨i, hi⟩ := Option.ne_none_iff_exists'.mp hfound
      right
      rw [find_append hi]
      exact Option.some_ne_none i

-- Otherwise it leaves the buffer.
theorem httpsTlsCallbackAt_runs_off (hs : AwaitingHeaders received (s.atIndex index))
    (hfragment : fragment.length ≤ tls.length) (hscan : ¬ScanEnds s.responseBuffer.length (received ++ fragment)) :
    ∃ t, httpsTlsCallbackAt request index (store tls 0 fragment) fragment.length s = .error .undefined t ∧
      t.app.outOfRange = true := by
  rw [httpsTlsCallbackAt_start]
  rw [← (atIndex_same index s).bufferLen] at hscan
  generalize s.atIndex index = u at hs hscan
  simp only [ScanEnds, not_or, ne_eq, not_not] at hscan
  obtain ⟨hfull, hzero, hnone⟩ := hscan
  rw [List.length_append] at hfull
  have hstored : (store tls 0 fragment).length = tls.length := length_store _ _ _ (by omega)
  have hcount := hs.count
  have hbuffer := @buffer_copied _ tls _ fragment _ hs
  rw [List.length_append, hfull, Nat.sub_self, List.replicate_zero, List.append_nil] at hbuffer
  rw [httpsTlsCallbackAt_copies (by omega) (by omega), hs.processing, if_pos rfl]
  have hstrstr : CharPtr.strstr crlfcrlf (u.copied (store tls 0 fragment) fragment.length).responseBuffer =
      .error .undefined := by
    rw [hbuffer]
    exact CharPtr.strstr_of_not_found (by decide) hzero hnone
  generalize u.copied (store tls 0 fragment) fragment.length = v at hstrstr
  refine ⟨{ v with app := { v.app with outOfRange := true } }, ?_, rfl⟩
  have hheaders : httpsProcessHeadersAt request (store tls 0 fragment) v =
      .error .undefined { v with app := { v.app with outOfRange := true } } := by
    unfold httpsProcessHeadersAt
    change (accessBuffer _ >>= _) v = _
    rw [hstrstr]
    rfl
  simp only [bind, EStateM.bind, hheaders]

-- A read of body bytes stays inside the buffers in any case.
theorem httpsTlsCallbackAt_body (hs : InBody contentLength bodyBytes content s) (hindex : index ≠ 0)
    (hfragment : fragment.length ≤ tls.length) :
    httpsTlsCallbackAt request index (store tls 0 fragment) fragment.length s =
      httpsTlsCallback request index (store tls 0 fragment) fragment.length s := by
  rw [httpsTlsCallback_start, httpsTlsCallbackAt_start, Client.atIndex, if_neg hindex]
  have hstored : (store tls 0 fragment).length = tls.length := length_store _ _ _ (by omega)
  rcases Nat.lt_or_ge s.responseBuffer.length (s.context.responseBufferCount + fragment.length) with hover | hfits
  · exact httpsTlsCallbackAt_overflow hover
  · rw [httpsTlsCallback_copies hfits, httpsTlsCallbackAt_copies (by omega) hfits, hs.accepted]
    rfl

end Reads

end Esp32Ota

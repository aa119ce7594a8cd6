import Esp32Ota.HttpsClient

-- What `https_tls_callback` has received so far, and what one more read does.
namespace Esp32Ota

open CLib Halting

section Strings

@[simp] theorem length_crlfcrlf : crlfcrlf.length = 4 := by decide

theorem cstr_append_zeros (text : Bytes) (n : Nat) : cstr (text ++ List.replicate n 0) = cstr text := by
  induction text with
  | nil => simp [cstr]
  | cons b rest ih =>
      unfold cstr at ih ⊢
      rw [List.cons_append, List.takeWhile_cons, List.takeWhile_cons, ih]

@[simp] theorem cstr_cstr (buffer : Bytes) : cstr (cstr buffer) = cstr buffer :=
  cstr_of_notMem _ (zero_notMem_cstr buffer)

-- The search never looks behind the first NUL.
theorem httpParseKeyValueInt_cstr (buffer key : Bytes) :
    httpParseKeyValueInt buffer key = httpParseKeyValueInt (cstr buffer) key := by
  simp only [httpParseKeyValueInt, strstr, cstr_cstr]

-- The text before the end of the headers has no NUL, so cutting it off there
-- leaves exactly that text.
theorem cstr_cut {received : Bytes} {i n : Nat} (h : find crlfcrlf (cstr received) = some i) :
    cstr (store (received ++ List.replicate n 0) i [0]) = received.take i := by
  have hbound := find_bound h
  have hle : i ≤ (cstr received).length := by omega
  have htake : received.take i = (cstr received).take i := by
    obtain ⟨rest, hrest⟩ := cstr_isPrefix received
    conv_lhs => rw [← hrest]
    rw [List.take_append_of_le_length hle]
  have hlen : i ≤ received.length := hle.trans (cstr_isPrefix received).length_le
  have hzero : (0 : UInt8) ∉ received.take i := by
    rw [htake]
    exact fun hmem => zero_notMem_cstr received (List.mem_of_mem_take hmem)
  rw [store, List.take_append_of_le_length hlen, List.append_assoc, cstr_append _ _ hzero]
  simp

end Strings

section Callbacks

variable {α β : Type} (request : ValidRequest α)

@[simp] theorem wp_onApp (x : EStateM Halt α β) (Q : β → Client α → Prop)
    (E : Halt → Client α → Prop) (s : Client α) :
    wp (onApp x) Q E s ↔
      wp x (fun b app => Q b { s with app }) (fun e app => E e { s with app }) s.app := by
  simp only [onApp, wp_zoom]

theorem wp_invokeErrorCallback (error : HttpErr) (info : Int) (Q : Unit → Client α → Prop)
    (E : Halt → Client α → Prop) (s : Client α) :
    wp (invokeErrorCallback request error info) Q E s ↔
      wp (request.errorCallback error info)
        (fun b app => Q b { s with events := .error error info :: s.events, app })
        (fun e app => E e { s with events := .error error info :: s.events, app }) s.app := by
  simp only [invokeErrorCallback, wp_bind, wp_modify, wp_onApp]

theorem wp_invokeBodyCallback (n : Nat) (Q : HttpContinueReceiving → Client α → Prop)
    (E : Halt → Client α → Prop) (s : Client α) :
    wp (invokeBodyCallback request n) Q E s ↔
      wp (request.bodyCallback s.responseBuffer n)
        (fun b app => Q b { s with events := .body s.responseBuffer n :: s.events, app })
        (fun e app => E e { s with events := .body s.responseBuffer n :: s.events, app }) s.app := by
  simp only [invokeBodyCallback, wp_bind, wp_get, wp_set, wp_onApp]

-- What the application does is up to it; the request only records the call.
structure Called (event : HttpEvent) (s t : Client α) : Prop where
  context : t.context = s.context
  buffer : t.responseBuffer = s.responseBuffer
  events : t.events = event :: s.events

theorem invokeErrorCallback_called (error : HttpErr) (info : Int) (s : Client α) :
    wp (invokeErrorCallback request error info) (fun _ t => Called (.error error info) s t)
      (fun _ t => Called (.error error info) s t) s := by
  rw [wp_invokeErrorCallback]
  exact wp_of_forall (fun _ _ => ⟨rfl, rfl, rfl⟩) (fun _ _ => ⟨rfl, rfl, rfl⟩)

theorem invokeBodyCallback_called (n : Nat) (s : Client α) :
    wp (invokeBodyCallback request n) (fun _ t => Called (.body s.responseBuffer n) s t)
      (fun _ t => Called (.body s.responseBuffer n) s t) s := by
  rw [wp_invokeBodyCallback]
  exact wp_of_forall (fun _ _ => ⟨rfl, rfl, rfl⟩) (fun _ _ => ⟨rfl, rfl, rfl⟩)

-- The rules for what holds after a callback, whether it returns or not.
theorem wp_error_of_called {request : ValidRequest α} {error : HttpErr} {info : Int} {s : Client α}
    {P : Client α → Prop} (h : ∀ t, Called (.error error info) s t → P t) :
    wp (invokeErrorCallback request error info) (fun _ => P) (fun _ => P) s :=
  wp_mono (invokeErrorCallback_called request error info s) (fun _ t ht => h t ht) (fun _ t ht => h t ht)

theorem wp_body_of_called {request : ValidRequest α} {n : Nat} {s : Client α} {P : Client α → Prop}
    (h : ∀ t, Called (.body s.responseBuffer n) s t → P t) :
    wp (invokeBodyCallback request n) (fun _ => P) (fun _ => P) s :=
  wp_mono (invokeBodyCallback_called request n s) (fun _ t ht => h t ht) (fun _ t ht => h t ht)

end Callbacks

section Progress

variable {α : Type}

-- The headers are not complete yet; the buffer holds all that was received.
structure AwaitingHeaders (received : Bytes) (s : Client α) : Prop where
  processing : s.context.isProcessingHeaders = true
  count : s.context.responseBufferCount = received.length
  buffer : ∃ spare, s.responseBuffer = received ++ List.replicate spare 0
  pending : find crlfcrlf (cstr received) = none

-- The headers have been accepted, `received` bytes of the body have arrived,
-- and `content` is what the buffer holds of them for the next callback.
structure InBody (contentLength received : Nat) (content : Bytes) (s : Client α) : Prop where
  accepted : s.context.isProcessingHeaders = false
  length : s.context.contentLength = contentLength
  total : s.context.responseBodyTotalCount = sizeT received
  count : s.context.responseBufferCount = content.length
  buffer : content <+: s.responseBuffer

-- The content length of the headers that `https_tls_callback` accepts.
def acceptedLength (headers : Bytes) : Option Nat :=
  match scanStatusLine headers with
  | some (httpVersionMajor, _, httpStatusCode) =>
    if httpVersionMajor = 1 ∧ httpStatusCode = 200 then
      (httpParseKeyValueInt headers (ascii "Content-Length:")).map toSize
    else none
  | none => none

-- The response buffer behind accepted headers: the first bytes of the body, their
-- terminator, and what these leave of the headers.
def bodyBuffer (buffer : Bytes) (endOfHeader : Nat) (content : Bytes) : Bytes :=
  store (store (store buffer endOfHeader [0]) 0 content) content.length [0]

theorem InBody.congr {contentLength received : Nat} {content : Bytes} {s t : Client α}
    (h : InBody contentLength received content s) (hcontext : t.context = s.context)
    (hbuffer : t.responseBuffer = s.responseBuffer) : InBody contentLength received content t := by
  refine ⟨?_, ?_, ?_, ?_, ?_⟩
  · rw [hcontext, h.accepted]
  · rw [hcontext, h.length]
  · rw [hcontext, h.total]
  · rw [hcontext, h.count]
  · rw [hbuffer]
    exact h.buffer

-- Delivered content is not kept.
theorem InBody.clear {contentLength received : Nat} {content : Bytes} {s : Client α}
    (h : InBody contentLength received content s) :
    InBody contentLength received [] { s with context.responseBufferCount := 0 } :=
  ⟨h.accepted, h.length, h.total, rfl, List.nil_prefix⟩

-- Nothing but the context and the buffer has changed.
structure SameClient (s t : Client α) : Prop where
  events : t.events = s.events
  app : t.app = s.app
  bufferLen : t.responseBuffer.length = s.responseBuffer.length

theorem SameClient.refl (s : Client α) : SameClient s s := ⟨rfl, rfl, rfl⟩

theorem SameClient.trans {s t u : Client α} (hst : SameClient s t) (htu : SameClient t u) :
    SameClient s u :=
  ⟨htu.events.trans hst.events, htu.app.trans hst.app, htu.bufferLen.trans hst.bufferLen⟩

theorem reset_same (s : Client α) : SameClient s s.reset := ⟨rfl, rfl, by simp [Client.reset]⟩

theorem reset_awaiting (s : Client α) : AwaitingHeaders [] s.reset :=
  ⟨rfl, rfl, ⟨s.responseBuffer.length, rfl⟩, by simp [cstr, find, crlfcrlf, ascii]⟩

theorem prefix_store (bytes : Bytes) {content buffer : Bytes} (h : content <+: buffer)
    (hfits : content.length + bytes.length ≤ buffer.length) :
    content ++ bytes <+: store buffer content.length bytes ∧
      (store buffer content.length bytes).length = buffer.length := by
  refine ⟨?_, length_store buffer content.length bytes hfits⟩
  obtain ⟨spare, rfl⟩ := h
  rw [store_append]
  exact List.prefix_append _ _

variable {request : ValidRequest α} {tlsBuffer received : Bytes} {spare : Nat} {s : Client α}
  {Q : Option Bool → Client α → Prop} {E : Halt → Client α → Prop}

theorem wp_httpsProcessHeaders (hcount : s.context.responseBufferCount = received.length)
    (hbuffer : s.responseBuffer = received ++ List.replicate spare 0)
    (hpending : find crlfcrlf (cstr received) = none → Q (some true) s)
    (hrejected : ∀ i, find crlfcrlf (cstr received) = some i → acceptedLength (received.take i) = none →
      ∀ t, SameClient s t → t.context = s.context →
      (∀ minor, scanStatusLine (received.take i) = some (1, minor, 200) →
        httpParseKeyValueInt (received.take i) (ascii "Content-Length:") = none → Q (some false) t) ∧
      ∀ error info, error ≠ .bufferTooSmall →
        (∀ minor, scanStatusLine (received.take i) ≠ some (1, minor, 200)) →
        wp (invokeErrorCallback request error info) (fun _ => Q (some false)) E t)
    (hundefined : ∀ i contentLength, find crlfcrlf (cstr received) = some i → i + 4 < received.length →
      tlsBuffer.length < received.length → acceptedLength (received.take i) = some contentLength →
      ∀ t, SameClient s t → t.context = s.context → E .undefined t)
    (haccepted : ∀ i contentLength content, find crlfcrlf (cstr received) = some i →
      i + 4 ≤ received.length → acceptedLength (received.take i) = some contentLength →
      content = (tlsBuffer.drop (i + 4)).take (received.length - (i + 4)) →
      content.length = received.length - (i + 4) →
      ∀ t, InBody contentLength (received.length - (i + 4)) content t → SameClient s t →
      t.responseBuffer = bodyBuffer (received ++ List.replicate spare 0) i content → Q none t) :
    wp (httpsProcessHeaders request tlsBuffer) Q E s := by
  have hstr : strstr s.responseBuffer crlfcrlf = find crlfcrlf (cstr received) := by
    rw [strstr, hbuffer, cstr_append_zeros]
  simp only [httpsProcessHeaders, wp_bind, wp_get, hstr]
  cases hfind : find crlfcrlf (cstr received) with
  | none => exact hpending hfind
  | some i =>
      have hbound := find_bound hfind
      have hlen := (cstr_isPrefix received).length_le
      rw [length_crlfcrlf] at hbound
      have hcut : cstr (store s.responseBuffer i [0]) = received.take i := by
        rw [hbuffer]
        exact cstr_cut hfind
      have hsize : s.responseBuffer.length = received.length + spare := by simp [hbuffer]
      have hheaders : (store s.responseBuffer i [0]).length = s.responseBuffer.length :=
        length_store _ _ _ (by simp only [List.length_singleton]; omega)
      have hsame : SameClient s { s with responseBuffer := store s.responseBuffer i [0] } :=
        ⟨rfl, rfl, hheaders⟩
      have hreject := fun haccept => hrejected i hfind haccept _ hsame rfl
      simp only [wp_bind, wp_set, hcut]
      cases hscan : scanStatusLine (received.take i) with
      | none =>
          simp only [wp_bind, wp_pure]
          exact (hreject (by simp [acceptedLength, hscan])).2 _ _ (by decide) (by simp [hscan])
      | some status =>
          obtain ⟨httpVersionMajor, httpVersionMinor, httpStatusCode⟩ := status
          simp only [wp_bind, wp_ite, wp_pure]
          refine ⟨fun hversion => ?_, fun hversion => ⟨fun hstatus => ?_, fun hstatus => ?_⟩⟩
          · exact (hreject (by simp [acceptedLength, hscan, hversion])).2 _ _ (by decide)
              (by simp [hscan, hversion])
          · exact (hreject (by simp [acceptedLength, hscan, hstatus])).2 _ _ (by decide)
              (by simp [hscan, hstatus])
          rw [not_not] at hversion hstatus
          rw [httpParseKeyValueInt_cstr, hcut]
          cases hparse : httpParseKeyValueInt (received.take i) (ascii "Content-Length:") with
          | none =>
              refine (hreject (by simp [acceptedLength, hscan, hparse])).1 httpVersionMinor ?_ hparse
              rw [hscan, hversion, hstatus]
          | some contentLength =>
              have haccept : acceptedLength (received.take i) = some (toSize contentLength) := by
                simp [acceptedLength, hscan, hversion, hstatus, hparse]
              simp only [hcount, wp_bind, wp_ite, wp_throw, wp_set, wp_pure]
              refine ⟨fun hrange => ?_, fun hrange => ?_⟩
              · exact hundefined i _ hfind (by omega) (by omega) haccept _ hsame rfl
              generalize hcontent :
                (tlsBuffer.drop (i + 4)).take (received.length - (i + 4)) = content
              have hn : content.length = received.length - (i + 4) := by
                rw [← hcontent, List.length_take, List.length_drop]
                omega
              have hcopy := length_store (store s.responseBuffer i [0]) 0 content (by omega)
              have hinitial : content <+: store (store s.responseBuffer i [0]) 0 content := by
                rw [store_zero]
                exact List.prefix_append _ _
              obtain ⟨-, hterminate⟩ := prefix_store [0] hinitial
                (by rw [hcopy, hheaders, hsize, hn, List.length_singleton]; omega)
              refine haccepted i _ content hfind (by omega) haccept hcontent.symm hn _ ?_ ⟨rfl, rfl, ?_⟩
                (by rw [bodyBuffer, hn, ← hbuffer])
              · refine ⟨rfl, rfl, rfl, hn.symm, ?_⟩
                rw [← hn, store, List.append_assoc, store_zero, List.take_left]
                exact List.prefix_append _ _
              · rw [← hn, hterminate, hcopy, hheaders]

end Progress

section Body

variable {α : Type} {request : ValidRequest α} {contentLength bodyBytes : Nat} {content : Bytes}
  {s : Client α} {Q : Bool → Client α → Prop} {E : Halt → Client α → Prop}

theorem wp_httpsProcessBody_wait (hmode : request.responseMode = .waitForCompleteBody)
    (hs : InBody contentLength bodyBytes content s) :
    wp (httpsProcessBody request) Q E s ↔
      (content.length < contentLength → Q true s) ∧
      (contentLength ≤ content.length →
        wp (invokeBodyCallback request content.length) (fun _ => Q false) E s) := by
  simp only [httpsProcessBody, wp_bind, wp_get, hmode, wp_ite, wp_pure, hs.count, hs.length, not_lt]

-- A fragment is delivered as soon as it is there; the end of the body is only
-- looked for behind a fragment.
theorem wp_httpsProcessBody_stream (hmode : request.responseMode = .streamBody)
    (hs : InBody contentLength bodyBytes content s) :
    wp (httpsProcessBody request) Q E s ↔
      (content = [] → Q true s) ∧
      (content ≠ [] → wp (invokeBodyCallback request content.length) (fun cr t =>
        (cr ≠ .continueReceiving → Q false t) ∧
        (cr = .continueReceiving →
          (contentLength ≤ sizeT bodyBytes →
            wp (invokeBodyCallback request 0) (fun _ => Q false) E t) ∧
          (sizeT bodyBytes < contentLength →
            Q true { t with context.responseBufferCount := 0 }))) E s) := by
  simp only [httpsProcessBody, wp_bind, wp_get, hmode, wp_ite, wp_pure, wp_modify, hs.count,
    hs.length, hs.total, ge_iff_le, gt_iff_lt, List.length_pos_iff, not_not, not_le]
  tauto

end Body

section Reads

variable {α : Type} {request : ValidRequest α} {tls received fragment content : Bytes}
  {index contentLength bodyBytes : Nat} {s : Client α} {Q : Bool → Client α → Prop}
  {E : Halt → Client α → Prop}

-- The state that a read with this index starts from.
def Client.atIndex (index : Nat) (s : Client α) : Client α := if index = 0 then s.reset else s

theorem atIndex_same (index : Nat) (s : Client α) : SameClient s (s.atIndex index) := by
  unfold Client.atIndex
  split
  · exact reset_same s
  · exact SameClient.refl s

theorem awaiting_start (s : Client α) : AwaitingHeaders [] (s.atIndex 0) := reset_awaiting s

-- Only the first read starts afresh.
theorem AwaitingHeaders.later (h : AwaitingHeaders received s) (index : Nat) :
    AwaitingHeaders received (s.atIndex (index + 1)) := h

theorem httpsTlsCallback_start (index : Nat) (buffer : Bytes) (len : Nat) (s : Client α) :
    httpsTlsCallback request index buffer len s = httpsTlsCallback request 1 buffer len (s.atIndex index) := by
  by_cases h : index = 0
  · simp only [httpsTlsCallback, Client.atIndex, h, ite_true, Nat.one_ne_zero, ite_false]
    rfl
  · simp only [httpsTlsCallback, Client.atIndex, h, ite_false, Nat.one_ne_zero]

theorem wp_httpsTlsCallback_start (buffer : Bytes) (len : Nat) :
    wp (httpsTlsCallback request index buffer len) Q E s ↔
      wp (httpsTlsCallback request 1 buffer len) Q E (s.atIndex index) := by
  rw [wp, httpsTlsCallback_start]
  rfl

-- A read while the headers are incomplete.
theorem wp_httpsTlsCallback_headers (hs : AwaitingHeaders received (s.atIndex index))
    (hfull : s.responseBuffer.length < received.length + fragment.length →
      wp (invokeErrorCallback request .bufferTooSmall 0) (fun _ => Q false) E (s.atIndex index))
    (hpending : received.length + fragment.length ≤ s.responseBuffer.length →
      ∀ t, AwaitingHeaders (received ++ fragment) t → SameClient s t → Q true t)
    (hrejected : received.length + fragment.length ≤ s.responseBuffer.length →
      ∀ i, find crlfcrlf (cstr (received ++ fragment)) = some i →
      acceptedLength ((received ++ fragment).take i) = none →
      ∀ t, SameClient s t → t.context.isProcessingHeaders = true →
      (∀ minor, scanStatusLine ((received ++ fragment).take i) = some (1, minor, 200) →
        httpParseKeyValueInt ((received ++ fragment).take i) (ascii "Content-Length:") = none → Q false t) ∧
      ∀ error info, error ≠ .bufferTooSmall →
        (∀ minor, scanStatusLine ((received ++ fragment).take i) ≠ some (1, minor, 200)) →
        wp (invokeErrorCallback request error info) (fun _ => Q false) E t)
    (hundefined : received.length + fragment.length ≤ s.responseBuffer.length →
      ∀ i contentLength, find crlfcrlf (cstr (received ++ fragment)) = some i →
      i + 4 < (received ++ fragment).length → (store tls 0 fragment).length < (received ++ fragment).length →
      acceptedLength ((received ++ fragment).take i) = some contentLength →
      ∀ t, SameClient s t → t.context.isProcessingHeaders = true → E .undefined t)
    (hbody : received.length + fragment.length ≤ s.responseBuffer.length →
      ∀ i contentLength content, find crlfcrlf (cstr (received ++ fragment)) = some i →
      i + 4 ≤ (received ++ fragment).length →
      acceptedLength ((received ++ fragment).take i) = some contentLength →
      content = ((store tls 0 fragment).drop (i + 4)).take ((received ++ fragment).length - (i + 4)) →
      content.length = (received ++ fragment).length - (i + 4) →
      ∀ t, InBody contentLength ((received ++ fragment).length - (i + 4)) content t →
      SameClient s t →
      (∃ spare, t.responseBuffer = bodyBuffer (received ++ fragment ++ List.replicate spare 0) i content) →
      wp (httpsProcessBody request) Q E t) :
    wp (httpsTlsCallback request index (store tls 0 fragment) fragment.length) Q E s := by
  rw [wp_httpsTlsCallback_start]
  have hat := atIndex_same index s
  generalize hu : s.atIndex index = u at hs hfull hat ⊢
  obtain ⟨spare, hbuffer⟩ := hs.buffer
  have htake : (store tls 0 fragment).take fragment.length = fragment := by
    rw [store_zero, List.take_left]
  simp only [httpsTlsCallback, wp_bind, wp_get, wp_ite, wp_pure, wp_set, Nat.one_ne_zero,
    false_implies, true_and, not_false_eq_true, true_implies, hs.count, htake, hat.bufferLen,
    hs.processing, not_true_eq_false, and_true]
  refine ⟨fun hover => ?_, fun hfits => ?_⟩
  · exact hfull hover
  have hgrow : store u.responseBuffer received.length fragment =
      received ++ fragment ++ List.replicate (spare - fragment.length) 0 := by
    rw [hbuffer, store_append, List.drop_replicate]
  have hsame : ∀ context, SameClient s
      { u with context, responseBuffer := store u.responseBuffer received.length fragment } := by
    intro context
    refine hat.trans ⟨rfl, rfl, length_store _ _ _ ?_⟩
    have := hat.bufferLen
    omega
  apply wp_httpsProcessHeaders (by simp only [List.length_append]) hgrow
  · intro hpend
    exact hpending (by omega) _ ⟨rfl, by simp only [List.length_append], ⟨_, hgrow⟩, hpend⟩ (hsame _)
  · intro i hfind hreason t ht hcontext
    exact hrejected (by omega) i hfind hreason t ((hsame _).trans ht) (by rw [hcontext])
  · intro i contentLength hfind hsome hshort haccept t ht hcontext
    exact hundefined (by omega) i contentLength hfind hsome hshort haccept t ((hsame _).trans ht) (by rw [hcontext])
  · intro i contentLength content hfind hend haccept hcontent hlen t ht hst htbuffer
    exact hbody (by omega) i contentLength content hfind hend haccept hcontent hlen t ht
      ((hsame _).trans hst) ⟨_, htbuffer⟩

-- A read of body bytes.
theorem wp_httpsTlsCallback_body (hs : InBody contentLength bodyBytes content s) (hindex : index ≠ 0)
    (hfull : s.responseBuffer.length < content.length + fragment.length →
      wp (invokeErrorCallback request .bufferTooSmall 0) (fun _ => Q false) E s)
    (hbody : content.length + fragment.length ≤ s.responseBuffer.length →
      ∀ t, InBody contentLength (bodyBytes + fragment.length) (content ++ fragment) t →
      SameClient s t → t.responseBuffer = store s.responseBuffer content.length fragment →
      wp (httpsProcessBody request) Q E t) :
    wp (httpsTlsCallback request index (store tls 0 fragment) fragment.length) Q E s := by
  have htake : (store tls 0 fragment).take fragment.length = fragment := by
    rw [store_zero, List.take_left]
  simp only [httpsTlsCallback, wp_bind, wp_get, wp_ite, wp_pure, wp_set, hindex, false_implies,
    true_and, not_false_eq_true, true_implies, hs.count, hs.accepted, Bool.false_eq_true, htake]
  refine ⟨fun hover => hfull hover, fun hfits => ?_⟩
  obtain ⟨hinitial, hlen⟩ := prefix_store fragment hs.buffer (by omega)
  refine hbody (by omega) _ ⟨rfl, hs.length, ?_, by simp only [List.length_append], hinitial⟩ ⟨rfl, rfl, hlen⟩ rfl
  simp only [hs.total, sizeT]
  omega

end Reads

end Esp32Ota

import Esp32Ota.HttpsClient.Fragmentation

-- What follows the body in the response buffer when it is delivered as a whole.
namespace Esp32Ota

open CLib Halting

-- The byte at `k` behind the first body bytes, when the headers have ended at
-- `endOfHeader` of what was received with them.
def behind (received : Bytes) (endOfHeader k : Nat) : UInt8 :=
  if k = received.length - (endOfHeader + 4) ∨ k = endOfHeader then 0 else received.getD k 0

-- All that is received up to the read that completes the headers, and the reads behind it.
def headEnd (received : Bytes) : List Bytes → Option (Bytes × List Bytes)
  | [] => none
  | fragment :: rest =>
      if (find crlfcrlf (cstr (received ++ fragment))).isSome then some (received ++ fragment, rest)
      else headEnd (received ++ fragment) rest

-- What further reads bring until the body has its length, with `n` bytes before them.
def untilLength (contentLength n : Nat) : List Bytes → Option Bytes
  | [] => if contentLength ≤ n then some [] else none
  | fragment :: rest =>
      if contentLength ≤ n then some []
      else (untilLength contentLength (n + fragment.length) rest).map (fragment ++ ·)

-- The TLS buffer holds the body bytes that `memcpy` takes from it.
def CopyDefined (received : Bytes) (endOfHeader : Nat) : Prop :=
  endOfHeader + 4 < received.length → received.length ≤ tlsResponseBufferSize

-- The reads bring accepted headers, the last of them with the end of `received`,
-- and then `more` until the body has its length.
def BodyReached (earlier : Bytes) (fs : List Bytes) (received : Bytes) (endOfHeader : Nat) (more : Bytes) :
    Prop :=
  ∃ rest contentLength, headEnd earlier fs = some (received, rest) ∧
    find crlfcrlf (cstr received) = some endOfHeader ∧
    acceptedLength (received.take endOfHeader) = some contentLength ∧ CopyDefined received endOfHeader ∧
    untilLength contentLength (received.length - (endOfHeader + 4)) rest = some more

-- At the end of the body lies the terminator that was written behind its first
-- bytes, the one that cut off the headers, or a byte that no header has touched.
def Terminates (fs : List Bytes) : Prop :=
  ∀ received endOfHeader more, BodyReached [] fs received endOfHeader more →
    behind received endOfHeader (received.length - (endOfHeader + 4) + more.length) = 0

-- Every callback for a body finds a NUL behind it, so that a search in the
-- buffer sees the body alone.
def AllTerminated (events : List HttpEvent) : Prop :=
  ∀ buffer n, .body buffer n ∈ events → buffer[n]? = some 0 ∧ cstr buffer = cstr (buffer.take n)

section Buffer

theorem bodyBuffer_behind {received content : Bytes} {spare i k : Nat} {b : UInt8}
    (hbound : i + 4 ≤ received.length) (hlen : content.length = received.length - (i + 4))
    (hk : content.length ≤ k)
    (h : (bodyBuffer (received ++ List.replicate spare 0) i content)[k]? = some b) :
    b = behind received i k := by
  have hstored := length_store (received ++ List.replicate spare 0) i [0]
    (by rw [List.length_append, List.length_singleton]; omega)
  have hcopied := length_store (store (received ++ List.replicate spare 0) i [0]) 0 content
    (by rw [hstored, List.length_append]; omega)
  rw [List.length_append] at hstored
  unfold bodyBuffer at h
  unfold behind
  by_cases hend : k = content.length
  · rw [hend, getElem?_store_self (by omega), Option.some.injEq] at h
    rw [if_pos (.inl (by omega)), h]
  rw [getElem?_store_of_ge (by omega) (by rw [List.length_singleton]; omega),
    getElem?_store_of_ge (by omega) (by omega)] at h
  by_cases hcut : k = i
  · rw [hcut, getElem?_store_self (by rw [List.length_append]; omega), Option.some.injEq] at h
    rw [if_pos (.inr hcut), h]
  rw [if_neg (by omega)]
  have hheaders : (received ++ List.replicate spare 0)[k]? = some b := by
    rcases Nat.lt_or_ge k i with hlt | hge
    · rwa [getElem?_store_of_lt (by rw [List.length_append]; omega) hlt] at h
    · rwa [getElem?_store_of_ge (by rw [List.length_append]; omega)
        (by rw [List.length_singleton]; omega)] at h
  rcases Nat.lt_or_ge k received.length with hlt | hge
  · rw [List.getElem?_append_left hlt] at hheaders
    rw [List.getD_eq_getElem?_getD, hheaders, Option.getD_some]
  · rw [List.getElem?_append_right hge, List.getElem?_replicate] at hheaders
    rw [List.getD_eq_getElem?_getD, List.getElem?_eq_none hge, Option.getD_none]
    split at hheaders
    · exact (Option.some.inj hheaders).symm
    · cases hheaders

-- A terminated text is all that a search sees.
theorem cstr_of_terminated {content buffer : Bytes} (h : content <+: buffer)
    (hend : buffer[content.length]? = some 0) : cstr buffer = cstr content := by
  obtain ⟨rest, rfl⟩ := h
  rw [List.getElem?_append_right (le_refl _), Nat.sub_self] at hend
  cases rest with
  | nil => cases hend
  | cons b rest =>
      rw [List.getElem?_cons_zero, Option.some.injEq] at hend
      subst hend
      by_cases hmem : (0 : UInt8) ∈ content
      · rw [cstr_append_of_mem _ _ hmem]
      · rw [cstr_append _ _ hmem, cstr_cons_zero, List.append_nil, cstr_of_notMem _ hmem]

end Buffer

section Reached

variable {earlier received fragment more : Bytes} {fs : List Bytes} {i : Nat}

theorem BodyReached.unique {other later : Bytes} {j : Nat} (h : BodyReached earlier fs received i more)
    (h' : BodyReached earlier fs other j later) : received = other ∧ i = j ∧ more = later := by
  obtain ⟨rest, contentLength, hhead, hfind, haccept, -, huntil⟩ := h
  obtain ⟨rest', contentLength', hhead', hfind', haccept', -, huntil'⟩ := h'
  rw [hhead, Option.some.injEq, Prod.mk.injEq] at hhead'
  obtain ⟨rfl, rfl⟩ := hhead'
  rw [hfind, Option.some.injEq] at hfind'
  subst hfind'
  rw [haccept, Option.some.injEq] at haccept'
  subst haccept'
  rw [huntil, Option.some.injEq] at huntil'
  exact ⟨rfl, rfl, huntil'⟩

theorem not_bodyReached_nil : ¬BodyReached earlier [] received i more := by
  intro h
  obtain ⟨rest, contentLength, hhead, -⟩ := h
  cases hhead

theorem headEnd_of_pending (h : find crlfcrlf (cstr (earlier ++ fragment)) = none) :
    headEnd earlier (fragment :: fs) = headEnd (earlier ++ fragment) fs := by
  rw [headEnd, h]
  rfl

theorem headEnd_of_found (h : find crlfcrlf (cstr (earlier ++ fragment)) = some i) :
    headEnd earlier (fragment :: fs) = some (earlier ++ fragment, fs) := by
  rw [headEnd, h]
  rfl

-- What the headers that this read completes tell.
theorem BodyReached.cons (hfind : find crlfcrlf (cstr (earlier ++ fragment)) = some i) {j : Nat}
    (h : BodyReached earlier (fragment :: fs) received j more) :
    received = earlier ++ fragment ∧ j = i ∧ CopyDefined received i ∧
      ∃ contentLength, acceptedLength (received.take i) = some contentLength ∧
        untilLength contentLength (received.length - (i + 4)) fs = some more := by
  obtain ⟨rest, contentLength, hhead, hfound, haccept, hdefined, huntil⟩ := h
  rw [headEnd_of_found hfind, Option.some.injEq, Prod.mk.injEq] at hhead
  obtain ⟨rfl, rfl⟩ := hhead
  rw [hfind, Option.some.injEq] at hfound
  subst hfound
  exact ⟨rfl, rfl, hdefined, contentLength, haccept, huntil⟩

end Reached

section Feed

variable {α : Type} {request : ValidRequest α} {received content : Bytes} {i contentLength bodyBytes index : Nat}
  {s : Client α} {P : Client α → Prop}

-- The body is gathered over what accepted headers have left in the buffer.
structure Gathering (received : Bytes) (i contentLength bodyBytes : Nat) (content : Bytes) (s : Client α) :
    Prop where
  body : InBody contentLength bodyBytes content s
  behind : ∀ k b, content.length ≤ k → s.responseBuffer[k]? = some b → b = behind received i k

theorem overflow_ends (hover : ∀ t, Overflowed t → P t) (s : Client α) :
    wp (invokeErrorCallback request .bufferTooSmall 0) (fun _ => P) (fun _ => P) s :=
  wp_error_of_called fun _ ht => hover _ ht.overflowed

theorem feed_gathers (hmode : request.responseMode = .waitForCompleteBody)
    (hover : ∀ t, Overflowed t → P t) (rest : List Bytes) (buffer : Bytes) (hindex : index ≠ 0)
    (hs : Gathering received i contentLength bodyBytes content s)
    (hmissing : untilLength contentLength content.length rest = none → ∀ t, SameClient s t → P t)
    (hcall : ∀ more n t, untilLength contentLength content.length rest = some more →
      Gathering received i contentLength n (content ++ more) t → SameClient s t →
      wp (invokeBodyCallback request (content ++ more).length) (fun _ => P) (fun _ => P) t) :
    wp (httpsProcessBody request)
      (fun go t => wp (if go = true then feed (httpsTlsCallback request) rest index buffer else pure false)
        (fun _ => P) (fun _ => P) t)
      (fun _ => P) s := by
  induction rest generalizing bodyBytes content index buffer s with
  | nil =>
      rw [wp_httpsProcessBody_wait hmode hs.body]
      refine ⟨fun hshort => hmissing ?_ s (SameClient.refl s), fun hdone => ?_⟩
      · rw [untilLength, if_neg (by omega)]
      · have hlast := hcall [] bodyBytes s (by rw [untilLength, if_pos hdone])
        rw [List.append_nil] at hlast
        exact hlast hs (SameClient.refl s)
  | cons fragment rest ih =>
      rw [wp_httpsProcessBody_wait hmode hs.body]
      refine ⟨fun hshort => ?_, fun hdone => ?_⟩
      · have huntil : untilLength contentLength content.length (fragment :: rest) =
            (untilLength contentLength (content ++ fragment).length rest).map (fragment ++ ·) := by
          rw [untilLength, if_neg (by omega), List.length_append]
        rw [huntil] at hmissing hcall
        simp only [ite_true, feed, wp_bind]
        refine wp_httpsTlsCallback_body hs.body hindex (fun _ => overflow_ends hover s)
          (fun hfits t ht hst hbuffer => ?_)
        refine ih (store buffer 0 fragment) (Nat.succ_ne_zero index) ⟨ht, fun k b hk hb => ?_⟩ ?_ ?_
        · have hlen := hs.body.buffer.length_le
          rw [List.length_append] at hk
          rw [hbuffer, getElem?_store_of_ge hlen hk] at hb
          exact hs.behind k b (by omega) hb
        · intro hnone u hu
          exact hmissing (by rw [hnone]; rfl) u (hst.trans hu)
        · intro more n u hmore hu htu
          have hnext := hcall (fragment ++ more) n u (by rw [hmore]; rfl)
          rw [← List.append_assoc] at hnext
          exact hnext hu (hst.trans htu)
      · have hlast := hcall [] bodyBytes s (by rw [untilLength, if_pos hdone])
        rw [List.append_nil] at hlast
        exact hlast hs (SameClient.refl s)

-- A request whose body is not reached makes no callback for it.
def NoBody (events : List HttpEvent) : Prop := ∀ buffer n, .body buffer n ∉ events

theorem noBody_of_error {events : List HttpEvent} {error : HttpErr} {info : Int} (h : NoBody events) :
    NoBody (.error error info :: events) := by
  intro buffer n hmem
  rw [List.mem_cons] at hmem
  rcases hmem with hmem | hmem
  · cases hmem
  · exact h buffer n hmem

theorem feed_reaches (hmode : request.responseMode = .waitForCompleteBody)
    (hover : ∀ t, Overflowed t → P t) (fs : List Bytes) (hfs : ∀ f ∈ fs, f.length ≤ tlsResponseBufferSize)
    (buffer : Bytes) (hbuffer : buffer.length = tlsResponseBufferSize) {earlier : Bytes}
    (hs : AwaitingHeaders earlier (s.atIndex index)) (hevents : NoBody s.events)
    (hquiet : (∀ received i more, ¬BodyReached earlier fs received i more) → ∀ t, NoBody t.events → P t)
    (hcall : ∀ received i more contentLength n content t, BodyReached earlier fs received i more →
      content.length = received.length - (i + 4) →
      Gathering received i contentLength n (content ++ more) t → SameClient s t →
      wp (invokeBodyCallback request (content ++ more).length) (fun _ => P) (fun _ => P) t) :
    wp (feed (httpsTlsCallback request) fs index buffer) (fun _ => P) (fun _ => P) s := by
  induction fs generalizing earlier index buffer s with
  | nil => exact hquiet (fun _ _ _ h => not_bodyReached_nil h) s hevents
  | cons fragment fs ih =>
      have hfragment := hfs fragment List.mem_cons_self
      have hstored : (store buffer 0 fragment).length = tlsResponseBufferSize := by
        rw [length_store buffer 0 fragment (by omega), hbuffer]
      have hsame : ∀ t, SameClient s t → NoBody t.events := fun t ht => by rwa [ht.events]
      simp only [feed, wp_bind]
      refine wp_httpsTlsCallback_headers hs (fun _ => overflow_ends hover _) ?_ ?_ ?_ ?_
      · intro _ t ht hst
        have hhead : headEnd earlier (fragment :: fs) = headEnd (earlier ++ fragment) fs :=
          headEnd_of_pending ht.pending
        refine ih (fun f hf => hfs f (List.mem_cons_of_mem _ hf)) (store buffer 0 fragment) hstored
          (ht.later index) (hsame t hst) ?_ ?_
        · intro hnot
          refine hquiet fun received i more h => hnot received i more ?_
          unfold BodyReached at h ⊢
          rwa [hhead] at h
        · intro received i more contentLength n content u h hcontent hu htu
          refine hcall received i more contentLength n content u ?_ hcontent hu (hst.trans htu)
          unfold BodyReached at h ⊢
          rwa [hhead]
      · intro _ i hfind hreject t hst _
        have hnot : ∀ received j more, ¬BodyReached earlier (fragment :: fs) received j more := by
          intro received j more h
          obtain ⟨rfl, -, -, contentLength, haccept, -⟩ := h.cons hfind
          rw [hreject] at haccept
          cases haccept
        refine ⟨fun _ _ _ => hquiet hnot t (hsame t hst), fun error info _ _ => ?_⟩
        refine wp_error_of_called fun u hu => hquiet hnot u ?_
        rw [hu.events]
        exact noBody_of_error (hsame t hst)
      · intro _ i _ hfind hlong hshort _ t hst _
        refine hquiet (fun received j more h => ?_) t (hsame t hst)
        obtain ⟨rfl, -, hdefined, -⟩ := h.cons hfind
        have hfits := hdefined hlong
        omega
      · intro _ i contentLength content hfind hbound haccept hcontent hlen t ht hst hbodyBuffer
        obtain ⟨spare, hbodyBuffer⟩ := hbodyBuffer
        have hdefined : CopyDefined (earlier ++ fragment) i := by
          intro hlong
          have hcopied := congrArg List.length hcontent
          rw [hlen, List.length_take, List.length_drop] at hcopied
          omega
        have hgathering : Gathering (earlier ++ fragment) i contentLength _ content t :=
          ⟨ht, fun k b hk hb => bodyBuffer_behind hbound hlen hk (hbodyBuffer ▸ hb)⟩
        apply feed_gathers hmode hover fs (store buffer 0 fragment) (Nat.succ_ne_zero index) hgathering
        · intro hmissing u hu
          refine hquiet (fun received j more h => ?_) u (hsame u (hst.trans hu))
          obtain ⟨rfl, -, -, other, hother, huntil⟩ := h.cons hfind
          rw [haccept, Option.some.injEq] at hother
          rw [hlen, hother, huntil] at hmissing
          cases hmissing
        · intro more n u hmore hu htu
          rw [hlen] at hmore
          exact hcall (earlier ++ fragment) i more contentLength n content u
            ⟨fs, contentLength, headEnd_of_found hfind, hfind, haccept, hdefined, hmore⟩ hlen hu
            (hst.trans htu)

end Feed

section Events

variable {α : Type}

-- The reads of one request, from any state.
def readResponse (request : ValidRequest α) (reads : List ReadResult) (stale : Nat → UInt8)
    (s : Conn (Client α)) : Conn (Client α) :=
  final (wifiTlsReadLoop (httpsTlsCallback request) reads 0 (staleBlock stale tlsResponseBufferSize)) s

-- The response buffer has been filled up.
def HttpEvent.isFull : HttpEvent → Bool
  | .body responseBuffer bytesReceived => responseBuffer.length ≤ bytesReceived
  | .error .bufferTooSmall _ => true
  | .error _ _ => false

def Filled (s : Client α) : Prop := ∃ event ∈ s.events, event.isFull = true

instance (s : Client α) : Decidable (Filled s) :=
  inferInstanceAs (Decidable (∃ event ∈ s.events, event.isFull = true))

theorem Overflowed.filled {s : Client α} (h : Overflowed s) : Filled s := by
  obtain ⟨event, hmem, hoverflow⟩ := h
  refine ⟨event, hmem, ?_⟩
  cases event with
  | body _ _ => cases hoverflow
  | error error info =>
      cases error with
      | bufferTooSmall => rfl
      | _ => cases hoverflow

theorem Called.filled {buffer : Bytes} {n : Nat} {s t : Client α} (h : Called (.body buffer n) s t)
    (hfull : buffer.length ≤ n) : Filled t :=
  ⟨_, by rw [h.events]; exact List.mem_cons_self, by simpa [HttpEvent.isFull] using hfull⟩

theorem NoBody.allTerminated {events : List HttpEvent} (h : NoBody events) : AllTerminated events :=
  fun buffer n hmem => absurd hmem (h buffer n)

-- The rule for what a request does that hands over its body as a whole.
theorem readResponse_reaches {request : ValidRequest α} (hmode : request.responseMode = .waitForCompleteBody)
    (reads : List ReadResult) (stale : Nat → UInt8) (s : Conn (Client α)) {P : Client α → Prop}
    (hs : s.client.events = []) (hover : ∀ t, Overflowed t → P t)
    (hquiet : (∀ received i more, ¬BodyReached [] (fragments reads) received i more) →
      ∀ t, NoBody t.events → P t)
    (hcall : ∀ received i more contentLength n content t, BodyReached [] (fragments reads) received i more →
      content.length = received.length - (i + 4) →
      Gathering received i contentLength n (content ++ more) t → SameClient s.client t →
      wp (invokeBodyCallback request (content ++ more).length) (fun _ => P) (fun _ => P) t) :
    P (readResponse request reads stale s).client := by
  unfold readResponse
  rw [client_of_feed]
  refine final_of_wp (feed_reaches hmode hover (fragments reads)
    (fun f hf => (length_of_fragments reads f hf).2) _
    (length_staleBlock stale tlsResponseBufferSize) (awaiting_start s.client) ?_ hquiet hcall)
  intro buffer n hmem
  rw [hs] at hmem
  cases hmem

theorem allTerminated_iff (request : ValidRequest α) (hmode : request.responseMode = .waitForCompleteBody)
    (reads : List ReadResult) (stale : Nat → UInt8) (s : Conn (Client α)) (hs : s.client.events = [])
    (hfits : ¬Filled (readResponse request reads stale s).client) :
    AllTerminated (readResponse request reads stale s).client.events ↔ Terminates (fragments reads) := by
  refine (readResponse_reaches (P := fun t => Filled t ∨
    (AllTerminated t.events ↔ Terminates (fragments reads))) hmode reads stale s hs (fun t ht => .inl ht.filled)
    ?_ ?_).resolve_left hfits
  · intro hnot t ht
    exact .inr ⟨fun _ received i more h => absurd h (hnot received i more), fun _ => ht.allTerminated⟩
  · intro received i more contentLength n content t hreached hcontent ht hst
    refine wp_body_of_called fun u hu => ?_
    have hevents : u.events = [.body t.responseBuffer (content ++ more).length] := by
      rw [hu.events, hst.events, hs]
    rcases Nat.lt_or_ge (content ++ more).length t.responseBuffer.length with hlt | hge
    · have hbehind := ht.behind _ _ (le_refl _) (List.getElem?_eq_getElem hlt)
      have hlen : (content ++ more).length = received.length - (i + 4) + more.length := by
        rw [List.length_append, hcontent]
      refine .inr ⟨fun hall other j later h => ?_, fun hterminates buffer m hmem => ?_⟩
      · obtain ⟨rfl, rfl, rfl⟩ := hreached.unique h
        obtain ⟨hzero, -⟩ := hall t.responseBuffer _ (by rw [hevents]; exact List.mem_cons_self)
        rw [List.getElem?_eq_getElem hlt, Option.some.injEq] at hzero
        rw [← hlen, ← hbehind, hzero]
      · rw [hevents, List.mem_singleton, HttpEvent.body.injEq] at hmem
        obtain ⟨rfl, rfl⟩ := hmem
        have hzero := hterminates received i more hreached
        rw [← hlen, ← hbehind] at hzero
        have hend : t.responseBuffer[(content ++ more).length]? = some 0 := by
          rw [List.getElem?_eq_getElem hlt, hzero]
        refine ⟨hend, ?_⟩
        rw [cstr_of_terminated ht.body.buffer hend, ← List.prefix_iff_eq_take.mp ht.body.buffer]
    · exact .inl (hu.filled hge)

end Events

end Esp32Ota

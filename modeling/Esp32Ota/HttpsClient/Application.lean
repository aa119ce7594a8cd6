import Esp32Ota.HttpsClient.BodyEnd

-- Rules for a request, from what its callbacks keep of the application.
namespace Esp32Ota

open CLib Halting

section Callbacks

variable {α : Type} {request : ValidRequest α}

-- The whole body is there, by the content length that the client has recorded.
def Complete (received : Bytes) (s : Client α) : Prop :=
  s.context.isProcessingHeaders = false ∧ ∃ i, find crlfcrlf (cstr received) = some i ∧
    s.context.contentLength ≤ received.length - (i + 4)

-- `I` holds of the application between two reads, and `Stop` or `Err` of the
-- client when reading ends. Without any bytes the body callback is called for a
-- complete body only.
structure Handles (request : ValidRequest α) (I : α → Prop) (Stop : Bytes → Client α → Prop)
    (Err : Halt → Bytes → Client α → Prop) : Prop where
  body : ∀ received n s, 0 < n → I s.app → wp (invokeBodyCallback request n) (fun cr t =>
    (cr = .continueReceiving → I t.app) ∧ (cr ≠ .continueReceiving → Stop received t))
    (fun e => Err e received) s
  last : ∀ received s, I s.app → Complete received s →
    wp (invokeBodyCallback request 0) (fun _ => Stop received) (fun e => Err e received) s
  error : ∀ received error info s, I s.app →
    wp (invokeErrorCallback request error info) (fun _ => Stop received) (fun e => Err e received) s
  stop : ∀ received s, I s.app → Stop received s
  halt : ∀ e received s, e ≠ .restart → I s.app → Err e received s

variable {I : α → Prop} {Stop : Bytes → Client α → Prop} {Err : Halt → Bytes → Client α → Prop}
  {received content : Bytes} {contentLength bodyBytes index : Nat} {s : Client α}

theorem Handles.invokeBody (h : Handles request I Stop Err) (hI : I s.app)
    (hcomplete : content = [] → Complete received s) :
    wp (invokeBodyCallback request content.length) (fun _ => Stop received) (fun e => Err e received) s := by
  by_cases hnil : content = []
  · rw [hnil]
    exact h.last received s hI (hcomplete hnil)
  · refine wp_mono (h.body received _ s (List.length_pos_of_ne_nil hnil) hI) ?_ (fun _ _ ht => ht)
    intro cr t ht
    by_cases hcr : cr = .continueReceiving
    · exact h.stop received t (ht.1 hcr)
    · exact ht.2 hcr

theorem httpsProcessBody_handled (h : Handles request I Stop Err)
    (hs : InBody contentLength bodyBytes content s) (hcontent : content.length ≤ bodyBytes)
    (hcomplete : ∀ t : Client α, t.context = s.context → contentLength ≤ bodyBytes → Complete received t)
    (hI : I s.app) :
    wp (httpsProcessBody request) (fun continueReading t =>
      (continueReading = true → I t.app) ∧ (continueReading = false → Stop received t))
      (fun e => Err e received) s := by
  cases hmode : request.responseMode with
  | waitForCompleteBody =>
      rw [wp_httpsProcessBody_wait hmode hs]
      refine ⟨fun _ => ⟨fun _ => hI, fun h => by cases h⟩, fun hlen => ?_⟩
      refine wp_mono (h.invokeBody hI fun _ => hcomplete s rfl (by omega)) ?_ (fun _ _ ht => ht)
      exact fun _ t ht => ⟨fun h => (by cases h), fun _ => ht⟩
  | streamBody =>
      rw [wp_httpsProcessBody_stream hmode hs]
      refine ⟨fun _ => ⟨fun _ => hI, fun h => by cases h⟩, fun hne => ?_⟩
      have hbody := wp_and (h.body received content.length s (List.length_pos_of_ne_nil hne) hI)
        (invokeBodyCallback_called request content.length s)
      refine wp_mono hbody ?_ (fun _ _ ht => ht.1)
      intro cr t hpost
      obtain ⟨⟨hcontinue, hdone⟩, hcalled⟩ := hpost
      refine ⟨fun hcr => ⟨fun h => (by cases h), fun _ => hdone hcr⟩, fun hcr => ⟨fun hend => ?_, fun _ => ?_⟩⟩
      · -- the counter is a `size_t`, so it is never ahead of the body
        have hlen : contentLength ≤ bodyBytes := hend.trans (Nat.mod_le _ _)
        refine wp_mono (h.last received t (hcontinue hcr) (hcomplete t hcalled.context hlen)) ?_
          (fun _ _ hu => hu)
        exact fun _ u hu => ⟨fun h => (by cases h), fun _ => hu⟩
      · exact ⟨fun _ => hcontinue hcr, fun h => by cases h⟩

-- Between two reads the client is where `Receiving` says, and the application
-- keeps `I`.
theorem httpsTlsCallback_handled (h : Handles request I Stop Err) (buffer : Bytes) (fragment : Fragment)
    (hs : Receiving request.responseMode index received s) (hI : I s.app) :
    StepsTo (httpsTlsCallback request)
      (fun index received _ s => Receiving request.responseMode index received s ∧ I s.app) Stop Err
      index received buffer fragment s := by
  have hprogress := httpsTlsCallback_progress buffer (fragment_ne_nil fragment) hs
  suffices hhandled : wp (httpsTlsCallback request index (store buffer 0 fragment.val) fragment.val.length)
      (fun continueReading t => (continueReading = true → I t.app) ∧
        (continueReading = false → Stop (received ++ fragment.val) t))
      (fun e => Err e (received ++ fragment.val)) s by
    refine wp_mono (wp_and hprogress hhandled) ?_ (fun _ _ ht => ht.2)
    intro continueReading t hpost
    obtain ⟨hreceiving, ht⟩ := hpost
    exact ⟨fun hcontinue => ⟨(hreceiving.1 hcontinue).2, ht.1 hcontinue⟩, ht.2⟩
  have hsame : ∀ {t : Client α}, SameClient s t → I t.app := fun ht => by rwa [ht.app]
  have herror : ∀ error info (t : Client α), SameClient s t →
      wp (invokeErrorCallback request error info) (fun _ t => (false = true → I t.app) ∧
        (false = false → Stop (received ++ fragment.val) t)) (fun e => Err e (received ++ fragment.val)) t :=
    fun error info t ht => wp_mono (h.error _ error info t (hsame ht))
      (fun _ u hu => ⟨fun h => (by cases h), fun _ => hu⟩) (fun _ _ hu => hu)
  cases hs with
  | headers hs _ _ =>
      apply wp_httpsTlsCallback_headers hs
      · exact fun _ => herror _ _ _ (atIndex_same index s)
      · exact fun _ t _ hst => ⟨fun _ => hsame hst, fun h => by cases h⟩
      · exact fun _ i _ _ t hst _ => ⟨fun _ _ _ => ⟨fun h => (by cases h), fun _ => h.stop _ t (hsame hst)⟩,
          fun error info _ _ => herror error info t hst⟩
      · exact fun _ i _ _ _ _ _ t hst _ => h.halt .undefined _ t (by decide) (hsame hst)
      · intro _ i contentLength content hfind hbound _ _ hlen t ht hst _
        refine httpsProcessBody_handled h ht (by omega) (fun u hu hend => ?_) (hsame hst)
        exact ⟨by rw [hu, ht.accepted], i, hfind, by rw [hu, ht.length]; exact hend⟩
  | body i contentLength content later _ found _ bound hs left _ =>
      apply wp_httpsTlsCallback_body hs later (fun _ => herror _ _ s (SameClient.refl s))
      intro _ t ht hst _
      have hcontent : (content ++ fragment.val).length ≤ received.length - (i + 4) + fragment.val.length := by
        rw [List.length_append]
        cases hmode : request.responseMode with
        | streamBody => rw [hmode, Unannounced] at left; omega
        | waitForCompleteBody => rw [hmode, Unannounced] at left; omega
      refine httpsProcessBody_handled h ht hcontent (fun u hu hend => ?_) (hsame hst)
      refine ⟨by rw [hu, ht.accepted], i, find_headers_append found fragment.val, ?_⟩
      rw [hu, ht.length, List.length_append]
      omega

end Callbacks

section Request

variable {α : Type} {I : α → Prop} {Stop : Bytes → Client α → Prop}
  {Err : Halt → Bytes → Client α → Prop} {request : HttpRequest α} {s : Conn (Client α)}

theorem request_of_validate {valid : ValidRequest α} (h : httpsValidateRequest request = .ok valid) :
    request = ⟨HTTP_GET, some valid.host, some valid.path, some valid.responseBuffer,
      some valid.errorCallback, valid.responseMode, some valid.bodyCallback⟩ := by
  obtain ⟨verb, host, path, responseBuffer, errorCallback, responseMode, bodyCallback⟩ := request
  unfold httpsValidateRequest at h
  split at h
  · rename_i hhost hpath hbuffer herror hbody
    split at h
    · cases h
    · split at h
      · cases h
      · rename_i hverb
        cases h
        simp only at hhost hpath hbuffer herror hbody hverb
        rw [hhost, hpath, hbuffer, herror, hbody, not_not.mp hverb]
  · cases h

theorem callbacks_of_validate {valid : ValidRequest α} (h : httpsValidateRequest request = .ok valid) :
    request.bodyCallback = some valid.bodyCallback ∧ request.errorCallback = some valid.errorCallback := by
  rw [request_of_validate h]
  exact ⟨rfl, rfl⟩

-- The request is not written at all.
def Refused (request : HttpRequest α) (replies : RequestReplies) : Prop :=
  (∃ error, httpsValidateRequest request = .error error) ∨ replies.mallocContext = false ∨
    replies.mallocRequestBuffer = none ∨ replies.mallocResponseBuffer = none

-- The client that the first read of a request meets.
def Client.start (valid : ValidRequest α) (s : Client α) : Client α :=
  { s with context := ⟨0, 0, 0, false⟩, responseBuffer := valid.responseBuffer, events := [] }

theorem error_of_validate {error : HttpErr} (h : httpsValidateRequest request = .error error) :
    error ≠ .success := by
  unfold httpsValidateRequest at h
  split at h
  · split at h
    · cases h
      decide
    · split at h
      · cases h
        decide
      · cases h
  · cases h
    decide

-- The refusals that return; without memory for the context nothing does.
def ReturnsEarly (request : HttpRequest α) (replies : RequestReplies) : Prop :=
  (∃ error, httpsValidateRequest request = .error error) ∨
    replies.mallocContext = true ∧ (replies.mallocRequestBuffer = none ∨ replies.mallocResponseBuffer = none)

-- The length of the format string counts its "%s%s", so four bytes of the buffer
-- are left behind the request. The first of them is the end of the string.
theorem length_tlsRequest (path host stale : Bytes) :
    (httpGetRequest path host ++ 0 :: stale).length + 3 =
      httpGetRequestFormatString.length + host.length + path.length + stale.length := by
  have hformat : httpGetRequestFormatString.length = 29 := rfl
  have hget : (ascii "GET ").length = 4 := rfl
  have hversion : (ascii " HTTP/1.1\r\nHost: ").length = 17 := rfl
  have hend : (ascii "\r\n\r\n").length = 4 := rfl
  simp only [httpGetRequest, List.length_append, List.length_cons]
  omega

theorem tlsRequestBuffer_eq (path host : Bytes) (staleRequest : Nat → UInt8) :
    ∃ stale, stale.length = 3 ∧
      store (staleBlock staleRequest (httpGetRequestFormatString.length + host.length + path.length)) 0
        (httpGetRequest path host ++ [0]) = httpGetRequest path host ++ 0 :: stale := by
  generalize hbuffer : staleBlock staleRequest
    (httpGetRequestFormatString.length + host.length + path.length) = buffer
  have hlen := length_tlsRequest path host []
  rw [List.length_append, List.length_singleton, List.length_nil] at hlen
  refine ⟨buffer.drop ((httpGetRequest path host).length + 1), ?_, by simp [store_zero]⟩
  rw [← hbuffer, List.length_drop, length_staleBlock]
  omega

theorem wp_httpsSendRequest {replies : RequestReplies} {Q : HttpErr → Conn (Client α) → Prop}
    {E : Halt → Conn (Client α) → Prop}
    (hearly : ReturnsEarly request replies → ∀ result, result ≠ .success → Q result s)
    (hnull : ¬ReturnsEarly request replies → replies.mallocContext = false → E .undefined s)
    (haccepted : ∀ valid, httpsValidateRequest request = .ok valid → ¬Refused request replies →
      ∀ stale staleResponse, stale.length = 3 → replies.mallocResponseBuffer = some staleResponse →
      wp (wifiTlsSendRequest (httpGetRequest valid.path valid.host ++ 0 :: stale)
        (staleBlock staleResponse tlsResponseBufferSize) (httpsTlsCallback valid) replies.writes replies.reads)
        (fun tlsResult t => Q (if tlsResult = 0 then .success else .sendFailed) t) E
        { s with client := s.client.start valid }) :
    wp (httpsSendRequest request replies) Q E s := by
  unfold httpsSendRequest
  cases hvalid : httpsValidateRequest request with
  | error error => exact hearly (.inl ⟨error, hvalid⟩) error (error_of_validate hvalid)
  | ok valid =>
      simp only [httpsCreateContextForRequest, wp_bind, wp_onClient, wp_ite, wp_throw]
      refine ⟨fun h => ?_, fun hcontext => ?_⟩
      · have hcontext : replies.mallocContext = false := by simpa using h
        exact hnull (by simp [ReturnsEarly, hvalid, hcontext]) hcontext
      have hcontext : replies.mallocContext = true := by simpa using hcontext
      cases hrequest : replies.mallocRequestBuffer with
      | none => exact hearly (.inr ⟨hcontext, .inl hrequest⟩) _ (by decide)
      | some staleRequest =>
          cases hresponse : replies.mallocResponseBuffer with
          | none => exact hearly (.inr ⟨hcontext, .inr hresponse⟩) _ (by decide)
          | some staleResponse =>
              have hrefused : ¬Refused request replies := by
                simp [Refused, hvalid, hcontext, hrequest, hresponse]
              obtain ⟨stale, hstale, hbuffer⟩ := tlsRequestBuffer_eq valid.path valid.host staleRequest
              simp only [wp_bind, wp_pure, wp_onClient, wp_modify, wp_ite, hbuffer]
              refine wp_mono (haccepted valid hvalid hrefused stale staleResponse hstale hresponse) ?_
                (fun _ _ h => h)
              intro tlsResult t ht
              refine ⟨fun hzero => ?_, fun hzero => ?_⟩
              · simpa only [hzero, ite_true] using ht
              · simpa only [hzero, ite_false] using ht

theorem refused_of_returnsEarly {replies : RequestReplies} (h : ReturnsEarly request replies) :
    Refused request replies := by
  rcases h with herror | ⟨-, h | h⟩
  · exact .inl herror
  · exact .inr (.inr (.inl h))
  · exact .inr (.inr (.inr h))

-- A request is refused before anything happens, or read to some point.
theorem httpsSendRequest_handled (replies : RequestReplies) (hI : I s.client.app)
    (h : ∀ valid, httpsValidateRequest request = .ok valid → Handles valid I Stop Err) :
    wp (httpsSendRequest request replies)
      (fun _ t => t = s ∨ ∃ received, Stop received t.client ∧ Closed s.tls t.tls received)
      (fun e t => t = s ∨ ∃ received, Err e received t.client ∧ Exchanged s.tls t.tls received) s := by
  apply wp_httpsSendRequest (fun _ _ _ => .inl rfl) (fun _ _ => .inl rfl)
  intro valid hvalid _ stale staleResponse _ _
  have h := h valid hvalid
  simp only [wifiTlsSendRequest, wp_bind, wp_onTls, wp_ite, wp_pure]
  refine wp_mono (wifiTlsWriteLoop_spec replies.writes _ s.tls) ?_
    (fun e tls htls => .inr ⟨[], h.halt e [] _ htls.1 hI, htls.2⟩)
  intro written tls htls
  cases written with
  | false => exact ⟨fun h => (by cases h), fun _ => .inr ⟨[], h.stop [] _ hI, htls⟩⟩
  | true =>
      refine ⟨fun _ => ?_, fun h => absurd rfl h⟩
      have hloop := wp_wifiTlsReadLoop
        (fun _ _ buffer fragment _ hs => httpsTlsCallback_handled h buffer fragment hs.1 hs.2)
        (fun _ received _ s hs => h.stop received s hs.2)
        (fun _ received _ s hs => h.halt .blocked received s (by decide) hs.2) replies.reads
        0 [] (staleBlock staleResponse tlsResponseBufferSize)
        (s := { s with tls, client := s.client.start valid }) ⟨receiving_start valid.responseMode rfl, hI⟩
      apply wp_mono hloop
      · intro _ t ht
        obtain ⟨received, hstop, hclosed⟩ := ht
        exact .inr ⟨received, hstop, htls.trans_closed hclosed⟩
      · intro e t ht
        obtain ⟨received, herr, hexchanged⟩ := ht
        exact .inr ⟨received, herr, htls.trans hexchanged⟩

end Request

end Esp32Ota

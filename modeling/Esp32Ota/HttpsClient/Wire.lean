import Esp32Ota.HttpsClient.Application
import Esp32Ota.WifiTls.Reads

-- The bytes that a request puts on the wire, for any results of `mbedtls_ssl_write`.
namespace Esp32Ota

open CLib Halting

-- The bytes that `mbedtls_ssl_write` has accepted, oldest first.
def sent : List TlsEvent → Bytes
  | [] => []
  | .sent bytes :: earlier => sent earlier ++ bytes
  | _ :: earlier => sent earlier

-- The write loop ends normally on these results, with `n` bytes to write.
def writesAll : List Int → Nat → Bool
  | _, 0 => true
  | [], _ + 1 => false
  | ret :: rets, n + 1 =>
    if ret > 0 then ret ≤ n + 1 && writesAll rets (n + 1 - ret.toNat)
    else (ret = MBEDTLS_ERR_SSL_WANT_READ || ret = MBEDTLS_ERR_SSL_WANT_WRITE) && writesAll rets (n + 1)

section WriteLoop

theorem writesAll_cons (ret : Int) (rets : List Int) {n : Nat} (hn : n ≠ 0) :
    writesAll (ret :: rets) n =
      if ret > 0 then ret ≤ n && writesAll rets (n - ret.toNat)
      else (ret = MBEDTLS_ERR_SSL_WANT_READ || ret = MBEDTLS_ERR_SSL_WANT_WRITE) && writesAll rets n := by
  obtain ⟨n, rfl⟩ := Nat.exists_eq_succ_of_ne_zero hn
  rfl

-- The loop writes each byte of its buffer once, in order, if it ends normally.
theorem wifiTlsWriteLoop_sends (rets : List Int) (request : Bytes) (s : Tls) :
    wp (wifiTlsWriteLoop rets request)
      (fun written t => written = writesAll rets request.length ∧
        (written = true → sent t.trace = sent s.trace ++ request))
      (fun _ _ => writesAll rets request.length = false) s := by
  induction rets generalizing request s with
  | nil =>
      simp only [wifiTlsWriteLoop, wp_bind, wp_ite, wp_pure, wp_tlsLog, wp_throw, List.length_eq_zero_iff]
      refine ⟨fun hnil => ?_, fun hne => ?_⟩
      · subst hnil
        exact ⟨rfl, fun _ => (List.append_nil _).symm⟩
      · obtain ⟨n, hn⟩ := Nat.exists_eq_succ_of_ne_zero (List.length_pos_iff.mpr hne).ne'
        rw [hn]
        rfl
  | cons ret rets ih =>
      simp only [wifiTlsWriteLoop, wp_bind, wp_ite, wp_pure, wp_tlsLog, wp_throw, wp_wifiTlsDisconnect]
      refine ⟨fun hzero => ?_, fun hn => ?_⟩
      · rw [List.length_eq_zero_iff] at hzero
        subst hzero
        exact ⟨rfl, fun _ => (List.append_nil _).symm⟩
      rw [writesAll_cons ret rets hn]
      refine ⟨fun hpos => ?_, fun hpos => ?_⟩
      · rw [if_pos hpos]
        refine ⟨fun hlarge => ?_, fun hfits => ?_⟩
        · have hover : ¬ret ≤ request.length := by omega
          simp [hover]
        have hlen : (request.drop ret.toNat).length = request.length - ret.toNat := List.length_drop
        have hrest := ih (request.drop ret.toNat)
          { s with trace := .sent (request.take ret.toNat) :: .sslWrite :: s.trace }
        rw [hlen] at hrest
        have hle : ret ≤ request.length := by omega
        simp only [hle, decide_true, Bool.true_and]
        refine wp_mono hrest (fun written t ht => ⟨ht.1, fun h => ?_⟩) (fun _ _ h => h)
        rw [ht.2 h]
        simp [sent]
      · rw [if_neg hpos]
        refine ⟨fun hretry => ?_, fun hfail => ?_⟩
        · have hagain : (decide (ret = MBEDTLS_ERR_SSL_WANT_READ) ||
              decide (ret = MBEDTLS_ERR_SSL_WANT_WRITE)) = true := by simpa using hretry
          simp only [hagain, Bool.true_and]
          exact ih request { s with trace := .sslWrite :: s.trace }
        · have hstop : (decide (ret = MBEDTLS_ERR_SSL_WANT_READ) ||
              decide (ret = MBEDTLS_ERR_SSL_WANT_WRITE)) = false := by simpa using hfail
          simp [hstop]

end WriteLoop

section Request

variable {α : Type}

-- Reading does not write.
theorem wifiTlsReadLoop_sends {σ : Type} (callback : Nat → Bytes → Nat → EStateM Halt σ Bool)
    (reads : List ReadResult) (index : Nat) (buffer : Bytes) (s : Conn σ) :
    wp (wifiTlsReadLoop callback reads index buffer) (fun _ t => sent t.tls.trace = sent s.tls.trace)
      (fun _ t => sent t.tls.trace = sent s.tls.trace) s := by
  induction reads generalizing index buffer s with
  | nil =>
      simp only [wifiTlsReadLoop, wp_bind, wp_onTls, wp_tlsLog, wp_throw]
      rfl
  | cons read reads ih =>
      unfold wifiTlsReadLoop
      rw [wp_bind, wp_onTls, wp_tlsLog]
      cases read with
      | eof => simp only [wp_bind, wp_onTls, wp_wifiTlsDisconnect, wp_pure]; rfl
      | error _ => simp only [wp_bind, wp_onTls, wp_wifiTlsDisconnect, wp_pure]; rfl
      | wantRead => exact ih index buffer _
      | wantWrite => exact ih index buffer _
      | data fragment =>
          simp only [wp_bind, wp_onTls, wp_tlsLog, wp_onClient]
          refine wp_of_forall (fun continueReading client => ?_) (fun _ _ => rfl)
          cases continueReading with
          | false => rfl
          | true => exact ih _ _ _

-- What is sent: the request, the end of the string, and three bytes that were
-- never written to.
theorem httpsSendRequest_sends (request : HttpRequest α) (replies : RequestReplies) (s : Conn (Client α))
    {host path : Bytes} (hhost : request.host = some host) (hpath : request.path = some path)
    (haccepted : ¬Refused request replies)
    (hwrites : writesAll replies.writes
      (httpGetRequestFormatString.length + host.length + path.length) = true) :
    ∃ stale, stale.length = 3 ∧ sent (final (httpsSendRequest request replies) s).tls.trace =
      sent s.tls.trace ++ (httpGetRequest path host ++ 0 :: stale) := by
  have hsends : wp (httpsSendRequest request replies)
      (fun _ t => ∃ stale, stale.length = 3 ∧
        sent t.tls.trace = sent s.tls.trace ++ (httpGetRequest path host ++ 0 :: stale))
      (fun _ t => ∃ stale, stale.length = 3 ∧
        sent t.tls.trace = sent s.tls.trace ++ (httpGetRequest path host ++ 0 :: stale)) s := by
    apply wp_httpsSendRequest (fun hearly => absurd (refused_of_returnsEarly hearly) haccepted)
      (fun _ hnull => absurd (.inr (.inl hnull)) haccepted)
    intro valid hvalid _ stale staleResponse hstale _
    rw [request_of_validate hvalid, Option.some.injEq] at hhost hpath
    subst hhost hpath
    have hlen : (httpGetRequest valid.path valid.host ++ 0 :: stale).length =
        httpGetRequestFormatString.length + valid.host.length + valid.path.length := by
      have hlen := length_tlsRequest valid.path valid.host stale
      omega
    simp only [wifiTlsSendRequest, wp_bind, wp_onTls, wp_ite, wp_pure]
    have hloop := wifiTlsWriteLoop_sends replies.writes (httpGetRequest valid.path valid.host ++ 0 :: stale)
      s.tls
    rw [hlen, hwrites] at hloop
    refine wp_mono hloop (fun written tls htls => ?_) (fun _ _ h => by cases h)
    obtain ⟨rfl, hsent⟩ := htls
    refine ⟨fun _ => ?_, fun h => absurd rfl h⟩
    have hread := wifiTlsReadLoop_sends (httpsTlsCallback valid) replies.reads 0
      (staleBlock staleResponse tlsResponseBufferSize)
      ⟨tls, s.client.start valid⟩
    exact wp_weaken hread fun t ht => ⟨stale, hstale, by rw [ht, hsent rfl]⟩
  exact final_of_wp (P := fun t : Conn (Client α) => ∃ stale, stale.length = 3 ∧
    sent t.tls.trace = sent s.tls.trace ++ (httpGetRequest path host ++ 0 :: stale)) hsends

-- So it is never the request alone.
theorem sent_ne_request (request : HttpRequest α) (replies : RequestReplies) (s : Conn (Client α))
    {host path : Bytes} (hhost : request.host = some host) (hpath : request.path = some path)
    (haccepted : ¬Refused request replies)
    (hwrites : writesAll replies.writes
      (httpGetRequestFormatString.length + host.length + path.length) = true) :
    sent (final (httpsSendRequest request replies) s).tls.trace ≠
      sent s.tls.trace ++ httpGetRequest path host := by
  obtain ⟨stale, -, hsent⟩ := httpsSendRequest_sends request replies s hhost hpath haccepted hwrites
  rw [hsent]
  simp

abbrev ValidRequest.sentLength (valid : ValidRequest α) : Nat :=
  httpGetRequestFormatString.length + valid.host.length + valid.path.length

-- A request ends before the first read, or with its reads.
theorem wp_httpsSendRequest_ends {request : HttpRequest α} {replies : RequestReplies} {s : Conn (Client α)}
    {I : ValidRequest α → Nat → Bytes → Bytes → Client α → Prop} {F : ValidRequest α → Bytes → Client α → Prop}
    {H : ValidRequest α → Halt → Bytes → Client α → Prop} {Q : HttpErr → Conn (Client α) → Prop}
    {E : Halt → Conn (Client α) → Prop}
    (hstart : ∀ valid, httpsValidateRequest request = .ok valid →
      ∀ buffer, I valid 0 [] buffer (s.client.start valid))
    (hcallback : ∀ valid, httpsValidateRequest request = .ok valid →
      ∀ index stream buffer fragment client, I valid index stream buffer client →
      StepsTo (httpsTlsCallback valid) (I valid) (F valid) (H valid) index stream buffer fragment client)
    (hearly : ReturnsEarly request replies → ∀ result, result ≠ .success → Q result s)
    (hnull : Refused request replies → E .undefined s)
    (hunwritten : ∀ valid, httpsValidateRequest request = .ok valid →
      writesAll replies.writes valid.sentLength = false →
      (∀ tls, Closed s.tls tls [] → Q .sendFailed ⟨tls, s.client.start valid⟩) ∧
      ∀ e tls, Exchanged s.tls tls [] → E e ⟨tls, s.client.start valid⟩)
    (hwritten : ∀ valid staleResponse, httpsValidateRequest request = .ok valid → ¬Refused request replies →
      writesAll replies.writes valid.sentLength = true → replies.mallocResponseBuffer = some staleResponse →
      (∀ result tls bytes client, Closed s.tls tls bytes →
        LoopReturns (httpsTlsCallback valid) (I valid) (F valid) (fragments replies.reads)
          (readEnd replies.reads) 0 [] (staleBlock staleResponse tlsResponseBufferSize) (s.client.start valid)
          result bytes client → Q (if result = 0 then .success else .sendFailed) ⟨tls, client⟩) ∧
      ∀ e tls bytes client, Exchanged s.tls tls bytes →
        LoopHalts (httpsTlsCallback valid) (I valid) (H valid) (fragments replies.reads)
          (readEnd replies.reads) 0 [] (staleBlock staleResponse tlsResponseBufferSize) (s.client.start valid)
          e bytes client → E e ⟨tls, client⟩) :
    wp (httpsSendRequest request replies) Q E s := by
  apply wp_httpsSendRequest hearly (fun _ h => hnull (.inr (.inl h)))
  intro valid hvalid hrefused stale staleResponse hstale hresponse
  have hlen : (httpGetRequest valid.path valid.host ++ 0 :: stale).length = valid.sentLength := by
    have hlen := length_tlsRequest valid.path valid.host stale
    unfold ValidRequest.sentLength
    omega
  have hloop := wp_and (wifiTlsWriteLoop_sends replies.writes
    (httpGetRequest valid.path valid.host ++ 0 :: stale) s.tls)
    (wifiTlsWriteLoop_spec replies.writes (httpGetRequest valid.path valid.host ++ 0 :: stale) s.tls)
  rw [hlen] at hloop
  simp only [wifiTlsSendRequest, wp_bind, wp_onTls, wp_ite, wp_pure]
  refine wp_mono hloop ?_ (fun e tls h => (hunwritten valid hvalid h.1).2 e tls h.2.2)
  intro written tls htls
  obtain ⟨⟨hall, -⟩, htls⟩ := htls
  cases written with
  | false => exact ⟨fun h => (by cases h), fun _ => (hunwritten valid hvalid hall.symm).1 tls htls⟩
  | true =>
      refine ⟨fun _ => ?_, fun h => absurd rfl h⟩
      have hexchanged : Exchanged s.tls tls [] := htls
      obtain ⟨hreturns, hhalts⟩ := hwritten valid staleResponse hvalid hrefused hall.symm hresponse
      refine wp_mono (wp_wifiTlsReadLoop_ends (s := ⟨tls, s.client.start valid⟩) (hcallback valid hvalid)
        replies.reads (hstart valid hvalid _)) ?_ ?_
      · intro result t ht
        obtain ⟨bytes, hclosed, ht⟩ := ht
        exact hreturns result t.tls bytes t.client (hexchanged.trans_closed hclosed) ht
      · intro e t ht
        obtain ⟨bytes, hmore, ht⟩ := ht
        exact hhalts e t.tls bytes t.client (hexchanged.trans hmore) ht

end Request

-- The request of an application that takes everything.
def exampleGet (responseMode : HttpResponseMode) : HttpRequest Unit where
  verb := HTTP_GET
  host := some (ascii "www.classycode.io")
  path := some (ascii "/esp32/ota.txt")
  responseBuffer := some (List.replicate 64 0)
  errorCallback := some fun _ _ => pure ()
  responseMode
  bodyCallback := some fun _ _ => pure .continueReceiving

def getReplies (writes : List Int) (reads : List ReadResult) : RequestReplies where
  mallocContext := true
  mallocRequestBuffer := some fun _ => 0
  mallocResponseBuffer := some fun _ => 0
  writes
  reads

theorem exampleGet_valid (responseMode : HttpResponseMode) :
    httpsValidateRequest (exampleGet responseMode) = .ok (exampleRequest responseMode) := rfl

theorem exampleGet_accepted (responseMode : HttpResponseMode) (writes : List Int)
    (reads : List ReadResult) : ¬Refused (exampleGet responseMode) (getReplies writes reads) := by
  intro hrefused
  rcases hrefused with ⟨_, h⟩ | h | h | h <;> cases h

-- Two partial writes, with a retry between them.
theorem partialWrites_ne_request :
    writesAll [46, MBEDTLS_ERR_SSL_WANT_WRITE, 14] 60 = true ∧
      sent (final (httpsSendRequest (exampleGet .streamBody)
        (getReplies [46, MBEDTLS_ERR_SSL_WANT_WRITE, 14] [])) exampleClient).tls.trace ≠
        sent exampleClient.tls.trace ++ httpGetRequest (ascii "/esp32/ota.txt") (ascii "www.classycode.io") :=
  ⟨by decide, sent_ne_request (exampleGet .streamBody) _ exampleClient rfl rfl
    (exampleGet_accepted .streamBody _ _) (by decide)⟩

theorem wire_not_request :
    ¬∀ (α : Type) (request : HttpRequest α) (replies : RequestReplies) (s : Conn (Client α))
      (host path : Bytes), request.host = some host → request.path = some path → path ≠ [] →
      ¬Refused request replies →
      writesAll replies.writes (httpGetRequestFormatString.length + host.length + path.length) = true →
      sent (final (httpsSendRequest request replies) s).tls.trace =
        sent s.tls.trace ++ httpGetRequest path host := by
  intro h
  have hsent := h Unit (exampleGet .streamBody) (getReplies [60] []) exampleClient
    (ascii "www.classycode.io") (ascii "/esp32/ota.txt") rfl rfl (by decide)
    (exampleGet_accepted .streamBody [60] []) (by decide)
  exact absurd hsent (by decide +kernel)

end Esp32Ota

import Esp32Ota.Lib.Trace
import Esp32Ota.IapHttps.Step

-- Application data and the connection it goes over.
namespace Esp32Ota

open CLib Halting Trace

-- The latest connect has returned 0, after a handshake on the socket that it
-- opened, and only application data has followed.
def Verified (trace : List TlsEvent) : Prop :=
  ∃ data socket earlier, trace = data ++ connectEvents false socket ++ earlier ∧
    ∀ event ∈ data, event.isData = true

-- Every `mbedtls_ssl_write` and `mbedtls_ssl_read` is called on a verified connection.
def OnlyVerifiedData (trace : List TlsEvent) : Prop :=
  Justified (fun call earlier => call = .sslWrite ∨ call = .sslRead → Verified earlier) trace

theorem OnlyVerifiedData.append_noData {events trace : List TlsEvent} (h : OnlyVerifiedData trace)
    (hquiet : NoData events) : OnlyVerifiedData (events ++ trace) := by
  refine Justified.append h fun event he earlier hcall => ?_
  have hevent := hquiet event he
  rcases hcall with rfl | rfl <;> cases hevent

theorem Verified.append {data trace : List TlsEvent} (h : Verified trace)
    (hdata : ∀ event ∈ data, event.isData = true) : Verified (data ++ trace) := by
  obtain ⟨data', socket, earlier, rfl, hdata'⟩ := h
  refine ⟨data ++ data', socket, earlier, by simp only [List.append_assoc], ?_⟩
  intro event he
  exact (List.mem_append.mp he).elim (hdata event) (hdata' event)

theorem OnlyVerifiedData.append_data {data trace : List TlsEvent} (h : OnlyVerifiedData trace)
    (hverified : Verified trace) (hdata : ∀ event ∈ data, event.isData = true) :
    OnlyVerifiedData (data ++ trace) := by
  induction data with
  | nil => exact h
  | cons event data ih =>
      have hrest := fun e he => hdata e (List.mem_cons_of_mem event he)
      exact Justified.cons (ih hrest) fun _ => hverified.append hrest

theorem not_onlyVerifiedData {more trace : List TlsEvent} (h : ¬Verified trace) :
    ¬OnlyVerifiedData (more ++ .sslWrite :: trace) :=
  fun honly => h (honly more .sslWrite trace rfl (.inl rfl))

-- A connect verifies its socket if it returns 0 and has made a handshake.
theorem Connected.verified_iff {replies : ConnectReplies} {s t : Tls} {result : Int}
    (h : Connected replies s t result) : Verified t.trace ↔ result = 0 ∧ s.resumes = false := by
  have hhead : ∀ {event : TlsEvent} {rest : List TlsEvent}, event.isData = false →
      Verified (event :: rest) → ∃ socket earlier, event :: rest = connectEvents false socket ++ earlier := by
    intro event rest hevent hhead
    obtain ⟨data, socket, earlier, heq, hdata⟩ := hhead
    cases data with
    | nil => exact ⟨socket, earlier, heq⟩
    | cons first data =>
        obtain ⟨rfl, -⟩ := List.cons.inj heq
        exact absurd (hdata event List.mem_cons_self) (by simp [hevent])
  cases h with
  | accepted socket hresult _ _ _ trace =>
      cases hresumes : s.resumes with
      | false =>
          rw [hresumes] at trace
          exact iff_of_true ⟨[], socket, s.trace, trace, by simp⟩ ⟨hresult, rfl⟩
      | true =>
          rw [hresumes] at trace
          refine iff_of_false (fun hverified => ?_) (fun h => by cases h.2)
          rw [trace] at hverified
          obtain ⟨socket', earlier, heq⟩ := hhead rfl hverified
          simp [connectEvents, handshakeEvents] at heq
  | failed events hresult _ _ trace _ =>
      refine iff_of_false (fun hverified => ?_) (fun h => hresult h.1)
      rw [trace] at hverified
      obtain ⟨socket, earlier, heq⟩ := hhead rfl hverified
      simp [connectEvents, hresult] at heq

section Request

variable {request : HttpRequest App} {replies : RequestReplies} {s : Updater}

theorem httpsSendRequest_refused (h : Refused request replies) :
    wp (httpsSendRequest request replies) (fun _ t => t = s) (fun _ t => t = s) s :=
  wp_httpsSendRequest (fun _ _ _ => rfl) (fun _ _ => rfl) fun _ _ hnot => absurd h hnot

-- Reads and writes, then perhaps a disconnect.
theorem httpsSendRequest_exchanges (request : HttpRequest App) (replies : RequestReplies) (s : Updater) :
    wp (httpsSendRequest request replies)
      (fun _ t => t = s ∨ ∃ bytes, Closed s.tls t.tls bytes)
      (fun _ t => t = s ∨ ∃ bytes, Exchanged s.tls t.tls bytes) s := by
  have hanything : ∀ valid : ValidRequest App,
      Handles valid (fun _ => True) (fun _ _ => True) (fun _ _ _ => True) := fun valid =>
    ⟨fun _ _ _ _ _ => wp_of_forall (fun _ _ => ⟨fun _ => trivial, fun _ => trivial⟩)
      (fun _ _ => trivial), fun _ _ _ _ => wp_of_forall (fun _ _ => trivial) (fun _ _ => trivial),
      fun _ _ _ _ _ => wp_of_forall (fun _ _ => trivial) (fun _ _ => trivial), fun _ _ _ => trivial,
      fun _ _ _ _ _ => trivial⟩
  apply wp_mono (httpsSendRequest_handled replies trivial fun valid _ => hanything valid)
  · exact fun _ t ht => ht.imp_right fun ⟨bytes, _, h⟩ => ⟨bytes, h⟩
  · exact fun _ t ht => ht.imp_right fun ⟨bytes, _, h⟩ => ⟨bytes, h⟩

theorem httpsSendRequest_verified (request : HttpRequest App) (replies : RequestReplies)
    (honly : OnlyVerifiedData s.tls.trace) (hverified : Verified s.tls.trace) :
    wp (httpsSendRequest request replies) (fun _ t => OnlyVerifiedData t.tls.trace)
      (fun _ t => OnlyVerifiedData t.tls.trace) s := by
  apply wp_mono (httpsSendRequest_exchanges request replies s)
  · intro _ t ht
    rcases ht with rfl | ⟨bytes, hclosed⟩
    · exact honly
    · obtain ⟨data, htrace, hdata, -⟩ := hclosed.trace
      rw [htrace]
      exact Justified.cons (honly.append_data hverified hdata) (by simp)
  · intro _ t ht
    rcases ht with rfl | ⟨bytes, hexchanged⟩
    · exact honly
    · obtain ⟨data, htrace, hdata, -⟩ := hexchanged.trace
      rw [htrace]
      exact honly.append_data hverified hdata

-- The first thing that happens to a request is a write.
def HasWritten (s t : Tls) : Prop := ∃ more, t.trace = more ++ .sslWrite :: s.trace

theorem HasWritten.exchanged {s t u : Tls} {bytes : Bytes} (h : HasWritten s t) (htu : Exchanged t u bytes) :
    HasWritten s u := by
  obtain ⟨more, htrace⟩ := h
  obtain ⟨data, htrace', -⟩ := htu.trace
  exact ⟨data ++ more, by rw [htrace', htrace, List.append_assoc]⟩

theorem HasWritten.closed {s t u : Tls} {bytes : Bytes} (h : HasWritten s t) (htu : Closed t u bytes) :
    HasWritten s u := by
  obtain ⟨more, htrace⟩ := h
  obtain ⟨data, htrace', -⟩ := htu.trace
  exact ⟨.reset :: data ++ more, by rw [htrace', htrace, List.append_assoc]⟩

theorem wifiTlsWriteLoop_hasWritten (rets : List Int) {request : Bytes} (hne : request.length ≠ 0) (s : Tls) :
    wp (wifiTlsWriteLoop rets request) (fun _ t => HasWritten s t) (fun _ t => HasWritten s t) s := by
  have hcall : HasWritten s { s with trace := .sslWrite :: s.trace } := ⟨[], rfl⟩
  have hloop : ∀ rets request t, HasWritten s t →
      wp (wifiTlsWriteLoop rets request) (fun _ u => HasWritten s u) (fun _ u => HasWritten s u) t := by
    intro rets request t ht
    refine wp_mono (wifiTlsWriteLoop_spec rets request t) ?_ (fun _ u hu => ht.exchanged hu.2)
    intro written u hu
    cases written with
    | true => exact ht.exchanged hu
    | false => exact ht.closed hu
  cases rets with
  | nil =>
      simp only [wifiTlsWriteLoop, wp_bind, wp_ite, wp_pure, wp_tlsLog, wp_throw]
      exact ⟨fun hnil => absurd hnil hne, fun _ => hcall⟩
  | cons ret rets =>
      simp only [wifiTlsWriteLoop, wp_bind, wp_ite, wp_pure, wp_tlsLog, wp_throw, wp_wifiTlsDisconnect]
      refine ⟨fun hnil => absurd hnil hne, fun _ => ⟨fun _ => ⟨fun _ => hcall, fun _ => ?_⟩,
        fun _ => ⟨fun _ => hloop _ _ _ hcall, fun _ => ⟨[.reset], rfl⟩⟩⟩⟩
      exact hloop _ _ _ ⟨[.sent (request.take ret.toNat)], rfl⟩

theorem httpsSendRequest_hasWritten (h : ¬Refused request replies) :
    wp (httpsSendRequest request replies) (fun _ t => HasWritten s.tls t.tls)
      (fun _ t => HasWritten s.tls t.tls) s := by
  apply wp_httpsSendRequest (fun hearly => absurd (refused_of_returnsEarly hearly) h)
    (fun _ hnull => absurd (.inr (.inl hnull)) h)
  intro valid _ _ stale staleResponse _ _
  simp only [wifiTlsSendRequest, wp_bind, wp_onTls, wp_ite, wp_pure]
  refine wp_mono (wifiTlsWriteLoop_hasWritten replies.writes (by simp) s.tls) ?_ (fun _ _ htls => htls)
  refine fun written tls htls => ⟨fun _ => ?_, fun _ => htls⟩
  have hloop := @wp_wifiTlsReadLoop _ (httpsTlsCallback valid) (fun _ _ _ _ => True) (fun _ _ => True)
    (fun _ _ _ => True)
    (fun _ _ _ _ _ _ => wp_of_forall (fun _ _ => ⟨fun _ => trivial, fun _ => trivial⟩) (fun _ _ => trivial))
    (fun _ _ _ _ _ => trivial) (fun _ _ _ _ _ => trivial) replies.reads 0 []
    (staleBlock staleResponse tlsResponseBufferSize)
    ⟨tls, s.client.start valid⟩ trivial
  apply wp_mono hloop
  · intro _ t ht
    obtain ⟨bytes, -, hclosed⟩ := ht
    exact htls.closed hclosed
  · intro _ t ht
    obtain ⟨bytes, -, hexchanged⟩ := ht
    exact htls.exchanged hexchanged

end Request

section Steps

variable {s : Updater}

-- No request, or one after a connect that returns 0 on a context of its own.
-- A check makes no request after any other connect, but a download does.
def UpdaterStep.Verifies (s : Updater) : UpdaterStep → Prop
  | .checkForUpdate script =>
      Refused (httpMetadataRequest s.client.app) script.request ∨
        ¬script.connect.Accepts s.tls ∨ s.tls.resumes = false
  | .downloadImage platform script =>
      Refused (httpFirmwareDataRequest platform s.client.app) script.request ∨
        script.connect.Hangs s.tls ∨ script.connect.Accepts s.tls ∧ s.tls.resumes = false

-- A connect itself leaves no data behind.
theorem OnlyVerifiedData.silent {s t : Tls} (h : OnlyVerifiedData s.trace) (hst : Silent s t) :
    OnlyVerifiedData t.trace := by
  obtain ⟨events, htrace, hquiet⟩ := hst
  rw [htrace]
  exact h.append_noData hquiet

theorem wifiTlsConnect_verifies (replies : ConnectReplies) (s : Tls) :
    wp (wifiTlsConnect replies) (fun result t => Silent s t ∧ ¬replies.Hangs s ∧
      (result = 0 ↔ replies.Accepts s) ∧ (Verified t.trace ↔ replies.Accepts s ∧ s.resumes = false))
      (fun _ t => Silent s t ∧ replies.Hangs s) s := by
  refine wp_mono (wp_and (wifiTlsConnect_spec replies s) (wifiTlsConnect_result replies s)) ?_
    (fun _ _ h => h)
  intro result t ht
  obtain ⟨hconnected, hresult, hreturns⟩ := ht
  exact ⟨hconnected.silent, hreturns, hresult, by rw [hconnected.verified_iff, hresult]⟩

theorem step_verifies (step : UpdaterStep) (s : Updater) (honly : OnlyVerifiedData s.tls.trace)
    (hstep : step.Verifies s) :
    wp step.run (fun _ t => OnlyVerifiedData t.tls.trace) (fun _ t => OnlyVerifiedData t.tls.trace) s := by
  cases step with
  | checkForUpdate script =>
      simp only [UpdaterStep.run, iapHttpsCheckForUpdate, wp_bind, wp_onTls, wp_ite, wp_get, wp_pure]
      refine wp_mono (wifiTlsConnect_verifies script.connect s.tls) ?_ (fun _ _ ht => honly.silent ht.1)
      intro result tls h
      obtain ⟨hsilent, -, hresult, hverified⟩ := h
      have honly := honly.silent hsilent
      refine ⟨fun hzero => ?_, fun _ => honly⟩
      rcases hstep with hrefused | hfails | hfresh
      · exact wp_weaken (httpsSendRequest_refused hrefused) fun t ht => ht ▸ honly
      · exact absurd (hresult.mp hzero) hfails
      · exact httpsSendRequest_verified (s := { s with tls }) _ script.request honly
          (hverified.mpr ⟨hresult.mp hzero, hfresh⟩)
  | downloadImage platform script =>
      simp only [UpdaterStep.run, iapHttpsDownloadImage, wp_bind, wp_onTls, wp_onClient, wp_onApp, wp_modify,
        wp_get, wp_pure]
      refine wp_mono (wifiTlsConnect_verifies script.connect s.tls) ?_ (fun _ _ ht => honly.silent ht.1)
      intro result tls h
      obtain ⟨hsilent, hreturns, -, hverified⟩ := h
      have honly := honly.silent hsilent
      rcases hstep with hrefused | hhangs | haccepts
      · exact wp_weaken (httpsSendRequest_refused hrefused) fun t ht => ht ▸ honly
      · exact absurd hhangs hreturns
      · exact httpsSendRequest_verified (s := { s with tls, client.app := s.client.app.newAttempt }) _
          script.request honly (hverified.mpr haccepts)

theorem step_unverified (step : UpdaterStep) (s : Updater) (hstep : ¬step.Verifies s) :
    wp step.run (fun _ t => ¬OnlyVerifiedData t.tls.trace) (fun _ t => ¬OnlyVerifiedData t.tls.trace) s := by
  have hbreak : ∀ t u : Tls, ¬Verified t.trace → HasWritten t u → ¬OnlyVerifiedData u.trace := by
    intro t u hverified hwritten
    obtain ⟨more, htrace⟩ := hwritten
    rw [htrace]
    exact not_onlyVerifiedData hverified
  cases step with
  | checkForUpdate script =>
      simp only [UpdaterStep.Verifies, not_or, not_not] at hstep
      obtain ⟨hrefused, haccepts, hresumes⟩ := hstep
      simp only [UpdaterStep.run, iapHttpsCheckForUpdate, wp_bind, wp_onTls, wp_ite, wp_get, wp_pure]
      refine wp_mono (wifiTlsConnect_verifies script.connect s.tls) ?_
        (fun _ _ ht => absurd ht.2 haccepts.not_hangs)
      intro result tls hpost
      obtain ⟨-, -, hresult, hverified⟩ := hpost
      have hunverified : ¬Verified tls.trace := fun h => hresumes (hverified.mp h).2
      refine ⟨fun _ => ?_, fun hne => absurd (hresult.mpr haccepts) hne⟩
      exact wp_weaken (httpsSendRequest_hasWritten (s := { s with tls }) hrefused)
        fun _ ht => hbreak _ _ hunverified ht
  | downloadImage platform script =>
      simp only [UpdaterStep.Verifies, not_or] at hstep
      obtain ⟨hrefused, hreturns, hunverified⟩ := hstep
      simp only [UpdaterStep.run, iapHttpsDownloadImage, wp_bind, wp_onTls, wp_onClient, wp_onApp, wp_modify,
        wp_get, wp_pure]
      refine wp_mono (wifiTlsConnect_verifies script.connect s.tls) ?_ (fun _ _ ht => absurd ht.2 hreturns)
      intro result tls hpost
      obtain ⟨-, -, -, hverified⟩ := hpost
      rw [← hverified] at hunverified
      exact wp_weaken (httpsSendRequest_hasWritten (s := { s with tls, client.app := s.client.app.newAttempt })
        hrefused) fun _ ht => hbreak _ _ hunverified ht

end Steps

-- Up to every point of a run, exactly as long as all steps verify.
theorem onlyVerifiedData_iff (partition : Partition) (config : IapHttpsConfig)
    (metadataBuffer firmwareBuffer : Malloc) (steps : List UpdaterStep) :
    (∀ n, OnlyVerifiedData (final (run UpdaterStep.run (steps.take n))
      (iapHttpsInit partition config metadataBuffer firmwareBuffer)).tls.trace) ↔
    Along UpdaterStep.run (fun s step => step.Verifies s) steps
      (iapHttpsInit partition config metadataBuffer firmwareBuffer) := by
  have hinit : OnlyVerifiedData (iapHttpsInit partition config metadataBuffer firmwareBuffer).tls.trace :=
    justified_nil
  rw [← run_iff_along UpdaterStep.run (R := fun _ _ => True) (I := fun s : Updater => OnlyVerifiedData s.tls.trace)
    (fun step s hs _ hp => step_verifies step s hs hp) (fun step s _ hp => step_unverified step s hp)
    (fun _ h => h) steps _ hinit (along_true UpdaterStep.run steps _)]
  refine forall_congr' fun n => ⟨fun h => ?_, fun h => ?_⟩
  · exact wp_of_final (P := fun s : Updater => OnlyVerifiedData s.tls.trace) h
  · exact final_of_wp (P := fun s : Updater => OnlyVerifiedData s.tls.trace) h

-- The server is out of reach, and the download is requested all the same.
theorem unverified_write :
    ¬∀ (partition : Partition) (config : IapHttpsConfig) (metadataBuffer firmwareBuffer : Malloc)
      (steps : List UpdaterStep),
      OnlyVerifiedData (final (run UpdaterStep.run steps)
        (iapHttpsInit partition config metadataBuffer firmwareBuffer)).tls.trace := by
  intro h
  have honly := h ⟨"factory", 0x10000⟩ (exampleConfig true) (some fun _ => 0) (some fun _ => 0)
    [.downloadImage (fun _ => exampleFirmwareReplies ⟨ESP_OK, ESP_OK, ESP_OK⟩)
      ⟨{ exampleConnect with netConnect := -1 }, ⟨true, some fun _ => 0, some fun _ => 0, [-1], []⟩⟩]
  obtain ⟨data, socket, earlier, heq, -⟩ := honly [.reset] .sslWrite [.connectReturned (-1), .reset]
    (by decide +kernel) (.inl rfl)
  have hlen := congrArg List.length heq
  simp only [connectEvents, handshakeEvents, List.length_append, List.length_cons, List.length_nil,
    Bool.false_eq_true, ite_false] at hlen
  omega

end Esp32Ota

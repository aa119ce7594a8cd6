import Esp32Ota.HttpsClient.WholeBody
import Esp32Ota.IapHttps.Decision
import Esp32Ota.IapHttps.Progress
import Esp32Ota.IapHttps.Setup

-- What a check makes of the answers of the network, for all of them.
namespace Esp32Ota

open CLib Halting

-- The server is who it should be, and the request for the metadata is written.
structure Script.Asks (script : Script) (s : Updater) : Prop where
  connects : script.connect.Accepts s.tls
  accepted : ¬Refused (httpMetadataRequest s.client.app) script.request
  writes : writesAll script.request.writes (httpGetRequestFormatString.length +
    s.client.app.config.serverHostName.length + (cstr s.client.app.config.serverMetadataPath).length) = true

def App.withDocument (document : Bytes) (s : App) : App :=
  s.withMetadata (httpParseKeyValueInt document (ascii "INTERVAL="))
    (httpParseKeyValueInt document (ascii "VERSION=")) (httpParseKeyValueString document (ascii "FILE=") 256)

-- A document changes the application, and nothing else does.
def App.withDocuments (documents : Option Bytes) (s : App) : App := (documents.map s.withDocument).getD s

section Check

variable {script : Script} {s : Updater}

-- The application is the one that the documents make.
theorem metadata_callsOnce {valid : ValidRequest App} (hbody : valid.bodyCallback = iapHttpsMetadataBodyCallback)
    (herror : valid.errorCallback = iapHttpsErrorCallback) {s : Client App} (hs : s.events = []) :
    CallsOnce valid s (fun t => t.app = s.app.withDocuments (documents t.events).head?)
      (fun _ t => t.app = s.app.withDocuments (documents t.events).head?) := by
  have hsame : ∀ t, Uncalled s t → t.app = s.app.withDocuments (documents t.events).head? := fun t ht => by
    rw [ht.app, ht.events, hs]
    rfl
  refine ⟨hsame, fun _ => hsame, fun n t ht => ?_, fun _ _ t ht => ?_⟩
  · rw [wp_invokeBodyCallback, hbody, wp_iapHttpsMetadataBodyCallback, ht.app]
    rfl
  · rw [wp_invokeErrorCallback, herror]
    exact hsame t ht

-- What the reads of a check hand over, and what comes of it.
structure Computed (document : Option Bytes) (s : App) (t : Client App) : Prop where
  app : t.app = s.withDocuments document
  handsOver : HandsOver document t

theorem httpsSendRequest_document (hask : script.Asks s) {tls : Tls} {buffer : Bytes}
    (hbuffer : s.client.app.metadataBuffer = some buffer) (hsize : buffer.length ≤ tlsResponseBufferSize)
    {stale : Nat → UInt8} (hstale : script.request.mallocResponseBuffer = some stale) :
    wp (httpsSendRequest (httpMetadataRequest s.client.app) script.request)
      (fun _ t => Computed (wholeBody buffer.length [] (staleBlock stale tlsResponseBufferSize)
        (fragments script.request.reads)) s.client.app t.client)
      (fun _ t => Computed (wholeBody buffer.length [] (staleBlock stale tlsResponseBufferSize)
        (fragments script.request.reads)) s.client.app t.client)
      ⟨tls, s.client⟩ := by
  apply wp_httpsSendRequest (fun hearly => absurd (refused_of_returnsEarly hearly) hask.accepted)
    (fun _ hnull => absurd (.inr (.inl hnull)) hask.accepted)
  intro valid hvalid _ staleRequest staleResponse hrequest hresponse
  rw [hstale, Option.some.injEq] at hresponse
  subst hresponse
  have hfields := request_of_validate hvalid
  have hhost := congrArg HttpRequest.host hfields
  have hpath := congrArg HttpRequest.path hfields
  have hresponse := congrArg HttpRequest.responseBuffer hfields
  have hmode := congrArg HttpRequest.responseMode hfields
  have hbody := congrArg HttpRequest.bodyCallback hfields
  have herror := congrArg HttpRequest.errorCallback hfields
  simp only [httpMetadataRequest, Option.some.injEq] at hhost hpath hresponse hmode hbody herror
  rw [hbuffer, Option.some.injEq] at hresponse
  have hlen : (httpGetRequest valid.path valid.host ++ 0 :: staleRequest).length =
      httpGetRequestFormatString.length + s.client.app.config.serverHostName.length +
        (cstr s.client.app.config.serverMetadataPath).length := by
    have hlen := length_tlsRequest valid.path valid.host staleRequest
    rw [hhost, hpath]
    omega
  have hloop := wifiTlsWriteLoop_sends script.request.writes (httpGetRequest valid.path valid.host ++ 0 :: staleRequest)
    tls
  rw [hlen, hask.writes] at hloop
  simp only [wifiTlsSendRequest, wp_bind, wp_onTls, wp_ite, wp_pure]
  refine wp_mono hloop (fun written tls htls => ?_) (fun _ _ hnot => by cases hnot)
  obtain ⟨rfl, -⟩ := htls
  refine ⟨fun _ => ?_, fun hnot => absurd rfl hnot⟩
  have hlength : (s.client.start valid).responseBuffer.length = buffer.length := by rw [hresponse]; rfl
  have hlarge : buffer.length ≤ (staleBlock stale tlsResponseBufferSize).length := by rwa [length_staleBlock]
  have hreads : ∀ fragment ∈ fragments script.request.reads,
      fragment.length ≤ (staleBlock stale tlsResponseBufferSize).length := fun fragment hfragment => by
    rw [length_staleBlock]
    exact (length_of_fragments _ fragment hfragment).2
  have hboth := wp_and
    (feed_wholeBody hmode.symm (fragments script.request.reads) (staleBlock stale tlsResponseBufferSize) hlength
      hlarge hreads (awaiting_start (s.client.start valid)) rfl rfl)
    (feed_once hmode.symm (metadata_callsOnce hbody.symm herror.symm (s := s.client.start valid) rfl)
      (fragments script.request.reads) 0 (staleBlock stale tlsResponseBufferSize) ⟨rfl, rfl⟩)
  refine wp_of_final (P := fun t : Updater => Computed _ s.client.app t.client) ?_
  rw [client_of_feed]
  refine final_of_wp (P := Computed _ s.client.app) (wp_weaken hboth fun t ht => ?_)
  obtain ⟨hhands, happ⟩ := ht
  refine ⟨?_, hhands⟩
  rw [happ, hhands, Option.head?_toList]
  rfl

-- The buffer is that of the request, which nothing replaces.
theorem buffer_of_accepted {metadataBuffer : Malloc}
    (hbuffer : s.client.app.metadataBuffer = metadataBuffer.map fun stale => staleBlock stale 512)
    (haccepted : ¬Refused (httpMetadataRequest s.client.app) script.request) :
    ∃ buffer, s.client.app.metadataBuffer = some buffer ∧ buffer.length = 512 := by
  cases hvalid : httpsValidateRequest (httpMetadataRequest s.client.app) with
  | error error => exact absurd (.inl ⟨error, hvalid⟩) haccepted
  | ok valid =>
      have hresponse : s.client.app.metadataBuffer = some valid.responseBuffer :=
        congrArg HttpRequest.responseBuffer (request_of_validate hvalid)
      refine ⟨_, hresponse, ?_⟩
      rw [hresponse] at hbuffer
      obtain ⟨stale, -, hstale⟩ := Option.map_eq_some_iff.mp hbuffer.symm
      rw [← hstale, length_staleBlock]

theorem iapHttpsCheckForUpdate_document (hask : script.Asks s) {metadataBuffer : Malloc}
    (hbuffer : s.client.app.metadataBuffer = metadataBuffer.map fun stale => staleBlock stale 512)
    {stale : Nat → UInt8} (hstale : script.request.mallocResponseBuffer = some stale) :
    wp (iapHttpsCheckForUpdate script)
      (fun _ t => Computed (wholeBody 512 [] (staleBlock stale tlsResponseBufferSize)
        (fragments script.request.reads)) s.client.app t.client)
      (fun _ t => Computed (wholeBody 512 [] (staleBlock stale tlsResponseBufferSize)
        (fragments script.request.reads)) s.client.app t.client) s := by
  obtain ⟨buffer, hbuffer, hsize⟩ := buffer_of_accepted hbuffer hask.accepted
  simp only [iapHttpsCheckForUpdate, wp_bind, wp_onTls, wp_ite, wp_get, wp_pure]
  refine wp_mono (wifiTlsConnect_result script.connect s.tls) (fun result tls hresult => ?_)
    (fun _ _ hhangs => absurd hhangs hask.connects.not_hangs)
  refine ⟨fun _ => ?_, fun hfailed => absurd (hresult.1.mpr hask.connects) hfailed⟩
  rw [← hsize]
  exact httpsSendRequest_document hask hbuffer (by rw [hsize]; decide) hstale

-- A request that is not written leaves the application alone.
theorem httpsSendRequest_unasked (hask : ¬script.Asks s) (hconnects : script.connect.Accepts s.tls) {tls : Tls} :
    wp (httpsSendRequest (httpMetadataRequest s.client.app) script.request)
      (fun _ t => t.client.app = s.client.app) (fun _ t => t.client.app = s.client.app) ⟨tls, s.client⟩ := by
  refine wp_httpsSendRequest (fun _ _ _ => by rfl) (fun _ _ => by rfl) ?_
  intro valid hvalid haccepted staleRequest _ hrequest _
  have hfields := request_of_validate hvalid
  have hhost := congrArg HttpRequest.host hfields
  have hpath := congrArg HttpRequest.path hfields
  simp only [httpMetadataRequest, Option.some.injEq] at hhost hpath
  have hlen : (httpGetRequest valid.path valid.host ++ 0 :: staleRequest).length =
      httpGetRequestFormatString.length + s.client.app.config.serverHostName.length +
        (cstr s.client.app.config.serverMetadataPath).length := by
    have hlen := length_tlsRequest valid.path valid.host staleRequest
    rw [hhost, hpath]
    omega
  have hloop := wifiTlsWriteLoop_sends script.request.writes (httpGetRequest valid.path valid.host ++ 0 :: staleRequest)
    tls
  rw [hlen] at hloop
  simp only [wifiTlsSendRequest, wp_bind, wp_onTls, wp_ite, wp_pure]
  refine wp_mono hloop (fun written tls htls => ⟨fun hwritten => ?_, fun _ => rfl⟩) (fun _ _ _ => rfl)
  exact absurd ⟨hconnects, haccepted, htls.1 ▸ hwritten⟩ hask

-- The callback does not hold up a check, so that one that does not return has not made it.
theorem iapHttpsCheckForUpdate_quiet (hs : s.client.events = []) :
    wp (iapHttpsCheckForUpdate script) (fun _ _ => True) (fun _ t => documents t.client.events = []) s := by
  simp only [iapHttpsCheckForUpdate, wp_bind, wp_onTls, wp_ite, wp_get, wp_pure]
  have hnone : documents s.client.events = [] := by rw [hs]; rfl
  refine wp_mono (wifiTlsConnect_spec script.connect s.tls) ?_ (fun _ _ _ => hnone)
  refine fun _ tls _ => ⟨fun _ => ?_, fun _ => trivial⟩
  have hcalls : ∀ valid, httpsValidateRequest (httpMetadataRequest s.client.app) = .ok valid →
      CallsOnce valid (s.client.start valid) (fun _ => True) (fun _ t => documents t.events = []) := by
    intro valid hvalid
    obtain ⟨hbody, herror⟩ := callbacks_of_validate hvalid
    simp only [httpMetadataRequest, Option.some.injEq] at hbody herror
    refine ⟨fun _ _ => trivial, fun _ t ht => ?_, fun n t _ => ?_, fun _ _ t _ => ?_⟩
    · rw [ht.events]
      rfl
    · rw [wp_invokeBodyCallback, ← hbody, wp_iapHttpsMetadataBodyCallback]
      trivial
    · rw [wp_invokeErrorCallback, ← herror]
      trivial
  refine wp_mono (httpsSendRequest_once (s := ⟨tls, s.client⟩) script.request rfl hcalls) (fun _ _ _ => trivial) ?_
  intro _ t ht
  rcases ht with rfl | ht
  · exact hnone
  · exact ht

theorem iapHttpsCheckForUpdate_returns (hask : script.Asks s) {metadataBuffer : Malloc}
    (hbuffer : s.client.app.metadataBuffer = metadataBuffer.map fun stale => staleBlock stale 512)
    {stale : Nat → UInt8} (hstale : script.request.mallocResponseBuffer = some stale) (hs : s.client.events = [])
    {document : Bytes} (hdocument : wholeBody 512 [] (staleBlock stale tlsResponseBufferSize)
      (fragments script.request.reads) = some document) :
    wp (iapHttpsCheckForUpdate script) (fun _ t => t.client.app = s.client.app.withDocument document)
      (fun _ _ => False) s := by
  apply wp_mono (wp_and (iapHttpsCheckForUpdate_document hask hbuffer hstale) (iapHttpsCheckForUpdate_quiet hs))
  · intro _ t ht
    rw [ht.1.app, hdocument]
    rfl
  · intro _ t ht
    have hhands := ht.1.handsOver
    rw [hdocument, HandsOver, ht.2] at hhands
    cases hhands

end Check

-- After any history of checks and downloads, and whatever the network answers: the document is cut
-- out of the reads alone, and what the check does to the application is what the document says.
theorem check_computes (partition : Partition) (config : IapHttpsConfig) (metadataBuffer firmwareBuffer : Malloc)
    (steps : List UpdaterStep) {s t : Updater}
    (hrun : run UpdaterStep.run steps (iapHttpsInit partition config metadataBuffer firmwareBuffer) = .ok ⟨⟩ s)
    (script : Script) (ht : final (iapHttpsCheckForUpdate script) s = t) :
    (script.Asks s → ∀ stale ∈ script.request.mallocResponseBuffer, t.client.app = s.client.app.withDocuments
      (wholeBody 512 [] (staleBlock stale tlsResponseBufferSize) (fragments script.request.reads))) ∧
    (¬script.Asks s → t.client.app = s.client.app) := by
  have hsetup : SameSetup (iapHttpsInit partition config metadataBuffer firmwareBuffer).client.app s.client.app :=
    wp_ok (x := run UpdaterStep.run steps) (updater_setup steps _) hrun
  subst ht
  refine ⟨fun hask stale hstale => ?_, fun hask => ?_⟩
  · have hbuffer := hsetup.metadataBuffer
    exact (final_of_wp (iapHttpsCheckForUpdate_document hask hbuffer hstale)).app
  · apply final_of_wp (P := fun t : Updater => t.client.app = s.client.app)
    simp only [iapHttpsCheckForUpdate, wp_bind, wp_onTls, wp_ite, wp_get, wp_pure]
    refine wp_mono (wifiTlsConnect_result script.connect s.tls) (fun result tls hresult => ?_) (fun _ _ _ => trivial)
    exact ⟨fun hzero => httpsSendRequest_unasked hask (hresult.1.mp hzero), fun _ => trivial⟩

theorem exampleScript_asks (reads : List ReadResult) {s : Updater}
    (hbuffer : s.client.app.metadataBuffer.isSome = true)
    (hhost : s.client.app.config.serverHostName = ascii "www.classycode.io")
    (hpath : cstr s.client.app.config.serverMetadataPath = ascii "/ota.txt") :
    (exampleScript exampleConnect reads).Asks s := by
  obtain ⟨buffer, hbuffer⟩ := Option.isSome_iff_exists.mp hbuffer
  refine ⟨exampleConnect_accepts _, ?_, ?_⟩
  · simp [Refused, httpsValidateRequest, httpMetadataRequest, hbuffer, hpath, exampleScript, ascii]
  · rw [hhost, hpath]
    show writesAll [54] _ = true
    decide

-- A document with another version, behind its headers.
def exampleMetadataScript : Script :=
  exampleScript exampleConnect [.data shortHeader, .data ⟨exampleMetadata, by decide⟩]

-- Behind a download that has been cut off.
theorem check_of_exampleMetadata :
    ∃ s, run UpdaterStep.run [cutDownload] (exampleUpdater ⟨"factory", 0x10000⟩ false) = .ok ⟨⟩ s ∧
      s.client.app.hasIapSession = true ∧
      (final (iapHttpsCheckForUpdate exampleMetadataScript) s).client.app = s.client.app.withDocuments
        (wholeBody 512 [] (staleBlock (fun _ => 0) tlsResponseBufferSize)
          (fragments exampleMetadataScript.request.reads)) := by
  obtain ⟨s, hcut, hs⟩ := cutDownload_leaves_session false
  have hrun := run_singleton_ok UpdaterStep.run hcut
  have hcheck := check_computes ⟨"factory", 0x10000⟩ (exampleConfig false) (some fun _ => 0) (some fun _ => 0)
    [cutDownload] hrun exampleMetadataScript rfl
  exact ⟨s, hrun, hs.hasIapSession,
    hcheck.1 (exampleScript_asks _ hs.metadataBuffer hs.host hs.metadataPath) _ rfl⟩

end Esp32Ota

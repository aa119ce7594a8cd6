import Esp32Ota.HttpsClient.Consumer
import Esp32Ota.IapHttps.Attempt
import Esp32Ota.IapHttps.Progress
import Esp32Ota.IapHttps.Setup

-- From the server to the flash: a download that nothing disturbs installs the image of the response.
namespace Esp32Ota

open CLib Halting

-- Every ESP-IDF call of the attempt succeeds.
structure PlatformSucceeds (platform : Nat → FirmwareReplies) (s : App) : Prop where
  opens : BeginSucceeds ((platform s.nofCallbacks).opening s.device) s.device.bootPartition
  writes : ∀ k i, (platform k).write i = ESP_OK
  flush : ∀ k, (platform k).commit.otaWrite = ESP_OK
  commits : ∀ k, (platform k).commit.Succeeds

-- The image has been written to a session of its own and activated, and this has been reported.
structure InstalledImage (platform : Nat → FirmwareReplies) (s : App) (image : Bytes) (t : App) : Prop where
  installs : Installs ((platform s.nofCallbacks).opening s.device) s.device.bootPartition
    ((platform s.nofCallbacks).leftover s.device ++ s.device.trace) image
    (if s.config.autoReboot then [.espRestart] else []) t.device
  reported : t.hasNewFirmware = true
  closed : t.hasIapSession = false

-- The session is begun with the first bytes.
inductive Flashing (platform : Nat → FirmwareReplies) (s : App) (image : Bytes) (t : App) : Prop
  | waiting (empty : image = []) (fresh : t.hasIapSession = false) (ready : Ready t) (device : t.device = s.device)
      (config : t.config = s.config) (count : t.nofCallbacks = s.nofCallbacks)
  | installing (data : image ≠ []) (config : t.config = s.config)
      (h : Installing ((platform s.nofCallbacks).opening s.device) s.device.bootPartition
        ((platform s.nofCallbacks).leftover s.device ++ s.device.trace) image t)

section Callback

variable {platform : Nat → FirmwareReplies} {s t : App} {image fragment body : Bytes}

-- Only the bytes that are announced are looked at.
theorem iapHttpsWriteData_prefix {buffer : Bytes} (replies : FirmwareReplies) (h : fragment <+: buffer) :
    iapHttpsWriteData replies buffer fragment.length = iapHttpsWriteData replies fragment fragment.length := by
  have hle : uint16 fragment.length ≤ fragment.length := Nat.mod_le _ _
  obtain ⟨rest, rfl⟩ := h
  unfold iapHttpsWriteData
  rw [List.take_append_of_le_length hle]

theorem Installing.count {begin : BeginReplies} {boot : Partition} {before : List Event} (nofCallbacks : Nat)
    (h : Installing begin boot before image t) : Installing begin boot before image { t with nofCallbacks } :=
  ⟨h.has, h.session, h.accepted, h.total, h.handle, h.target⟩

theorem firmwareBodyCallback_downloads (hplatform : PlatformSucceeds platform s) {buffer : Bytes}
    (hsize : (image ++ fragment).length < 2 ^ 31) (hne : fragment ≠ []) (hfragment : fragment <+: buffer)
    (hbuffer : buffer.length = IAP_PAGE_SIZE) (ht : Flashing platform s image t) :
    wp (firmwareBodyCallback platform buffer fragment.length)
      (fun cr u => cr = .continueReceiving ∧ Flashing platform s (image ++ fragment) u) (fun _ _ => False) t := by
  have hlen : fragment.length ≤ IAP_PAGE_SIZE := hbuffer ▸ hfragment.length_le
  have hpos : 0 < fragment.length := List.length_pos_of_ne_nil hne
  have hdata : image ++ fragment ≠ [] := by simp [hne]
  simp only [firmwareBodyCallback, iapHttpsFirmwareBodyCallback, wp_bind, wp_get, wp_set, wp_ite, wp_pure,
    iapHttpsWriteData_prefix _ hfragment]
  cases ht with
  | waiting empty fresh ready device config count =>
      subst empty
      have hready : Ready { t with nofCallbacks := t.nofCallbacks + 1 } := ⟨ready.known, ready.initialized⟩
      refine wp_mono (iapHttpsStartSession_spec hready _) ?_ (fun _ _ h => h)
      intro started u hu
      have hopens : BeginSucceeds ((platform t.nofCallbacks).opening t.device) t.device.bootPartition := by
        rw [count, device]
        exact hplatform.opens
      obtain ⟨hstarted, hconfig, hinstalling⟩ := hu.installing fresh hopens
      refine ⟨fun _ => ⟨fun _ => ?_, fun hzero => absurd hpos hzero⟩, fun hnot => absurd hstarted hnot⟩
      refine wp_mono (iapHttpsWriteData_succeeds hinstalling hlen hsize (hplatform.writes _)) ?_ (fun _ _ h => h)
      intro cr v hv
      obtain ⟨hcr, hinstalling, hconfig'⟩ := hv
      refine ⟨hcr, .installing hdata (hconfig'.trans (hconfig.trans config)) ?_⟩
      simpa only [count, device] using hinstalling
  | installing data config h =>
      have hcounted := h.count (t.nofCallbacks + 1)
      simp only [iapHttpsStartSession, wp_bind, wp_get, wp_ite, wp_pure]
      refine ⟨fun _ => ⟨fun _ => ⟨fun _ => ?_, fun hzero => absurd hpos hzero⟩, fun hnot => absurd trivial hnot⟩,
        fun hnone => absurd h.has hnone⟩
      refine wp_mono (iapHttpsWriteData_succeeds hcounted hlen hsize (hplatform.writes _)) ?_ (fun _ _ h => h)
      intro cr v hv
      obtain ⟨hcr, hinstalling, hconfig'⟩ := hv
      exact ⟨hcr, .installing hdata (hconfig'.trans config) hinstalling⟩

theorem iapHttpsFinishSession_reports (replies : FirmwareReplies) (hs : Session t.device)
    (htotal : 0 < t.totalNofBytesReceived) :
    wp (iapHttpsFinishSession replies) (fun _ u => u.hasNewFirmware = true ∧ u.hasIapSession = false)
      (fun _ u => u.hasNewFirmware = true ∧ u.hasIapSession = false) t := by
  rw [wp_iapHttpsFinishSession_commit replies htotal]
  exact wp_mono (iapCommit_spec hs replies.commit) (fun _ _ _ => ⟨fun _ => ⟨rfl, rfl⟩, fun _ => ⟨rfl, rfl⟩⟩)
    (fun _ _ h => h.elim)

theorem firmwareBodyCallback_installs (hplatform : PlatformSucceeds platform s) (buffer : Bytes) (hbody : body ≠ [])
    (ht : Flashing platform s body t) :
    wp (firmwareBodyCallback platform buffer 0) (fun _ => InstalledImage platform s body)
      (fun _ => InstalledImage platform s body) t := by
  cases ht with
  | waiting empty => exact absurd empty hbody
  | installing _ config h =>
      have hcounted := h.count (t.nofCallbacks + 1)
      have htotal : 0 < t.totalNofBytesReceived := by
        rw [h.total]
        exact_mod_cast List.length_pos_of_ne_nil hbody
      have hreports := iapHttpsFinishSession_reports (platform t.nofCallbacks) hcounted.session htotal
      simp only [firmwareBodyCallback, iapHttpsFirmwareBodyCallback, iapHttpsStartSession, wp_bind, wp_get, wp_set,
        wp_ite, wp_pure]
      refine ⟨fun _ => ⟨fun _ => ⟨fun hpos => absurd hpos (Nat.lt_irrefl 0), fun _ => ?_⟩,
        fun hnot => absurd trivial hnot⟩, fun hnone => absurd h.has hnone⟩
      refine wp_mono (wp_and (iapHttpsFinishSession_succeeds hcounted hbody (hplatform.flush _)
        (hplatform.commits _)) hreports) ?_ ?_
      · intro _ u hu
        obtain ⟨⟨-, hmanual, hinstalls⟩, hreported, hclosed⟩ := hu
        refine ⟨?_, hreported, hclosed⟩
        rw [← config, hmanual]
        exact hinstalls
      · intro _ u hu
        obtain ⟨⟨-, hreboot, hinstalls⟩, hreported, hclosed⟩ := hu
        refine ⟨?_, hreported, hclosed⟩
        rw [← config, hreboot]
        exact hinstalls

theorem firmware_consumes (hplatform : PlatformSucceeds platform s) (hbody : body ≠ []) (hsmall : body.length < 2 ^ 31)
    {valid : ValidRequest App} (hmode : valid.responseMode = .streamBody)
    (hcallback : valid.bodyCallback = firmwareBodyCallback platform) :
    Consumes valid IAP_PAGE_SIZE body (Flashing platform s) (InstalledImage platform s body) where
  mode := hmode
  fragment image fragment rest buffer app hwhole hne hfragment hbuffer happ := by
    have hlength := congrArg List.length hwhole
    rw [List.length_append] at hlength
    rw [hcallback]
    exact firmwareBodyCallback_downloads hplatform (by omega) hne hfragment hbuffer happ
  last buffer app happ := by
    rw [hcallback]
    exact firmwareBodyCallback_installs hplatform buffer hbody happ

end Callback

-- The server is who it should be, and answers the request with the image.
structure GoodDownload (platform : Nat → FirmwareReplies) (script : Script) (s : Updater) (header image : Bytes) :
    Prop where
  connects : script.connect.Accepts s.tls
  accepted : ¬Refused (httpFirmwareDataRequest platform s.client.app) script.request
  writes : writesAll script.request.writes (httpGetRequestFormatString.length +
    s.client.app.config.serverHostName.length + (cstr s.client.app.config.serverFirmwarePath).length) = true
  answered : GoodResponse script.request header image
  platform : PlatformSucceeds platform s.client.app

-- What the server sends is what the next boot runs.
theorem iapHttpsDownloadImage_installs {platform : Nat → FirmwareReplies} {script : Script} {s : Updater}
    {header image : Bytes} {firmwareBuffer : Malloc} (hready : Ready s.client.app)
    (hbuffer : s.client.app.firmwareBuffer = firmwareBuffer.map fun stale => staleBlock stale 4096)
    (h : GoodDownload platform script s header image) :
    wp (iapHttpsDownloadImage platform script) (fun _ t => InstalledImage platform s.client.app image t.client.app)
      (fun _ t => InstalledImage platform s.client.app image t.client.app) s := by
  have hsmall : image.length < 2 ^ 31 := by
    have hlt := headerLength_le h.answered.length
    omega
  have hstart : Flashing platform s.client.app [] s.client.app.newAttempt :=
    .waiting rfl rfl hready.newAttempt.toReady rfl rfl rfl
  simp only [iapHttpsDownloadImage, wp_bind, wp_onTls, wp_onClient, wp_onApp, wp_modify, wp_get, wp_pure]
  refine wp_mono (wifiTlsConnect_result script.connect s.tls) ?_
    (fun _ _ hhangs => absurd hhangs h.connects.not_hangs)
  intro _ tls _
  refine httpsSendRequest_consumed (I := Flashing platform s.client.app) _ rfl rfl ?_ h.accepted h.writes
    h.answered (fun valid hvalid => ?_) hstart
  · intro buffer hmem
    change buffer ∈ s.client.app.firmwareBuffer at hmem
    rw [hbuffer] at hmem
    obtain ⟨stale, -, rfl⟩ := Option.map_eq_some_iff.mp hmem
    exact length_staleBlock stale 4096
  · have hmode : valid.responseMode = .streamBody := congrArg HttpRequest.responseMode (request_of_validate hvalid).symm
    have hcallback := (callbacks_of_validate hvalid).1
    exact firmware_consumes h.platform h.answered.nonempty hsmall hmode (Option.some.inj hcallback).symm

-- After any history of checks and downloads.
theorem download_installs (partition : Partition) (config : IapHttpsConfig) (metadataBuffer firmwareBuffer : Malloc)
    (steps : List UpdaterStep) {s t : Updater}
    (hrun : run UpdaterStep.run steps (iapHttpsInit partition config metadataBuffer firmwareBuffer) = .ok ⟨⟩ s)
    (platform : Nat → FirmwareReplies) (script : Script) {header image : Bytes}
    (h : GoodDownload platform script s header image) (ht : final (iapHttpsDownloadImage platform script) s = t) :
    InstalledImage platform s.client.app image t.client.app := by
  have hsetup : SameSetup (iapHttpsInit partition config metadataBuffer firmwareBuffer).client.app s.client.app :=
    wp_ok (x := run UpdaterStep.run steps) (updater_setup steps _) hrun
  subst ht
  exact final_of_wp (P := fun t : Updater => InstalledImage platform s.client.app image t.client.app)
    (iapHttpsDownloadImage_installs (ready_of_run hrun) hsetup.firmwareBuffer h)

theorem exampleScript_downloads {reads : List ReadResult} {s : Updater} {header image : Bytes}
    (hbuffer : s.client.app.firmwareBuffer.isSome = true)
    (hhost : s.client.app.config.serverHostName = ascii "www.classycode.io")
    (hpath : cstr s.client.app.config.serverFirmwarePath = ascii "/ota.bin")
    (hboot : s.client.app.device.bootPartition = ⟨"factory", 0x10000⟩)
    (hanswer : GoodResponse (exampleScript exampleConnect reads).request header image) :
    GoodDownload (fun _ => exampleFirmwareReplies ⟨ESP_OK, ESP_OK, ESP_OK⟩) (exampleScript exampleConnect reads) s
      header image := by
  obtain ⟨buffer, hbuffer⟩ := Option.isSome_iff_exists.mp hbuffer
  refine ⟨exampleConnect_accepts _, ?_, ?_, hanswer, ?_, fun _ _ => rfl, fun _ => rfl, fun _ => ⟨rfl, rfl⟩⟩
  · simp [Refused, httpsValidateRequest, httpFirmwareDataRequest, hbuffer, hpath, exampleScript, ascii]
  · rw [hhost, hpath]
    show writesAll [54] _ = true
    decide
  · have hnext : iapFindNextBootPartition examplePartitions ⟨"factory", 0x10000⟩ ≠ none := by decide
    rw [hboot]
    unfold FirmwareReplies.opening
    split <;> exact ⟨Option.some_ne_none _, hnext, rfl⟩

-- An image in two reads, the first with the headers and the second with the end.
def exampleImageHeader : Bytes := ascii "HTTP/1.1 200 OK\r\nContent-Length: 5\r\n\r\n"

def exampleImageReads : List ReadResult :=
  [.data ⟨exampleImageHeader ++ ascii "he", by decide⟩, .data ⟨ascii "llo", by decide⟩]

theorem exampleImage_answers :
    GoodResponse (exampleScript exampleConnect exampleImageReads).request exampleImageHeader (ascii "hello") := by
  refine ⟨⟨by decide, by decide, 49, ascii " OK\r\nContent-Length: 5\r\n\r\n", by decide, by simp [ascii, isDigit],
    by decide⟩, by decide +kernel, by decide, by decide, fun stale _ => ?_, by decide⟩
  exact keepsBody_of_first rfl (by decide) (by decide) (by decide)

-- The session that a cut download has left open is not in its way.
theorem exampleDownload_installs :
    ∃ s, run UpdaterStep.run [cutDownload] (exampleUpdater ⟨"factory", 0x10000⟩ true) = .ok ⟨⟩ s ∧
      s.client.app.device.iapState.sessionOpen = true ∧ s.client.app.config.autoReboot = true ∧
      InstalledImage (fun _ => exampleFirmwareReplies ⟨ESP_OK, ESP_OK, ESP_OK⟩) s.client.app (ascii "hello")
        (final (iapHttpsDownloadImage (fun _ => exampleFirmwareReplies ⟨ESP_OK, ESP_OK, ESP_OK⟩)
          (exampleScript exampleConnect exampleImageReads)) s).client.app := by
  obtain ⟨s, hcut, hs⟩ := cutDownload_leaves_session true
  have hrun := run_singleton_ok UpdaterStep.run hcut
  exact ⟨s, hrun, hs.sessionOpen, hs.autoReboot,
    download_installs ⟨"factory", 0x10000⟩ (exampleConfig true) (some fun _ => 0) (some fun _ => 0) [cutDownload]
      hrun _ _ (exampleScript_downloads hs.firmwareBuffer hs.host hs.firmwarePath hs.boot exampleImage_answers) rfl⟩

end Esp32Ota

import Esp32Ota.IapHttps.Callback

-- Rules for the steps of the updater task.
namespace Esp32Ota

open CLib Halting

-- The updater starts on an initialised module without a session.
theorem iapHttpsInit_device (partition : Partition) (config : IapHttpsConfig)
    (metadataBuffer firmwareBuffer : Malloc) :
    (iapHttpsInit partition config metadataBuffer firmwareBuffer).client.app.device =
      { Device.boot partition with iapState := ⟨true, false, none, 0, 0, none, 0⟩ } := rfl

section Steps

variable {s : Updater}

-- A request keeps what its callbacks keep.
theorem handles_of_keeps {valid : ValidRequest App} {I : App → Prop}
    (herror : valid.errorCallback = iapHttpsErrorCallback)
    (hbody : ∀ responseBuffer n app, I app →
      wp (valid.bodyCallback responseBuffer n) (fun _ => I) (fun _ => I) app) :
    Handles valid I (fun _ t => I t.app) (fun _ _ t => I t.app) := by
  have hcall : ∀ n (t : Client App), I t.app →
      wp (invokeBodyCallback valid n) (fun _ u => I u.app) (fun _ u => I u.app) t := by
    intro n t ht
    rw [wp_invokeBodyCallback]
    exact hbody _ n t.app ht
  refine ⟨fun _ n t _ ht => ?_, fun _ t ht _ => hcall 0 t ht, fun _ _ _ t ht => ?_, fun _ _ ht => ht,
    fun _ _ _ _ ht => ht⟩
  · exact wp_mono (hcall n t ht) (fun _ _ hu => ⟨fun _ => hu, fun _ => hu⟩) (fun _ _ hu => hu)
  · rw [wp_invokeErrorCallback, herror]
    exact ht

-- An update check does to the application what the callback for the metadata does.
theorem iapHttpsCheckForUpdate_keeps {I : App → Prop} (script : Script) (s : Updater) (hs : I s.client.app)
    (hbody : ∀ responseBuffer n app, I app →
      wp (iapHttpsMetadataBodyCallback responseBuffer n) (fun _ t => I t) (fun _ _ => False) app) :
    wp (iapHttpsCheckForUpdate script) (fun _ t => I t.client.app) (fun _ t => I t.client.app) s := by
  simp only [iapHttpsCheckForUpdate, wp_bind, wp_onTls, wp_ite, wp_get, wp_pure]
  refine wp_mono (wifiTlsConnect_spec script.connect s.tls) ?_ (fun _ _ _ => hs)
  refine fun _ tls _ => ⟨fun _ => ?_, fun _ => hs⟩
  have hhandles : ∀ valid : ValidRequest App,
      httpsValidateRequest (httpMetadataRequest s.client.app) = .ok valid →
      Handles valid I (fun _ t => I t.app) (fun _ _ t => I t.app) := by
    intro valid hvalid
    obtain ⟨hcallback, herror⟩ := callbacks_of_validate hvalid
    simp only [httpMetadataRequest, Option.some.injEq] at hcallback herror
    refine handles_of_keeps herror.symm (fun responseBuffer n app happ => ?_)
    rw [← hcallback]
    exact wp_mono (hbody responseBuffer n app happ) (fun _ _ h => h) (fun _ _ h => h.elim)
  refine wp_mono (httpsSendRequest_handled script.request hs hhandles) ?_ ?_
  · intro _ t hpost
    rcases hpost with rfl | ⟨_, ht, -⟩
    · exact hs
    · exact ht
  · intro _ t hpost
    rcases hpost with rfl | ⟨_, ht, -⟩
    · exact hs
    · exact ht

-- It leaves the device alone.
theorem iapHttpsCheckForUpdate_same (script : Script) (s : Updater) :
    wp (iapHttpsCheckForUpdate script) (fun _ t => SameDevice s.client.app t.client.app)
      (fun _ t => SameDevice s.client.app t.client.app) s := by
  refine iapHttpsCheckForUpdate_keeps (I := SameDevice s.client.app) script s ⟨rfl, rfl, rfl⟩ ?_
  intro responseBuffer n app happ
  refine wp_mono (iapHttpsMetadataBodyCallback_same responseBuffer n app) ?_ (fun _ _ h => h)
  exact fun _ t ht => ⟨ht.device.trans happ.device, ht.hasNewFirmware.trans happ.hasNewFirmware,
    ht.autoReboot.trans happ.autoReboot⟩

-- The app in which a download starts to read.
def App.newAttempt (s : App) : App := { s with hasIapSession := false }

variable {platform : Nat → FirmwareReplies} {I : App → Prop} {Stop : Bytes → Client App → Prop}
  {Err : Halt → Bytes → Client App → Prop}

-- The callbacks for data keep to `P`, and reading may end after any of them;
-- the one at the end of the body is left to `hlast`.
theorem handles_of_serves {valid : ValidRequest App} {P : Event → Prop} {s : App}
    (hbody : valid.bodyCallback = firmwareBodyCallback platform)
    (herror : valid.errorCallback = iapHttpsErrorCallback)
    (hsession : ∀ t, Serves P s t → ∀ event,
      SessionEvent (platform t.nofCallbacks) t.device.bootPartition event → P event)
    (hstop : ∀ bytes t, Serves P s t.app → Stop bytes t)
    (herr : ∀ e bytes t, Serves P s t.app → Err e bytes t)
    (hlast : ∀ bytes t, Serves P s t.app → Complete bytes t →
      wp (invokeBodyCallback valid 0) (fun _ => Stop bytes) (fun e => Err e bytes) t) :
    Handles valid (Serves P s) Stop Err := by
  refine ⟨fun bytes n t hn ht => ?_, hlast, fun bytes _ _ t ht => ?_, hstop, fun e bytes t _ => herr e bytes t⟩
  · rw [wp_invokeBodyCallback, hbody]
    have hserves := fun u (hu : Serves (SessionEvent (platform t.app.nofCallbacks)
        t.app.device.bootPartition) t.app u) => ht.trans (hu.mono (hsession t.app ht))
    exact wp_mono (firmwareBodyCallback_serves _ n t.app platform hn)
      (fun _ u hu => ⟨fun _ => hserves u hu, fun _ => hstop bytes _ (hserves u hu)⟩)
      (fun e u hu => herr e bytes _ (hserves u hu))
  · rw [wp_invokeErrorCallback, herror]
    exact hstop bytes _ ht

-- Without a read the application is that of a new attempt.
theorem iapHttpsDownloadImage_handled (script : Script) (hI : I s.client.app.newAttempt)
    (h : ∀ valid : ValidRequest App, valid.bodyCallback = firmwareBodyCallback platform →
      valid.errorCallback = iapHttpsErrorCallback → Handles valid I Stop Err) :
    wp (iapHttpsDownloadImage platform script)
      (fun _ t =>
        (t.client.app = s.client.app.newAttempt ∧ received t.tls.trace = received s.tls.trace) ∨
        ∃ bytes, Stop bytes t.client ∧ received t.tls.trace = received s.tls.trace ++ bytes)
      (fun e t => t.client = s.client ∨
        (t.client.app = s.client.app.newAttempt ∧ received t.tls.trace = received s.tls.trace) ∨
        ∃ bytes, Err e bytes t.client ∧ received t.tls.trace = received s.tls.trace ++ bytes) s := by
  simp only [iapHttpsDownloadImage, wp_bind, wp_onTls, wp_onClient, wp_onApp, wp_modify, wp_get, wp_pure]
  refine wp_mono (wifiTlsConnect_spec script.connect s.tls) ?_ (fun _ _ _ => .inl trivial)
  intro _ tls hconnected
  have hbytes := hconnected.silent.received
  have hcallbacks : ∀ valid, httpsValidateRequest (httpFirmwareDataRequest platform
      s.client.app.newAttempt) = .ok valid → Handles valid I Stop Err := by
    intro valid hvalid
    obtain ⟨hbody, herror⟩ := callbacks_of_validate hvalid
    simp only [httpFirmwareDataRequest, Option.some.injEq] at hbody herror
    exact h valid hbody.symm herror.symm
  have hhandled := httpsSendRequest_handled (s := ⟨tls, { s.client with app := s.client.app.newAttempt }⟩)
    script.request hI hcallbacks
  apply wp_mono hhandled
  · intro _ t ht
    rcases ht with rfl | ⟨bytes, hstop, hclosed⟩
    · exact .inl ⟨rfl, hbytes⟩
    · exact .inr ⟨bytes, hstop, by rw [hclosed.received, hbytes]⟩
  · intro e t ht
    rcases ht with rfl | ⟨bytes, herr, hexchanged⟩
    · exact .inr (.inl ⟨rfl, hbytes⟩)
    · exact .inr (.inr ⟨bytes, herr, by rw [hexchanged.received, hbytes]⟩)

end Steps

-- A server that gets through all checks, and a device on its factory image.
def exampleConnect : ConnectReplies where
  ctrDrbgSeed := 0
  rootCaParse := 0
  peerParse := 0
  sslSetup := 0
  netConnect := 0
  handshake := [0]
  verifyResult := 0
  pinning := ⟨true, true, true, .written [0] (by decide), .written [0] (by decide)⟩

theorem exampleConnect_accepts (s : Tls) : exampleConnect.Accepts s :=
  ⟨.inr ⟨rfl, rfl, rfl, rfl⟩, rfl, .inr rfl, rfl, by decide +kernel⟩

def exampleScript (connect : ConnectReplies) (reads : List ReadResult) : Script where
  connect
  request := ⟨true, some fun _ => 0, some fun _ => 0, [54], reads⟩

def exampleConfig (autoReboot : Bool) : IapHttpsConfig :=
  ⟨1, ascii "www.classycode.io", ascii "/ota.txt", ascii "/ota.bin", 60, autoReboot⟩

def exampleUpdater (partition : Partition) (autoReboot : Bool) : Updater :=
  iapHttpsInit partition (exampleConfig autoReboot) (some fun _ => 0) (some fun _ => 0)

def examplePartitions (label : String) : Option Partition :=
  [⟨"factory", 0x10000⟩, ⟨"ota_0", 0x110000⟩, ⟨"ota_1", 0x210000⟩].find? fun partition =>
    partition.label = label

-- Every call succeeds up to the commits.
def exampleFirmwareReplies (commit : CommitReplies) : FirmwareReplies where
  begin := ⟨some fun _ => 0, examplePartitions, ESP_OK, 1⟩
  abortOpen := ESP_OK
  beginAgain := ⟨some fun _ => 0, examplePartitions, ESP_OK, 2⟩
  write := fun _ => ESP_OK
  abort := ESP_OK
  commit

def exampleDownload (connect : ConnectReplies) (commit : CommitReplies) : UpdaterStep :=
  .downloadImage (fun _ => exampleFirmwareReplies commit) (exampleScript connect [.data oneByteResponse])

end Esp32Ota

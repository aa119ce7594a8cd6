import Esp32Ota.HttpsClient.OneCall
import Esp32Ota.IapHttps.Step

-- What a check makes of the document that it receives, and a download of the orders
-- that a check has left.
namespace Esp32Ota

open CLib Halting

-- The document has both keys, and its version is another one.
def Announces (document : Bytes) (currentSoftwareVersion : Int) (fileName : Bytes) : Prop :=
  ∃ version, httpParseKeyValueInt document (ascii "VERSION=") = some version ∧
    httpParseKeyValueString document (ascii "FILE=") 256 = some fileName ∧
    version ≠ currentSoftwareVersion

theorem fileName_of_parsed {document key fileName : Bytes} {strLen : Nat}
    (h : httpParseKeyValueString document key strLen = some fileName) :
    fileName.length ≤ strLen - 1 ∧ 0 ∉ fileName := by
  obtain ⟨locKey, -, rfl⟩ := Option.map_eq_some_iff.mp h
  constructor
  · refine (List.takeWhile_sublist _).length_le.trans ?_
    exact List.length_take_le _ _
  · intro hmem
    have htext := List.mem_of_mem_drop (List.mem_of_mem_take ((List.takeWhile_sublist _).mem hmem))
    exact zero_notMem_cstr document htext

-- The path is read up to its terminator, for which there is room.
theorem cstr_strncpy {src : Bytes} {size : Nat} (hlen : src.length < size) (hzero : 0 ∉ src) :
    cstr (strncpy src size) = src := by
  unfold strncpy
  rw [List.take_of_length_le (by omega), cstr_append_zeros, cstr_of_notMem _ hzero]

-- The bit is set for an announcement, whose path the request will have.
theorem iapHttpsMetadataBodyCallback_announces (document : Bytes) (n : Nat) {s : App}
    (hs : s.fwupDownloadImage = false) :
    wp (iapHttpsMetadataBodyCallback document n)
      (fun _ t => t.config.currentSoftwareVersion = s.config.currentSoftwareVersion ∧
        (t.fwupDownloadImage = true →
          Announces document s.config.currentSoftwareVersion (cstr t.config.serverFirmwarePath)))
      (fun _ _ => False) s := by
  rw [wp_iapHttpsMetadataBodyCallback]
  have hoff : ∀ t : App, t.fwupDownloadImage = s.fwupDownloadImage → ¬t.fwupDownloadImage = true := by
    intro t ht
    simp [ht, hs]
  cases hversion : httpParseKeyValueInt document (ascii "VERSION=") with
  | none => exact ⟨rfl, fun h => absurd h (hoff _ rfl)⟩
  | some version =>
      cases hfile : httpParseKeyValueString document (ascii "FILE=") 256 with
      | none => exact ⟨rfl, fun h => absurd h (hoff _ rfl)⟩
      | some fileName =>
          refine ⟨rfl, fun h => ?_⟩
          obtain ⟨hlen, hzero⟩ := fileName_of_parsed hfile
          rw [App.withMetadata_fwupDownloadImage, hs, Bool.false_or, decide_eq_true_eq] at h
          change Announces document _ (cstr (strncpy fileName 256))
          rw [cstr_strncpy (by omega) hzero]
          exact ⟨version, hversion, hfile, h⟩

-- What a check without earlier calls leaves behind.
structure Checked (s : App) (t : Client App) : Prop where
  currentSoftwareVersion : t.app.config.currentSoftwareVersion = s.config.currentSoftwareVersion
  announced : t.app.fwupDownloadImage = true → ∃ document rest, documents t.events = document :: rest ∧
    Announces document s.config.currentSoftwareVersion (cstr t.app.config.serverFirmwarePath)

theorem iapHttpsCheckForUpdate_checks (script : Script) {s : Updater}
    (hs : s.client.app.fwupDownloadImage = false) :
    wp (iapHttpsCheckForUpdate script) (fun _ t => Checked s.client.app t.client)
      (fun _ t => Checked s.client.app t.client) s := by
  have hquiet : ∀ t : Client App, t.app = s.client.app → Checked s.client.app t := by
    intro t ht
    rw [← ht] at hs ⊢
    exact ⟨rfl, fun h => by simp [hs] at h⟩
  simp only [iapHttpsCheckForUpdate, wp_bind, wp_onTls, wp_ite, wp_get, wp_pure]
  refine wp_mono (wifiTlsConnect_spec script.connect s.tls) ?_ (fun _ _ _ => hquiet _ rfl)
  refine fun _ tls _ => ⟨fun _ => ?_, fun _ => hquiet _ rfl⟩
  have hcalls : ∀ valid, httpsValidateRequest (httpMetadataRequest s.client.app) = .ok valid →
      CallsOnce valid (s.client.start valid) (Checked s.client.app) (fun _ => Checked s.client.app) := by
    intro valid hvalid
    obtain ⟨hbody, herror⟩ := callbacks_of_validate hvalid
    simp only [httpMetadataRequest, Option.some.injEq] at hbody herror
    refine ⟨fun t ht => hquiet t ht.app, fun _ t ht => hquiet t ht.app, fun n t ht => ?_,
      fun _ _ t ht => ?_⟩
    · rw [wp_invokeBodyCallback, ← hbody]
      have happ : t.app.fwupDownloadImage = false := by rw [ht.app]; exact hs
      refine wp_mono (iapHttpsMetadataBodyCallback_announces t.responseBuffer n happ) ?_ (fun _ _ h => h.elim)
      intro _ app happ
      rw [ht.app] at happ
      exact ⟨happ.1, fun h => ⟨_, _, rfl, happ.2 h⟩⟩
    · rw [wp_invokeErrorCallback, ← herror]
      exact hquiet _ ht.app
  refine wp_mono (httpsSendRequest_once (s := ⟨tls, s.client⟩) script.request rfl hcalls) ?_ ?_
  · intro _ t ht
    exact ht.elim (fun h => hquiet _ (by rw [h])) id
  · intro _ t ht
    exact ht.elim (fun h => hquiet _ (by rw [h])) id

-- A download does not touch what a check has decided.
structure SameOrders (s t : App) : Prop where
  config : t.config = s.config
  fwupDownloadImage : t.fwupDownloadImage = s.fwupDownloadImage

theorem SameOrders.trans {s t u : App} (hst : SameOrders s t) (htu : SameOrders t u) : SameOrders s u :=
  ⟨htu.config.trans hst.config, htu.fwupDownloadImage.trans hst.fwupDownloadImage⟩

theorem iapHttpsStartSession_orders (replies : FirmwareReplies) (s : App) :
    wp (iapHttpsStartSession replies) (fun _ t => SameOrders s t) (fun _ t => SameOrders s t) s := by
  simp only [iapHttpsStartSession, wp_bind, wp_get, wp_ite, wp_pure, wp_onDevice, wp_modify]
  have hsame : ∀ {β : Type} (x : DeviceM β) device, wp x (fun _ device => SameOrders s { s with device })
      (fun _ device => SameOrders s { s with device }) device :=
    fun x device => wp_of_forall (fun _ _ => ⟨rfl, rfl⟩) (fun _ _ => ⟨rfl, rfl⟩)
  refine ⟨fun _ => ⟨rfl, rfl⟩, fun _ => wp_mono (hsame _ _) (fun first t ht => ?_) (fun _ _ ht => ht)⟩
  refine ⟨fun _ => ?_, fun _ => ⟨fun _ => ht, fun _ => ⟨rfl, rfl⟩⟩⟩
  refine wp_mono (hsame _ _) (fun _ u _ => ?_) (fun _ _ hu => hu)
  exact wp_mono (hsame _ _) (fun _ _ hv => ⟨fun _ => hv, fun _ => ⟨rfl, rfl⟩⟩) (fun _ _ hv => hv)

theorem iapHttpsWriteData_orders (replies : FirmwareReplies) (responseBuffer : Bytes) (bytesReceived : Nat)
    (s : App) :
    wp (iapHttpsWriteData replies responseBuffer bytesReceived) (fun _ t => SameOrders s t)
      (fun _ t => SameOrders s t) s := by
  simp only [iapHttpsWriteData, wp_bind, wp_ite, wp_pure, wp_onDevice, wp_modify]
  refine wp_of_forall (fun _ _ => ⟨fun _ => ?_, fun _ => ⟨rfl, rfl⟩⟩) (fun _ _ => ⟨rfl, rfl⟩)
  exact wp_of_forall (fun _ _ => ⟨rfl, rfl⟩) (fun _ _ => ⟨rfl, rfl⟩)

theorem iapHttpsFinishSession_orders (replies : FirmwareReplies) (s : App) :
    wp (iapHttpsFinishSession replies) (fun _ t => SameOrders s t) (fun _ t => SameOrders s t) s := by
  simp only [iapHttpsFinishSession, wp_bind, wp_get, wp_ite, wp_pure, wp_onDevice, wp_modify, wp_log, wp_throw]
  refine ⟨fun _ => ?_, fun _ => wp_of_forall (fun _ _ => ⟨rfl, rfl⟩) (fun _ _ => ⟨rfl, rfl⟩)⟩
  exact wp_of_forall (fun _ _ => ⟨fun _ => ⟨rfl, rfl⟩, fun _ => ⟨rfl, rfl⟩⟩) (fun _ _ => ⟨rfl, rfl⟩)

theorem firmwareBodyCallback_orders (platform : Nat → FirmwareReplies) (responseBuffer : Bytes)
    (bytesReceived : Nat) (s : App) :
    wp (firmwareBodyCallback platform responseBuffer bytesReceived) (fun _ t => SameOrders s t)
      (fun _ t => SameOrders s t) s := by
  simp only [firmwareBodyCallback, iapHttpsFirmwareBodyCallback, wp_bind, wp_get, wp_set, wp_ite, wp_pure]
  refine wp_mono (iapHttpsStartSession_orders _ _) ?_ (fun _ _ ht => ⟨ht.config, ht.fwupDownloadImage⟩)
  intro started t ht
  have ht : SameOrders s t := ⟨ht.config, ht.fwupDownloadImage⟩
  refine ⟨fun _ => ⟨fun _ => ?_, fun _ => ?_⟩, fun _ => ht⟩
  · exact wp_weaken (iapHttpsWriteData_orders _ responseBuffer bytesReceived t) fun _ hu => ht.trans hu
  · exact wp_weaken (iapHttpsFinishSession_orders _ t) fun _ hu => ht.trans hu

theorem iapHttpsDownloadImage_orders (platform : Nat → FirmwareReplies) (script : Script) (s : Updater) :
    wp (iapHttpsDownloadImage platform script) (fun _ t => SameOrders s.client.app t.client.app)
      (fun _ t => SameOrders s.client.app t.client.app) s := by
  have hnew : SameOrders s.client.app s.client.app.newAttempt := ⟨rfl, rfl⟩
  have hhandles : ∀ valid : ValidRequest App, valid.bodyCallback = firmwareBodyCallback platform →
      valid.errorCallback = iapHttpsErrorCallback →
      Handles valid (SameOrders s.client.app) (fun _ t => SameOrders s.client.app t.app)
        (fun _ _ t => SameOrders s.client.app t.app) := by
    intro valid hbody herror
    refine handles_of_keeps herror (fun responseBuffer n app happ => ?_)
    rw [hbody]
    exact wp_weaken (firmwareBodyCallback_orders platform responseBuffer n app) fun _ h => happ.trans h
  apply wp_mono (iapHttpsDownloadImage_handled script hnew hhandles)
  · intro _ t ht
    rcases ht with ⟨happ, -⟩ | ⟨_, ht, -⟩
    · rw [happ]
      exact hnew
    · exact ht
  · intro _ t ht
    rcases ht with hclient | ⟨happ, -⟩ | ⟨_, ht, -⟩
    · rw [hclient]
      exact ⟨rfl, rfl⟩
    · rw [happ]
      exact hnew
    · exact ht

end Esp32Ota

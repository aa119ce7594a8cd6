import Esp32Ota.IapHttps
import Esp32Ota.Iap.Frame
import Esp32Ota.HttpsClient.Application

-- What the callbacks of iap_https.c do to the device, in whatever state they find it.
namespace Esp32Ota

open CLib Halting

@[simp] theorem wp_onDevice {β : Type} (x : DeviceM β) (Q : β → App → Prop) (E : Halt → App → Prop)
    (s : App) :
    wp (onDevice x) Q E s ↔
      wp x (fun b device => Q b { s with device }) (fun e device => E e { s with device }) s.device := by
  simp only [onDevice, wp_zoom]

-- The events of a session that has no data to come before its end: begins on
-- the next partition, writes and aborts.
def SessionEvent (replies : FirmwareReplies) (boot : Partition) (event : Event) : Prop :=
  BeginsOn (iapFindNextBootPartition replies.begin.partitionFindFirst boot) event ∨
    BeginsOn (iapFindNextBootPartition replies.beginAgain.partitionFindFirst boot) event ∨
    IsWrite event ∨ IsAbort event

-- Those of its end.
def FinishEvent (event : Event) : Prop := IsCommit event ∨ IsAbort event ∨ event = .espRestart

-- Nothing is installed on the way from `s` to `t`.
structure Serves (P : Event → Prop) (s t : App) : Prop where
  device : Keeps P s.device t.device
  hasNewFirmware : t.hasNewFirmware = s.hasNewFirmware
  autoReboot : t.config.autoReboot = s.config.autoReboot

theorem Serves.refl (P : Event → Prop) (s : App) : Serves P s s := ⟨Keeps.refl P s.device, rfl, rfl⟩

theorem Serves.trans {P : Event → Prop} {s t u : App} (hst : Serves P s t) (htu : Serves P t u) :
    Serves P s u :=
  ⟨hst.device.trans htu.device, htu.hasNewFirmware.trans hst.hasNewFirmware,
    htu.autoReboot.trans hst.autoReboot⟩

theorem Serves.mono {P R : Event → Prop} {s t : App} (h : Serves P s t)
    (hP : ∀ event, P event → R event) : Serves R s t :=
  ⟨h.device.mono hP, h.hasNewFirmware, h.autoReboot⟩

theorem Serves.onDevice {P : Event → Prop} {s : App} {device : Device} (h : Keeps P s.device device) :
    Serves P s { s with device } :=
  ⟨h, rfl, rfl⟩

section Firmware

variable (replies : FirmwareReplies) (responseBuffer : Bytes) (bytesReceived : Nat) (s : App)

theorem iapHttpsStartSession_serves :
    wp (iapHttpsStartSession replies)
      (fun _ => Serves (SessionEvent replies s.device.bootPartition) s)
      (fun _ => Serves (SessionEvent replies s.device.bootPartition) s) s := by
  have hbegin := fun (device : Device) (h : Keeps (BeginsOn (iapFindNextBootPartition
      replies.begin.partitionFindFirst s.device.bootPartition)) s.device device) =>
    Keeps.mono (R := SessionEvent replies s.device.bootPartition) h fun _ => .inl
  simp only [iapHttpsStartSession, wp_bind, wp_get, wp_ite, wp_pure, wp_onDevice, wp_modify]
  refine ⟨fun _ => Serves.refl _ s, fun _ => ?_⟩
  refine wp_mono (iapBegin_keeps replies.begin s.device) ?_ (fun _ t ht => .onDevice (hbegin t ht))
  intro first t ht
  have ht := hbegin t ht
  refine ⟨fun _ => ?_, fun _ => ⟨fun _ => .onDevice ht, fun _ => ⟨ht, rfl, rfl⟩⟩⟩
  have habort := fun device (h : Keeps IsAbort t device) =>
    ht.trans (h.mono (R := SessionEvent replies s.device.bootPartition) fun _ h => .inr (.inr (.inr h)))
  refine wp_mono (iapAbort_keeps replies.abortOpen t) ?_ (fun _ u hu => .onDevice (habort u hu))
  intro _ u hu
  have hu := habort u hu
  have hagain := fun device (h : Keeps (BeginsOn (iapFindNextBootPartition
      replies.beginAgain.partitionFindFirst u.bootPartition)) u device) =>
    hu.trans (h.mono (R := SessionEvent replies s.device.bootPartition) fun _ h =>
      .inr (.inl (hu.boot ▸ h)))
  refine wp_mono (iapBegin_keeps replies.beginAgain u) ?_ (fun _ v hv => .onDevice (hagain v hv))
  exact fun _ v hv => ⟨fun _ => .onDevice (hagain v hv), fun _ => ⟨hagain v hv, rfl, rfl⟩⟩

theorem iapHttpsWriteData_serves :
    wp (iapHttpsWriteData replies responseBuffer bytesReceived)
      (fun _ => Serves (fun event => IsWrite event ∨ IsAbort event) s)
      (fun _ => Serves (fun event => IsWrite event ∨ IsAbort event) s) s := by
  simp only [iapHttpsWriteData, wp_bind, wp_ite, wp_pure, wp_onDevice, wp_modify]
  have hwrite := fun (device : Device) (h : Keeps IsWrite s.device device) =>
    h.mono (R := fun event => IsWrite event ∨ IsAbort event) fun _ => .inl
  refine wp_mono (iapWrite_keeps _ replies.write s.device) ?_ (fun _ t ht => .onDevice (hwrite t ht))
  intro result t ht
  have ht := hwrite t ht
  refine ⟨fun _ => ?_, fun _ => ⟨ht, rfl, rfl⟩⟩
  have habort := fun device (h : Keeps IsAbort t device) =>
    ht.trans (h.mono (R := fun event => IsWrite event ∨ IsAbort event) fun _ => .inr)
  exact wp_weaken (iapAbort_keeps replies.abort t) fun u hu => ⟨habort u hu, rfl, rfl⟩

theorem iapHttpsFinishSession_follows :
    wp (iapHttpsFinishSession replies) (fun _ t => Follows FinishEvent s.device t.device)
      (fun _ t => Follows FinishEvent s.device t.device) s := by
  simp only [iapHttpsFinishSession, wp_bind, wp_get, wp_ite, wp_pure, wp_onDevice, wp_modify, wp_log,
    wp_throw]
  refine ⟨fun _ => ?_, fun _ => ?_⟩
  · have hcommit := fun device (h : Follows IsCommit s.device device) =>
      h.mono (R := FinishEvent) fun _ => .inl
    refine wp_mono (iapCommit_follows replies.commit s.device) ?_ (fun _ t ht => hcommit t ht)
    intro _ t ht
    have ht := hcommit t ht
    exact ⟨fun _ => ht.trans ⟨rfl, [.espRestart], rfl, by simp [FinishEvent]⟩, fun _ => ht⟩
  · have habort := fun device (h : Keeps IsAbort s.device device) =>
      h.toFollows.mono (R := FinishEvent) fun _ h => .inr (.inl h)
    exact wp_weaken (iapAbort_keeps replies.abort s.device) habort

-- A callback with data installs nothing.
theorem iapHttpsFirmwareBodyCallback_serves (hdata : 0 < bytesReceived) :
    wp (iapHttpsFirmwareBodyCallback replies responseBuffer bytesReceived)
      (fun _ => Serves (SessionEvent replies s.device.bootPartition) s)
      (fun _ => Serves (SessionEvent replies s.device.bootPartition) s) s := by
  simp only [iapHttpsFirmwareBodyCallback, wp_bind, wp_ite, wp_pure, hdata, not_true_eq_false,
    false_implies, and_true]
  refine wp_mono (iapHttpsStartSession_serves replies s) ?_ (fun _ _ ht => ht)
  intro started t ht
  refine ⟨fun _ _ => ?_, fun _ => ht⟩
  have hwrite := fun u (hu : Serves (fun event => IsWrite event ∨ IsAbort event) t u) =>
    ht.trans (hu.mono (R := SessionEvent replies s.device.bootPartition) fun _ h => .inr (.inr h))
  exact wp_weaken (iapHttpsWriteData_serves replies responseBuffer bytesReceived t) hwrite

theorem iapHttpsFirmwareBodyCallback_follows :
    wp (iapHttpsFirmwareBodyCallback replies responseBuffer 0)
      (fun _ t => Follows (fun event => SessionEvent replies s.device.bootPartition event ∨
        FinishEvent event) s.device t.device)
      (fun _ t => Follows (fun event => SessionEvent replies s.device.bootPartition event ∨
        FinishEvent event) s.device t.device) s := by
  simp only [iapHttpsFirmwareBodyCallback, wp_bind, wp_ite, wp_pure, Nat.lt_irrefl, gt_iff_lt,
    false_implies, true_and, not_false_eq_true, true_implies]
  have hstart := fun (t : App) (h : Serves (SessionEvent replies s.device.bootPartition) s t) =>
    h.device.toFollows.mono (R := fun event => SessionEvent replies s.device.bootPartition event ∨
      FinishEvent event) fun _ => .inl
  refine wp_mono (iapHttpsStartSession_serves replies s) ?_ (fun _ t ht => hstart t ht)
  intro started t ht
  refine ⟨fun _ => ?_, fun _ => hstart t ht⟩
  have hfinish := fun device (h : Follows FinishEvent t.device device) => (hstart t ht).trans
    (h.mono (R := fun event => SessionEvent replies s.device.bootPartition event ∨
      FinishEvent event) fun _ => .inr)
  exact wp_weaken (iapHttpsFinishSession_follows replies t) fun u hu => hfinish _ hu

variable (platform : Nat → FirmwareReplies)

theorem firmwareBodyCallback_serves (hdata : 0 < bytesReceived) :
    wp (firmwareBodyCallback platform responseBuffer bytesReceived)
      (fun _ => Serves (SessionEvent (platform s.nofCallbacks) s.device.bootPartition) s)
      (fun _ => Serves (SessionEvent (platform s.nofCallbacks) s.device.bootPartition) s) s := by
  simp only [firmwareBodyCallback, wp_bind, wp_get, wp_set]
  exact wp_weaken (iapHttpsFirmwareBodyCallback_serves (platform s.nofCallbacks) responseBuffer
    bytesReceived { s with nofCallbacks := s.nofCallbacks + 1 } hdata)
    fun t ht => ⟨ht.device, ht.hasNewFirmware, ht.autoReboot⟩

theorem firmwareBodyCallback_follows :
    wp (firmwareBodyCallback platform responseBuffer 0)
      (fun _ t => Follows (fun event => SessionEvent (platform s.nofCallbacks) s.device.bootPartition event ∨
        FinishEvent event) s.device t.device)
      (fun _ t => Follows (fun event => SessionEvent (platform s.nofCallbacks) s.device.bootPartition event ∨
        FinishEvent event) s.device t.device) s := by
  simp only [firmwareBodyCallback, wp_bind, wp_get, wp_set]
  exact iapHttpsFirmwareBodyCallback_follows (platform s.nofCallbacks) responseBuffer
    { s with nofCallbacks := s.nofCallbacks + 1 }

end Firmware

section Metadata

-- What the values that the callback finds in a document do to the application.
def App.withMetadata (interval version : Option Int) (fileName : Option Bytes) (s : App) : App :=
  let config := { s.config with pollingIntervalS := (interval.map toSize).getD s.config.pollingIntervalS }
  match version, fileName with
  | some version, some fileName =>
    { s with
      config := { config with serverFirmwarePath := strncpy fileName 256 }
      fwupDownloadImage := s.fwupDownloadImage || version ≠ config.currentSoftwareVersion }
  | _, _ => { s with config }

theorem wp_iapHttpsMetadataBodyCallback (document : Bytes) (n : Nat)
    (Q : HttpContinueReceiving → App → Prop) (E : Halt → App → Prop) (s : App) :
    wp (iapHttpsMetadataBodyCallback document n) Q E s ↔
      Q .stopReceiving (s.withMetadata (httpParseKeyValueInt document (ascii "INTERVAL="))
        (httpParseKeyValueInt document (ascii "VERSION="))
        (httpParseKeyValueString document (ascii "FILE=") 256)) := by
  have hinterval : wp (iapHttpsSetPollingInterval document) (fun _ t => t = { s with
      config.pollingIntervalS := ((httpParseKeyValueInt document (ascii "INTERVAL=")).map toSize).getD
        s.config.pollingIntervalS }) (fun _ _ => False) s := by
    unfold iapHttpsSetPollingInterval
    cases httpParseKeyValueInt document (ascii "INTERVAL=") with
    | none => rfl
    | some intervalSeconds => rfl
  obtain ⟨_, t, hrun, rfl⟩ := exists_ok_of_wp hinterval
  unfold iapHttpsMetadataBodyCallback App.withMetadata
  rw [wp_bind, wp, hrun]
  cases httpParseKeyValueInt document (ascii "VERSION=") with
  | none => rfl
  | some version =>
      cases httpParseKeyValueString document (ascii "FILE=") 256 with
      | none => rfl
      | some fileName =>
          simp only [wp_bind, wp_modify, wp_get, wp_ite, wp_pure]
          by_cases hsame : version = s.config.currentSoftwareVersion
          · simp [hsame]
          · simp [hsame]

@[simp] theorem App.withMetadata_pollingIntervalS (interval version : Option Int) (fileName : Option Bytes)
    (s : App) : (s.withMetadata interval version fileName).config.pollingIntervalS =
      (interval.map toSize).getD s.config.pollingIntervalS := by
  unfold App.withMetadata
  cases version <;> cases fileName <;> rfl

@[simp] theorem App.withMetadata_fwupDownloadImage (interval : Option Int) (version : Int) (fileName : Bytes)
    (s : App) : (s.withMetadata interval (some version) (some fileName)).fwupDownloadImage =
      (s.fwupDownloadImage || version ≠ s.config.currentSoftwareVersion) := rfl

-- The metadata sets the polling interval, the path and the download bit.
theorem App.withMetadata_frame (interval version : Option Int) (fileName : Option Bytes) (s : App) :
    ∃ pollingIntervalS serverFirmwarePath fwupDownloadImage,
      s.withMetadata interval version fileName = { s with
        config := { s.config with pollingIntervalS, serverFirmwarePath }
        fwupDownloadImage } := by
  unfold App.withMetadata
  cases version with
  | none => exact ⟨_, _, _, rfl⟩
  | some version =>
      cases fileName with
      | none => exact ⟨_, _, _, rfl⟩
      | some fileName => exact ⟨_, _, _, rfl⟩

theorem iapHttpsMetadataBodyCallback_frame (responseBuffer : Bytes) (bytesReceived : Nat) (s : App) :
    wp (iapHttpsMetadataBodyCallback responseBuffer bytesReceived)
      (fun _ t => ∃ pollingIntervalS serverFirmwarePath fwupDownloadImage,
        t = { s with
          config := { s.config with pollingIntervalS, serverFirmwarePath }
          fwupDownloadImage })
      (fun _ _ => False) s := by
  rw [wp_iapHttpsMetadataBodyCallback]
  exact App.withMetadata_frame _ _ _ s

end Metadata

-- The rest of the application stays.
structure SameDevice (s t : App) : Prop where
  device : t.device = s.device
  hasNewFirmware : t.hasNewFirmware = s.hasNewFirmware
  autoReboot : t.config.autoReboot = s.config.autoReboot

theorem iapHttpsMetadataBodyCallback_same (responseBuffer : Bytes) (bytesReceived : Nat) (s : App) :
    wp (iapHttpsMetadataBodyCallback responseBuffer bytesReceived) (fun _ t => SameDevice s t)
      (fun _ _ => False) s := by
  refine wp_mono (iapHttpsMetadataBodyCallback_frame responseBuffer bytesReceived s) ?_ (fun _ _ h => h)
  intro _ t ht
  obtain ⟨_, _, _, rfl⟩ := ht
  exact ⟨rfl, rfl, rfl⟩

end Esp32Ota

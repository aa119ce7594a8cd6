import Esp32Ota.IapHttps.Served

-- What stays as `iap_https_init` has set it up, and what the documents of the server may change.
namespace Esp32Ota

open CLib Halting

-- A string in an array of 256 characters.
structure PathArray (path : Bytes) : Prop where
  size : path.length = 256
  terminated : 0 ∈ path

theorem pathArray_strncpy {src : Bytes} (h : src.length < 256) : PathArray (strncpy src 256) := by
  refine ⟨?_, List.mem_append_right _ (List.mem_replicate.mpr ⟨by omega, rfl⟩)⟩
  rw [strncpy, List.length_append, List.length_take, List.length_replicate]
  omega

-- A check may set the interval and the path of the firmware.
structure SameSetup (s t : App) : Prop where
  metadataBuffer : t.metadataBuffer = s.metadataBuffer
  firmwareBuffer : t.firmwareBuffer = s.firmwareBuffer
  config : ∃ pollingIntervalS serverFirmwarePath, t.config = { s.config with pollingIntervalS, serverFirmwarePath }
  path : PathArray s.config.serverFirmwarePath → PathArray t.config.serverFirmwarePath

section Callbacks

variable {s t u : App}

theorem SameSetup.refl (s : App) : SameSetup s s := ⟨rfl, rfl, ⟨_, _, rfl⟩, id⟩

theorem SameSetup.trans (hst : SameSetup s t) (htu : SameSetup t u) : SameSetup s u := by
  obtain ⟨_, _, hconfig⟩ := hst.config
  obtain ⟨interval, path, hconfig'⟩ := htu.config
  refine ⟨htu.metadataBuffer.trans hst.metadataBuffer, htu.firmwareBuffer.trans hst.firmwareBuffer,
    ⟨interval, path, ?_⟩, fun h => htu.path (hst.path h)⟩
  rw [hconfig', hconfig]

theorem App.withMetadata_setup (interval version : Option Int) {fileName : Option Bytes}
    (hfile : ∀ name ∈ fileName, name.length < 256) (s : App) :
    SameSetup s (s.withMetadata interval version fileName) := by
  cases version with
  | none => exact ⟨rfl, rfl, ⟨_, _, rfl⟩, id⟩
  | some version =>
      cases fileName with
      | none => exact ⟨rfl, rfl, ⟨_, _, rfl⟩, id⟩
      | some fileName => exact ⟨rfl, rfl, ⟨_, _, rfl⟩, fun _ => pathArray_strncpy (hfile _ rfl)⟩

theorem iapHttpsMetadataBodyCallback_setup (document : Bytes) (n : Nat) (s : App) :
    wp (iapHttpsMetadataBodyCallback document n) (fun _ t => SameSetup s t) (fun _ _ => False) s := by
  rw [wp_iapHttpsMetadataBodyCallback]
  refine App.withMetadata_setup _ _ (fun name hname => ?_) s
  have hlen := (fileName_of_parsed hname).1
  omega

-- The callback for firmware data changes the device and the state of the attempt.
structure SameButAttempt (s t : App) : Prop where
  config : t.config = s.config
  metadataBuffer : t.metadataBuffer = s.metadataBuffer
  firmwareBuffer : t.firmwareBuffer = s.firmwareBuffer

theorem SameButAttempt.setup (h : SameButAttempt s t) : SameSetup s t := by
  refine ⟨h.metadataBuffer, h.firmwareBuffer, ⟨s.config.pollingIntervalS, s.config.serverFirmwarePath, h.config⟩,
    fun hpath => ?_⟩
  rwa [h.config]

theorem onDevice_same {β : Type} (x : DeviceM β) (h : SameButAttempt s t) :
    wp (onDevice x) (fun _ u => SameButAttempt s u) (fun _ u => SameButAttempt s u) t := by
  rw [wp_onDevice]
  exact wp_of_forall (fun _ _ => ⟨h.config, h.metadataBuffer, h.firmwareBuffer⟩)
    (fun _ _ => ⟨h.config, h.metadataBuffer, h.firmwareBuffer⟩)

variable (replies : FirmwareReplies)

theorem iapHttpsStartSession_same (h : SameButAttempt s t) :
    wp (iapHttpsStartSession replies) (fun _ u => SameButAttempt s u) (fun _ u => SameButAttempt s u) t := by
  simp only [iapHttpsStartSession, wp_bind, wp_get, wp_ite, wp_pure, wp_modify]
  have hresult : ∀ (result : IapErr) (u : App), SameButAttempt s u → (result ≠ .ok → SameButAttempt s u) ∧
      (¬result ≠ .ok → SameButAttempt s { u with totalNofBytesReceived := 0, hasIapSession := true }) :=
    fun _ _ hu => ⟨fun _ => hu, fun _ => ⟨hu.config, hu.metadataBuffer, hu.firmwareBuffer⟩⟩
  refine ⟨fun _ => h, fun _ => wp_mono (onDevice_same _ h) (fun first u hu => ?_) (fun _ _ hu => hu)⟩
  refine ⟨fun _ => ?_, fun _ => hresult first u hu⟩
  refine wp_mono (onDevice_same _ hu) (fun _ v hv => ?_) (fun _ _ hv => hv)
  exact wp_mono (onDevice_same _ hv) hresult (fun _ _ hw => hw)

theorem iapHttpsWriteData_same (responseBuffer : Bytes) (bytesReceived : Nat) (h : SameButAttempt s t) :
    wp (iapHttpsWriteData replies responseBuffer bytesReceived) (fun _ u => SameButAttempt s u)
      (fun _ u => SameButAttempt s u) t := by
  simp only [iapHttpsWriteData, wp_bind, wp_ite, wp_pure, wp_modify]
  refine wp_mono (onDevice_same _ h) (fun result u hu => ?_) (fun _ _ hu => hu)
  have hcounted : SameButAttempt s { u with
      totalNofBytesReceived := toInt32 (u.totalNofBytesReceived + bytesReceived) } :=
    ⟨hu.config, hu.metadataBuffer, hu.firmwareBuffer⟩
  exact ⟨fun _ => onDevice_same _ hcounted, fun _ => hcounted⟩

theorem iapHttpsFinishSession_same (h : SameButAttempt s t) :
    wp (iapHttpsFinishSession replies) (fun _ u => SameButAttempt s u) (fun _ u => SameButAttempt s u) t := by
  simp only [iapHttpsFinishSession, wp_bind, wp_get, wp_ite, wp_pure, wp_modify, wp_throw]
  have hfinished : SameButAttempt s { t with hasIapSession := false } := ⟨h.config, h.metadataBuffer, h.firmwareBuffer⟩
  refine ⟨fun _ => wp_mono (onDevice_same _ hfinished) (fun _ u hu => ?_) (fun _ _ hu => hu),
    fun _ => onDevice_same _ hfinished⟩
  have hcommitted : SameButAttempt s { u with hasNewFirmware := true } :=
    ⟨hu.config, hu.metadataBuffer, hu.firmwareBuffer⟩
  exact ⟨fun _ => onDevice_same _ hcommitted, fun _ => hcommitted⟩

theorem firmwareBodyCallback_same (platform : Nat → FirmwareReplies) (responseBuffer : Bytes) (bytesReceived : Nat)
    (s : App) :
    wp (firmwareBodyCallback platform responseBuffer bytesReceived) (fun _ t => SameButAttempt s t)
      (fun _ t => SameButAttempt s t) s := by
  simp only [firmwareBodyCallback, iapHttpsFirmwareBodyCallback, wp_bind, wp_get, wp_set, wp_ite, wp_pure]
  have hcounted : SameButAttempt s { s with nofCallbacks := s.nofCallbacks + 1 } := ⟨rfl, rfl, rfl⟩
  refine wp_mono (iapHttpsStartSession_same _ hcounted) (fun _ t ht => ?_) (fun _ _ ht => ht)
  exact ⟨fun _ => ⟨fun _ => iapHttpsWriteData_same _ responseBuffer bytesReceived ht,
    fun _ => iapHttpsFinishSession_same _ ht⟩, fun _ => ht⟩

end Callbacks

section Runs

theorem iapHttpsDownloadImage_setup (platform : Nat → FirmwareReplies) (script : Script) (s : Updater) :
    wp (iapHttpsDownloadImage platform script) (fun _ t => SameSetup s.client.app t.client.app)
      (fun _ t => SameSetup s.client.app t.client.app) s := by
  have hnew : SameSetup s.client.app s.client.app.newAttempt := ⟨rfl, rfl, ⟨_, _, rfl⟩, id⟩
  have hhandles : ∀ valid : ValidRequest App, valid.bodyCallback = firmwareBodyCallback platform →
      valid.errorCallback = iapHttpsErrorCallback →
      Handles valid (SameSetup s.client.app) (fun _ t => SameSetup s.client.app t.app)
        (fun _ _ t => SameSetup s.client.app t.app) := by
    intro valid hbody herror
    refine handles_of_keeps herror (fun responseBuffer n app happ => ?_)
    rw [hbody]
    exact wp_weaken (firmwareBodyCallback_same platform responseBuffer n app) fun _ h => happ.trans h.setup
  apply wp_mono (iapHttpsDownloadImage_handled script hnew hhandles)
  · intro _ t ht
    rcases ht with ⟨happ, -⟩ | ⟨_, ht, -⟩
    · rw [happ]
      exact hnew
    · exact ht
  · intro _ t ht
    rcases ht with hclient | ⟨happ, -⟩ | ⟨_, ht, -⟩
    · rw [hclient]
      exact SameSetup.refl _
    · rw [happ]
      exact hnew
    · exact ht

theorem UpdaterStep.setup (step : UpdaterStep) (s : Updater) :
    wp step.run (fun _ t => SameSetup s.client.app t.client.app)
      (fun _ t => SameSetup s.client.app t.client.app) s := by
  cases step with
  | checkForUpdate script =>
      refine iapHttpsCheckForUpdate_keeps script s (SameSetup.refl _) fun responseBuffer n app happ => ?_
      exact wp_mono (iapHttpsMetadataBodyCallback_setup responseBuffer n app) (fun _ _ h => happ.trans h)
        (fun _ _ h => h)
  | downloadImage platform script => exact iapHttpsDownloadImage_setup platform script s

theorem updater_setup (steps : List UpdaterStep) (s : Updater) :
    wp (run UpdaterStep.run steps) (fun _ t => SameSetup s.client.app t.client.app)
      (fun _ t => SameSetup s.client.app t.client.app) s :=
  run_invariant UpdaterStep.run (I := fun t : Updater => SameSetup s.client.app t.client.app)
    (fun step t ht _ => wp_weaken (step.setup t) fun _ h => ht.trans h) steps s (SameSetup.refl _)
    (along_true UpdaterStep.run steps s)

-- Between two calls the task clears the download bit.
theorem SystemStep.setup (step : SystemStep) (s : System) :
    wp step.run (fun _ t => SameSetup s.updater.client.app t.updater.client.app)
      (fun _ t => SameSetup s.updater.client.app t.updater.client.app) s := by
  have hsame := SameSetup.refl s.updater.client.app
  by_cases htask : ∃ replies, step = .task replies
  · obtain ⟨replies, rfl⟩ := htask
    have hcalls : ∀ (call : UpdaterStep) (t : System) (next heldUp : TaskPoint),
        t.updater.client.app = s.updater.client.app → wp (callUpdater call.run next heldUp)
          (fun _ t => SameSetup s.updater.client.app t.updater.client.app)
          (fun _ t => SameSetup s.updater.client.app t.updater.client.app) t := by
      intro call t next heldUp hpart
      rw [wp_callUpdater, ← hpart]
      exact wp_mono (call.setup t.updater) (fun _ _ h => h) (fun _ _ h => ⟨fun _ => h, fun _ => h⟩)
    refine wp_iapHttpsTask_calls replies (fun _ _ => hsame) (fun _ _ _ => hsame) (fun _ => ?_)
      (fun _ => hcalls (.downloadImage replies.platform replies.script) s _ _ rfl)
      (fun _ => ⟨rfl, rfl, ⟨_, _, rfl⟩, id⟩) (fun _ _ _ _ => hsame) (fun _ => hsame) (fun _ => hsame)
      (fun _ => hsame)
    simp only [callCheckForUpdate, wp_bind, wp_get, wp_set]
    exact hcalls (.checkForUpdate replies.script) _ _ _ rfl
  · have hleaves := (SystemStep.leaves (s := s) fun replies h => htask ⟨replies, h⟩).1
    refine wp_mono hleaves (fun _ t ht => ?_) (fun _ _ h => h.elim)
    rw [ht.updater]
    exact hsame

theorem system_setup (steps : List SystemStep) (s : System) :
    wp (run SystemStep.run steps) (fun _ t => SameSetup s.updater.client.app t.updater.client.app)
      (fun _ t => SameSetup s.updater.client.app t.updater.client.app) s :=
  run_invariant SystemStep.run (I := fun t : System => SameSetup s.updater.client.app t.updater.client.app)
    (fun step t ht _ => wp_weaken (step.setup t) fun _ h => ht.trans h) steps s (SameSetup.refl _)
    (along_true SystemStep.run steps s)

end Runs

end Esp32Ota

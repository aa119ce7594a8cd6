import Esp32Ota.IapHttps.Step

-- Which partition a download programs.
namespace Esp32Ota

open CLib Halting

def NeverTargetsRunning (s : Device) : Prop :=
  ∀ partition result handle, .otaBegin partition result handle ∈ s.trace → partition ≠ s.runningPartition

-- `esp_partition_find_first` only finds partitions of the label it is given.
def FindsByLabel (partitionFindFirst : String → Option Partition) : Prop :=
  ∀ label partition, partitionFindFirst label = some partition → partition.label = label

def UpdaterStep.FindsByLabel : UpdaterStep → Prop
  | .checkForUpdate _ => True
  | .downloadImage platform _ => ∀ k, Esp32Ota.FindsByLabel (platform k).begin.partitionFindFirst ∧
      Esp32Ota.FindsByLabel (platform k).beginAgain.partitionFindFirst

-- The next partition is looked up behind the boot partition, so that has to be
-- the running one, unless none of the two partitions for updates is running.
def TargetsOther (s : Device) : Prop :=
  s.bootPartition = s.runningPartition ∨
    s.runningPartition.label ≠ "ota_0" ∧ s.runningPartition.label ≠ "ota_1"

def UpdaterStep.TargetsOther (s : Updater) : UpdaterStep → Prop
  | .checkForUpdate _ => True
  | .downloadImage _ _ => Esp32Ota.TargetsOther s.client.app.device

theorem next_label {partitionFindFirst : String → Option Partition} {boot partition : Partition}
    (hfind : FindsByLabel partitionFindFirst)
    (h : iapFindNextBootPartition partitionFindFirst boot = some partition) :
    partition.label ≠ boot.label ∧ (partition.label = "ota_0" ∨ partition.label = "ota_1") := by
  unfold iapFindNextBootPartition at h
  by_cases h1 : boot.label = "ota_1"
  · rw [if_pos h1] at h
    simp [hfind _ _ h, h1]
  rw [if_neg h1] at h
  by_cases h0 : boot.label = "ota_0"
  · rw [if_pos h0] at h
    simp [hfind _ _ h, h0]
  rw [if_neg h0] at h
  by_cases hf : boot.label = "factory"
  · rw [if_pos hf] at h
    simp [hfind _ _ h, hf]
  · rw [if_neg hf] at h
    cases h

theorem next_ne_running {partitionFindFirst : String → Option Partition} {s : Device} {partition : Partition}
    (hfind : FindsByLabel partitionFindFirst) (hs : TargetsOther s)
    (h : iapFindNextBootPartition partitionFindFirst s.bootPartition = some partition) :
    partition ≠ s.runningPartition := by
  obtain ⟨hother, hslot⟩ := next_label hfind h
  intro heq
  obtain rfl := heq
  rcases hs with hboot | ⟨h0, h1⟩
  · exact hother (by rw [hboot])
  · exact hslot.elim h0 h1

-- An event that is no begin on the running partition.
def OffRunning (running : Partition) (event : Event) : Prop :=
  ∀ partition result handle, event = .otaBegin partition result handle → partition ≠ running

theorem SessionEvent.offRunning {replies : FirmwareReplies} {s : Device} {event : Event}
    (hbegin : FindsByLabel replies.begin.partitionFindFirst)
    (hagain : FindsByLabel replies.beginAgain.partitionFindFirst) (hs : TargetsOther s)
    (h : SessionEvent replies s.bootPartition event) : OffRunning s.runningPartition event := by
  intro partition result handle heq
  subst heq
  rcases h with ⟨_, _, _, heq, hnext⟩ | ⟨_, _, _, heq, hnext⟩ | ⟨_, _, _, heq⟩ | ⟨_, _, heq⟩
  · cases heq
    exact next_ne_running hbegin hs hnext
  · cases heq
    exact next_ne_running hagain hs hnext
  · cases heq
  · cases heq

theorem FinishEvent.offRunning {running : Partition} {event : Event} (h : FinishEvent event) :
    OffRunning running event := by
  intro partition result handle heq
  subst heq
  simp [FinishEvent, IsCommit, IsWrite, IsAbort] at h

theorem Follows.neverTargetsRunning {s t : Device} (h : Follows (OffRunning s.runningPartition) s t)
    (hs : NeverTargetsRunning s) : NeverTargetsRunning t := by
  have hall := h.all (P := OffRunning s.runningPartition) fun event he partition result handle heq =>
    hs partition result handle (heq ▸ he)
  intro partition result handle he
  rw [h.running]
  exact hall _ he partition result handle rfl

theorem Serves.targetsOther {P : Event → Prop} {s t : App} (h : Serves P s t) (hs : TargetsOther s.device) :
    TargetsOther t.device := by
  unfold TargetsOther
  rw [h.device.boot, h.device.running]
  exact hs

theorem firmwareBodyCallback_offRunning {platform : Nat → FirmwareReplies} {valid : ValidRequest App}
    (hbody : valid.bodyCallback = firmwareBodyCallback platform)
    (herror : valid.errorCallback = iapHttpsErrorCallback)
    (hfinds : ∀ k, FindsByLabel (platform k).begin.partitionFindFirst ∧
      FindsByLabel (platform k).beginAgain.partitionFindFirst) {s : App} (hs : TargetsOther s.device) :
    Handles valid (Serves (OffRunning s.device.runningPartition) s)
      (fun _ t => Follows (OffRunning s.device.runningPartition) s.device t.app.device)
      (fun _ _ t => Follows (OffRunning s.device.runningPartition) s.device t.app.device) := by
  have hsession : ∀ t, Serves (OffRunning s.device.runningPartition) s t → ∀ event,
      SessionEvent (platform t.nofCallbacks) t.device.bootPartition event →
      OffRunning s.device.runningPartition event := by
    intro t ht event hevent
    obtain ⟨hbegin, hagain⟩ := hfinds t.nofCallbacks
    rw [← ht.device.running]
    exact hevent.offRunning hbegin hagain (ht.targetsOther hs)
  refine handles_of_serves hbody herror hsession (fun _ _ ht => ht.device.toFollows)
    (fun _ _ _ ht => ht.device.toFollows) fun bytes t ht _ => ?_
  rw [wp_invokeBodyCallback, hbody]
  have hfollows := fun u (hu : Follows (fun event => SessionEvent (platform t.app.nofCallbacks)
      t.app.device.bootPartition event ∨ FinishEvent event) t.app.device u) =>
    ht.device.toFollows.trans (hu.mono fun event hevent =>
      hevent.elim (hsession t.app ht event) FinishEvent.offRunning)
  exact wp_weaken (firmwareBodyCallback_follows _ t.app platform) fun u hu => hfollows _ hu

theorem neverTargetsRunning_step (step : UpdaterStep) (s : Updater)
    (hs : NeverTargetsRunning s.client.app.device) (htarget : step.TargetsOther s)
    (hfinds : step.FindsByLabel) :
    wp step.run (fun _ t => NeverTargetsRunning t.client.app.device)
      (fun _ t => NeverTargetsRunning t.client.app.device) s := by
  cases step with
  | checkForUpdate script =>
      apply wp_mono (iapHttpsCheckForUpdate_same script s)
      · exact fun _ t ht => ht.device ▸ hs
      · exact fun _ t ht => ht.device ▸ hs
  | downloadImage platform script =>
      have hstart : Serves (OffRunning s.client.app.device.runningPartition) s.client.app
          s.client.app.newAttempt := ⟨Keeps.refl _ _, rfl, rfl⟩
      refine wp_mono (iapHttpsDownloadImage_handled script hstart fun valid hbody herror =>
        firmwareBodyCallback_offRunning hbody herror hfinds htarget) ?_ ?_
      · intro _ t hpost
        rcases hpost with ⟨happ, -⟩ | ⟨_, ht, -⟩
        · rw [happ]
          exact hs
        · exact ht.neverTargetsRunning hs
      · intro _ t hpost
        rcases hpost with hsame | ⟨happ, -⟩ | ⟨_, ht, -⟩
        · rw [hsame]
          exact hs
        · rw [happ]
          exact hs
        · exact ht.neverTargetsRunning hs

-- Every run since power-up in which no download starts after the boot
-- partition has moved, or in which the running partition is not one of the two.
theorem targets_other_partition {partition : Partition} {config : IapHttpsConfig}
    {metadataBuffer firmwareBuffer : Malloc} {steps : List UpdaterStep}
    (hfinds : ∀ step ∈ steps, step.FindsByLabel)
    (hsteps : Along UpdaterStep.run (fun s step => step.TargetsOther s) steps
      (iapHttpsInit partition config metadataBuffer firmwareBuffer)) :
    NeverTargetsRunning (final (run UpdaterStep.run steps)
      (iapHttpsInit partition config metadataBuffer firmwareBuffer)).client.app.device := by
  have hboot : NeverTargetsRunning
      (iapHttpsInit partition config metadataBuffer firmwareBuffer).client.app.device := by
    intro _ _ _ he
    cases he
  exact final_of_wp (P := fun t : Updater => NeverTargetsRunning t.client.app.device)
    (run_invariant UpdaterStep.run (I := fun s : Updater => NeverTargetsRunning s.client.app.device)
      (fun step s hs hp => neverTargetsRunning_step step s hs hp.1 hp.2) steps _ hboot
      (along_and UpdaterStep.run steps _ hsteps (along_of_forall UpdaterStep.run steps _ hfinds)))

theorem exampleDownload_findsByLabel (connect : ConnectReplies) (commit : CommitReplies) :
    (exampleDownload connect commit).FindsByLabel := by
  have hfind : FindsByLabel examplePartitions := by
    intro label partition h
    simpa using List.find?_some h
  exact fun _ => ⟨hfind, hfind⟩

theorem first_download_targets_other :
    NeverTargetsRunning (final (run UpdaterStep.run [exampleDownload exampleConnect ⟨ESP_OK, ESP_OK, ESP_OK⟩])
      (iapHttpsInit ⟨"ota_0", 0x110000⟩ (exampleConfig false) (some fun _ => 0)
        (some fun _ => 0))).client.app.device := by
  have hboot : TargetsOther (iapHttpsInit ⟨"ota_0", 0x110000⟩ (exampleConfig false) (some fun _ => 0)
      (some fun _ => 0)).client.app.device := by
    rw [iapHttpsInit_device]
    exact .inl rfl
  refine targets_other_partition ?_ (along_singleton UpdaterStep.run hboot)
  intro step hstep
  rw [List.mem_singleton.mp hstep]
  exact exampleDownload_findsByLabel _ _

-- The second download after the same power-up is back on the running partition.
theorem second_download_targets_running :
    ¬∀ (partition : Partition) (config : IapHttpsConfig) (metadataBuffer firmwareBuffer : Malloc)
      (steps : List UpdaterStep), (∀ step ∈ steps, step.FindsByLabel) →
      NeverTargetsRunning (final (run UpdaterStep.run steps)
        (iapHttpsInit partition config metadataBuffer firmwareBuffer)).client.app.device := by
  intro h
  have hfinds : ∀ step ∈ List.replicate 2 (exampleDownload exampleConnect ⟨ESP_OK, ESP_OK, ESP_OK⟩),
      step.FindsByLabel := by
    intro step hstep
    rw [List.eq_of_mem_replicate hstep]
    exact exampleDownload_findsByLabel _ _
  have htargets := h ⟨"ota_0", 0x110000⟩ (exampleConfig false) (some fun _ => 0) (some fun _ => 0) _ hfinds
  generalize ht : final (run UpdaterStep.run (List.replicate 2
    (exampleDownload exampleConnect ⟨ESP_OK, ESP_OK, ESP_OK⟩))) (iapHttpsInit ⟨"ota_0", 0x110000⟩
    (exampleConfig false) (some fun _ => 0) (some fun _ => 0)) = t at htargets
  have hbegin : .otaBegin ⟨"ota_0", 0x110000⟩ ESP_OK 1 ∈ t.client.app.device.trace := by
    rw [← ht]
    decide +kernel
  have hrunning : t.client.app.device.runningPartition = ⟨"ota_0", 0x110000⟩ := by
    rw [← ht]
    decide +kernel
  exact htargets _ _ _ hbegin hrunning.symm

end Esp32Ota

import Esp32Ota.Lib.Trace
import Esp32Ota.IapHttps.Session

-- When the updater reports a new firmware, and when it restarts the device.
namespace Esp32Ota

open CLib Halting Trace

-- The latest events are those of a commit that went through.
def JustInstalled (trace : List Event) : Prop :=
  ∃ partition handle earlier, trace = .iapCommit .ok :: .otaSetBootPartition partition ESP_OK ::
    .otaEnd handle true ESP_OK :: earlier

def Installed (trace : List Event) : Prop :=
  ∃ later earlier, trace = later ++ earlier ∧ JustInstalled earlier

structure Reported (s : App) : Prop where
  installed : iapHttpsNewFirmwareInstalled s = true → Installed s.device.trace
  restarted : Justified (fun event earlier => event = .espRestart → JustInstalled earlier) s.device.trace

-- The image of the download is accepted and activated. Without restarts a
-- failure does no harm once an earlier image is in place.
def UpdaterStep.Installs (s : Updater) : UpdaterStep → Prop
  | .checkForUpdate _ => True
  | .downloadImage platform _ => (∀ k, (platform k).commit.Succeeds) ∨
      s.client.app.config.autoReboot = false ∧ Installed s.client.app.device.trace

theorem Installed.append {trace : List Event} (h : Installed trace) (events : List Event) :
    Installed (events ++ trace) := by
  obtain ⟨later, earlier, rfl, hinstalled⟩ := h
  exact ⟨events ++ later, earlier, by rw [List.append_assoc], hinstalled⟩

theorem JustInstalled.installed {trace : List Event} (h : JustInstalled trace) : Installed trace :=
  ⟨[], trace, rfl, h⟩

theorem Reported.serves {s t : App} (hs : Reported s) (hst : Serves (· ≠ .espRestart) s t) : Reported t := by
  obtain ⟨events, htrace, hevents⟩ := hst.device.events
  refine ⟨fun hnew => ?_, ?_⟩
  · rw [iapHttpsNewFirmwareInstalled, hst.hasNewFirmware] at hnew
    rw [htrace]
    exact (hs.installed hnew).append _
  · rw [htrace]
    exact hs.restarted.append fun event he _ heq => absurd heq (hevents event he)

theorem SessionEvent.ne_espRestart {replies : FirmwareReplies} {boot : Partition} {event : Event}
    (h : SessionEvent replies boot event) : event ≠ .espRestart := by
  intro heq
  obtain rfl := heq
  simp [SessionEvent, BeginsOn, IsWrite, IsAbort] at h

-- The events of a commit, the last of which say how it went.
theorem Committed.trace {replies : CommitReplies} {s t : Device} {result : IapErr}
    (h : Committed replies s result t) :
    (∃ events, t.trace = events ++ s.trace ∧ ∀ event ∈ events, event ≠ .espRestart) ∧
      (replies.Succeeds → JustInstalled t.trace) := by
  obtain ⟨u, v, -, -, hwrites, -, hfinished, rfl⟩ := h.path
  obtain ⟨events, htrace, hevents⟩ := hwrites.events
  have hquiet : ∀ event ∈ events, event ≠ .espRestart := by
    intro event he heq
    obtain rfl := heq
    obtain ⟨_, _, heq, -⟩ := hevents _ he
    cases heq
  cases hfinished with
  | imageRejected _ _ hfail htrace' _ =>
      refine ⟨⟨_ :: _ :: events, by rw [htrace', htrace]; rfl, ?_⟩, fun h => absurd h.otaEnd hfail⟩
      simpa using hquiet
  | activationFailed _ _ _ hfail htrace' _ =>
      refine ⟨⟨_ :: _ :: _ :: events, by rw [htrace', htrace]; rfl, ?_⟩,
        fun h => absurd h.otaSetBootPartition hfail⟩
      simpa using hquiet
  | activated _ hresult _ _ htrace' _ =>
      refine ⟨⟨_ :: _ :: _ :: events, by rw [htrace', htrace]; rfl, by simpa using hquiet⟩, fun _ => ?_⟩
      exact ⟨u.iapState.partitionToProgram, u.iapState.otaHandle, u.trace, by rw [hresult, htrace']⟩

section Download

variable {s₀ s : App} {replies : FirmwareReplies}

-- The callback at the end of the body, where the new firmware is reported.
theorem iapHttpsFinishSession_reported (hs : Session s.device) (hreported : Reported s)
    (hinstalls : replies.commit.Succeeds ∨ s.config.autoReboot = false ∧ Installed s.device.trace) :
    wp (iapHttpsFinishSession replies) (fun _ => Reported) (fun _ => Reported) s := by
  by_cases htotal : 0 < s.totalNofBytesReceived
  · rw [wp_iapHttpsFinishSession_commit replies htotal]
    refine wp_mono (iapCommit_spec hs replies.commit) ?_ (fun _ _ h => h.elim)
    intro result device hcommitted
    obtain ⟨⟨events, htrace, hevents⟩, hjust⟩ := hcommitted.trace
    have hinstalled : Installed device.trace := by
      rcases hinstalls with hsucceeds | ⟨-, hinstalled⟩
      · exact (hjust hsucceeds).installed
      · exact htrace ▸ hinstalled.append _
    have hjustified : Justified (fun event earlier => event = .espRestart → JustInstalled earlier)
        device.trace := by
      rw [htrace]
      exact hreported.restarted.append fun event he _ heq => absurd heq (hevents event he)
    refine ⟨fun hreboot => ?_, fun _ => ⟨fun _ => hinstalled, hjustified⟩⟩
    -- with automatic reboots it takes a commit that succeeds
    have hsucceeds : replies.commit.Succeeds :=
      hinstalls.resolve_right fun h => by rw [h.1] at hreboot; cases hreboot
    exact ⟨fun _ => hinstalled.append [_], hjustified.cons fun _ => hjust hsucceeds⟩
  · refine wp_mono (iapHttpsFinishSession_aborts hs replies htotal) ?_ (fun _ _ h => h.elim)
    intro _ t ht
    obtain ⟨-, -, -, htrace, heq⟩ := ht
    refine ⟨fun hnew => ?_, ?_⟩
    · rw [htrace]
      rw [iapHttpsNewFirmwareInstalled, heq] at hnew
      exact (hreported.installed hnew).append [_]
    · rw [htrace]
      exact hreported.restarted.cons fun h => by cases h

theorem iapHttpsFirmwareBodyCallback_reported (hs : InAttempt s) (hreported : Reported s)
    (hinstalls : replies.commit.Succeeds ∨ s.config.autoReboot = false ∧ Installed s.device.trace)
    (responseBuffer : Bytes) :
    wp (iapHttpsFirmwareBodyCallback replies responseBuffer 0) (fun _ => Reported) (fun _ => Reported) s := by
  simp only [iapHttpsFirmwareBodyCallback, wp_bind, wp_ite, wp_pure, Nat.lt_irrefl, gt_iff_lt,
    false_implies, true_and, not_false_eq_true, true_implies]
  refine wp_mono (wp_and (iapHttpsStartSession_spec hs.toReady replies)
    (iapHttpsStartSession_serves replies s)) ?_ (fun _ _ h => h.1.elim)
  intro started t ht
  obtain ⟨hstarted, hserves⟩ := ht
  have hserves := hserves.mono (R := (· ≠ .espRestart)) fun _ h => h.ne_espRestart
  have hreported := hreported.serves hserves
  refine ⟨fun h => ?_, fun _ => hreported⟩
  refine iapHttpsFinishSession_reported ((hstarted.inAttempt hs).2 h) hreported (hinstalls.imp_right ?_)
  intro hearlier
  obtain ⟨hmanual, hinstalled⟩ := hearlier
  obtain ⟨events, htrace, -⟩ := hserves.device.events
  exact ⟨hserves.autoReboot.trans hmanual, htrace ▸ hinstalled.append _⟩

theorem firmwareBodyCallback_reported {platform : Nat → FirmwareReplies} {valid : ValidRequest App}
    (hbody : valid.bodyCallback = firmwareBodyCallback platform)
    (herror : valid.errorCallback = iapHttpsErrorCallback) (hreported : Reported s₀)
    (hinstalls : (∀ k, (platform k).commit.Succeeds) ∨
      s₀.config.autoReboot = false ∧ Installed s₀.device.trace) :
    Handles valid (fun s => InAttempt s ∧ Serves (· ≠ .espRestart) s₀ s) (fun _ t => Reported t.app)
      (fun _ _ t => Reported t.app) := by
  refine ⟨fun _ n t hn ht => ?_, fun _ t ht _ => ?_, fun _ _ _ t ht => ?_,
    fun _ _ ht => hreported.serves ht.2, fun _ _ _ _ ht => hreported.serves ht.2⟩
  · rw [wp_invokeBodyCallback, hbody]
    have hserves := fun u (hu : Serves (SessionEvent (platform t.app.nofCallbacks)
        t.app.device.bootPartition) t.app u) => ht.2.trans (hu.mono (R := (· ≠ .espRestart))
      fun _ h => h.ne_espRestart)
    refine wp_mono (wp_and (firmwareBodyCallback_inAttempt ht.1 platform _ n)
      (firmwareBodyCallback_serves _ n t.app platform hn)) ?_
      (fun _ u hu => hreported.serves (hserves u hu.2))
    exact fun _ u hu => ⟨fun hcr => ⟨hu.1.2 hcr, hserves u hu.2⟩, fun _ => hreported.serves (hserves u hu.2)⟩
  · rw [wp_invokeBodyCallback, hbody]
    simp only [firmwareBodyCallback, wp_bind, wp_get, wp_set]
    have hreported := hreported.serves ht.2
    refine iapHttpsFirmwareBodyCallback_reported (ht.1.count (t.app.nofCallbacks + 1))
      ⟨hreported.installed, hreported.restarted⟩ (hinstalls.imp (fun h => h t.app.nofCallbacks) ?_) _
    intro hearlier
    obtain ⟨hmanual, hinstalled⟩ := hearlier
    obtain ⟨events, htrace, -⟩ := ht.2.device.events
    exact ⟨ht.2.autoReboot.trans hmanual, htrace ▸ hinstalled.append _⟩
  · rw [wp_invokeErrorCallback, herror]
    exact hreported.serves ht.2

end Download

theorem reported_step (step : UpdaterStep) (s : Updater) (hs : Ready s.client.app)
    (hreported : Reported s.client.app) (hstep : step.Installs s) :
    wp step.run (fun _ t => Reported t.client.app) (fun _ t => Reported t.client.app) s := by
  cases step with
  | checkForUpdate script =>
      have hsame : ∀ t : App, SameDevice s.client.app t → Reported t := fun t ht =>
        hreported.serves ⟨⟨⟨by rw [ht.device], [], by rw [ht.device]; rfl, by simp⟩, by rw [ht.device]⟩,
          ht.hasNewFirmware, ht.autoReboot⟩
      exact wp_weaken (iapHttpsCheckForUpdate_same script s) fun _ ht => hsame _ ht
  | downloadImage platform script =>
      have hstart : Serves (· ≠ .espRestart) s.client.app s.client.app.newAttempt :=
        ⟨Keeps.refl _ _, rfl, rfl⟩
      refine wp_mono (iapHttpsDownloadImage_handled script ⟨hs.newAttempt, hstart⟩ fun valid hbody herror =>
        firmwareBodyCallback_reported hbody herror hreported hstep) ?_ ?_
      · intro _ t hpost
        rcases hpost with ⟨happ, -⟩ | ⟨_, ht, -⟩
        · exact happ ▸ hreported.serves hstart
        · exact ht
      · intro _ t hpost
        rcases hpost with hsame | ⟨happ, -⟩ | ⟨_, ht, -⟩
        · exact hsame ▸ hreported
        · exact happ ▸ hreported.serves hstart
        · exact ht

-- Every run since power-up in which ESP-IDF goes along with the commits.
theorem reported_of_installs {partition : Partition} {config : IapHttpsConfig}
    {metadataBuffer firmwareBuffer : Malloc} {steps : List UpdaterStep}
    (hsteps : Along UpdaterStep.run (fun s step => step.Installs s) steps
      (iapHttpsInit partition config metadataBuffer firmwareBuffer)) :
    Reported (final (run UpdaterStep.run steps)
      (iapHttpsInit partition config metadataBuffer firmwareBuffer)).client.app := by
  have hstart : Reported (iapHttpsInit partition config metadataBuffer firmwareBuffer).client.app :=
    ⟨fun h => (by cases h), justified_nil⟩
  have hrun := run_invariant UpdaterStep.run
    (I := fun s : Updater => Ready s.client.app ∧ Reported s.client.app)
    (J := fun _ s => Reported s.client.app)
    (fun step s hs hp => wp_mono (wp_and (ready_step step s hs.1) (reported_step step s hs.1 hs.2 hp))
      (fun _ _ h => h) (fun _ _ h => h.2)) steps _
    ⟨ready_start partition config metadataBuffer firmwareBuffer, hstart⟩ hsteps
  exact final_of_wp (P := fun s : Updater => Reported s.client.app)
    (wp_mono hrun (fun _ _ h => h.2) (fun _ _ h => h))

theorem first_install_reported :
    Reported (final (run UpdaterStep.run [exampleDownload exampleConnect ⟨ESP_OK, ESP_OK, ESP_OK⟩])
      (iapHttpsInit ⟨"factory", 0x10000⟩ (exampleConfig true) (some fun _ => 0)
        (some fun _ => 0))).client.app :=
  reported_of_installs (along_singleton UpdaterStep.run (.inl fun _ => ⟨rfl, rfl⟩))

-- The image is bad, and the device is restarted nevertheless.
theorem failed_install_reported :
    ¬∀ (partition : Partition) (config : IapHttpsConfig) (metadataBuffer firmwareBuffer : Malloc)
      (steps : List UpdaterStep),
      Reported (final (run UpdaterStep.run steps)
        (iapHttpsInit partition config metadataBuffer firmwareBuffer)).client.app := by
  intro h
  have hreported := h ⟨"factory", 0x10000⟩ (exampleConfig true) (some fun _ => 0) (some fun _ => 0)
    [exampleDownload exampleConnect ⟨ESP_OK, -1, ESP_OK⟩]
  obtain ⟨partition, handle, earlier, heq⟩ := hreported.restarted [] .espRestart
    [.iapCommit .fail, .otaEnd 1 true (-1), .otaWrite 1 (ascii "a") ESP_OK,
      .otaBegin ⟨"ota_0", 0x110000⟩ ESP_OK 1] (by decide +kernel) rfl
  cases heq

end Esp32Ota

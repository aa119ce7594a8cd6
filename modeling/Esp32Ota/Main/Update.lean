import Esp32Ota.IapHttps.Update
import Esp32Ota.Main.Projection

-- The application installs what the server announces.
namespace Esp32Ota

open CLib Halting

theorem task_of_systemStep {step : Esp32Step} {s : Esp32} {replies : TaskReplies}
    (h : step.systemStep s = some (.task replies)) :
    ∃ others : TaskReplies, step = .task others ∧ replies = { others with wifiConnected := s.connected } := by
  cases step with
  | main hasSession =>
      simp only [Esp32Step.systemStep] at h
      split at h <;> cases h
  | event e => cases h
  | handler connect => cases h
  | task others =>
      simp only [Esp32Step.systemStep] at h
      split at h
      · rw [Option.some.injEq, SystemStep.task.injEq] at h
        exact ⟨others, rfl, h.symm⟩
      · cases h
  | timerExpires =>
      simp only [Esp32Step.systemStep] at h
      split at h <;> cases h
  | undeletedTimerExpires =>
      simp only [Esp32Step.systemStep] at h
      split at h <;> cases h

-- From power-on, whatever the events of the station, the main loop and the timers do in between: with a
-- check asked for, and the network and the flash doing their part, twelve operations of the task that do
-- not wait for the station bring the download that installs the announced image.
theorem application_installs (boot : Boot) (hboot : boot.Configures) (before after : List Esp32Step) {s : Esp32}
    {u : System} (hbefore : run (Esp32Step.run boot) before Esp32.powerOn = .ok ⟨⟩ s) (hu : s.updater = some u)
    (hdue : u.Due) (hgood : Along SystemStep.run (fun u step => step.Good u) (systemSteps boot after s) u)
    (hsteps : 11 < ticks SystemStep.run (fun u step => step.goesOn u) (systemSteps boot after s) u) :
    ∃ earlier replies later t v header image, after = earlier ++ .task replies :: later ∧
      run (Esp32Step.run boot) earlier s = .ok ⟨⟩ t ∧ t.updater = some v ∧ v.point = .downloadImage ∧
      GoodDownload replies.platform replies.script v.updater header image ∧
      InstallsAnnounced { replies with wifiConnected := t.connected } v image := by
  obtain ⟨hembeds, hrunning, hsystem⟩ := embeds_of_run hboot hbefore hu
  obtain ⟨calls, answers, rest, v, header, image, hsplit, hcalls, hpoint, hdownload⟩ :=
    download_comes hsystem hdue (systemSteps boot after s) hgood hsteps
  obtain ⟨earlier, step, later, t, rfl, hearlier, hstep, rfl⟩ := exists_of_matchingSteps after hsplit
  obtain ⟨replies, rfl, rfl⟩ := task_of_systemStep hstep
  obtain ⟨w, hw, hsame⟩ := (hembeds.run_updater hboot hrunning earlier).1 t hearlier
  obtain ⟨-, rfl⟩ := EStateM.Result.ok.inj (hcalls.symm.trans hsame)
  exact ⟨earlier, replies, later, t, v, header, image, rfl, hearlier, hw, hpoint, hdownload,
    installs_announced (run_append_ok SystemStep.run hsystem hcalls) hpoint hdownload⟩

-- The station stays up, and the task is the only one that goes on.
theorem systemSteps_replicate (boot : Boot) (replies : TaskReplies) (n : Nat) {s : Esp32}
    (h : Along (Esp32Step.run boot) (fun s _ => s.connected = true) (List.replicate n (.task replies)) s) :
    ∀ call ∈ systemSteps boot (List.replicate n (.task replies)) s,
      call = .task { replies with wifiConnected := true } := by
  induction n generalizing s with
  | zero => exact fun _ hcall => (List.not_mem_nil hcall).elim
  | succ n ih =>
      obtain ⟨hconnected, hrest⟩ := h
      intro call hcall
      unfold systemSteps at hcall ih
      rw [List.replicate_succ, matchingSteps, List.mem_append] at hcall
      rcases hcall with hfirst | hlater
      · rw [Option.mem_toList] at hfirst
        simp only [Esp32Step.systemStep, hconnected] at hfirst
        split at hfirst
        · exact (Option.some.inj hfirst).symm
        · cases hfirst
      · cases ht : (Esp32Step.task replies).run boot s with
        | ok _ t =>
            rw [ht] at hlater
            exact ih (wp_ok (x := (Esp32Step.task replies).run boot) hrest ht) call hlater
        | error e t =>
            rw [ht] at hlater
            exact (List.not_mem_nil hlater).elim

-- The paths of the two files have the same length.
def exampleInstall : Boot :=
  { exampleBoot with settings := { Settings.mainH with otaServerMetadataPath := ascii "/ota.txt" } }

theorem exampleInstall_configures : exampleInstall.Configures := ⟨⟨by decide, by decide⟩, by decide, rfl⟩

theorem install_of_exampleStart : ∃ s,
    run (Esp32Step.run exampleInstall) exampleStart Esp32.powerOn = .ok ⟨⟩ s ∧
    ∃ earlier replies later t v header image,
      List.replicate 12 (Esp32Step.task exampleServer) = earlier ++ .task replies :: later ∧
      run (Esp32Step.run exampleInstall) earlier s = .ok ⟨⟩ t ∧ t.updater = some v ∧ v.point = .downloadImage ∧
      GoodDownload replies.platform replies.script v.updater header image ∧
      InstallsAnnounced { replies with wifiConnected := t.connected } v image := by
  obtain ⟨_, s, hbefore, hconnected, u, hu, hpoint, hbit, hserves, hsteps⟩ := exists_ok_of_wp
    (x := run (Esp32Step.run exampleInstall) exampleStart) (s := Esp32.powerOn)
    (Q := fun _ s => Along (Esp32Step.run exampleInstall) (fun s _ => s.connected = true)
        (List.replicate 12 (.task exampleServer)) s ∧
      ∃ u ∈ s.updater, u.point = .waitForWifi ∧ u.fwupCheckForUpdate = true ∧
        Along SystemStep.run (fun u _ => ExampleServes u)
          (systemSteps exampleInstall (List.replicate 12 (.task exampleServer)) s) u ∧
        11 < ticks SystemStep.run (fun u step => step.goesOn u)
          (systemSteps exampleInstall (List.replicate 12 (.task exampleServer)) s) u)
    (by decide +kernel)
  have hcalls := systemSteps_replicate exampleInstall exampleServer 12 hconnected
  have hgood : Along SystemStep.run (fun u step => step.Good u)
      (systemSteps exampleInstall (List.replicate 12 (.task exampleServer)) s) u := by
    refine along_mono SystemStep.run (fun v step hv => ?_) _
      (along_and SystemStep.run _ u hserves (along_of_forall SystemStep.run _ u hcalls))
    rw [hv.2]
    exact exampleUpdateTask_good hv.1
  have hdue : u.Due := by
    unfold System.Due
    rw [hpoint]
    exact .inl hbit
  exact ⟨s, hbefore, application_installs exampleInstall exampleInstall_configures exampleStart _ hbefore hu hdue hgood
    hsteps⟩

end Esp32Ota

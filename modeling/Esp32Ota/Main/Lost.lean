import Esp32Ota.Main.FirstCheck

-- Without the station the updater ends what it has begun, and begins nothing.
namespace Esp32Ota

open CLib Halting

-- The task finds the station without an address.
def SystemStep.offline : SystemStep → Prop
  | .task replies => replies.wifiConnected = false
  | _ => True

-- The next operation of the task is a check or a download.
def TaskPoint.calls : TaskPoint → Bool
  | .checkForUpdate | .downloadImage => true
  | _ => false

section Steps

variable {s : System}

theorem updaterStep_isSome {step : SystemStep} {point : TaskPoint} {call : UpdaterStep}
    (h : step.updaterStep point = some call) : point.calls = true := by
  cases step with
  | task replies => cases point <;> first | rfl | cases h
  | _ => cases h

-- A call is behind the task when it has been made, and none comes up.
theorem iapHttpsTask_offline (replies : TaskReplies) (hwifi : replies.wifiConnected = false) :
    wp (iapHttpsTask replies) (fun _ t => t.point.calls = false) (fun _ _ => True) s := by
  unfold iapHttpsTask
  rw [wp_bind, wp_get]
  cases hpoint : s.point with
  | checkForUpdate =>
      simp only [callCheckForUpdate, wp_bind, wp_get, wp_set]
      rw [wp_callUpdater]
      exact wp_of_forall (fun _ _ => rfl) (fun _ _ => ⟨fun _ => rfl, fun _ => trivial⟩)
  | downloadImage =>
      simp only
      rw [wp_callUpdater]
      exact wp_of_forall (fun _ _ => rfl) (fun _ _ => ⟨fun _ => rfl, fun _ => trivial⟩)
  | prepareTimer =>
      simp only [wp_set]
      split <;> rfl
  | _ => simp [hwifi, hpoint, TaskPoint.calls]

-- The calls that are still to come, before and after a step.
theorem SystemStep.offline_calls {step : SystemStep} (h : step.offline) :
    wp step.run (fun _ t => (step.updaterStep s.point).toList.length + (if t.point.calls then 1 else 0) ≤
      if s.point.calls then 1 else 0) (fun _ _ => True) s := by
  by_cases htask : ∃ replies, step = .task replies
  · obtain ⟨replies, rfl⟩ := htask
    refine wp_mono (iapHttpsTask_offline replies h) (fun _ t ht => ?_) (fun _ _ _ => trivial)
    rw [ht]
    cases hcall : (SystemStep.task replies).updaterStep s.point with
    | none => exact Nat.zero_le _
    | some call =>
        rw [updaterStep_isSome hcall]
        exact Nat.le_refl _
  · have hnone : step.updaterStep s.point = none := by
      cases step with
      | task replies => exact absurd ⟨replies, rfl⟩ htask
      | _ => rfl
    refine wp_mono (SystemStep.leaves (s := s) (not_exists.mp htask)).1 (fun _ t ht => ?_) (fun _ _ _ => trivial)
    rw [hnone, ht.point, Option.toList_none, List.length_nil, Nat.zero_add]

theorem updaterSteps_offline (steps : List SystemStep) (s : System) (h : ∀ step ∈ steps, step.offline) :
    (updaterSteps steps s).length ≤ if s.point.calls then 1 else 0 := by
  induction steps generalizing s with
  | nil => exact Nat.zero_le _
  | cons step steps ih =>
      have hcalls := SystemStep.offline_calls (s := s) (h step List.mem_cons_self)
      unfold updaterSteps at ih ⊢
      rw [matchingSteps, List.length_append]
      cases hrun : step.run s with
      | ok _ t =>
          have hhere := wp_ok hcalls hrun
          have hrest := ih t fun other hother => h other (List.mem_cons_of_mem step hother)
          simp only at hhere ⊢
          omega
      | error e t =>
          cases hcall : step.updaterStep s.point with
          | none => exact Nat.zero_le _
          | some call =>
              rw [updaterStep_isSome hcall]
              exact Nat.le_refl _

end Steps

theorem Esp32Step.offline {step : Esp32Step} {call : SystemStep} {s : Esp32} (hlost : s.connected = false)
    (h : step.systemStep s = some call) : call.offline := by
  cases call with
  | task replies =>
      cases step with
      | task given =>
          simp only [Esp32Step.systemStep] at h
          split at h
          · cases h
            exact hlost
          · cases h
      | main hasSession => cases hmain : s.main <;> simp [Esp32Step.systemStep, hmain] at h
      | event e => cases h
      | handler connect => cases h
      | timerExpires => cases hupdater : s.updater <;> simp [Esp32Step.systemStep, hupdater] at h
      | undeletedTimerExpires => cases hupdater : s.updater <;> simp [Esp32Step.systemStep, hupdater] at h
  | _ => trivial

-- What the application does meanwhile asks for nothing else.
theorem systemSteps_offline (boot : Boot) (steps : List Esp32Step) (s : Esp32)
    (h : Along (Esp32Step.run boot) (fun s _ => s.connected = false) steps s) :
    ∀ call ∈ systemSteps boot steps s, call.offline := by
  induction steps generalizing s with
  | nil => exact fun _ h => by cases h
  | cons step steps ih =>
      obtain ⟨hlost, hrest⟩ := h
      intro call hcall
      rw [systemSteps, matchingSteps, List.mem_append] at hcall
      rcases hcall with hhere | hlater
      · exact Esp32Step.offline hlost (Option.mem_toList.mp hhere)
      · cases hrun : step.run boot s with
        | ok _ t =>
            rw [hrun] at hlater
            exact ih t (wp_ok (x := step.run boot) hrest hrun) call hlater
        | error e t =>
            rw [hrun] at hlater
            cases hlater

-- From the loss of the station up to its next address, the task makes at most one check or download:
-- the one that it had come to. The module is what this call makes of it: it has come back, or the task is
-- held up in it, or it has ended the program.
theorem lost_station (boot : Boot) (hboot : boot.Configures) (before after : List Esp32Step) {s : Esp32} {u : System}
    (hbefore : run (Esp32Step.run boot) before Esp32.powerOn = .ok ⟨⟩ s) (hu : s.updater = some u)
    (hlost : Along (Esp32Step.run boot) (fun s _ => s.connected = false) after s) :
    (updaterSteps (systemSteps boot after s) u).length ≤ (if u.point.calls then 1 else 0) ∧
    (∀ t, run (Esp32Step.run boot) after s = .ok ⟨⟩ t → ∃ v w, t.updater = some v ∧ v.updater.Matches w ∧
      (run UpdaterStep.run (updaterSteps (systemSteps boot after s) u) u.updater = .ok ⟨⟩ w ∨
        run UpdaterStep.run (updaterSteps (systemSteps boot after s) u) u.updater = .error .blocked w ∧
          v.point.heldUp = true)) ∧
    ∀ e t, run (Esp32Step.run boot) after s = .error e t → ∃ v w, t.updater = some v ∧ v.updater.Matches w ∧
      run UpdaterStep.run (updaterSteps (systemSteps boot after s) u) u.updater = .error e w := by
  obtain ⟨hembeds, hrunning, -⟩ := embeds_of_run hboot hbefore hu
  obtain ⟨hgoesOn, hends⟩ := hembeds.run_updater hboot hrunning after
  obtain ⟨hcalls, hexits⟩ := system_matching.run_exits (systemSteps boot after s) (Updater.matches_refl u.updater)
  refine ⟨updaterSteps_offline _ u (systemSteps_offline boot after s hlost), fun t ht => ?_, fun e t ht => ?_⟩
  · obtain ⟨v, hv, hsystem⟩ := hgoesOn t ht
    obtain ⟨w, hmatches, hmodule⟩ := hcalls v hsystem
    exact ⟨v, w, hv, hmatches, hmodule⟩
  · obtain ⟨v, hv, hsystem⟩ := hends e t ht
    obtain ⟨w, hmatches, hmodule⟩ := hexits e v hsystem
    exact ⟨v, w, hv, hmatches, hmodule⟩

-- The station is lost when the task has come to its check.
def exampleLoss : List Esp32Step :=
  exampleStart ++ List.replicate 4 exampleRound ++ [.event .staDisconnected, .handler ESP_OK, .handler ESP_OK]

-- The check is still made, and no other call.
theorem lost_station_of_exampleLoss :
    ∃ s t u v w, run (Esp32Step.run exampleBoot) exampleLoss Esp32.powerOn = .ok ⟨⟩ s ∧
      run (Esp32Step.run exampleBoot) (List.replicate 9 exampleRound) s = .ok ⟨⟩ t ∧
      s.updater = some u ∧ t.updater = some v ∧
      (updaterSteps (systemSteps exampleBoot (List.replicate 9 exampleRound) s) u).length = 1 ∧
      v.updater.Matches w ∧
      run UpdaterStep.run (updaterSteps (systemSteps exampleBoot (List.replicate 9 exampleRound) s) u) u.updater =
        .ok ⟨⟩ w := by
  obtain ⟨_, s, hbefore, hlost, hupdater, hafter⟩ := exists_ok_of_wp
    (x := run (Esp32Step.run exampleBoot) exampleLoss) (s := Esp32.powerOn)
    (Q := fun _ s => Along (Esp32Step.run exampleBoot) (fun s _ => s.connected = false)
        (List.replicate 9 exampleRound) s ∧
      (s.updater.any fun u => u.point.calls && decide (0 <
        (updaterSteps (systemSteps exampleBoot (List.replicate 9 exampleRound) s) u).length)) = true ∧
      wp (run (Esp32Step.run exampleBoot) (List.replicate 9 exampleRound))
        (fun _ t => (t.updater.any fun v => !v.point.heldUp) = true) (fun _ _ => False) s)
    (by decide +kernel)
  obtain ⟨_, t, hrun, hfree⟩ := exists_ok_of_wp hafter
  rw [Option.any_eq_true] at hupdater hfree
  obtain ⟨u, hu, hmade⟩ := hupdater
  obtain ⟨v, hv, hv_free⟩ := hfree
  rw [Bool.and_eq_true, decide_eq_true_iff] at hmade
  obtain ⟨hlength, hmodule, -⟩ := lost_station exampleBoot exampleBoot_configures exampleLoss
    (List.replicate 9 exampleRound) hbefore hu hlost
  rw [if_pos hmade.1] at hlength
  obtain ⟨v', w, hv', hmatches, hcalls⟩ := hmodule t hrun
  obtain rfl := Option.some.inj (hv.symm.trans hv')
  refine ⟨s, t, u, v, w, hbefore, hrun, hu, hv, Nat.le_antisymm hlength hmade.2, hmatches, ?_⟩
  exact hcalls.resolve_right fun hheld => by simp [hheld.2] at hv_free

end Esp32Ota

import Esp32Ota.IapHttps.Task

-- Whether there will be another periodic check.
namespace Esp32Ota

open CLib Halting

def Timers.armed (timers : Timers) : Bool := timers.checkForUpdatesTimer.any Timer.armed

-- Inside the check branch, before the timer is started again.
def TaskPoint.beforeRearm : TaskPoint → Bool
  | .checkForUpdate | .checkHeldUp | .prepareTimer | .changePeriod => true
  | _ => false

def Polls (s : System) : Prop :=
  s.timers.armed = true ∨ s.fwupCheckForUpdate = true ∨ s.point.beforeRearm = true

def TimerReplies.succeed (replies : TimerReplies) : Bool :=
  replies.create && replies.changePeriod && replies.reset && replies.delete

def SystemStep.timersSucceed : SystemStep → Bool
  | .task replies => replies.timer.succeed
  | _ => true

-- The interval is positive when the step starts, and its timer calls succeed.
def Periodic (s : System) (step : SystemStep) : Prop :=
  0 < s.updater.client.app.config.pollingIntervalS ∧ step.timersSucceed = true

-- The task clears the bit when the timer that it has started again has expired already.
def SystemStep.clearsExpired (s : System) : SystemStep → Prop
  | .task _ => s.point = .clearCheckForUpdate ∧ s.timers.armed = false
  | _ => False

instance (s : System) (step : SystemStep) : Decidable (Periodic s step) :=
  inferInstanceAs (Decidable (_ ∧ _))

instance (s : System) (step : SystemStep) : Decidable (step.clearsExpired s) :=
  match step with
  | .task _ => inferInstanceAs (Decidable (_ ∧ _))
  | .timerExpires | .undeletedTimerExpires | .checkNow | .checkNowSets => inferInstanceAs (Decidable False)

-- The timer that the task is about to start exists.
structure Polling (s : System) : Prop where
  polls : Polls s
  timer : s.point = .changePeriod ∨ s.point = .resetTimer → s.timers.checkForUpdatesTimer.isSome = true

section Timers

variable {replies : TimerReplies} {pollingIntervalS : Nat} {timers : Timers}

theorem needTimer_of_create (hinterval : 0 < pollingIntervalS)
    (hcreate : timers.checkForUpdatesTimer = none → replies.create = true) :
    ∃ timer, iapHttpsNeedTimer replies pollingIntervalS timers =
      ({ timers with checkForUpdatesTimer := some timer }, true) := by
  unfold iapHttpsNeedTimer
  rw [if_pos hinterval]
  obtain ⟨current, undeleted⟩ := timers
  cases current with
  | some timer => exact ⟨timer, rfl⟩
  | none => exact ⟨⟨1000, false⟩, if_pos (hcreate rfl)⟩

theorem needTimer_of_periodic (timers : Timers) (hinterval : 0 < pollingIntervalS) (hreplies : replies.succeed = true) :
    ∃ timer, iapHttpsNeedTimer replies pollingIntervalS timers =
      ({ timers with checkForUpdatesTimer := some timer }, true) := by
  simp only [TimerReplies.succeed, Bool.and_eq_true] at hreplies
  exact needTimer_of_create hinterval fun _ => hreplies.1.1.1

theorem changePeriod_armed (htimer : timers.checkForUpdatesTimer.isSome = true)
    (hreplies : replies.succeed = true) :
    (iapHttpsChangePeriod replies pollingIntervalS timers).armed = true ∧
      (iapHttpsChangePeriod replies pollingIntervalS timers).checkForUpdatesTimer.isSome = true := by
  simp only [TimerReplies.succeed, Bool.and_eq_true] at hreplies
  obtain ⟨timer, htimer⟩ := Option.isSome_iff_exists.mp htimer
  simp [iapHttpsChangePeriod, Timers.armed, hreplies.1.1.2, htimer]

theorem resetTimer_armed (htimer : timers.checkForUpdatesTimer.isSome = true)
    (hreplies : replies.succeed = true) : (iapHttpsResetTimer replies timers).armed = true := by
  simp only [TimerReplies.succeed, Bool.and_eq_true] at hreplies
  obtain ⟨timer, htimer⟩ := Option.isSome_iff_exists.mp htimer
  simp [iapHttpsResetTimer, Timers.armed, hreplies.1.2, htimer]

theorem prepareTimer_armed (hinterval : 0 < pollingIntervalS) (hreplies : replies.succeed = true) :
    (iapHttpsPrepareTimer replies pollingIntervalS timers).armed = true := by
  obtain ⟨timer, hneed⟩ := needTimer_of_periodic timers hinterval hreplies
  unfold iapHttpsPrepareTimer
  rw [hneed]
  exact resetTimer_armed (changePeriod_armed rfl hreplies).2 hreplies

end Timers

section Steps

variable {s t : System}

-- Where the timer and the bit stay, so does the rest.
theorem Polling.moves (hs : Polling s) (htimers : t.timers = s.timers)
    (hbit : t.fwupCheckForUpdate = s.fwupCheckForUpdate)
    (hrearm : s.point.beforeRearm = true → t.point.beforeRearm = true)
    (htimer : t.point = .changePeriod ∨ t.point = .resetTimer → s.point = t.point) : Polling t := by
  obtain ⟨hpolls, hs⟩ := hs
  unfold Polls at hpolls
  rw [← htimers, ← hbit] at hpolls
  refine ⟨hpolls.imp_right (Or.imp_right hrearm), fun h => ?_⟩
  rw [htimers]
  exact hs (by rwa [htimer h])

theorem Goes.polling {point : TaskPoint} (h : Goes s point) (hs : Polling s) :
    Polling { s with point } := by
  cases h with
  | stays => exact hs
  | connected h => exact hs.moves rfl rfl (by simp [h, TaskPoint.beforeRearm]) (by simp)
  | delayed h => exact hs.moves rfl rfl (by simp [h, TaskPoint.beforeRearm]) (by simp)
  | wakes h => exact hs.moves rfl rfl (by simp [h, TaskPoint.beforeRearm]) (by simp)
  | download h => exact hs.moves rfl rfl (by simp [h, TaskPoint.beforeRearm]) (by simp)
  | sleeps h => exact hs.moves rfl rfl (by simp [h, TaskPoint.beforeRearm]) (by simp)

theorem iapHttpsTask_polling (replies : TaskReplies) (hs : Polling s)
    (hinterval : 0 < s.updater.client.app.config.pollingIntervalS) (hreplies : replies.timer.succeed = true)
    (hclear : s.point = .clearCheckForUpdate → s.timers.armed = true) :
    wp (iapHttpsTask replies) (fun _ t => Polling t) (fun _ t => Polling t) s := by
  apply wp_iapHttpsTask replies
  · exact fun point h => h.polling hs
  · exact fun bits h _ => ⟨.inr (.inr rfl), by simp⟩
  · intro h updater _
    refine ⟨fun point hpoint => ?_, fun _ => hs.moves rfl rfl id (fun _ => rfl)⟩
    rcases hpoint with rfl | rfl
    · exact ⟨.inr (.inr rfl), by simp⟩
    · exact ⟨.inr (.inr rfl), by simp⟩
  · intro h updater _
    refine ⟨fun point hpoint => ?_, fun _ => hs.moves rfl rfl id (fun _ => rfl)⟩
    have hafter : point.beforeRearm = false ∧ point ≠ .changePeriod ∧ point ≠ .resetTimer := by
      rcases hpoint with rfl | rfl <;> simp [TaskPoint.beforeRearm]
    exact hs.moves rfl rfl (by simp [h, TaskPoint.beforeRearm]) (by simp [hafter])
  · exact fun h => hs.moves rfl rfl (by simp [h, TaskPoint.beforeRearm]) (by simp)
  · intro _ timers starts hneed
    obtain ⟨timer, hneeded⟩ := needTimer_of_periodic s.timers hinterval hreplies
    rw [hneeded, Prod.mk.injEq] at hneed
    obtain ⟨rfl, rfl⟩ := hneed
    exact ⟨.inr (.inr rfl), fun _ => rfl⟩
  · intro h
    obtain ⟨harmed, htimer⟩ := changePeriod_armed (hs.timer (.inl h)) hreplies
    exact ⟨.inl harmed, fun _ => htimer⟩
  · intro h
    exact ⟨.inl (resetTimer_armed (hs.timer (.inr h)) hreplies), by simp⟩
  · exact fun h => ⟨.inl (hclear h), by simp⟩

theorem timerExpires_polling (hs : Polling s) :
    wp timerExpires (fun _ t => Polling t) (fun _ t => Polling t) s := by
  unfold timerExpires
  rw [wp_bind, wp_get]
  cases htimer : s.timers.checkForUpdatesTimer with
  | none => exact hs
  | some timer =>
      obtain ⟨period, armed⟩ := timer
      cases armed with
      | false => exact hs
      | true => exact ⟨.inr (.inl rfl), fun _ => rfl⟩

theorem SystemStep.polling (step : SystemStep) (hs : Polling s) (hperiodic : Periodic s step)
    (hclear : ¬step.clearsExpired s) :
    wp step.run (fun _ t => Polling t) (fun _ t => Polling t) s := by
  cases step with
  | task replies =>
      refine iapHttpsTask_polling replies hs hperiodic.1 hperiodic.2 fun hpoint => ?_
      by_contra harmed
      exact hclear ⟨hpoint, by simpa using harmed⟩
  | timerExpires => exact timerExpires_polling hs
  | undeletedTimerExpires =>
      simp only [SystemStep.run, Esp32Ota.undeletedTimerExpires, iapHttpsPeriodicCheckTimerCallback, wp_bind,
        wp_get, wp_set, wp_modify, wp_ite, wp_pure]
      exact ⟨fun _ => ⟨.inr (.inl rfl), hs.timer⟩, fun _ => hs⟩
  | checkNow =>
      simp only [SystemStep.run, iapHttpsTriggerProcessing, wp_bind, wp_get, wp_set, wp_ite]
      exact ⟨fun _ => hs.moves rfl rfl id (fun _ => rfl), fun _ => hs.moves rfl rfl id (fun _ => rfl)⟩
  | checkNowSets =>
      simp only [SystemStep.run, iapHttpsTriggerSet, wp_bind, wp_get, wp_set, wp_ite, wp_pure]
      exact ⟨fun _ => ⟨.inr (.inl rfl), hs.timer⟩, fun _ => hs⟩

theorem SystemStep.stops_polling (step : SystemStep) (hclear : step.clearsExpired s) :
    wp step.run (fun _ t => ¬Polls t) (fun _ t => ¬Polls t) s := by
  cases step with
  | task replies =>
      obtain ⟨hpoint, harmed⟩ := hclear
      simp only [SystemStep.run, iapHttpsTask, wp_bind, wp_get, hpoint]
      simp [wp_set, Polls, harmed, TaskPoint.beforeRearm]
  | timerExpires => exact hclear.elim
  | undeletedTimerExpires => exact hclear.elim
  | checkNow => exact hclear.elim
  | checkNowSets => exact hclear.elim

-- In every order of the steps, up to every point.
theorem polls_iff (partition : Partition) {config : IapHttpsConfig} (metadataBuffer firmwareBuffer : Malloc)
    {replies : TimerReplies} {steps : List SystemStep} (hinterval : 0 < config.pollingIntervalS)
    (hreplies : replies.succeed = true)
    (hsteps : Along SystemStep.run Periodic steps
      (System.start partition config metadataBuffer firmwareBuffer replies)) :
    (∀ n, wp (run SystemStep.run (steps.take n)) (fun _ s => Polls s) (fun _ s => Polls s)
      (System.start partition config metadataBuffer firmwareBuffer replies)) ↔
    Along SystemStep.run (fun s step => ¬step.clearsExpired s) steps
      (System.start partition config metadataBuffer firmwareBuffer replies) := by
  have hstart : Polling (System.start partition config metadataBuffer firmwareBuffer replies) :=
    ⟨.inl (prepareTimer_armed hinterval hreplies), by simp [System.start]⟩
  have hiff := run_iff_along SystemStep.run (I := Polling) (J := Polls) (E := fun _ s => Polls s)
    (fun step s hs hr hp => wp_mono (step.polling hs hr hp) (fun _ _ h => h) (fun _ _ h => h.polls))
    (fun step s _ hp => step.stops_polling (not_not.mp hp)) (fun _ h => h.polls) steps _ hstart hsteps
  exact hiff

end Steps

-- The timer wakes the task for a check, up to the point where it clears the bit.
def firstCheck : List SystemStep :=
  [exampleTask, exampleTask, .timerExpires, exampleTask, exampleTask, exampleTask, exampleTask, exampleTask,
    exampleTask]

theorem firstCheck_polls :
    Along SystemStep.run (fun s step => ¬step.clearsExpired s) (firstCheck ++ [exampleTask])
      (System.start ⟨"factory", 0x10000⟩ (exampleConfig false) (some fun _ => 0) (some fun _ => 0)
        ⟨true, true, true, true⟩) ∧
    ∀ n, wp (run SystemStep.run ((firstCheck ++ [exampleTask]).take n)) (fun _ s => Polls s) (fun _ s => Polls s)
      (System.start ⟨"factory", 0x10000⟩ (exampleConfig false) (some fun _ => 0) (some fun _ => 0)
        ⟨true, true, true, true⟩) := by
  refine ⟨by decide +kernel, (polls_iff _ _ _ (by decide) rfl (by decide +kernel)).mpr (by decide +kernel)⟩

-- It expires again before the task clears the bit.
theorem expiry_lost :
    ∃ t, run SystemStep.run (firstCheck ++ [.timerExpires, exampleTask])
      (System.start ⟨"factory", 0x10000⟩ (exampleConfig false) (some fun _ => 0) (some fun _ => 0)
        ⟨true, true, true, true⟩) = .ok ⟨⟩ t ∧ t.timers.armed = false ∧ t.fwupCheckForUpdate = false ∧
      t.point.beforeRearm = false := by
  obtain ⟨_, h⟩ := exists_ok_of_wp (x := run SystemStep.run (firstCheck ++ [.timerExpires, exampleTask]))
    (s := System.start ⟨"factory", 0x10000⟩ (exampleConfig false) (some fun _ => 0) (some fun _ => 0)
      ⟨true, true, true, true⟩)
    (Q := fun _ t => t.timers.armed = false ∧ t.fwupCheckForUpdate = false ∧ t.point.beforeRearm = false)
    (by decide +kernel)
  exact h

theorem polling_dies :
    ¬∀ (partition : Partition) (config : IapHttpsConfig) (metadataBuffer firmwareBuffer : Malloc)
      (replies : TimerReplies) (steps : List SystemStep), 0 < config.pollingIntervalS →
      replies.succeed = true →
      Along SystemStep.run Periodic steps
        (System.start partition config metadataBuffer firmwareBuffer replies) →
      wp (run SystemStep.run steps) (fun _ s => Polls s) (fun _ s => Polls s)
        (System.start partition config metadataBuffer firmwareBuffer replies) := by
  intro h
  obtain ⟨t, hrun, harmed, hbit, hpoint⟩ := expiry_lost
  have hpolls := wp_ok (h _ _ _ _ _ _ (by decide) rfl (by decide +kernel)) hrun
  simp [Polls, harmed, hbit, hpoint] at hpolls

end Esp32Ota

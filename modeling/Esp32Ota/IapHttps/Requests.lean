import Esp32Ota.IapHttps.Task

-- Whether a call of `iap_https_check_now` is followed by a check.
namespace Esp32Ota

open CLib Halting

-- A call has returned, and no check has started since.
def Unserved (history : List TaskEvent) : Prop :=
  ∃ later earlier, history = later ++ .checkNowReturned :: earlier ∧ .checkStarted ∉ later

def RequestKept (s : System) : Prop := Unserved s.history → s.fwupCheckForUpdate = true

-- A call has returned since the latest check has started.
def ReturnedDuringCheck (history : List TaskEvent) : Prop :=
  ∃ later earlier, history = later ++ .checkStarted :: earlier ∧ .checkNowReturned ∈ later ∧
    .checkStarted ∉ later

-- The task clears the bit although a call has returned during its check.
def SystemStep.clearsRequest (s : System) : SystemStep → Prop
  | .task _ => s.point = .clearCheckForUpdate ∧ ReturnedDuringCheck s.history
  | _ => False

-- From the start of a check to the point where the task clears the bit.
def TaskPoint.inCheck : TaskPoint → Bool
  | .checkForUpdate | .checkHeldUp | .prepareTimer | .changePeriod | .resetTimer | .clearCheckForUpdate => true
  | _ => false

structure Serving (s : System) : Prop where
  kept : RequestKept s
  started : s.point.inCheck = true → .checkStarted ∈ s.history

section History

variable {history : List TaskEvent}

theorem not_unserved_started : ¬Unserved (.checkStarted :: history) := by
  intro h
  obtain ⟨later, earlier, heq, hnone⟩ := h
  cases later with
  | nil => cases heq
  | cons event later =>
      rw [List.cons_append, List.cons.injEq] at heq
      exact hnone (heq.1 ▸ List.mem_cons_self)

-- Behind the start of a check the two notions are one.
theorem unserved_iff_returned (hstarted : .checkStarted ∈ history) :
    Unserved history ↔ ReturnedDuringCheck history := by
  cases history with
  | nil => cases hstarted
  | cons event history =>
      cases event with
      | checkStarted =>
          refine iff_of_false not_unserved_started fun h => ?_
          obtain ⟨later, earlier, heq, hmem, hnone⟩ := h
          cases later with
          | nil => cases hmem
          | cons event later =>
              rw [List.cons_append, List.cons.injEq] at heq
              exact hnone (heq.1 ▸ List.mem_cons_self)
      | checkNowReturned =>
          have hstarted : .checkStarted ∈ history := by simpa using hstarted
          refine iff_of_true ⟨[], history, rfl, List.not_mem_nil⟩ ?_
          obtain ⟨later, earlier, hlater, heq⟩ := List.eq_append_cons_of_mem hstarted
          exact ⟨.checkNowReturned :: later, earlier, by rw [hlater]; rfl, List.mem_cons_self, by simpa using heq⟩

theorem ReturnedDuringCheck.unserved (h : ReturnedDuringCheck history) : Unserved history := by
  have hstarted : .checkStarted ∈ history := by
    obtain ⟨later, earlier, heq, -⟩ := h
    rw [heq]
    exact List.mem_append_right later List.mem_cons_self
  exact (unserved_iff_returned hstarted).mpr h

end History

section Steps

variable {s t : System}

-- Where the bit and the history stay, so does the rest.
theorem Serving.moves (hs : Serving s) (hbit : t.fwupCheckForUpdate = s.fwupCheckForUpdate)
    (hhistory : t.history = s.history) (hpoint : t.point.inCheck = true → s.point.inCheck = true) :
    Serving t := by
  obtain ⟨hkept, hstarted⟩ := hs
  unfold RequestKept at hkept
  refine ⟨?_, fun h => ?_⟩
  · unfold RequestKept
    rwa [hbit, hhistory]
  · rw [hhistory]
    exact hstarted (hpoint h)

-- Where the bit is set, no request is lost.
theorem Serving.sets (hs : Serving s) (hbit : t.fwupCheckForUpdate = true) (hpoint : t.point = s.point)
    (hhistory : ∀ event ∈ s.history, event ∈ t.history) : Serving t :=
  ⟨fun _ => hbit, fun h => hhistory _ (hs.started (hpoint ▸ h))⟩

theorem Goes.serving {point : TaskPoint} (h : Goes s point) (hs : Serving s) :
    Serving { s with point } := by
  cases h with
  | stays => exact hs
  | connected => exact hs.moves rfl rfl (by simp [TaskPoint.inCheck])
  | delayed => exact hs.moves rfl rfl (by simp [TaskPoint.inCheck])
  | wakes => exact hs.moves rfl rfl (by simp [TaskPoint.inCheck])
  | download => exact hs.moves rfl rfl (by simp [TaskPoint.inCheck])
  | sleeps => exact hs.moves rfl rfl (by simp [TaskPoint.inCheck])

theorem iapHttpsTask_serving (replies : TaskReplies) (hs : Serving s)
    (hclear : s.point = .clearCheckForUpdate → ¬ReturnedDuringCheck s.history) :
    wp (iapHttpsTask replies) (fun _ t => Serving t) (fun _ t => Serving t) s := by
  apply wp_iapHttpsTask replies
  · exact fun point h => h.serving hs
  · exact fun bits _ _ => ⟨fun h => absurd h not_unserved_started, fun _ => List.mem_cons_self⟩
  · intro h updater _
    exact ⟨fun point _ => hs.moves rfl rfl (fun _ => by simp [h, TaskPoint.inCheck]),
      fun _ => hs.moves rfl rfl id⟩
  · intro h updater _
    refine ⟨fun point hpoint => hs.moves rfl rfl ?_, fun _ => hs.moves rfl rfl id⟩
    rcases hpoint with rfl | rfl <;> simp [TaskPoint.inCheck]
  · exact fun _ => hs.moves rfl rfl (by simp [TaskPoint.inCheck])
  · exact fun h timers starts _ => hs.moves rfl rfl (fun _ => by simp [h, TaskPoint.inCheck])
  · exact fun h => hs.moves rfl rfl (fun _ => by simp [h, TaskPoint.inCheck])
  · exact fun h => hs.moves rfl rfl (fun _ => by simp [h, TaskPoint.inCheck])
  · intro h
    have hstarted := hs.started (by simp [h, TaskPoint.inCheck])
    exact ⟨fun hunserved => absurd ((unserved_iff_returned hstarted).mp hunserved) (hclear h),
      by simp [TaskPoint.inCheck]⟩

theorem SystemStep.serving (step : SystemStep) (hs : Serving s) (hclear : ¬step.clearsRequest s) :
    wp step.run (fun _ t => Serving t) (fun _ t => Serving t) s := by
  have hexpires : ∀ timers, Serving { s with timers, fwupCheckForUpdate := true } :=
    fun _ => hs.sets rfl rfl fun _ h => h
  cases step with
  | task replies => exact iapHttpsTask_serving replies hs fun hpoint h => hclear ⟨hpoint, h⟩
  | timerExpires =>
      simp only [SystemStep.run, Esp32Ota.timerExpires, wp_bind, wp_get]
      split
      · exact hexpires _
      · exact hs
  | undeletedTimerExpires =>
      simp only [SystemStep.run, Esp32Ota.undeletedTimerExpires, wp_bind, wp_get, wp_ite, wp_set, wp_pure]
      exact ⟨fun _ => hexpires _, fun _ => hs⟩
  | checkNow =>
      simp only [SystemStep.run, iapHttpsTriggerProcessing, wp_bind, wp_get, wp_set, wp_ite]
      exact ⟨fun hbit => hs.sets hbit rfl fun _ h => List.mem_cons_of_mem _ h,
        fun _ => hs.moves rfl rfl id⟩
  | checkNowSets =>
      simp only [SystemStep.run, iapHttpsTriggerSet, wp_bind, wp_get, wp_set, wp_ite, wp_pure]
      exact ⟨fun _ => hs.sets rfl rfl fun _ h => List.mem_cons_of_mem _ h, fun _ => hs⟩

theorem SystemStep.loses_request (step : SystemStep) (hclear : step.clearsRequest s) :
    wp step.run (fun _ t => ¬RequestKept t) (fun _ t => ¬RequestKept t) s := by
  cases step with
  | task replies =>
      obtain ⟨hpoint, hreturned⟩ := hclear
      simp only [SystemStep.run, iapHttpsTask, wp_bind, wp_get, hpoint, wp_set]
      intro hkept
      cases hkept hreturned.unserved
  | timerExpires => exact hclear.elim
  | undeletedTimerExpires => exact hclear.elim
  | checkNow => exact hclear.elim
  | checkNowSets => exact hclear.elim

-- In every order of the steps, up to every point.
theorem requests_kept_iff (partition : Partition) (config : IapHttpsConfig)
    (metadataBuffer firmwareBuffer : Malloc) (replies : TimerReplies) (steps : List SystemStep) :
    (∀ n, wp (run SystemStep.run (steps.take n)) (fun _ s => RequestKept s) (fun _ s => RequestKept s)
      (System.start partition config metadataBuffer firmwareBuffer replies)) ↔
    Along SystemStep.run (fun s step => ¬step.clearsRequest s) steps
      (System.start partition config metadataBuffer firmwareBuffer replies) := by
  have hstart : Serving (System.start partition config metadataBuffer firmwareBuffer replies) := by
    refine ⟨fun h => ?_, fun h => by cases h⟩
    obtain ⟨later, earlier, heq, -⟩ := h
    cases later <;> cases heq
  exact run_iff_along SystemStep.run (R := fun _ _ => True) (I := Serving)
    (fun step s hs _ hp => wp_mono (step.serving hs hp) (fun _ _ h => h) (fun _ _ h => h.kept))
    (fun step s _ hp => step.loses_request (not_not.mp hp)) (fun _ h => h.kept) steps _ hstart
    (along_true SystemStep.run steps _)

end Steps

-- The second call finds the bit set by the first one, whose check has started already.
def callDuringCheck : List SystemStep :=
  [exampleTask, exampleTask, .checkNow, .checkNowSets, exampleTask, exampleTask, .checkNow, exampleTask,
    exampleTask, exampleTask, exampleTask, exampleTask]

theorem request_lost :
    ∃ t, run SystemStep.run callDuringCheck
      (System.start ⟨"factory", 0x10000⟩ (exampleConfig false) (some fun _ => 0) (some fun _ => 0)
        ⟨true, true, true, true⟩) = .ok ⟨⟩ t ∧ t.fwupCheckForUpdate = false ∧
      t.history = [.checkNowReturned, .checkStarted, .checkNowReturned] := by
  obtain ⟨_, h⟩ := exists_ok_of_wp (x := run SystemStep.run callDuringCheck)
    (s := System.start ⟨"factory", 0x10000⟩ (exampleConfig false) (some fun _ => 0) (some fun _ => 0)
      ⟨true, true, true, true⟩)
    (Q := fun _ t => t.fwupCheckForUpdate = false ∧
      t.history = [.checkNowReturned, .checkStarted, .checkNowReturned]) (by decide +kernel)
  exact h

theorem requests_not_kept :
    ¬∀ (partition : Partition) (config : IapHttpsConfig) (metadataBuffer firmwareBuffer : Malloc)
      (replies : TimerReplies) (steps : List SystemStep),
      wp (run SystemStep.run steps) (fun _ s => RequestKept s) (fun _ s => RequestKept s)
        (System.start partition config metadataBuffer firmwareBuffer replies) := by
  intro h
  obtain ⟨t, hrun, hbit, hhistory⟩ := request_lost
  have hkept : RequestKept t := wp_ok (h _ _ _ _ _ _) hrun
  have hset := hkept ⟨[], [.checkStarted, .checkNowReturned], hhistory, List.not_mem_nil⟩
  rw [hbit] at hset
  cases hset

end Esp32Ota

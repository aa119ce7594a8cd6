import Esp32Ota.Lib.Response
import Esp32Ota.IapHttps.Requests

-- A check that is asked for while none is under way starts within a few operations of the task.
namespace Esp32Ota

open CLib Halting

-- What the timers and the callers leave alone. They do not clear the bit either.
structure Left (s t : System) : Prop where
  updater : t.updater = s.updater
  documents : t.documents = s.documents
  point : t.point = s.point
  bit : s.fwupCheckForUpdate = true → t.fwupCheckForUpdate = true
  started : t.history.count .checkStarted = s.history.count .checkStarted

def LeavesTask (x : SystemM Unit) : Prop := ∀ s, wp x (fun _ t => Left s t) (fun _ _ => False) s

theorem timerExpires_leaves : LeavesTask timerExpires := by
  intro s
  simp only [timerExpires, wp_bind, wp_get]
  split
  · exact ⟨rfl, rfl, rfl, fun _ => rfl, rfl⟩
  · exact ⟨rfl, rfl, rfl, id, rfl⟩

theorem undeletedTimerExpires_leaves : LeavesTask undeletedTimerExpires := by
  intro s
  simp only [undeletedTimerExpires, wp_bind, wp_get, wp_ite, wp_pure]
  exact ⟨fun _ => ⟨rfl, rfl, rfl, fun _ => rfl, rfl⟩, fun _ => ⟨rfl, rfl, rfl, id, rfl⟩⟩

theorem iapHttpsTriggerProcessing_leaves : LeavesTask iapHttpsTriggerProcessing := by
  intro s
  simp only [iapHttpsTriggerProcessing, wp_bind, wp_get, wp_ite, wp_set]
  refine ⟨fun _ => ⟨rfl, rfl, rfl, id, ?_⟩, fun _ => ⟨rfl, rfl, rfl, id, rfl⟩⟩
  exact List.count_cons_of_ne (by decide)

theorem iapHttpsTriggerSet_leaves : LeavesTask iapHttpsTriggerSet := by
  intro s
  simp only [iapHttpsTriggerSet, wp_bind, wp_get, wp_ite, wp_set, wp_pure]
  refine ⟨fun _ => ⟨rfl, rfl, rfl, fun _ => rfl, ?_⟩, fun _ => ⟨rfl, rfl, rfl, id, rfl⟩⟩
  exact List.count_cons_of_ne (by decide)

-- The task waits on the event group of the station.
def TaskPoint.waitsForWifi : TaskPoint → Bool
  | .waitForWifi | .waitForWifiAgain _ => true
  | _ => false

-- The task makes an operation that does not wait for the station in vain.
def SystemStep.goesOn (s : System) : SystemStep → Bool
  | .task replies => replies.wifiConnected || !s.point.waitsForWifi
  | _ => false

-- The operations from a place of the task to the start of the next check, with the bit set. A
-- download that is due comes first.
def TaskPoint.toCheck (fwupDownloadImage : Bool) : TaskPoint → Nat
  | .waitForBits => if fwupDownloadImage then 6 else 2
  | .delay => if fwupDownloadImage then 7 else 3
  | .waitForWifi => if fwupDownloadImage then 8 else 4
  | .waitForWifiAgain bits =>
    if bits.fwupDownloadImage then 5
    else if bits.fwupCheckForUpdate then 1
    else if fwupDownloadImage then 7 else 3
  | .downloadImage => 4
  | .clearDownloadImage => 3
  | _ => 0

def System.toCheck (s : System) : Nat := s.point.toCheck s.updater.client.app.fwupDownloadImage

-- A check is asked for that is not under way; `n` checks have started so far.
structure Asked (n : Nat) (s : System) : Prop where
  bit : s.fwupCheckForUpdate = true
  point : s.point.inCheck = false
  started : n ≤ s.history.count .checkStarted

-- One more has started, unless a download waits for the server for good.
def Served (n : Nat) (s : System) : Prop := n < s.history.count .checkStarted ∨ s.point = .downloadHeldUp

section Steps

variable {n : Nat} {s t : System}

theorem Left.asked (h : Left s t) (hs : Asked n s) : Asked n t :=
  ⟨h.bit hs.bit, by rw [h.point]; exact hs.point, by rw [h.started]; exact hs.started⟩

theorem Left.toCheck (h : Left s t) : t.toCheck = s.toCheck := by
  rw [System.toCheck, h.point, h.updater, System.toCheck]

theorem Left.served (h : Left s t) (hs : Served n s) : Served n t := by
  rcases hs with hstarted | hheld
  · exact .inl (by rwa [h.started])
  · exact .inr (h.point.trans hheld)

-- Each operation of the task is one closer to the check.
theorem iapHttpsTask_lowers (replies : TaskReplies) (hs : Asked n s) :
    wp (iapHttpsTask replies)
      (fun _ t => Served n t ∨ Asked n t ∧
        t.toCheck + (if (SystemStep.task replies).goesOn s then 1 else 0) ≤ s.toCheck)
      (fun _ _ => True) s := by
  obtain ⟨hbit, hpoint, hstarted⟩ := hs
  have hasked : ∀ point : TaskPoint, point.inCheck = false → Asked n { s with point } :=
    fun point h => ⟨hbit, h, hstarted⟩
  unfold iapHttpsTask
  rw [wp_bind, wp_get]
  cases hplace : s.point with
  | waitForWifi =>
      simp only [wp_ite, wp_set, wp_pure]
      refine ⟨fun hwifi => .inr ⟨hasked _ rfl, ?_⟩, fun hwifi => .inr ⟨⟨hbit, hpoint, hstarted⟩, ?_⟩⟩
      · simp only [System.toCheck, hplace, TaskPoint.toCheck, SystemStep.goesOn, hwifi, Bool.true_or, ite_true]
        split <;> omega
      · simp [SystemStep.goesOn, hplace, TaskPoint.waitsForWifi, hwifi]
  | delay =>
      refine .inr ⟨hasked _ rfl, ?_⟩
      simp only [System.toCheck, hplace, TaskPoint.toCheck, SystemStep.goesOn, TaskPoint.waitsForWifi, Bool.not_false,
        Bool.or_true, ite_true]
      split <;> omega
  | waitForBits =>
      have hbits : s.bits = ⟨true, s.updater.client.app.fwupDownloadImage⟩ := by rw [System.bits, hbit]
      have hwakes : (s.bits.fwupCheckForUpdate || s.bits.fwupDownloadImage) = true := by rw [hbits]; rfl
      simp only [hwakes, ite_true, wp_set]
      refine .inr ⟨hasked _ rfl, ?_⟩
      simp only [System.toCheck, hplace, hbits, TaskPoint.toCheck, SystemStep.goesOn, TaskPoint.waitsForWifi,
        Bool.not_false, Bool.or_true, ite_true]
      split <;> omega
  | waitForWifiAgain bits =>
      simp only [wp_ite, wp_set, wp_pure]
      refine ⟨fun hwifi => ⟨fun hdownload => .inr ⟨hasked _ rfl, ?_⟩, fun hdownload =>
        ⟨fun _ => .inl (.inl ?_), fun hcheck => .inr ⟨hasked _ rfl, ?_⟩⟩⟩,
        fun hwifi => .inr ⟨⟨hbit, hpoint, hstarted⟩, ?_⟩⟩
      · simp [System.toCheck, hplace, TaskPoint.toCheck, SystemStep.goesOn, hwifi, hdownload]
      · rw [List.count_cons_self]
        omega
      · simp only [System.toCheck, hplace, TaskPoint.toCheck, SystemStep.goesOn, hwifi, hdownload, hcheck, Bool.true_or,
          ite_true]
        split <;> simp
      · simp [SystemStep.goesOn, hplace, TaskPoint.waitsForWifi, hwifi]
  | downloadImage =>
      simp only [wp_callUpdater]
      refine wp_of_forall (fun _ updater => .inr ⟨⟨hbit, rfl, hstarted⟩, ?_⟩)
        (fun e updater => ⟨fun _ => .inl (.inr rfl), fun _ => trivial⟩)
      simp [System.toCheck, hplace, TaskPoint.toCheck, SystemStep.goesOn, TaskPoint.waitsForWifi]
  | downloadHeldUp => exact .inl (.inr hplace)
  | clearDownloadImage =>
      refine .inr ⟨⟨hbit, rfl, hstarted⟩, ?_⟩
      simp [System.toCheck, hplace, TaskPoint.toCheck, SystemStep.goesOn, TaskPoint.waitsForWifi]
  | _ => simp [hplace, TaskPoint.inCheck] at hpoint

-- A check that has started stays in the history, and the task stays where it is held up.
theorem iapHttpsTask_served (replies : TaskReplies) (hs : Served n s) :
    wp (iapHttpsTask replies) (fun _ t => Served n t) (fun _ _ => True) s := by
  rcases hs with hstarted | hheld
  · apply wp_iapHttpsTask_calls replies
    · exact fun _ _ => .inl hstarted
    · refine fun _ _ _ => .inl ?_
      rw [List.count_cons_self]
      omega
    · intro _
      simp only [callCheckForUpdate, wp_bind, wp_get, wp_set, wp_callUpdater]
      exact wp_of_forall (fun _ _ => .inl hstarted) (fun _ _ => ⟨fun _ => .inl hstarted, fun _ => trivial⟩)
    · intro _
      rw [wp_callUpdater]
      exact wp_of_forall (fun _ _ => .inl hstarted) (fun _ _ => ⟨fun _ => .inl hstarted, fun _ => trivial⟩)
    · exact fun _ => .inl hstarted
    · exact fun _ _ _ _ => .inl hstarted
    · exact fun _ => .inl hstarted
    · exact fun _ => .inl hstarted
    · exact fun _ => .inl hstarted
  · simp only [iapHttpsTask, wp_bind, wp_get, hheld, wp_pure]
    exact .inr hheld

theorem SystemStep.leaves {step : SystemStep} (h : ∀ replies, step ≠ .task replies) :
    wp step.run (fun _ t => Left s t) (fun _ _ => False) s ∧ step.goesOn s = false := by
  cases step with
  | task replies => exact absurd rfl (h replies)
  | timerExpires => exact ⟨timerExpires_leaves s, rfl⟩
  | undeletedTimerExpires => exact ⟨undeletedTimerExpires_leaves s, rfl⟩
  | checkNow => exact ⟨iapHttpsTriggerProcessing_leaves s, rfl⟩
  | checkNowSets => exact ⟨iapHttpsTriggerSet_leaves s, rfl⟩

theorem system_responds (n : Nat) :
    Responds SystemStep.run (fun s step => step.goesOn s) System.toCheck (Asked n) (Served n) where
  lowers step s hs := by
    by_cases htask : ∃ replies, step = .task replies
    · obtain ⟨replies, rfl⟩ := htask
      exact iapHttpsTask_lowers replies hs
    · obtain ⟨hleaves, hgoesOn⟩ := SystemStep.leaves (s := s) (not_exists.mp htask)
      refine wp_mono hleaves (fun _ t ht => .inr ⟨ht.asked hs, ?_⟩) (fun _ _ hfalse => hfalse.elim)
      rw [ht.toCheck, hgoesOn]
      exact Nat.le_refl _
  stays step s hs := by
    by_cases htask : ∃ replies, step = .task replies
    · obtain ⟨replies, rfl⟩ := htask
      exact iapHttpsTask_served replies hs
    · obtain ⟨hleaves, -⟩ := SystemStep.leaves (s := s) (not_exists.mp htask)
      exact wp_mono hleaves (fun _ _ ht => ht.served hs) (fun _ _ hfalse => hfalse.elim)

theorem toCheck_le (s : System) : s.toCheck ≤ 8 := by
  unfold System.toCheck TaskPoint.toCheck
  split <;> (try split) <;> (try split) <;> (try split) <;> omega

end Steps

-- However the timers and the callers come in between, nine operations of the task that do not
-- wait for the station are enough.
theorem check_starts {s t : System} (hbit : s.fwupCheckForUpdate = true) (hpoint : s.point.inCheck = false)
    (steps : List SystemStep) (hsteps : 8 < ticks SystemStep.run (fun s step => step.goesOn s) steps s)
    (hrun : run SystemStep.run steps s = .ok ⟨⟩ t) :
    s.history.count .checkStarted < t.history.count .checkStarted ∨ t.point = .downloadHeldUp := by
  have hserved := (system_responds (s.history.count TaskEvent.checkStarted)).run_reaches steps
    ⟨hbit, hpoint, Nat.le_refl _⟩ (Nat.lt_of_le_of_lt (toCheck_le s) hsteps)
  exact wp_ok (x := run SystemStep.run steps) hserved hrun

def askedAtStart : System :=
  { System.start ⟨"factory", 0x10000⟩ (exampleConfig false) (some fun _ => 0) (some fun _ => 0)
      ⟨true, true, true, true⟩ with fwupCheckForUpdate := true }

-- The server is out of reach, and the check starts all the same.
theorem check_starts_at_start :
    ∃ t, run SystemStep.run (List.replicate 9 exampleTask) askedAtStart = .ok ⟨⟩ t ∧
      (askedAtStart.history.count .checkStarted < t.history.count .checkStarted ∨ t.point = .downloadHeldUp) := by
  obtain ⟨_, t, hrun, -⟩ := exists_ok_of_wp (x := run SystemStep.run (List.replicate 9 exampleTask))
    (s := askedAtStart) (Q := fun _ t => t.point ≠ .downloadHeldUp) (by decide +kernel)
  exact ⟨t, hrun, check_starts rfl rfl (List.replicate 9 exampleTask) (by decide +kernel) hrun⟩

end Esp32Ota

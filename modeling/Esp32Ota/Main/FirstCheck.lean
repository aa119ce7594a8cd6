import Esp32Ota.Main.Projection

-- The check that `init_ota` asks for is the first thing that the updater does.
namespace Esp32Ota

open CLib Halting

-- `app_main` has come to its loop.
def MainPoint.looping : MainPoint → Bool
  | .isConnected | .updateInProgress _ | .flash _ => true
  | _ => false

-- The task has not come to a check, and so not to a download either.
structure Unstarted (s : System) : Prop where
  history : .checkStarted ∉ s.history
  download : s.updater.client.app.fwupDownloadImage = false
  point : s.point = .waitForWifi ∨ s.point = .delay ∨ s.point = .waitForBits ∨
    ∃ bits : EventBits, s.point = .waitForWifiAgain bits ∧ bits.fwupDownloadImage = false

def CheckStarted (s : System) : Prop := .checkStarted ∈ s.history

-- The first check has started, or it is still to come and, from the loop on, asked for.
structure Coming (s : Esp32) : Prop where
  made : s.main.booting = false → s.updater.isSome = true
  calling : s.main = .checkNowSets → ∀ u ∈ s.updater, 0 < u.callers
  first : ∀ u ∈ s.updater,
    CheckStarted u ∨ Unstarted u ∧ (s.main.looping = true → u.fwupCheckForUpdate = true)

section Steps

variable {s t : System}

theorem Unstarted.inCheck (h : Unstarted s) : s.point.inCheck = false := by
  rcases h.point with hpoint | hpoint | hpoint | ⟨bits, hpoint, -⟩ <;> rw [hpoint] <;> rfl

theorem Unstarted.free (h : Unstarted s) : s.point ≠ .downloadHeldUp := by
  rcases h.point with hpoint | hpoint | hpoint | ⟨bits, hpoint, -⟩ <;> rw [hpoint] <;> simp

theorem Unstarted.toCheck_le (h : Unstarted s) : s.toCheck ≤ 4 := by
  unfold System.toCheck
  rw [h.download]
  rcases h.point with hpoint | hpoint | hpoint | ⟨bits, hpoint, hbits⟩ <;> rw [hpoint]
  · exact Nat.le_refl 4
  · exact (by decide : 3 ≤ 4)
  · exact (by decide : 2 ≤ 4)
  · cases bits with
    | mk check download =>
        subst hbits
        cases check <;> decide

theorem Left.unstarted (h : Left s t) (hs : Unstarted s) : Unstarted t := by
  refine ⟨?_, by rw [h.updater]; exact hs.download, by rw [h.point]; exact hs.point⟩
  rw [← List.count_eq_zero, h.started, List.count_eq_zero]
  exact hs.history

-- The task keeps the bit on its way to the check, and the callers at all times.
theorem iapHttpsTask_unstarted (replies : TaskReplies) (hs : Unstarted s) :
    wp (iapHttpsTask replies)
      (fun _ t => t.callers = s.callers ∧
        (CheckStarted t ∨ Unstarted t ∧ t.fwupCheckForUpdate = s.fwupCheckForUpdate))
      (fun _ _ => True) s := by
  obtain ⟨hhistory, hdownload, hpoint⟩ := hs
  have hgoes : ∀ point : TaskPoint, (point = .waitForWifi ∨ point = .delay ∨ point = .waitForBits ∨
      ∃ bits : EventBits, point = .waitForWifiAgain bits ∧ bits.fwupDownloadImage = false) →
      Unstarted { s with point } := fun point h => ⟨hhistory, hdownload, h⟩
  have hstays : Unstarted s := ⟨hhistory, hdownload, hpoint⟩
  unfold iapHttpsTask
  rw [wp_bind, wp_get]
  rcases hpoint with hpoint | hpoint | hpoint | ⟨bits, hpoint, hbits⟩
  · simp only [hpoint, wp_ite, wp_set, wp_pure]
    exact ⟨fun _ => ⟨trivial, .inr ⟨hgoes _ (.inr (.inl rfl)), trivial⟩⟩, fun _ => ⟨trivial, .inr ⟨hstays, trivial⟩⟩⟩
  · simp only [hpoint]
    exact ⟨rfl, .inr ⟨hgoes _ (.inr (.inr (.inl rfl))), rfl⟩⟩
  · simp only [hpoint, wp_ite, wp_set, wp_pure]
    refine ⟨fun _ => ⟨trivial, .inr ⟨hgoes _ (.inr (.inr (.inr ⟨s.bits, rfl, hdownload⟩))), trivial⟩⟩,
      fun _ => ⟨trivial, .inr ⟨hstays, trivial⟩⟩⟩
  · simp only [hpoint, hbits, Bool.false_eq_true, ite_false, wp_ite, wp_set, wp_pure]
    refine ⟨fun _ => ⟨fun _ => ⟨trivial, .inl List.mem_cons_self⟩, fun _ => ⟨trivial, .inr ⟨hgoes _ ?_, trivial⟩⟩⟩,
      fun _ => ⟨trivial, .inr ⟨hstays, trivial⟩⟩⟩
    exact .inr (.inr (.inl rfl))

-- No operation of the task takes back the start of a check, or touches the callers.
theorem iapHttpsTask_keeps (replies : TaskReplies) (s : System) :
    wp (iapHttpsTask replies) (fun _ t => t.callers = s.callers ∧ (CheckStarted s → CheckStarted t))
      (fun _ _ => True) s := by
  apply wp_iapHttpsTask_calls replies
  · exact fun _ _ => ⟨rfl, id⟩
  · exact fun _ _ _ => ⟨rfl, fun _ => List.mem_cons_self⟩
  · intro _
    simp only [callCheckForUpdate, wp_bind, wp_get, wp_set]
    rw [wp_callUpdater]
    exact wp_of_forall (fun _ _ => ⟨rfl, id⟩) (fun _ _ => ⟨fun _ => ⟨rfl, id⟩, fun _ => trivial⟩)
  · intro _
    rw [wp_callUpdater]
    exact wp_of_forall (fun _ _ => ⟨rfl, id⟩) (fun _ _ => ⟨fun _ => ⟨rfl, id⟩, fun _ => trivial⟩)
  · exact fun _ => ⟨rfl, id⟩
  · exact fun _ _ _ _ => ⟨rfl, id⟩
  · exact fun _ => ⟨rfl, id⟩
  · exact fun _ => ⟨rfl, id⟩
  · exact fun _ => ⟨rfl, id⟩

theorem Left.checkStarted (h : Left s t) (hs : CheckStarted s) : CheckStarted t := by
  unfold CheckStarted at *
  rw [← List.one_le_count_iff] at *
  rwa [h.started]

end Steps

section Application

variable {boot : Boot} {s : Esp32}

-- Where the main task stays, the updater may go on.
theorem Coming.updates {x : SystemM Unit} (hs : Coming s)
    (hx : ∀ u ∈ s.updater, wp x (fun _ v => (0 < u.callers → 0 < v.callers) ∧ (CheckStarted u → CheckStarted v) ∧
      (Unstarted u → CheckStarted v ∨ Unstarted v ∧ (u.fwupCheckForUpdate = true → v.fwupCheckForUpdate = true)))
      (fun _ _ => True) u) :
    wp (onUpdater x) (fun _ t => Coming t) (fun _ _ => True) s := by
  cases hsystem : s.updater with
  | none => exact (wp_onUpdater_none hsystem).mpr hs
  | some u =>
      rw [wp_onUpdater_some hsystem]
      refine wp_mono (hx u hsystem) (fun _ v hv => ?_) (fun _ _ _ => trivial)
      obtain ⟨hcallers, hstarted, hunstarted⟩ := hv
      refine ⟨fun _ => rfl, fun hmain w hw => ?_, fun w hw => ?_⟩
      · cases hw
        exact hcallers (hs.calling hmain u hsystem)
      · cases hw
        rcases hs.first u hsystem with hcheck | ⟨hwaiting, hbit⟩
        · exact .inl (hstarted hcheck)
        · rcases hunstarted hwaiting with hcheck | ⟨hwaits, hkeeps⟩
          · exact .inl hcheck
          · exact .inr ⟨hwaits, fun hlooping => hkeeps (hbit hlooping)⟩

theorem Coming.moves (hs : Coming s) {t : Esp32} (hupdater : t.updater = s.updater) (hmain : t.main = s.main) :
    Coming t :=
  ⟨by rw [hupdater, hmain]; exact hs.made, by rw [hupdater, hmain]; exact hs.calling,
    by rw [hupdater, hmain]; exact hs.first⟩

theorem Coming.boots (hs : Coming s) {t : Esp32} (hupdater : t.updater = s.updater)
    (hmain : t.main.booting = true) : Coming t := by
  have hnot : t.main.looping = false ∧ t.main ≠ .checkNowSets := by
    cases hpoint : t.main <;> simp_all [MainPoint.looping, MainPoint.booting]
  refine ⟨fun h => ?_, fun h => absurd h hnot.2, fun u hu => ?_⟩
  · rw [hmain] at h
    cases h
  · rw [hupdater] at hu
    refine (hs.first u hu).imp_right fun h => ⟨h.1, fun hlooping => ?_⟩
    rw [hnot.1] at hlooping
    cases hlooping

-- Inside the loop every place is as good as another.
theorem Coming.loops (hs : Coming s) {t : Esp32} (hupdater : t.updater = s.updater)
    (hs_main : s.main.looping = true) (ht_main : t.main.looping = true) : Coming t := by
  have hnot : ∀ point : MainPoint, point.looping = true → point.booting = false ∧ point ≠ .checkNowSets := by
    intro point hpoint
    cases point <;> simp_all [MainPoint.looping, MainPoint.booting]
  refine ⟨fun _ => ?_, fun h => absurd h (hnot _ ht_main).2, fun u hu => ?_⟩
  · rw [hupdater]
    exact hs.made (hnot _ hs_main).1
  · rw [hupdater] at hu
    exact (hs.first u hu).imp_right fun h => ⟨h.1, fun _ => h.2 hs_main⟩

theorem updaterTask_coming (replies : TaskReplies) (hs : Coming s) :
    wp (updaterTask replies) (fun _ t => Coming t) (fun _ _ => True) s := by
  have hupdater : wp (onUpdater (iapHttpsTask { replies with wifiConnected := s.connected }))
      (fun _ t => Coming t) (fun _ _ => True) s := by
    refine hs.updates fun u _ => ?_
    by_cases hunstarted : Unstarted u
    · refine wp_mono (wp_and (iapHttpsTask_keeps _ u) (iapHttpsTask_unstarted _ hunstarted)) (fun _ v hv => ?_)
        (fun _ _ _ => trivial)
      obtain ⟨⟨hcallers, hstarted⟩, -, hnext⟩ := hv
      refine ⟨fun h => hcallers ▸ h, hstarted, fun _ => ?_⟩
      rcases hnext with hcheck | ⟨hwaits, hbit⟩
      · exact .inl hcheck
      · exact .inr ⟨hwaits, hbit.trans⟩
    · refine wp_mono (iapHttpsTask_keeps _ u) (fun _ v hv => ?_) (fun _ _ _ => trivial)
      exact ⟨fun h => hv.1 ▸ h, hv.2, fun h => absurd h hunstarted⟩
  exact wp_updaterTask hupdater fun _ => trivial

theorem unstarted_system (boot : Boot) : Unstarted boot.system := ⟨List.not_mem_nil, rfl, .inl rfl⟩

-- A call that finds the bit set is over; otherwise its caller is about to set it.
theorem checkNow_coming (hs : Coming s) (hmain : s.main = .checkNow) :
    wp (onUpdater iapHttpsTriggerProcessing)
      (fun _ t => Coming { t with main := if s.checkRequested then .isConnected else .checkNowSets })
      (fun _ _ => True) s := by
  obtain ⟨u, hsystem⟩ := Option.isSome_iff_exists.mp (hs.made (by rw [hmain]; rfl))
  rw [wp_onUpdater_some hsystem]
  have hrequested : s.checkRequested = u.fwupCheckForUpdate := by rw [Esp32.checkRequested, hsystem, Option.any_some]
  have hfirst := hs.first u hsystem
  simp only [iapHttpsTriggerProcessing, wp_bind, wp_get, wp_ite, wp_set, hrequested]
  refine ⟨fun hbit => ?_, fun hbit => ?_⟩
  · rw [if_pos hbit]
    refine ⟨fun _ => rfl, fun h => (by cases h), fun v hv => ?_⟩
    cases hv
    rcases hfirst with hcheck | ⟨⟨hhistory, hdownload, hpoint⟩, -⟩
    · exact .inl (List.mem_cons_of_mem _ hcheck)
    · exact .inr ⟨⟨by simpa using hhistory, hdownload, hpoint⟩, fun _ => hbit⟩
  · rw [if_neg hbit]
    refine ⟨fun _ => rfl, fun _ v hv => ?_, fun v hv => ?_⟩
    · cases hv
      exact Nat.succ_pos _
    · cases hv
      rcases hfirst with hcheck | ⟨⟨hhistory, hdownload, hpoint⟩, -⟩
      · exact .inl hcheck
      · exact .inr ⟨⟨hhistory, hdownload, hpoint⟩, fun hlooping => (by cases hlooping)⟩

theorem checkNowSets_coming (hs : Coming s) (hmain : s.main = .checkNowSets) :
    wp (onUpdater iapHttpsTriggerSet) (fun _ t => Coming { t with main := .isConnected }) (fun _ _ => True) s := by
  obtain ⟨u, hsystem⟩ := Option.isSome_iff_exists.mp (hs.made (by rw [hmain]; rfl))
  rw [wp_onUpdater_some hsystem]
  have hcalling := hs.calling hmain u hsystem
  simp only [iapHttpsTriggerSet, wp_bind, wp_get, wp_ite, wp_set, wp_pure]
  refine ⟨fun _ => ⟨fun _ => rfl, fun h => (by cases h), fun v hv => ?_⟩, fun hnone => absurd hcalling hnone⟩
  cases hv
  rcases hs.first u hsystem with hcheck | ⟨⟨hhistory, hdownload, hpoint⟩, -⟩
  · exact .inl (List.mem_cons_of_mem _ hcheck)
  · exact .inr ⟨⟨by simpa using hhistory, hdownload, hpoint⟩, fun _ => rfl⟩

theorem appMain_coming (hasSession : Bool) (hs : Coming s) :
    wp (appMain boot hasSession) (fun _ t => Coming t) (fun _ _ => True) s := by
  unfold appMain
  rw [wp_bind, wp_get]
  cases hmain : s.main with
  | initWifi =>
      simp only [onStation, wp_bind, wp_zoom, wp_modify]
      refine wp_of_forall (fun _ _ => hs.boots rfl ?_) (fun _ _ => trivial)
      split <;> rfl
  | startWifi => exact hs.boots rfl rfl
  | initOta =>
      refine ⟨fun _ => rfl, fun h => (by cases h), fun u hu => ?_⟩
      cases hu
      exact .inr ⟨unstarted_system boot, fun hlooping => (by cases hlooping)⟩
  | checkNow =>
      rw [wp_bind]
      exact wp_mono (checkNow_coming hs hmain) (fun _ _ ht => ht) (fun _ _ ht => ht)
  | checkNowSets =>
      rw [wp_bind]
      exact wp_mono (checkNowSets_coming hs hmain) (fun _ _ ht => ht) (fun _ _ ht => ht)
  | isConnected =>
      simp only [onStation, wp_bind, wp_zoom, wp_modify]
      exact wp_of_forall (fun _ _ => hs.loops rfl (by rw [hmain]; rfl) rfl) (fun _ _ => trivial)
  | updateInProgress nofFlashes => exact hs.loops rfl (by rw [hmain]; rfl) rfl
  | flash nofFlashes => exact hs.loops rfl (by rw [hmain]; rfl) rfl

theorem Coming.left {x : SystemM Unit} (hs : Coming s) (hx : LeavesTask x)
    (hcallers : ∀ u, wp x (fun _ v => v.callers = u.callers) (fun _ _ => False) u) :
    wp (onUpdater x) (fun _ t => Coming t) (fun _ _ => True) s := by
  refine hs.updates fun u _ => wp_mono (wp_and (hx u) (hcallers u)) (fun _ v hv => ?_) (fun _ _ _ => trivial)
  exact ⟨fun h => hv.2 ▸ h, hv.1.checkStarted, fun h => .inr ⟨hv.1.unstarted h, hv.1.bit⟩⟩

theorem Esp32Step.coming (boot : Boot) (step : Esp32Step) (hs : Coming s) :
    wp (step.run boot) (fun _ t => Coming t) (fun _ _ => True) s := by
  cases step with
  | main hasSession => exact appMain_coming hasSession hs
  | event e =>
      exact wp_mono (appEventHandler_frame e) (fun _ _ ht => hs.moves ht.updater ht.main) (fun _ _ _ => trivial)
  | handler connect =>
      exact wp_mono (handlerGoesOn_frame connect) (fun _ _ ht => hs.moves ht.updater ht.main) (fun _ _ _ => trivial)
  | task replies => exact updaterTask_coming replies hs
  | timerExpires =>
      refine hs.left timerExpires_leaves fun u => ?_
      simp only [Esp32Ota.timerExpires, wp_bind, wp_get]
      split <;> rfl
  | undeletedTimerExpires =>
      refine hs.left undeletedTimerExpires_leaves fun u => ?_
      simp [Esp32Ota.undeletedTimerExpires, iapHttpsPeriodicCheckTimerCallback]

theorem coming_powerOn : Coming Esp32.powerOn :=
  ⟨fun h => (by cases h), fun h => (by cases h), fun _ h => by cases h⟩

-- The task makes an operation that does not wait for the station in vain.
def Esp32Step.goesOn (s : Esp32) (step : Esp32Step) : Bool :=
  (step.systemStep s).any fun call => s.updater.any fun u => call.goesOn u

def Esp32.toCheck (s : Esp32) : Nat := (s.updater.map System.toCheck).getD 0

-- The updater of the application, on its way to the first check.
def AwaitingCheck (s : Esp32) : Prop := ∃ u, s.updater = some u ∧ Unstarted u ∧ u.fwupCheckForUpdate = true

def FirstCheckStarted (s : Esp32) : Prop := ∃ u, s.updater = some u ∧ CheckStarted u

theorem Unstarted.asked {u : System} (h : Unstarted u) (hbit : u.fwupCheckForUpdate = true) : Asked 0 u :=
  ⟨hbit, h.inCheck, Nat.zero_le _⟩

-- What keeps the place of the updater does not delay the check.
theorem AwaitingCheck.left {x : SystemM Unit} (hx : LeavesTask x) (hs : AwaitingCheck s) :
    wp (onUpdater x) (fun _ t => t.main = s.main ∧ AwaitingCheck t ∧ t.toCheck = s.toCheck)
      (fun _ _ => True) s := by
  obtain ⟨u, hsystem, hunstarted, hbit⟩ := hs
  rw [wp_onUpdater_some hsystem]
  refine wp_mono (hx u) (fun _ v hv => ?_) (fun _ _ _ => trivial)
  refine ⟨rfl, ⟨v, rfl, hv.unstarted hunstarted, hv.bit hbit⟩, ?_⟩
  simp only [Esp32.toCheck, hsystem, Option.map_some, Option.getD_some, hv.toCheck]

theorem FirstCheckStarted.updates {x : SystemM Unit} (hs : FirstCheckStarted s)
    (hx : ∀ u, wp x (fun _ v => CheckStarted u → CheckStarted v) (fun _ _ => True) u) :
    wp (onUpdater x) (fun _ t => t.main = s.main ∧ FirstCheckStarted t) (fun _ _ => True) s := by
  obtain ⟨u, hsystem, hstarted⟩ := hs
  rw [wp_onUpdater_some hsystem]
  exact wp_mono (hx u) (fun _ v hv => ⟨rfl, v, rfl, hv hstarted⟩) (fun _ _ _ => trivial)

-- In its loop `app_main` leaves the updater alone.
theorem wp_looping {step : Esp32Step} {Q : Esp32 → Prop} (hs : s.main.looping = true)
    (hstays : step.goesOn s = false → ∀ t, t.updater = s.updater → t.main.looping = true → Q t)
    (htask : ∀ replies, step = .task replies →
      wp (onUpdater (iapHttpsTask { replies with wifiConnected := s.connected })) (fun _ t => Q t) (fun _ _ => True) s)
    (htimers : step.goesOn s = false → ∀ x, LeavesTask x →
      wp (onUpdater x) (fun _ t => Q t) (fun _ _ => True) s) :
    wp (step.run boot) (fun _ t => Q t) (fun _ _ => True) s := by
  cases step with
  | main hasSession =>
      have hgoesOn : (Esp32Step.main hasSession).goesOn s = false := by
        cases hmain : s.main <;> simp_all [Esp32Step.goesOn, Esp32Step.systemStep, MainPoint.looping]
      simp only [Esp32Step.run, appMain, wp_bind, wp_get]
      cases hmain : s.main with
      | isConnected =>
          simp only [onStation, wp_bind, wp_zoom, wp_modify]
          exact wp_of_forall (fun _ _ => hstays hgoesOn _ rfl rfl) (fun _ _ => trivial)
      | updateInProgress nofFlashes => exact hstays hgoesOn _ rfl rfl
      | flash nofFlashes => exact hstays hgoesOn _ rfl rfl
      | _ => rw [hmain] at hs; cases hs
  | event e =>
      exact wp_mono (appEventHandler_frame e) (fun _ t ht => hstays rfl t ht.updater (ht.main ▸ hs))
        (fun _ _ _ => trivial)
  | handler connect =>
      exact wp_mono (handlerGoesOn_frame connect) (fun _ t ht => hstays rfl t ht.updater (ht.main ▸ hs))
        (fun _ _ _ => trivial)
  | task replies => exact wp_updaterTask (htask replies rfl) fun _ => trivial
  | timerExpires =>
      refine htimers ?_ _ timerExpires_leaves
      cases hsystem : s.updater <;> simp [Esp32Step.goesOn, Esp32Step.systemStep, hsystem, SystemStep.goesOn]
  | undeletedTimerExpires =>
      refine htimers ?_ _ undeletedTimerExpires_leaves
      cases hsystem : s.updater <;> simp [Esp32Step.goesOn, Esp32Step.systemStep, hsystem, SystemStep.goesOn]

theorem esp32_responds (boot : Boot) :
    Responds (Esp32Step.run boot) (fun s step => step.goesOn s) Esp32.toCheck
      (fun s => s.main.looping = true ∧ AwaitingCheck s) (fun s => s.main.looping = true ∧ FirstCheckStarted s) where
  lowers step s hs := by
    obtain ⟨hlooping, hawaits⟩ := hs
    apply wp_looping hlooping
    · intro hgoesOn t hupdater hmain
      refine .inr ⟨⟨hmain, by rwa [AwaitingCheck, hupdater]⟩, ?_⟩
      rw [Esp32.toCheck, hupdater, hgoesOn]
      exact Nat.le_refl _
    · intro replies hstep
      obtain ⟨u, hsystem, hunstarted, hbit⟩ := hawaits
      rw [wp_onUpdater_some hsystem]
      refine wp_mono (wp_and (iapHttpsTask_lowers _ (hunstarted.asked hbit)) (iapHttpsTask_unstarted _ hunstarted))
        (fun _ v hv => ?_) (fun _ _ _ => trivial)
      obtain ⟨hlower, -, hnext⟩ := hv
      rcases hnext with hstarted | ⟨hwaits, hsame⟩
      · exact .inl ⟨hlooping, v, rfl, hstarted⟩
      · rcases hlower with hserved | ⟨-, hrank⟩
        · rcases hserved with hstarted | hheld
          · exact .inl ⟨hlooping, v, rfl, List.one_le_count_iff.mp hstarted⟩
          · exact absurd hheld hwaits.free
        · refine .inr ⟨⟨hlooping, v, rfl, hwaits, hsame.trans hbit⟩, ?_⟩
          subst hstep
          simpa [Esp32.toCheck, Esp32Step.goesOn, Esp32Step.systemStep, hsystem] using hrank
    · intro hgoesOn x hx
      refine wp_mono (hawaits.left hx) (fun _ t ht => ?_) (fun _ _ _ => trivial)
      obtain ⟨hmain, hwaits, hsame⟩ := ht
      refine .inr ⟨⟨hmain ▸ hlooping, hwaits⟩, ?_⟩
      rw [hsame, hgoesOn]
      exact Nat.le_refl _
  stays step s hs := by
    obtain ⟨hlooping, hstarted⟩ := hs
    apply wp_looping hlooping
    · exact fun _ t hupdater hmain => ⟨hmain, by rwa [FirstCheckStarted, hupdater]⟩
    · intro replies _
      refine wp_mono (hstarted.updates fun u => wp_mono (iapHttpsTask_keeps _ u) (fun _ _ hv => hv.2)
        (fun _ _ _ => trivial)) (fun _ _ ht => ⟨ht.1 ▸ hlooping, ht.2⟩) (fun _ _ _ => trivial)
    · intro _ x hx
      refine wp_mono (hstarted.updates fun u => wp_mono (hx u) (fun _ _ hv => hv.checkStarted)
        (fun _ _ _ => trivial)) (fun _ _ ht => ⟨ht.1 ▸ hlooping, ht.2⟩) (fun _ _ _ => trivial)

end Application

-- Once `app_main` has come to its loop, the first check starts within five operations of the
-- task that do not wait for the station, whatever the other tasks do in between.
theorem first_check_starts (boot : Boot) (before after : List Esp32Step) {s t : Esp32}
    (hbefore : run (Esp32Step.run boot) before Esp32.powerOn = .ok ⟨⟩ s) (hmain : s.main.looping = true)
    (hsteps : 4 < ticks (Esp32Step.run boot) (fun s step => step.goesOn s) after s)
    (hafter : run (Esp32Step.run boot) after s = .ok ⟨⟩ t) :
    ∃ u, t.updater = some u ∧ .checkStarted ∈ u.history := by
  have hrun := run_invariant (Esp32Step.run boot) (P := fun _ _ => True) (J := fun _ _ => True)
    (fun step _ hs _ => step.coming boot hs) before Esp32.powerOn coming_powerOn (along_true _ _ _)
  have hcoming : Coming s := wp_ok (x := run (Esp32Step.run boot) before) hrun hbefore
  have hrunning : s.main.booting = false := by
    cases hpoint : s.main <;> simp_all [MainPoint.looping, MainPoint.booting]
  obtain ⟨u, hsystem⟩ := Option.isSome_iff_exists.mp (hcoming.made hrunning)
  have hgoal : wp (run (Esp32Step.run boot) after) (fun _ t => t.main.looping = true ∧ FirstCheckStarted t)
      (fun _ _ => True) s := by
    rcases hcoming.first u hsystem with hstarted | ⟨hunstarted, hbit⟩
    · exact (esp32_responds boot).run_stays after ⟨hmain, u, hsystem, hstarted⟩
    · refine (esp32_responds boot).run_reaches after ⟨hmain, u, hsystem, hunstarted, hbit hmain⟩ ?_
      simp only [Esp32.toCheck, hsystem, Option.map_some, Option.getD_some]
      exact Nat.lt_of_le_of_lt hunstarted.toCheck_le hsteps
  exact (wp_ok (x := run (Esp32Step.run boot) after) hgoal hafter).2

def exampleRound : Esp32Step :=
  .task ⟨false, exampleScript { exampleConnect with ctrDrbgSeed := -1 } [],
    fun _ => exampleFirmwareReplies ⟨ESP_OK, ESP_OK, ESP_OK⟩, ⟨true, true, true, true⟩⟩

-- The station has its address, and the task comes to its first check.
theorem first_check_of_exampleStart :
    ∃ s t, run (Esp32Step.run exampleBoot) exampleStart Esp32.powerOn = .ok ⟨⟩ s ∧
      run (Esp32Step.run exampleBoot) (List.replicate 5 exampleRound) s = .ok ⟨⟩ t ∧
      ∃ u, t.updater = some u ∧ .checkStarted ∈ u.history := by
  obtain ⟨_, s, hbefore, hmain, hsteps, hafter⟩ := exists_ok_of_wp
    (x := run (Esp32Step.run exampleBoot) exampleStart) (s := Esp32.powerOn)
    (Q := fun _ s => s.main.looping = true ∧
      4 < ticks (Esp32Step.run exampleBoot) (fun s step => step.goesOn s) (List.replicate 5 exampleRound) s ∧
      wp (run (Esp32Step.run exampleBoot) (List.replicate 5 exampleRound)) (fun _ _ => True) (fun _ _ => False) s)
    (by decide +kernel)
  obtain ⟨_, t, hrun, -⟩ := exists_ok_of_wp hafter
  exact ⟨s, t, hbefore, hrun, first_check_starts exampleBoot exampleStart _ hbefore hmain hsteps hrun⟩

end Esp32Ota

import Esp32Ota.Main.Projection

-- `init_wifi` ignores the result of `wifi_sta_init`. What the application does behind it, with the event
-- group and without it.
namespace Esp32Ota

open CLib Halting

def Esp32Step.isMain : Esp32Step → Bool
  | .main _ => true
  | _ => false

def MainPoint.place : MainPoint → Nat
  | .initWifi => 0
  | .startWifi => 1
  | .initOta => 2
  | .checkNow => 3
  | .checkNowSets => 4
  | .isConnected => 5
  | .updateInProgress _ => 6
  | .flash _ => 7

-- The way of `app_main`: three operations a round.
def Esp32.way (s : Esp32) : Nat := 3 * s.flashes.length + s.main.place

section Way

variable {boot : Boot} {s : Esp32}

theorem onUpdater_way (x : SystemM Unit) :
    wp (onUpdater x) (fun _ t => t.way = s.way) (fun _ _ => True) s :=
  wp_onUpdater_of_forall (fun _ => rfl) (fun _ _ => trivial)

theorem appMain_goes (hasSession : Bool) :
    wp (appMain boot hasSession) (fun _ t => s.way + 1 ≤ t.way) (fun _ _ => True) s := by
  have hplace : ∀ {t : Esp32}, s.main.place < t.main.place → t.flashes = s.flashes → s.way + 1 ≤ t.way := by
    intro t hlt hflashes
    unfold Esp32.way
    rw [hflashes]
    omega
  unfold appMain
  rw [wp_bind, wp_get]
  cases hmain : s.main with
  | initWifi =>
      rw [hmain] at hplace
      simp only [onStation, wp_bind, wp_zoom, wp_modify]
      refine wp_of_forall (fun result _ => hplace ?_ rfl) (fun _ _ => trivial)
      show 0 < MainPoint.place (if result = ESP_OK then .startWifi else .initOta)
      split <;> decide
  | startWifi =>
      rw [hmain] at hplace
      exact hplace (Nat.lt_succ_self 1) rfl
  | initOta =>
      rw [hmain] at hplace
      exact hplace (Nat.lt_succ_self 2) rfl
  | checkNow =>
      rw [hmain] at hplace
      rw [wp_bind]
      refine wp_onUpdater_of_forall (fun updater => hplace ?_ rfl) (fun _ _ => trivial)
      show 3 < MainPoint.place (if s.checkRequested then .isConnected else .checkNowSets)
      split <;> decide
  | checkNowSets =>
      rw [hmain] at hplace
      rw [wp_bind]
      exact wp_onUpdater_of_forall (fun updater => hplace (Nat.lt_succ_self 4) rfl) (fun _ _ => trivial)
  | isConnected =>
      rw [hmain] at hplace
      simp only [onStation, wp_bind, wp_zoom, wp_modify]
      exact wp_of_forall (fun _ _ => hplace (Nat.lt_succ_self 5) rfl) (fun _ _ => trivial)
  | updateInProgress nofFlashes =>
      rw [hmain] at hplace
      exact hplace (Nat.lt_succ_self 6) rfl
  | flash nofFlashes =>
      simp only [wp_set, Esp32.way, hmain, List.length_cons, MainPoint.place]
      omega

theorem Esp32Step.goes (step : Esp32Step) :
    wp (step.run boot) (fun _ t => s.way + (if step.isMain then 1 else 0) ≤ t.way) (fun _ _ => True) s := by
  have hstays : ∀ {x : Esp32M Unit}, wp x (fun _ t => t.way = s.way) (fun _ _ => True) s →
      wp x (fun _ t => s.way + 0 ≤ t.way) (fun _ _ => True) s := fun hx =>
    wp_mono hx (fun _ _ ht => Nat.le_of_eq ht.symm) (fun _ _ h => h)
  have hframe : ∀ {t : Esp32}, ByEventTask s t → t.way = s.way := fun ht => by
    rw [Esp32.way, Esp32.way, ht.flashes, ht.main]
  cases step with
  | main hasSession => exact appMain_goes hasSession
  | event e => exact hstays (wp_mono (appEventHandler_frame e) (fun _ _ ht => hframe ht) (fun _ _ _ => trivial))
  | handler connect =>
      exact hstays (wp_mono (handlerGoesOn_frame connect) (fun _ _ ht => hframe ht) (fun _ _ _ => trivial))
  | task replies => exact hstays (wp_updaterTask (onUpdater_way _) fun _ => trivial)
  | timerExpires => exact hstays (onUpdater_way _)
  | undeletedTimerExpires => exact hstays (onUpdater_way _)

-- By induction on the steps.
theorem run_goes (boot : Boot) (steps : List Esp32Step) (s : Esp32) :
    wp (run (Esp32Step.run boot) steps) (fun _ t => s.way + steps.countP Esp32Step.isMain ≤ t.way)
      (fun _ _ => True) s := by
  induction steps generalizing s with
  | nil => exact Nat.le_refl _
  | cons step steps ih =>
      simp only [run, wp_bind]
      refine wp_mono step.goes (fun _ t ht => ?_) (fun _ _ h => h)
      refine wp_mono (ih t) (fun _ u hu => ?_) (fun _ _ h => h)
      rw [List.countP_cons]
      omega

end Way

section Configured

variable {boot : Boot} {s : Esp32} {u : System}

theorem LeavesTask.onUpdater_returns {x : SystemM Unit} (hx : LeavesTask x) :
    wp (onUpdater x) (fun _ _ => True) (fun _ _ => False) s := by
  cases h : s.updater with
  | none => exact (wp_onUpdater_none h).mpr trivial
  | some system =>
      rw [wp_onUpdater_some h]
      exact wp_mono (hx system) (fun _ _ _ => trivial) (fun _ _ hfalse => hfalse)

-- With the event group nothing but the updater task can end the program.
theorem Esp32Step.returns (hboot : boot.Configures) {step : Esp32Step} (htask : ∀ replies, step ≠ .task replies)
    (h : Embeds boot s u) : wp (step.run boot) (fun _ _ => True) (fun _ _ => False) s := by
  have hquiet : step.systemStep s = none → wp (step.run boot) (fun _ _ => True) (fun _ _ => False) s :=
    fun hnone => wp_mono (esp32_quiet hboot step hnone h) (fun _ _ _ => trivial) (fun _ _ hfalse => hfalse)
  cases step with
  | main hasSession =>
      cases hmain : s.main with
      | checkNow =>
          simp only [Esp32Step.run, appMain, wp_bind, wp_get, hmain]
          exact wp_mono iapHttpsTriggerProcessing_leaves.onUpdater_returns (fun _ _ _ => trivial)
            (fun _ _ hfalse => hfalse)
      | checkNowSets =>
          simp only [Esp32Step.run, appMain, wp_bind, wp_get, hmain]
          exact wp_mono iapHttpsTriggerSet_leaves.onUpdater_returns (fun _ _ _ => trivial)
            (fun _ _ hfalse => hfalse)
      | _ => exact hquiet (by simp only [Esp32Step.systemStep, hmain])
  | event e => exact hquiet rfl
  | handler connect => exact hquiet rfl
  | task replies => exact absurd rfl (htask replies)
  | timerExpires => exact timerExpires_leaves.onUpdater_returns
  | undeletedTimerExpires => exact undeletedTimerExpires_leaves.onUpdater_returns

end Configured

section Unconfigured

-- The application goes on without its event group, up to the first use of it.
structure GroupMissing (boot : Boot) (s : Esp32) : Prop where
  group : s.station.eventGroup = none
  place : s.main.place ≤ 5
  flashes : s.flashes = []
  untouched : Untouched boot s
  waiting : s.main = .initWifi → s.station = Station.boot ∧ s.handler = .waiting

variable {boot : Boot} {s : Esp32}

theorem wifiStaIsConnected_missing {t : Station} (h : t.eventGroup = none) :
    wp wifiStaIsConnected (fun _ _ => False) (fun e v => e = .undefined ∧ v = t) t := by
  simp only [wifiStaIsConnected, wp_bind, wp_get, h, wp_throw, and_self]

-- Nothing else of the configuration makes an event group.
theorem wifiStaConfigure_missing (hboot : ¬boot.Configures) :
    wp (wifiStaConfigure boot.settings.wifiNetworkSsid boot.settings.wifiNetworkPassword boot.station)
      (fun _ t => t.eventGroup = none) (fun _ _ => False) Station.boot := by
  by_cases hfits : Station.boot.Fits boot.settings.wifiNetworkSsid boot.settings.wifiNetworkPassword
  · refine wp_mono (wifiStaConfigure_makes hfits) (fun result t hpost => ?_) (fun _ _ hfalse => hfalse)
    obtain ⟨⟨-, hresult⟩, hfailed, hok⟩ := hpost
    by_cases haccepted : result = ESP_OK
    · rw [(hok haccepted).2]
      exact if_neg fun hcreated => hboot ⟨hfits, hresult.symm.trans haccepted, hcreated⟩
    · exact hfailed haccepted
  · refine wp_mono (wifiStaConfigure_refuses hfits) (fun _ t hpost => ?_) (fun _ _ hfalse => hfalse)
    rw [hpost.2]
    rfl

theorem wifiStaHandlerStep_missing (connect : EspErr) (point : HandlerPoint) {t : Station}
    (h : t.eventGroup = none) :
    wp (wifiStaHandlerStep connect point) (fun _ v => v.eventGroup = none)
      (fun e v => e = .undefined ∧ v.eventGroup = none) t := by
  cases point with
  | waiting => exact h
  | isConnected c =>
      simp only [wifiStaHandlerStep, wp_bind]
      exact wp_mono (wifiStaIsConnected_missing h) (fun _ _ hfalse => hfalse.elim)
        (fun _ v hv => ⟨hv.1, hv.2 ▸ h⟩)
  | setConnected c =>
      simp only [wifiStaHandlerStep, setConnectedFlag, wp_bind, wp_get, h, wp_throw, and_self]
  | wifiConnect => exact h

theorem GroupMissing.updates {x : SystemM Unit} (hx : LeavesTask x) (hs : GroupMissing boot s) :
    wp (onUpdater x) (fun _ t => GroupMissing boot t ∧ t.main = s.main) (fun _ _ => False) s := by
  have hframe : wp (onUpdater x) (fun _ t => t.station = s.station ∧ t.handler = s.handler ∧ t.main = s.main ∧
      t.flashes = s.flashes) (fun _ _ => True) s :=
    wp_onUpdater_of_forall (fun _ => ⟨rfl, rfl, rfl, rfl⟩) (fun _ _ => trivial)
  refine wp_mono (wp_and (wp_and hframe (hs.untouched.leaves hx)) hx.onUpdater_returns) (fun _ t ht => ?_)
    (fun _ _ ht => ht.2)
  obtain ⟨⟨⟨hstation, hhandler, hmain, hflashes⟩, huntouched⟩, -⟩ := ht
  refine ⟨⟨?_, ?_, ?_, huntouched, ?_⟩, hmain⟩
  · rw [hstation, hs.group]
  · rw [hmain]
    exact hs.place
  · rw [hflashes, hs.flashes]
  · rw [hmain, hstation, hhandler]
    exact hs.waiting

theorem GroupMissing.goes (hs : GroupMissing boot s) {main : MainPoint} (hplace : main.place ≤ 5)
    (hne : main ≠ .initWifi) : GroupMissing boot { s with main } :=
  ⟨hs.group, hplace, hs.flashes, hs.untouched.of_updater rfl, fun h => absurd h hne⟩

-- The first use of the missing group ends the program.
theorem isConnected_ends {α : Type} {k : Bool → Esp32M α} (hs : GroupMissing boot s) :
    wp (onStation wifiStaIsConnected >>= k) (fun _ _ => False) (fun e t => e = .undefined ∧ GroupMissing boot t) s := by
  rw [wp_bind, onStation, wp_zoom]
  refine wp_mono (wifiStaIsConnected_missing hs.group) (fun _ _ hfalse => hfalse.elim) (fun e t ht => ⟨ht.1, ?_⟩)
  rw [ht.2]
  exact hs

theorem appMain_ends (hasSession : Bool) (hs : GroupMissing boot s) (hmain : s.main = .isConnected) :
    wp (appMain boot hasSession) (fun _ _ => False) (fun e t => e = .undefined ∧ GroupMissing boot t) s := by
  rw [appMain, wp_bind, wp_get]
  simp only [hmain]
  exact isConnected_ends hs

theorem updaterTask_ends (replies : TaskReplies) (hs : GroupMissing boot s) (hsystem : s.updater.isSome = true) :
    wp (updaterTask replies) (fun _ _ => False) (fun e t => e = .undefined ∧ GroupMissing boot t) s := by
  obtain ⟨system, hsystem⟩ := Option.isSome_iff_exists.mp hsystem
  have hwaits : (s.updater.any fun updater => updater.point.waitsForWifi) = true := by
    rw [hsystem, Option.any_some, (hs.untouched system hsystem).2]
    rfl
  rw [updaterTask, wp_bind, wp_get]
  simp only [hwaits, ite_true]
  exact isConnected_ends hs

theorem appMain_missing (hboot : ¬boot.Configures) (hasSession : Bool) (hs : GroupMissing boot s) :
    wp (appMain boot hasSession) (fun _ t => GroupMissing boot t)
      (fun e t => e = .undefined ∧ GroupMissing boot t) s := by
  cases hmain : s.main with
  | initWifi =>
      obtain ⟨hstation, -⟩ := hs.waiting hmain
      simp only [appMain, onStation, wp_bind, wp_get, wp_zoom, wp_modify, hmain, hstation]
      refine wp_mono (wifiStaConfigure_missing hboot) (fun result t ht => ?_) (fun _ _ hfalse => hfalse.elim)
      refine ⟨ht, ?_, hs.flashes, hs.untouched.of_updater rfl, fun h => ?_⟩
      · show MainPoint.place (if result = ESP_OK then .startWifi else .initOta) ≤ 5
        split <;> decide
      · simp only at h
        split at h <;> cases h
  | startWifi =>
      simp only [appMain, onStation, staCall, wp_bind, wp_get, wp_zoom, wp_modify, wp_pure, hmain]
      exact ⟨hs.group, (show 2 ≤ 5 by decide), hs.flashes, hs.untouched.of_updater rfl, fun h => by cases h⟩
  | initOta =>
      simp only [appMain, wp_bind, wp_get, wp_set, hmain]
      refine ⟨hs.group, (show 3 ≤ 5 by decide), hs.flashes, fun system hsystem => ?_, fun h => by cases h⟩
      obtain rfl := Option.some.inj hsystem
      exact ⟨rfl, rfl⟩
  | checkNow =>
      simp only [appMain, wp_bind, wp_get, hmain, wp_modify]
      refine wp_mono (hs.updates iapHttpsTriggerProcessing_leaves) (fun _ t ht => ht.1.goes ?_ ?_)
        (fun _ _ hfalse => hfalse.elim)
      · split <;> decide
      · split <;> simp
  | checkNowSets =>
      simp only [appMain, wp_bind, wp_get, hmain, wp_modify]
      exact wp_mono (hs.updates iapHttpsTriggerSet_leaves) (fun _ t ht => ht.1.goes (by decide) (by simp))
        (fun _ _ hfalse => hfalse.elim)
  | isConnected => exact wp_mono (appMain_ends hasSession hs hmain) (fun _ _ hfalse => hfalse.elim) (fun _ _ h => h)
  | updateInProgress nofFlashes =>
      have hplace := hs.place
      rw [hmain] at hplace
      exact absurd hplace (Nat.not_le_of_lt (Nat.lt_succ_self 5))
  | flash nofFlashes =>
      have hplace := hs.place
      rw [hmain] at hplace
      exact absurd hplace (Nat.not_le_of_lt (by show 5 < 7; decide))

theorem Esp32Step.missing (hboot : ¬boot.Configures) (step : Esp32Step) (hs : GroupMissing boot s) :
    wp (step.run boot) (fun _ t => GroupMissing boot t) (fun e t => e = .undefined ∧ GroupMissing boot t) s := by
  have hupdater : ∀ {x : SystemM Unit}, LeavesTask x → wp (onUpdater x) (fun _ t => GroupMissing boot t)
      (fun e t => e = .undefined ∧ GroupMissing boot t) s := fun hx =>
    wp_mono (hs.updates hx) (fun _ _ ht => ht.1) (fun _ _ hfalse => hfalse.elim)
  cases step with
  | main hasSession => exact appMain_missing hboot hasSession hs
  | event e =>
      simp only [Esp32Step.run, appEventHandler, wp_modify]
      by_cases hready : s.station.started ∧ s.handler = .waiting
      · rw [if_pos hready]
        refine ⟨hs.group, hs.place, hs.flashes, hs.untouched.of_updater rfl, fun hmain => ?_⟩
        rw [(hs.waiting hmain).1] at hready
        exact absurd hready.1 (by decide)
      · rw [if_neg hready]
        exact hs
  | handler connect =>
      simp only [Esp32Step.run, handlerGoesOn, onStation, wp_bind, wp_get, wp_zoom, wp_modify]
      by_cases hmain : s.main = .initWifi
      · obtain ⟨hstation, hhandler⟩ := hs.waiting hmain
        rw [hhandler]
        exact ⟨hs.group, hs.place, hs.flashes, hs.untouched.of_updater rfl, fun _ => ⟨hstation, rfl⟩⟩
      · refine wp_mono (wifiStaHandlerStep_missing connect s.handler hs.group) (fun _ t ht => ?_) (fun e t ht => ?_)
        · exact ⟨ht, hs.place, hs.flashes, hs.untouched.of_updater rfl, fun h => absurd h hmain⟩
        · exact ⟨ht.1, ht.2, hs.place, hs.flashes, hs.untouched.of_updater rfl, fun h => absurd h hmain⟩
  | task replies =>
      cases hsystem : s.updater with
      | none =>
          simp only [Esp32Step.run, updaterTask, wp_bind, wp_get, wp_ite, hsystem]
          exact ⟨fun hany => (by cases hany), fun _ => (wp_onUpdater_none hsystem).mpr hs⟩
      | some system =>
          exact wp_mono (updaterTask_ends replies hs (by rw [hsystem]; rfl)) (fun _ _ hfalse => hfalse.elim)
            (fun _ _ h => h)
  | timerExpires => exact hupdater timerExpires_leaves
  | undeletedTimerExpires => exact hupdater undeletedTimerExpires_leaves

theorem missing_powerOn (boot : Boot) : GroupMissing boot Esp32.powerOn :=
  ⟨rfl, by decide, rfl, fun _ h => (by cases h), fun _ => ⟨rfl, rfl⟩⟩

end Unconfigured

-- With its event group the application goes on, whatever the updater does: only the task can end the
-- program, and there is a round of flashes for each three operations of `app_main`. Without it neither
-- `app_main` nor the task gets past its first look at the flag, and the LED never flashes.
theorem survives_as_configured (boot : Boot) (steps : List Esp32Step) :
    wp (run (Esp32Step.run boot) steps)
      (fun _ s =>
        (boot.Configures → steps.countP Esp32Step.isMain ≤ 3 * s.flashes.length + 7 ∧
          ∀ step : Esp32Step, (∀ replies, step ≠ .task replies) →
            wp (step.run boot) (fun _ _ => True) (fun _ _ => False) s) ∧
        (¬boot.Configures → steps.countP Esp32Step.isMain ≤ 5 ∧ s.flashes = [] ∧ Untouched boot s ∧
          (s.main = .isConnected → ∀ hasSession,
            wp (appMain boot hasSession) (fun _ _ => False) (fun e _ => e = .undefined) s) ∧
          (s.updater.isSome = true → ∀ replies,
            wp (updaterTask replies) (fun _ _ => False) (fun e _ => e = .undefined) s)))
      (fun e s => ¬boot.Configures → e = .undefined ∧ s.flashes = [] ∧ Untouched boot s) Esp32.powerOn := by
  have hgoes := run_goes boot steps Esp32.powerOn
  have hstart : Esp32.powerOn.way = 0 := rfl
  by_cases hboot : boot.Configures
  · have hembeds := (esp32_matching hboot).run_simulates steps (embeds_powerOn boot)
    refine wp_mono (wp_and hgoes hembeds) (fun _ s hs => ?_) (fun _ _ _ hnot => absurd hboot hnot)
    obtain ⟨hway, v, -, hv⟩ := hs
    refine ⟨fun _ => ⟨?_, fun step htask => step.returns hboot htask hv⟩, fun hnot => absurd hboot hnot⟩
    have hplace : s.main.place ≤ 7 := by
      unfold MainPoint.place
      split <;> omega
    unfold Esp32.way at hway hstart
    omega
  · have hmissing := run_invariant (Esp32Step.run boot) (P := fun _ _ => True)
      (fun step _ hs _ => step.missing hboot hs) steps Esp32.powerOn (missing_powerOn boot) (along_true _ _ _)
    refine wp_mono (wp_and hgoes hmissing) (fun _ s hs => ?_) (fun _ _ hs _ => ?_)
    · obtain ⟨hway, hs⟩ := hs
      refine ⟨fun h => absurd h hboot, fun _ => ⟨?_, hs.flashes, hs.untouched, fun hmain hasSession => ?_,
        fun hsystem replies => ?_⟩⟩
      · have hplace := hs.place
        unfold Esp32.way at hway hstart
        rw [hs.flashes, List.length_nil] at hway
        omega
      · exact wp_mono (appMain_ends hasSession hs hmain) (fun _ _ h => h) (fun _ _ h => h.1)
      · exact wp_mono (updaterTask_ends replies hs hsystem) (fun _ _ h => h) (fun _ _ h => h.1)
    · exact ⟨hs.2.1, hs.2.2.flashes, hs.2.2.untouched⟩

end Esp32Ota

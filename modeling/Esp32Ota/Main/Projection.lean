import Esp32Ota.IapHttps.History
import Esp32Ota.Main.Connected

-- The updater inside the application is the updater among arbitrary callers: the station
-- answers its waits, and `app_main` is one of the callers.
namespace Esp32Ota

open CLib Halting

-- `wifi_sta_init` gets as far as its event group.
structure Boot.Configures (boot : Boot) : Prop where
  fits : Station.boot.Fits boot.settings.wifiNetworkSsid boot.settings.wifiNetworkPassword
  accepted : callsResult (Station.boot.configureCalls boot.settings.wifiNetworkSsid
    boot.settings.wifiNetworkPassword boot.station) = ESP_OK
  created : boot.station.eventGroupCreate = true

def MainPoint.booting : MainPoint → Bool
  | .initWifi | .startWifi | .initOta => true
  | _ => false

section Boots

variable {boot : Boot} {s : Esp32}

-- The updater is made once, at the end of the start.
structure Boots (s t : Esp32) : Prop where
  running : s.main.booting = false → t.main.booting = false
  made : s.updater = none → t.updater = none ∨ t.main.booting = false

theorem onUpdater_boots (x : SystemM Unit) :
    wp (onUpdater x) (fun _ t => t.main = s.main ∧ Boots s t) (fun _ t => Boots s t) s := by
  cases h : s.updater with
  | none => exact (wp_onUpdater_none h).mpr ⟨rfl, id, fun _ => .inl h⟩
  | some system =>
      refine wp_onUpdater_of_forall (fun _ => ⟨rfl, id, fun hnone => ?_⟩) (fun _ _ => ⟨id, fun hnone => ?_⟩)
      · rw [h] at hnone
        cases hnone
      · rw [h] at hnone
        cases hnone

theorem Boots.of_frame {t : Esp32} (h : ByEventTask s t) : Boots s t :=
  ⟨fun hrunning => by rw [h.main, hrunning], fun hnone => .inl (by rw [h.updater, hnone])⟩

theorem appMain_boots (hasSession : Bool) :
    wp (appMain boot hasSession) (fun _ t => Boots s t) (fun _ t => Boots s t) s := by
  have hloops : ∀ {t : Esp32}, t.main.booting = false → Boots s t := fun ht => ⟨fun _ => ht, fun _ => .inr ht⟩
  have hboots : ∀ {t : Esp32}, s.main.booting = true → t.updater = s.updater → Boots s t := by
    intro t hbooting hupdater
    refine ⟨fun hrunning => ?_, fun hnone => .inl (hupdater.trans hnone)⟩
    rw [hbooting] at hrunning
    cases hrunning
  unfold appMain
  rw [wp_bind, wp_get]
  cases hmain : s.main with
  | initWifi =>
      rw [hmain] at hboots
      simp only [onStation, wp_bind, wp_zoom, wp_modify]
      exact wp_of_forall (fun _ _ => hboots rfl rfl) (fun _ _ => hboots rfl rfl)
  | startWifi =>
      rw [hmain] at hboots
      exact hboots rfl rfl
  | initOta => exact hloops rfl
  | checkNow =>
      rw [wp_bind]
      refine wp_mono (onUpdater_boots _) (fun _ t _ => hloops ?_) (fun _ _ ht => ht)
      show MainPoint.booting (if s.checkRequested then .isConnected else .checkNowSets) = false
      split <;> rfl
  | checkNowSets =>
      rw [wp_bind]
      exact wp_mono (onUpdater_boots _) (fun _ t _ => hloops rfl) (fun _ _ ht => ht)
  | isConnected =>
      simp only [onStation, wp_bind, wp_zoom, wp_modify]
      exact wp_of_forall (fun _ _ => hloops rfl) (fun _ _ => hloops (by rw [hmain]; rfl))
  | updateInProgress nofFlashes => exact hloops rfl
  | flash nofFlashes => exact hloops rfl

theorem Esp32Step.boots (step : Esp32Step) :
    wp (step.run boot) (fun _ t => Boots s t) (fun _ t => Boots s t) s := by
  have hupdater : ∀ x, wp (onUpdater x) (fun _ t => Boots s t) (fun _ t => Boots s t) s :=
    fun x => wp_mono (onUpdater_boots x) (fun _ _ ht => ht.2) (fun _ _ ht => ht)
  cases step with
  | main hasSession => exact appMain_boots hasSession
  | event e => exact wp_mono (appEventHandler_frame e) (fun _ _ ht => .of_frame ht) (fun _ _ hfalse => hfalse.elim)
  | handler connect => exact wp_weaken (handlerGoesOn_frame connect) fun _ ht => .of_frame ht
  | task replies => exact wp_updaterTask (hupdater _) fun _ => ⟨id, .inl⟩
  | timerExpires => exact hupdater _
  | undeletedTimerExpires => exact hupdater _

-- The start is not made again.
theorem run_running (boot : Boot) (steps : List Esp32Step) (h : s.main.booting = false) :
    wp (run (Esp32Step.run boot) steps) (fun _ t => t.main.booting = false) (fun _ t => t.main.booting = false) s :=
  run_invariant (Esp32Step.run boot) (I := fun t => t.main.booting = false) (P := fun _ _ => True)
    (fun step t ht _ => wp_weaken (step.boots (s := t)) fun _ hu => hu.running ht) steps s h (along_true _ _ _)

end Boots

-- The step of the updater that a step of the application makes.
def Esp32Step.systemStep (s : Esp32) : Esp32Step → Option SystemStep
  | .main _ =>
    match s.main with
    | .checkNow => some .checkNow
    | .checkNowSets => some .checkNowSets
    | _ => none
  | .event _ => none
  | .handler _ => none
  | .task replies =>
    if s.updater.isSome then some (.task { replies with wifiConnected := s.connected }) else none
  | .timerExpires => if s.updater.isSome then some .timerExpires else none
  | .undeletedTimerExpires => if s.updater.isSome then some .undeletedTimerExpires else none

def systemSteps (boot : Boot) : List Esp32Step → Esp32 → List SystemStep :=
  matchingSteps (Esp32Step.run boot) fun s step => step.systemStep s

-- `u` is the updater of the application, or the one that it is about to make.
structure Embeds (boot : Boot) (s : Esp32) (u : System) : Prop where
  waiting : s.main = .initWifi → s.station = Station.boot ∧ s.handler = .waiting
  group : s.main ≠ .initWifi → s.station.eventGroup.isSome = true
  booting : s.main.booting = true → s.updater = none ∧ u = boot.system
  running : s.main.booting = false → s.updater = some u

section Steps

variable {boot : Boot} {s : Esp32} {u : System}

theorem Embeds.group_of_updater {system : System} (h : Embeds boot s u) (hsystem : s.updater = some system) :
    system = u ∧ s.station.eventGroup.isSome = true := by
  cases hbooting : s.main.booting with
  | true => rw [(h.booting hbooting).1] at hsystem; cases hsystem
  | false =>
      rw [h.running hbooting, Option.some.injEq] at hsystem
      refine ⟨hsystem.symm, h.group fun hmain => ?_⟩
      rw [hmain] at hbooting
      cases hbooting

-- Where the application runs, its place may change.
theorem Embeds.goes (h : Embeds boot s u) (hrunning : s.main.booting = false) {main : MainPoint}
    (hmain : main.booting = false) : Embeds boot { s with main } u := by
  have hnot : ∀ point : MainPoint, point.booting = false → point ≠ .initWifi := fun point hpoint hinit => by
    rw [hinit] at hpoint
    cases hpoint
  refine ⟨fun hinit => absurd hinit (hnot main hmain), fun _ => h.group (hnot _ hrunning), fun hbooting => ?_,
    fun _ => h.running hrunning⟩
  rw [hmain] at hbooting
  cases hbooting

theorem Embeds.runs {system : System} (h : Embeds boot s u) (hsystem : s.updater = some system) (v : System) :
    s.main.booting = false ∧ Embeds boot { s with updater := some v } v := by
  cases hbooting : s.main.booting with
  | true => rw [(h.booting hbooting).1] at hsystem; cases hsystem
  | false =>
      refine ⟨rfl, h.waiting, h.group, fun hb => ?_, fun _ => rfl⟩
      rw [hbooting] at hb
      cases hb

-- The updater makes a step, and the rest of the application stays.
theorem onUpdater_makes (wait : Halt) (x : SystemM Unit) (h : Embeds boot s u) (hsystem : s.updater = some u) :
    wp (onUpdater x)
      (fun _ t => t.main = s.main ∧
        wp x (fun _ v => Embeds boot t v ∧ ¬False) (fun e v => e = wait ∧ Embeds boot t v ∧ False) u)
      (fun e t => wp x (fun _ _ => False) (fun e' v => e' = e ∧ Embeds boot t v) u) s := by
  rw [wp_onUpdater_some hsystem]
  refine wp_of_runs (fun _ v hv => ?_) (fun e v hv => ?_)
  · refine ⟨rfl, ?_⟩
    simp only [wp, hv]
    exact ⟨(h.runs hsystem v).2, not_false⟩
  · simp only [wp, hv]
    exact ⟨trivial, (h.runs hsystem v).2⟩

-- The event group stays, and no operation of the handler misses it.
theorem wifiStaHandlerStep_group (connect : EspErr) (point : HandlerPoint) {t : Station}
    (hgroup : t.eventGroup.isSome = true) :
    wp (wifiStaHandlerStep connect point) (fun _ v => v.eventGroup.isSome = true) (fun _ _ => False) t := by
  obtain ⟨connected, hconnected⟩ := Option.isSome_iff_exists.mp hgroup
  cases point with
  | waiting => exact hgroup
  | isConnected c =>
      simp only [wifiStaHandlerStep, wifiStaIsConnected, wp_bind, wp_get, hconnected, wp_pure, wp_ite]
      exact ⟨fun _ => rfl, fun _ => rfl⟩
  | setConnected c =>
      simp only [wifiStaHandlerStep, setConnectedFlag, wp_bind, wp_get, hconnected, wp_modify, wp_pure]
      rfl
  | wifiConnect => exact hgroup

theorem handlerGoesOn_embeds (connect : EspErr) (h : Embeds boot s u) :
    wp (handlerGoesOn connect) (fun _ t => Embeds boot t u) (fun _ _ => False) s := by
  simp only [handlerGoesOn, onStation, wp_bind, wp_get, wp_zoom, wp_modify]
  by_cases hmain : s.main = .initWifi
  · obtain ⟨hstation, hhandler⟩ := h.waiting hmain
    rw [hhandler]
    exact ⟨fun _ => ⟨hstation, rfl⟩, fun hne => absurd hmain hne, h.booting, h.running⟩
  · apply wp_mono (wifiStaHandlerStep_group connect s.handler (h.group hmain))
    · exact fun _ station hgroup => ⟨fun hinit => absurd hinit hmain, fun _ => hgroup, h.booting, h.running⟩
    · exact fun _ _ hfalse => hfalse

theorem appEventHandler_embeds (event : SystemEvent) (h : Embeds boot s u) :
    wp (appEventHandler event) (fun _ t => Embeds boot t u) (fun _ _ => False) s := by
  simp only [appEventHandler, wp_modify]
  by_cases hready : s.station.started ∧ s.handler = .waiting
  · rw [if_pos hready]
    refine ⟨fun hmain => ?_, h.group, h.booting, h.running⟩
    rw [(h.waiting hmain).1] at hready
    exact absurd hready.1 (by decide)
  · rw [if_neg hready]
    exact h

theorem appMain_embeds (hboot : boot.Configures) (hasSession : Bool)
    (hstep : (Esp32Step.main hasSession).systemStep s = none) (h : Embeds boot s u) :
    wp (appMain boot hasSession) (fun _ t => Embeds boot t u) (fun _ _ => False) s := by
  simp only [Esp32Step.systemStep] at hstep
  have hgoes : ∀ main : MainPoint, s.main.booting = false → main.booting = false →
      Embeds boot { s with main } u := fun _ hrunning hmain => h.goes hrunning hmain
  unfold appMain
  rw [wp_bind, wp_get]
  cases hmain : s.main with
  | initWifi =>
      obtain ⟨hstation, -⟩ := h.waiting hmain
      obtain ⟨hnone, hu⟩ := h.booting (by rw [hmain]; rfl)
      obtain ⟨hfits, haccepted, hcreated⟩ := hboot
      simp only [onStation, wp_bind, wp_zoom, hstation, wp_modify]
      apply wp_mono (wifiStaConfigure_makes hfits)
      · intro result station hpost
        obtain ⟨⟨-, hresult⟩, -, hok⟩ := hpost
        have hgroup := (hok (hresult.trans haccepted)).2
        rw [hresult, haccepted, if_pos rfl]
        refine ⟨fun hinit => (by cases hinit), fun _ => ?_, fun _ => ⟨hnone, hu⟩, fun hrunning => (by cases hrunning)⟩
        rw [hgroup, hcreated]
        rfl
      · exact fun _ _ hfalse => hfalse
  | startWifi =>
      have hgroup := h.group (by simp [hmain])
      have hbooting := h.booting (by rw [hmain]; rfl)
      exact ⟨fun hinit => (by cases hinit), fun _ => hgroup, fun _ => hbooting, fun hrunning => (by cases hrunning)⟩
  | initOta =>
      have hgroup := h.group (by simp [hmain])
      obtain ⟨-, rfl⟩ := h.booting (by rw [hmain]; rfl)
      exact ⟨fun hinit => (by cases hinit), fun _ => hgroup, fun hbooting => (by cases hbooting), fun _ => rfl⟩
  | checkNow => simp [hmain] at hstep
  | checkNowSets => simp [hmain] at hstep
  | isConnected =>
      obtain ⟨connected, hconnected⟩ := Option.isSome_iff_exists.mp (h.group (by simp [hmain]))
      simp only [onStation, wp_bind, wp_zoom, wifiStaIsConnected, wp_get, hconnected, wp_pure, wp_modify]
      exact hgoes _ (by rw [hmain]; rfl) rfl
  | updateInProgress nofFlashes => exact hgoes _ (by rw [hmain]; rfl) rfl
  | flash nofFlashes =>
      have hgone := hgoes .isConnected (by rw [hmain]; rfl) rfl
      exact ⟨hgone.waiting, hgone.group, hgone.booting, hgone.running⟩

-- Without a step of the updater the application stays where it embeds it.
theorem esp32_quiet (hboot : boot.Configures) (step : Esp32Step) (hstep : step.systemStep s = none)
    (h : Embeds boot s u) :
    wp (step.run boot) (fun _ t => Embeds boot t u) (fun _ _ => False) s := by
  have hnone : ∀ {call : SystemStep}, (if s.updater.isSome then some call else none) = none → s.updater = none := by
    intro call hcall
    cases hsystem : s.updater with
    | none => rfl
    | some system => simp [hsystem] at hcall
  cases step with
  | main hasSession => exact appMain_embeds hboot hasSession hstep h
  | event event => exact appEventHandler_embeds event h
  | handler connect => exact handlerGoesOn_embeds connect h
  | task replies =>
      have hsystem := hnone hstep
      simp only [Esp32Step.run, updaterTask, wp_bind, wp_get, wp_ite, hsystem]
      exact ⟨fun hany => (by cases hany), fun _ => (wp_onUpdater_none hsystem).mpr h⟩
  | timerExpires => exact (wp_onUpdater_none (hnone hstep)).mpr h
  | undeletedTimerExpires => exact (wp_onUpdater_none (hnone hstep)).mpr h

-- The others are steps of the updater.
theorem esp32_makes (step : Esp32Step) {call : SystemStep} (hstep : step.systemStep s = some call)
    (h : Embeds boot s u) :
    wp (step.run boot)
      (fun _ t => wp call.run (fun _ v => Embeds boot t v ∧ ¬False)
        (fun e v => e = .blocked ∧ Embeds boot t v ∧ False) u)
      (fun e t => wp call.run (fun _ _ => False) (fun e' v => e' = e ∧ Embeds boot t v) u) s := by
  have hcalls : ∀ x : SystemM Unit, s.updater = some u →
      wp (onUpdater x)
        (fun _ t => wp x (fun _ v => Embeds boot t v ∧ ¬False) (fun e v => e = .blocked ∧ Embeds boot t v ∧ False) u)
        (fun e t => wp x (fun _ _ => False) (fun e' v => e' = e ∧ Embeds boot t v) u) s := fun x hsystem =>
    wp_mono (onUpdater_makes .blocked x h hsystem) (fun _ _ ht => ht.2) (fun _ _ ht => ht)
  cases step with
  | main hasSession =>
      simp only [Esp32Step.systemStep] at hstep
      simp only [Esp32Step.run, appMain, wp_bind, wp_get]
      cases hmain : s.main with
      | checkNow =>
          rw [hmain] at hstep
          cases hstep
          have hrunning : s.main.booting = false := by rw [hmain]; rfl
          rw [wp_bind]
          refine wp_mono (onUpdater_makes .blocked _ h (h.running hrunning)) (fun _ t ht => ?_)
            (fun _ _ ht => ht)
          obtain ⟨hsame, hx⟩ := ht
          rw [wp_modify]
          refine wp_mono hx (fun _ v hv => ⟨hv.1.goes (by rw [hsame, hrunning]) ?_, hv.2⟩) (fun _ _ hv => hv.2.2.elim)
          split <;> rfl
      | checkNowSets =>
          rw [hmain] at hstep
          cases hstep
          have hrunning : s.main.booting = false := by rw [hmain]; rfl
          rw [wp_bind]
          refine wp_mono (onUpdater_makes .blocked _ h (h.running hrunning)) (fun _ t ht => ?_)
            (fun _ _ ht => ht)
          obtain ⟨hsame, hx⟩ := ht
          rw [wp_modify]
          exact wp_mono hx (fun _ v hv => ⟨hv.1.goes (by rw [hsame, hrunning]) rfl, hv.2⟩) (fun _ _ hv => hv.2.2.elim)
      | _ => simp [hmain] at hstep
  | event e => cases hstep
  | handler connect => cases hstep
  | task replies =>
      simp only [Esp32Step.systemStep] at hstep
      cases hsystem : s.updater with
      | none => simp [hsystem] at hstep
      | some system =>
          obtain ⟨rfl, hgroup⟩ := h.group_of_updater hsystem
          rw [hsystem, Option.isSome_some, if_pos rfl, Option.some.injEq] at hstep
          subst hstep
          simp only [Esp32Step.run, updaterTask, wp_bind, wp_get, wp_ite]
          refine ⟨fun _ => ?_, fun _ => hcalls _ hsystem⟩
          obtain ⟨connected, hconnected⟩ := Option.isSome_iff_exists.mp hgroup
          simp only [onStation, wp_zoom, wifiStaIsConnected, wp_bind, wp_get, hconnected, wp_pure]
          exact hcalls _ hsystem
  | timerExpires =>
      simp only [Esp32Step.systemStep] at hstep
      cases hsystem : s.updater with
      | none => simp [hsystem] at hstep
      | some system =>
          obtain ⟨rfl, -⟩ := h.group_of_updater hsystem
          rw [hsystem, Option.isSome_some, if_pos rfl, Option.some.injEq] at hstep
          subst hstep
          exact hcalls _ hsystem
  | undeletedTimerExpires =>
      simp only [Esp32Step.systemStep] at hstep
      cases hsystem : s.updater with
      | none => simp [hsystem] at hstep
      | some system =>
          obtain ⟨rfl, -⟩ := h.group_of_updater hsystem
          rw [hsystem, Option.isSome_some, if_pos rfl, Option.some.injEq] at hstep
          subst hstep
          exact hcalls _ hsystem

-- Nothing holds up the application.
theorem esp32_matching (hboot : boot.Configures) :
    Matching (Esp32Step.run boot) SystemStep.run (fun s step => step.systemStep s) (Embeds boot) (fun _ => False)
      .blocked where
  quiet step _ _ hstep h := wp_mono (esp32_quiet hboot step hstep h) (fun _ _ ht => ⟨ht, id⟩) (fun _ _ ht => ht)
  makes step _ _ _ hstep h := esp32_makes step hstep h
  held _ _ hs := hs.elim

theorem embeds_powerOn (boot : Boot) : Embeds boot Esp32.powerOn boot.system :=
  ⟨fun _ => ⟨rfl, rfl⟩, fun hne => absurd rfl hne, fun _ => ⟨rfl, rfl⟩, fun hrunning => (by cases hrunning)⟩

-- An updater in reach of power-on is one that its own steps have made.
theorem embeds_of_run (hboot : boot.Configures) {steps : List Esp32Step}
    (hrun : run (Esp32Step.run boot) steps Esp32.powerOn = .ok ⟨⟩ s) (hu : s.updater = some u) :
    Embeds boot s u ∧ s.main.booting = false ∧
      run SystemStep.run (systemSteps boot steps Esp32.powerOn) boot.system = .ok ⟨⟩ u := by
  obtain ⟨v, hsystem, hembeds⟩ := wp_ok (x := run (Esp32Step.run boot) steps)
    ((esp32_matching hboot).run_simulates steps (embeds_powerOn boot)) hrun
  obtain ⟨rfl, -⟩ := hembeds.group_of_updater hu
  exact ⟨hembeds, (hembeds.runs hu u).1, hsystem⟩

-- From there on it stays, and goes on by its own steps.
theorem Embeds.run_updater (hboot : boot.Configures) (h : Embeds boot s u) (hrunning : s.main.booting = false)
    (steps : List Esp32Step) :
    (∀ t, run (Esp32Step.run boot) steps s = .ok ⟨⟩ t →
      ∃ v, t.updater = some v ∧ run SystemStep.run (systemSteps boot steps s) u = .ok ⟨⟩ v) ∧
    ∀ e t, run (Esp32Step.run boot) steps s = .error e t →
      ∃ v, t.updater = some v ∧ run SystemStep.run (systemSteps boot steps s) u = .error e v := by
  have hsimulates := (esp32_matching hboot).run_simulates steps h
  have hstays := run_running boot steps hrunning
  constructor
  · intro t ht
    obtain ⟨v, hsystem, hembeds⟩ := wp_ok (x := run (Esp32Step.run boot) steps) hsimulates ht
    exact ⟨v, hembeds.running (wp_ok (x := run (Esp32Step.run boot) steps) hstays ht), hsystem⟩
  · intro e t ht
    obtain ⟨v, hsystem, hembeds⟩ := wp_error (x := run (Esp32Step.run boot) steps) hsimulates ht
    exact ⟨v, hembeds.running (wp_error (x := run (Esp32Step.run boot) steps) hstays ht), hsystem⟩

end Steps

-- Every run of the application, with its events, its main loop and its timers, does to the
-- updater what a run of the updater with its callers does, and ends as that one ends.
theorem esp32_refines_system (boot : Boot) (hboot : boot.Configures) (steps : List Esp32Step) :
    (∀ t, run (Esp32Step.run boot) steps Esp32.powerOn = .ok ⟨⟩ t →
      ∃ v, run SystemStep.run (systemSteps boot steps Esp32.powerOn) boot.system = .ok ⟨⟩ v ∧ Embeds boot t v) ∧
    ∀ e t, run (Esp32Step.run boot) steps Esp32.powerOn = .error e t →
      ∃ v, run SystemStep.run (systemSteps boot steps Esp32.powerOn) boot.system = .error e v ∧ Embeds boot t v := by
  have hsimulates := (esp32_matching hboot).run_simulates steps (embeds_powerOn boot)
  exact ⟨fun _ hrun => wp_ok (x := run (Esp32Step.run boot) steps) hsimulates hrun,
    fun _ _ hrun => wp_error (x := run (Esp32Step.run boot) steps) hsimulates hrun⟩

-- The settings of main.h, on a device where every call succeeds.
def exampleBoot : Boot where
  settings := .mainH
  station := ⟨ESP_OK, ESP_OK, ESP_OK, ESP_OK, true, ESP_OK⟩
  partition := ⟨"factory", 0x10000⟩
  metadataBuffer := some fun _ => 0
  firmwareBuffer := some fun _ => 0
  timer := ⟨true, true, true, true⟩

theorem exampleBoot_configures : exampleBoot.Configures := ⟨⟨by decide, by decide⟩, by decide, rfl⟩

-- `app_main` up to its loop, and the station up to its address.
def exampleStart : List Esp32Step :=
  [.main false, .main false, .main false, .main false, .main false, .event .staStart, .handler ESP_OK,
    .event .staConnected, .event .staGotIp, .handler ESP_OK, .handler ESP_OK]

-- The call of `app_main` reaches the updater in two operations.
theorem exampleStart_refines :
    ∃ t v, run (Esp32Step.run exampleBoot) exampleStart Esp32.powerOn = .ok ⟨⟩ t ∧
      systemSteps exampleBoot exampleStart Esp32.powerOn = [.checkNow, .checkNowSets] ∧
      run SystemStep.run (systemSteps exampleBoot exampleStart Esp32.powerOn) exampleBoot.system = .ok ⟨⟩ v ∧
      Embeds exampleBoot t v := by
  obtain ⟨_, t, hrun, -⟩ := exists_ok_of_wp (x := run (Esp32Step.run exampleBoot) exampleStart)
    (s := Esp32.powerOn) (Q := fun _ t => t.connected = true) (by decide +kernel)
  obtain ⟨v, hsystem, hembeds⟩ := (esp32_refines_system exampleBoot exampleBoot_configures exampleStart).1 t hrun
  exact ⟨t, v, hrun, rfl, hsystem, hembeds⟩

end Esp32Ota

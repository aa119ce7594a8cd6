import Esp32Ota.IapHttps.Setup
import Esp32Ota.Main.Projection

-- What every step of the updater keeps is kept by the application, and so is its setup.
namespace Esp32Ota

open CLib Halting

section Invariant

-- There is no updater yet, or one of which `I` holds.
def UpdaterKeeps (I : System → Prop) (s : Esp32) : Prop := ∀ system ∈ s.updater, I system

variable {I : System → Prop} {boot : Boot} {s : Esp32}

theorem UpdaterKeeps.of_updater {t : Esp32} (hs : UpdaterKeeps I s) (h : t.updater = s.updater) : UpdaterKeeps I t := by
  rwa [UpdaterKeeps, h]

theorem wp_onUpdater_keeps {x : SystemM Unit}
    (hx : ∀ system, s.updater = some system → I system → wp x (fun _ => I) (fun _ => I) system)
    (hs : UpdaterKeeps I s) :
    wp (onUpdater x) (fun _ t => UpdaterKeeps I t) (fun _ t => UpdaterKeeps I t) s := by
  cases h : s.updater with
  | none => exact (wp_onUpdater_none h).mpr hs
  | some system =>
      have hsome : ∀ t, I t → UpdaterKeeps I { s with updater := some t } := fun t ht other hother => by
        cases hother
        exact ht
      rw [wp_onUpdater_some h]
      exact wp_mono (hx system h (hs system h)) (fun _ => hsome) (fun _ => hsome)

-- A step of the application makes at most one of the updater.
theorem Esp32Step.keeps_updater (step : Esp32Step)
    (hstep : ∀ call system, step.systemStep s = some call → s.updater = some system → I system →
      wp call.run (fun _ => I) (fun _ => I) system)
    (hstart : s.main = .initOta → I boot.system) (hs : UpdaterKeeps I s) :
    wp (step.run boot) (fun _ t => UpdaterKeeps I t) (fun _ t => UpdaterKeeps I t) s := by
  have hupdater : ∀ call : SystemStep, (∀ system, s.updater = some system → step.systemStep s = some call) →
      wp (onUpdater call.run) (fun _ t => UpdaterKeeps I t) (fun _ t => UpdaterKeeps I t) s :=
    fun call hcall => wp_onUpdater_keeps (fun system hsystem => hstep call system (hcall system hsystem) hsystem) hs
  have hstation : ∀ {α : Type} (x : StationM α),
      wp (onStation x) (fun _ t => UpdaterKeeps I t) (fun _ t => UpdaterKeeps I t) s := fun x => by
    rw [onStation, wp_zoom]
    exact wp_of_forall (fun _ _ => hs) (fun _ _ => hs)
  cases step with
  | main hasSession =>
      simp only [Esp32Step.run, appMain, wp_bind, wp_get]
      cases hmain : s.main with
      | initWifi =>
          rw [wp_bind]
          exact hstation _
      | startWifi => exact hs
      | initOta =>
          intro system hsystem
          cases hsystem
          exact hstart hmain
      | checkNow =>
          rw [wp_bind]
          exact hupdater .checkNow fun _ _ => by simp only [Esp32Step.systemStep, hmain]
      | checkNowSets =>
          rw [wp_bind]
          exact hupdater .checkNowSets fun _ _ => by simp only [Esp32Step.systemStep, hmain]
      | isConnected =>
          rw [wp_bind]
          exact hstation _
      | updateInProgress _ => exact hs
      | flash _ => exact hs
  | event e =>
      exact wp_mono (appEventHandler_frame e) (fun _ _ ht => hs.of_updater ht.updater) (fun _ _ hfalse => hfalse.elim)
  | handler connect => exact wp_weaken (handlerGoesOn_frame connect) fun _ ht => hs.of_updater ht.updater
  | task replies =>
      refine wp_updaterTask (hupdater (.task { replies with wifiConnected := s.connected }) fun _ hsystem => ?_)
        fun _ => hs
      simp only [Esp32Step.systemStep, hsystem, Option.isSome_some, ite_true]
  | timerExpires =>
      exact hupdater .timerExpires fun _ hsystem => by
        simp only [Esp32Step.systemStep, hsystem, Option.isSome_some, ite_true]
  | undeletedTimerExpires =>
      exact hupdater .undeletedTimerExpires fun _ hsystem => by
        simp only [Esp32Step.systemStep, hsystem, Option.isSome_some, ite_true]

-- In every run of the application, whatever its callers and its events do.
theorem updater_invariant
    (hstep : ∀ (step : SystemStep) system, I system → wp step.run (fun _ => I) (fun _ => I) system)
    (hstart : I boot.system) (steps : List Esp32Step) :
    wp (run (Esp32Step.run boot) steps) (fun _ t => UpdaterKeeps I t) (fun _ t => UpdaterKeeps I t) Esp32.powerOn :=
  run_invariant (Esp32Step.run boot) (J := fun _ t => UpdaterKeeps I t)
    (fun step _ hs _ => step.keeps_updater (fun call system _ _ => hstep call system) (fun _ => hstart) hs) steps
    Esp32.powerOn (fun _ h => by cases h) (along_true _ _ _)

end Invariant

-- `init_ota` has set up the rest, and the path is a string inside its array.
structure SetupKept (boot : Boot) (app : App) : Prop where
  config : ∃ pollingIntervalS serverFirmwarePath,
    app.config = { otaConfig boot.settings with pollingIntervalS, serverFirmwarePath }
  path : PathArray app.config.serverFirmwarePath
  metadataBuffer : app.metadataBuffer = boot.metadataBuffer.map fun stale => staleBlock stale 512
  firmwareBuffer : app.firmwareBuffer = boot.firmwareBuffer.map fun stale => staleBlock stale 4096

-- The documents of the server never reach beyond the interval and the path of the firmware, the
-- path stays a string inside its array, and the requests keep the buffers that they were given.
theorem setup_kept (boot : Boot) (steps : List Esp32Step) :
    wp (run (Esp32Step.run boot) steps) (fun _ t => ∀ system ∈ t.updater, SetupKept boot system.updater.client.app)
      (fun _ t => ∀ system ∈ t.updater, SetupKept boot system.updater.client.app) Esp32.powerOn := by
  have hkeeps := updater_invariant
    (I := fun system => SameSetup boot.system.updater.client.app system.updater.client.app)
    (fun step system hsystem => wp_weaken (step.setup system) fun _ h => hsystem.trans h) (SameSetup.refl _) steps
  have harray : PathArray (otaConfig boot.settings).serverFirmwarePath :=
    ⟨List.length_replicate, List.mem_replicate.mpr ⟨by decide, rfl⟩⟩
  refine wp_weaken hkeeps fun t ht system hsystem => ?_
  have hsetup := ht system hsystem
  exact ⟨hsetup.config, hsetup.path harray, hsetup.metadataBuffer, hsetup.firmwareBuffer⟩

end Esp32Ota

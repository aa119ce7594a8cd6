import Esp32Ota.IapHttps.Impostor
import Esp32Ota.Main.Setup

-- The application among servers that are never accepted.
namespace Esp32Ota

open CLib Halting

def Esp32Step.Rejects (s : Esp32) (step : Esp32Step) : Prop :=
  ∀ call u, step.systemStep s = some call → s.updater = some u → call.Rejects u

section Steps

variable {boot : Boot} {s : Esp32}

-- There is no updater before the start is over.
def Made (s : Esp32) : Prop := s.updater = none ∨ s.main.booting = false

theorem Boots.made_after {t : Esp32} (h : Boots s t) (hs : Made s) : Made t :=
  hs.elim h.made fun hs => .inr (h.running hs)

theorem made_of_run (boot : Boot) (steps : List Esp32Step) {s : Esp32}
    (h : run (Esp32Step.run boot) steps Esp32.powerOn = .ok ⟨⟩ s) : Made s :=
  wp_ok (x := run (Esp32Step.run boot) steps) (run_invariant (Esp32Step.run boot) (P := fun _ _ => True)
    (fun step s hs _ => wp_weaken (step.boots (s := s)) fun _ ht => ht.made_after hs) steps Esp32.powerOn (.inl rfl)
    (along_true _ _ _)) h

-- What is kept from `s` on: its updater is there for good, or is the one that `iap_https_init` makes.
theorem run_keptOut {start : System} (hstart : s.main.booting = false ∨ start = boot.system)
    (hs : UpdaterKeeps (KeptOut start) s) (steps : List Esp32Step)
    (h : Along (Esp32Step.run boot) Esp32Step.Rejects steps s) :
    wp (run (Esp32Step.run boot) steps) (fun _ t => UpdaterKeeps (KeptOut start) t)
      (fun _ t => UpdaterKeeps (KeptOut start) t) s := by
  have hinit : ∀ t : Esp32, t.main.booting = false ∨ start = boot.system → t.main = .initOta →
      KeptOut start boot.system := by
    intro t ht hmain
    rcases ht with hrunning | rfl
    · rw [hmain] at hrunning
      cases hrunning
    · exact (quiet_start boot.partition (otaConfig boot.settings) boot.metadataBuffer boot.firmwareBuffer
        boot.timer).keptOut
  have hrun := run_invariant (Esp32Step.run boot)
    (I := fun t => UpdaterKeeps (KeptOut start) t ∧ (t.main.booting = false ∨ start = boot.system))
    (J := fun _ t => UpdaterKeeps (KeptOut start) t) (fun step t ht hrejects => ?_) steps s ⟨hs, hstart⟩ h
  · exact wp_mono hrun (fun _ _ ht => ht.1) (fun _ _ ht => ht)
  · have hkeeps : wp (step.run boot) (fun _ u => UpdaterKeeps (KeptOut start) u)
        (fun _ u => UpdaterKeeps (KeptOut start) u) t :=
      step.keeps_updater (fun call u hcall hsystem hu => hu.step (hrejects call u hcall hsystem)) (hinit t ht.2) ht.1
    exact wp_mono (wp_and hkeeps step.boots) (fun _ _ hboth => ⟨hboth.1, ht.2.imp_left hboth.2.running⟩)
      (fun _ _ hboth => hboth.1)

end Steps

-- The updater, or the one that is about to be made.
def Esp32.system (boot : Boot) (s : Esp32) : System := s.updater.getD boot.system

-- From any state of the application without a download on its way: as long as no check is accepted, the
-- module with its device stays as it is, no application data is exchanged, and no download gets under way.
theorem impostor_kept_out (boot : Boot) (before after : List Esp32Step) {s : Esp32}
    (hbefore : run (Esp32Step.run boot) before Esp32.powerOn = .ok ⟨⟩ s) (hquiet : ∀ u ∈ s.updater, Quiet u)
    (h : Along (Esp32Step.run boot) Esp32Step.Rejects after s) :
    (∀ t, run (Esp32Step.run boot) after s = .ok ⟨⟩ t → ∀ u ∈ t.updater, KeptOut (s.system boot) u) ∧
    ∀ e t, run (Esp32Step.run boot) after s = .error e t → ∀ u ∈ t.updater, KeptOut (s.system boot) u := by
  have hkept : wp (run (Esp32Step.run boot) after) (fun _ t => UpdaterKeeps (KeptOut (s.system boot)) t)
      (fun _ t => UpdaterKeeps (KeptOut (s.system boot)) t) s := by
    have hmade := made_of_run boot before hbefore
    cases hsystem : s.updater with
    | none =>
        refine run_keptOut (.inr (by rw [Esp32.system, hsystem, Option.getD_none])) (fun u hu => ?_) after h
        rw [hsystem] at hu
        cases hu
    | some u =>
        have hrunning : s.main.booting = false := hmade.resolve_left (by simp [hsystem])
        refine run_keptOut (.inl hrunning) (fun v hv => ?_) after h
        have hsame : u = v := Option.some.inj (hsystem.symm.trans hv)
        rw [Esp32.system, hsystem, Option.getD_some, hsame]
        exact (hquiet v hv).keptOut
  exact ⟨fun _ hok => wp_ok (x := run (Esp32Step.run boot) after) hkept hok,
    fun _ _ herror => wp_error (x := run (Esp32Step.run boot) after) hkept herror⟩

-- A server whose certificate does not verify, at the other end of every connection.
def exampleImpostor : TaskReplies :=
  ⟨true, exampleScript { exampleConnect with verifyResult := 8 } [],
    fun _ => exampleFirmwareReplies ⟨ESP_OK, ESP_OK, ESP_OK⟩, ⟨true, true, true, true⟩⟩

theorem rejects_of_exampleImpostor {step : Esp32Step} (h : ∀ replies, step = .task replies → replies = exampleImpostor)
    (s : Esp32) : step.Rejects s := by
  intro call u hcall hsystem
  cases call with
  | task replies =>
      have hverify : replies.script.connect.verifyResult = 8 := by
        cases step with
        | task answers =>
            rw [h answers rfl] at hcall
            simp only [Esp32Step.systemStep, hsystem, Option.isSome_some, ite_true, Option.some.injEq,
              SystemStep.task.injEq] at hcall
            rw [← hcall]
            rfl
        | main hasSession => cases hmain : s.main <;> simp [Esp32Step.systemStep, hmain] at hcall
        | _ => simp [Esp32Step.systemStep, hsystem] at hcall
      intro _ haccepts
      have hverified := haccepts.verified
      rw [hverify] at hverified
      cases hverified
  | _ => trivial

theorem along_exampleImpostor (boot : Boot) (steps : List Esp32Step) (s : Esp32)
    (h : ∀ step ∈ steps, ∀ replies, step = .task replies → replies = exampleImpostor) :
    Along (Esp32Step.run boot) Esp32Step.Rejects steps s :=
  along_mono (Esp32Step.run boot) (fun s _ hstep => rejects_of_exampleImpostor hstep s) steps
    (along_of_forall (Esp32Step.run boot) steps s h)

-- The station has its address, and the first check is made and rejected.
theorem kept_out_of_exampleImpostor :
    ∃ s t u, run (Esp32Step.run exampleBoot) exampleStart Esp32.powerOn = .ok ⟨⟩ s ∧
      run (Esp32Step.run exampleBoot) (List.replicate 6 (.task exampleImpostor)) s = .ok ⟨⟩ t ∧
      t.updater = some u ∧ u.point = .changePeriod ∧ KeptOut (s.system exampleBoot) u := by
  obtain ⟨_, s, hstart, hwaits, hafter⟩ := exists_ok_of_wp (x := run (Esp32Step.run exampleBoot) exampleStart)
    (s := Esp32.powerOn)
    (Q := fun _ s => s.updater.map (fun u => (u.point, u.updater.client.app.fwupDownloadImage)) =
        some (.waitForWifi, false) ∧
      wp (run (Esp32Step.run exampleBoot) (List.replicate 6 (.task exampleImpostor)))
        (fun _ t => t.updater.map System.point = some .changePeriod) (fun _ _ => False) s) (by decide +kernel)
  obtain ⟨_, t, hrun, hpoint⟩ := exists_ok_of_wp hafter
  obtain ⟨u, hu, hpoint⟩ := Option.map_eq_some_iff.mp hpoint
  have hquiet : ∀ u ∈ s.updater, Quiet u := by
    intro u hu
    rw [hu, Option.map_some, Option.some.injEq, Prod.mk.injEq] at hwaits
    exact ⟨hwaits.2, by simp [hwaits.1], by simp [hwaits.1]⟩
  have hrejects := along_exampleImpostor exampleBoot (List.replicate 6 (.task exampleImpostor)) s
    fun step hstep replies hreplies => Esp32Step.task.inj (hreplies.symm.trans (List.eq_of_mem_replicate hstep))
  exact ⟨s, t, u, hstart, hrun, hu, hpoint,
    (impostor_kept_out exampleBoot exampleStart _ hstart hquiet hrejects).1 t hrun u hu⟩

end Esp32Ota

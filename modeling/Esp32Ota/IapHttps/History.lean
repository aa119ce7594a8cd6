import Esp32Ota.HttpsClient.Related
import Esp32Ota.IapHttps.Task
import Esp32Ota.IapHttps.Session

-- What the checks and downloads of the task do is a history of updater steps, whatever
-- the timers and the callers do in between.
namespace Esp32Ota

open CLib Halting

-- The task clears the download bit between two calls; no call looks at it.
def App.UpToBit (s u : App) : Prop := ∃ fwupDownloadImage, u = { s with fwupDownloadImage }

section Callbacks

variable {s u : App}

theorem onDevice_upToBit {α : Type} (x : DeviceM α) (h : s.UpToBit u) :
    Simulates App.UpToBit (onDevice x) (onDevice x) s u := by
  obtain ⟨bit, rfl⟩ := h
  refine simulates_zoom (C := Eq) (simulates_self s.device) fun device device' hdevice => ?_
  subst hdevice
  exact ⟨bit, rfl⟩

theorem iapHttpsMetadataBodyCallback_upToBit (responseBuffer : Bytes) (n : Nat) (h : s.UpToBit u) :
    Simulates App.UpToBit (iapHttpsMetadataBodyCallback responseBuffer n)
      (iapHttpsMetadataBodyCallback responseBuffer n) s u := by
  have hinterval : Simulates App.UpToBit (iapHttpsSetPollingInterval responseBuffer)
      (iapHttpsSetPollingInterval responseBuffer) s u := by
    unfold iapHttpsSetPollingInterval
    cases httpParseKeyValueInt responseBuffer (ascii "INTERVAL=") with
    | none => exact simulates_pure h _
    | some intervalSeconds =>
        obtain ⟨bit, rfl⟩ := h
        exact simulates_modify ⟨bit, rfl⟩
  refine simulates_bind hinterval fun _ t v htv => ?_
  cases httpParseKeyValueInt responseBuffer (ascii "VERSION=") with
  | none => exact simulates_pure htv _
  | some version =>
      cases httpParseKeyValueString responseBuffer (ascii "FILE=") 256 with
      | none => exact simulates_pure htv _
      | some fileName =>
          obtain ⟨bit, rfl⟩ := htv
          refine simulates_bind (simulates_modify ⟨bit, rfl⟩) fun _ t v htv => ?_
          obtain ⟨bit, rfl⟩ := htv
          refine simulates_get (simulates_ite (fun _ => simulates_pure ⟨bit, rfl⟩ _) fun _ => ?_)
          exact simulates_bind (simulates_modify ⟨true, rfl⟩) fun _ _ _ hR => simulates_pure hR _

variable (replies : FirmwareReplies)

theorem iapHttpsStartSession_upToBit (h : s.UpToBit u) :
    Simulates App.UpToBit (iapHttpsStartSession replies) (iapHttpsStartSession replies) s u := by
  have hstarted : ∀ (result : IapErr) (x : AppM Bool) (t v : App), t.UpToBit v →
      x = (if result ≠ .ok then pure false else do
        modify fun s => { s with totalNofBytesReceived := 0, hasIapSession := true }
        pure true) →
      Simulates App.UpToBit x x t v := by
    intro result x t v htv hx
    subst hx
    refine simulates_ite (fun _ => simulates_pure htv _) fun _ => ?_
    obtain ⟨bit, rfl⟩ := htv
    exact simulates_bind (simulates_modify ⟨bit, rfl⟩) fun _ _ _ hR => simulates_pure hR _
  obtain ⟨bit, rfl⟩ := h
  refine simulates_get (simulates_ite (fun _ => simulates_pure ⟨bit, rfl⟩ _) fun _ => ?_)
  refine simulates_bind (onDevice_upToBit _ ⟨bit, rfl⟩) fun first t v htv => ?_
  refine simulates_ite (fun _ => ?_) fun _ => hstarted first _ t v htv rfl
  refine simulates_bind (onDevice_upToBit _ htv) fun _ t v htv => ?_
  exact simulates_bind (onDevice_upToBit _ htv) fun result t v htv => hstarted result _ t v htv rfl

theorem iapHttpsWriteData_upToBit (responseBuffer : Bytes) (bytesReceived : Nat) (h : s.UpToBit u) :
    Simulates App.UpToBit (iapHttpsWriteData replies responseBuffer bytesReceived)
      (iapHttpsWriteData replies responseBuffer bytesReceived) s u := by
  refine simulates_bind (onDevice_upToBit _ h) fun result t v htv => ?_
  obtain ⟨bit, rfl⟩ := htv
  refine simulates_bind (simulates_modify ⟨bit, rfl⟩) fun _ t v htv => ?_
  refine simulates_ite (fun _ => ?_) fun _ => simulates_pure htv _
  exact simulates_bind (onDevice_upToBit _ htv) fun _ _ _ hR => simulates_pure hR _

theorem iapHttpsFinishSession_upToBit (h : s.UpToBit u) :
    Simulates App.UpToBit (iapHttpsFinishSession replies) (iapHttpsFinishSession replies) s u := by
  obtain ⟨bit, rfl⟩ := h
  refine simulates_bind (simulates_modify ⟨bit, rfl⟩) fun _ t v htv => ?_
  obtain ⟨bit, rfl⟩ := htv
  refine simulates_get (simulates_ite (fun _ => ?_) fun _ => ?_)
  · refine simulates_bind (onDevice_upToBit _ ⟨bit, rfl⟩) fun _ t v htv => ?_
    obtain ⟨bit, rfl⟩ := htv
    refine simulates_bind (simulates_modify ⟨bit, rfl⟩) fun _ t v htv => ?_
    obtain ⟨bit, rfl⟩ := htv
    refine simulates_get (simulates_ite (fun _ => ?_) fun _ => simulates_pure ⟨bit, rfl⟩ _)
    exact simulates_bind (onDevice_upToBit _ ⟨bit, rfl⟩) fun _ _ _ hR => simulates_throw hR _
  · exact simulates_bind (onDevice_upToBit _ ⟨bit, rfl⟩) fun _ _ _ hR => simulates_pure hR _

theorem firmwareBodyCallback_upToBit (platform : Nat → FirmwareReplies) (responseBuffer : Bytes)
    (bytesReceived : Nat) (h : s.UpToBit u) :
    Simulates App.UpToBit (firmwareBodyCallback platform responseBuffer bytesReceived)
      (firmwareBodyCallback platform responseBuffer bytesReceived) s u := by
  obtain ⟨bit, rfl⟩ := h
  refine simulates_get (simulates_bind (simulates_set ⟨bit, rfl⟩) fun _ t v htv => ?_)
  refine simulates_bind (iapHttpsStartSession_upToBit _ htv) fun started t v htv => ?_
  refine simulates_ite (fun _ => ?_) fun _ => simulates_pure htv _
  refine simulates_ite (fun _ => ?_) fun _ => ?_
  · exact iapHttpsWriteData_upToBit _ _ _ htv
  · exact iapHttpsFinishSession_upToBit _ htv

end Callbacks

-- The same connection, and the same module up to the download bit.
abbrev Updater.Matches : Updater → Updater → Prop :=
  Conn.Related (Client.Related (fun _ _ => True) App.UpToBit)

section Calls

variable {s u : Updater}

theorem relatesEvents_true : RelatesEvents fun _ _ => True := ⟨trivial, fun _ _ _ _ => trivial⟩

theorem validated_of_callbacks {request other : HttpRequest App} {bodyCallback : BodyCallback App}
    (hbody : ∀ responseBuffer n s u, App.UpToBit s u →
      Simulates App.UpToBit (bodyCallback responseBuffer n) (bodyCallback responseBuffer n) s u)
    (hrequest : request.bodyCallback = some bodyCallback)
    (herror : request.errorCallback = some iapHttpsErrorCallback) (hother : other = request) :
    Validated App.UpToBit (httpsValidateRequest request) (httpsValidateRequest other) := by
  subst hother
  cases hvalid : httpsValidateRequest other with
  | error result => exact .refused result
  | ok valid =>
      obtain ⟨hvalidBody, hvalidError⟩ := callbacks_of_validate hvalid
      rw [hrequest, Option.some.injEq] at hvalidBody
      rw [herror, Option.some.injEq] at hvalidError
      refine .accepted ⟨rfl, rfl, rfl, rfl, fun error info s u hsu => ?_, fun responseBuffer n s u hsu => ?_⟩
      · rw [← hvalidError]
        exact simulates_pure hsu _
      · rw [← hvalidBody]
        exact hbody responseBuffer n s u hsu

theorem iapHttpsCheckForUpdate_matches (script : Script) (h : s.Matches u) :
    Simulates Updater.Matches (iapHttpsCheckForUpdate script) (iapHttpsCheckForUpdate script) s u := by
  refine simulates_bind (onTls_related _ h) fun tlsResult t v htv => ?_
  refine simulates_ite (fun _ => ?_) fun _ => simulates_pure htv _
  refine simulates_get (simulates_bind ?_ fun _ _ _ hR => simulates_pure hR _)
  refine httpsSendRequest_related relatesEvents_true ?_ script.request htv
  refine validated_of_callbacks (fun responseBuffer n _ _ hsu =>
    iapHttpsMetadataBodyCallback_upToBit responseBuffer n hsu) rfl rfl ?_
  obtain ⟨bit, hbit⟩ := htv.client.app
  rw [hbit]
  rfl

theorem iapHttpsDownloadImage_matches (platform : Nat → FirmwareReplies) (script : Script)
    (h : s.Matches u) :
    Simulates Updater.Matches (iapHttpsDownloadImage platform script) (iapHttpsDownloadImage platform script)
      s u := by
  refine simulates_bind (onTls_related _ h) fun _ t v htv => ?_
  refine simulates_bind (onClient_related htv (onApp_related htv.client ?_)) fun _ t v htv => ?_
  · obtain ⟨bit, hbit⟩ := htv.client.app
    exact simulates_modify ⟨bit, by rw [hbit]⟩
  refine simulates_get (simulates_bind ?_ fun _ _ _ hR => simulates_pure hR _)
  refine httpsSendRequest_related relatesEvents_true ?_ script.request htv
  refine validated_of_callbacks (fun responseBuffer n _ _ hsu =>
    firmwareBodyCallback_upToBit platform responseBuffer n hsu) rfl rfl ?_
  obtain ⟨bit, hbit⟩ := htv.client.app
  rw [hbit]
  rfl

end Calls

-- The server is waited for, and the task does not go on.
def TaskPoint.heldUp : TaskPoint → Bool
  | .downloadHeldUp | .checkHeldUp => true
  | _ => false

-- The check or download that a step makes where the task stands.
def SystemStep.updaterStep (point : TaskPoint) : SystemStep → Option UpdaterStep
  | .task replies =>
    match point with
    | .checkForUpdate => some (.checkForUpdate replies.script)
    | .downloadImage => some (.downloadImage replies.platform replies.script)
    | _ => none
  | _ => none

-- The checks and downloads of a run.
def updaterSteps : List SystemStep → System → List UpdaterStep :=
  matchingSteps SystemStep.run fun s step => step.updaterStep s.point

section Runs

variable {s : System} {u : Updater}

theorem Goes.heldUp {point : TaskPoint} (h : Goes s point) (hs : s.point.heldUp = true) :
    point.heldUp = true := by
  cases h with
  | stays => exact hs
  | connected h => rw [h] at hs; cases hs
  | delayed h => rw [h] at hs; cases hs
  | wakes h => rw [h] at hs; cases hs
  | download h => rw [h] at hs; cases hs
  | sleeps h => rw [h] at hs; cases hs

-- Without a check or a download the module stays, up to the download bit.
theorem systemStep_quiet (step : SystemStep) (hstep : step.updaterStep s.point = none)
    (h : s.updater.Matches u) :
    wp step.run (fun _ t => t.updater.Matches u ∧ (s.point.heldUp = true → t.point.heldUp = true))
      (fun _ _ => False) s := by
  cases step with
  | task replies =>
      have hmoved : ∀ {point next : TaskPoint}, s.point = point → point.heldUp = false →
          s.point.heldUp = true → next.heldUp = true := by
        intro point next hpoint hfree hs
        rw [hpoint, hfree] at hs
        cases hs
      apply wp_iapHttpsTask_calls replies
      · exact fun point hgoes => ⟨h, hgoes.heldUp⟩
      · exact fun bits hpoint _ => ⟨h, hmoved hpoint rfl⟩
      · exact fun hpoint => by simp [SystemStep.updaterStep, hpoint] at hstep
      · exact fun hpoint => by simp [SystemStep.updaterStep, hpoint] at hstep
      · intro hpoint
        obtain ⟨bit, hbit⟩ := h.client.app
        refine ⟨⟨h.tls, h.client.context, h.client.responseBuffer, trivial, bit, ?_⟩, hmoved hpoint rfl⟩
        rw [hbit]
      · exact fun hpoint _ _ _ => ⟨h, hmoved hpoint rfl⟩
      · exact fun hpoint => ⟨h, hmoved hpoint rfl⟩
      · exact fun hpoint => ⟨h, hmoved hpoint rfl⟩
      · exact fun hpoint => ⟨h, hmoved hpoint rfl⟩
  | timerExpires =>
      simp only [SystemStep.run, timerExpires, wp_bind, wp_get]
      split
      · exact ⟨h, id⟩
      · exact ⟨h, id⟩
  | undeletedTimerExpires =>
      simp only [SystemStep.run, undeletedTimerExpires, wp_bind, wp_get, wp_ite, wp_pure]
      exact ⟨fun _ => ⟨h, id⟩, fun _ => ⟨h, id⟩⟩
  | checkNow =>
      simp only [SystemStep.run, iapHttpsTriggerProcessing, wp_bind, wp_get, wp_ite, wp_set]
      exact ⟨fun _ => ⟨h, id⟩, fun _ => ⟨h, id⟩⟩
  | checkNowSets =>
      simp only [SystemStep.run, iapHttpsTriggerSet, wp_bind, wp_get, wp_ite, wp_set, wp_pure]
      exact ⟨fun _ => ⟨h, id⟩, fun _ => ⟨h, id⟩⟩

-- A call that waits for good leaves the task held up; the others end in the same way.
theorem callUpdater_matches (x : UpdaterM Unit) {next heldUp : TaskPoint} (hnext : ¬next.heldUp = true)
    (hheld : heldUp.heldUp = true) (hx : Simulates Updater.Matches x x s.updater u) :
    wp (callUpdater x next heldUp)
      (fun _ t => wp x (fun _ v => t.updater.Matches v ∧ ¬t.point.heldUp = true)
        (fun e v => e = .blocked ∧ t.updater.Matches v ∧ t.point.heldUp = true) u)
      (fun e t => wp x (fun _ _ => False) (fun e' v => e' = e ∧ t.updater.Matches v) u) s := by
  rw [wp_callUpdater]
  apply wp_mono hx
  · intro _ updater hpost
    obtain ⟨v, hv, hmatches⟩ := hpost
    simp only [wp, hv]
    exact ⟨hmatches, hnext⟩
  · intro e updater hpost
    obtain ⟨v, hv, hmatches⟩ := hpost
    simp only [wp, hv]
    exact ⟨fun he => ⟨he, hmatches, hheld⟩, fun _ => ⟨trivial, hmatches⟩⟩

theorem systemStep_calls (step : SystemStep) {call : UpdaterStep}
    (hstep : step.updaterStep s.point = some call) (h : s.updater.Matches u) :
    wp step.run
      (fun _ t => wp call.run (fun _ v => t.updater.Matches v ∧ ¬t.point.heldUp = true)
        (fun e v => e = .blocked ∧ t.updater.Matches v ∧ t.point.heldUp = true) u)
      (fun e t => wp call.run (fun _ _ => False) (fun e' v => e' = e ∧ t.updater.Matches v) u) s := by
  cases step with
  | task replies =>
      simp only [SystemStep.run, iapHttpsTask, wp_bind, wp_get]
      simp only [SystemStep.updaterStep] at hstep
      cases hpoint : s.point with
      | checkForUpdate =>
          rw [hpoint] at hstep
          cases hstep
          simp only [callCheckForUpdate, wp_bind, wp_get, wp_set]
          have hcleared : Updater.Matches { s.updater with client.events := [] } u :=
            ⟨h.tls, h.client.context, h.client.responseBuffer, trivial, h.client.app⟩
          exact callUpdater_matches _ (by decide) rfl (iapHttpsCheckForUpdate_matches replies.script hcleared)
      | downloadImage =>
          rw [hpoint] at hstep
          cases hstep
          exact callUpdater_matches _ (by decide) rfl
            (iapHttpsDownloadImage_matches replies.platform replies.script h)
      | _ => simp [hpoint] at hstep
  | _ => simp [SystemStep.updaterStep] at hstep

theorem updaterStep_heldUp (step : SystemStep) (hs : s.point.heldUp = true) :
    step.updaterStep s.point = none := by
  cases step with
  | task replies =>
      cases hpoint : s.point with
      | downloadHeldUp => rfl
      | checkHeldUp => rfl
      | _ => simp [hpoint, TaskPoint.heldUp] at hs
  | _ => rfl

-- A run of the system does to the module what its checks and downloads do.
theorem system_matching :
    Matching SystemStep.run UpdaterStep.run (fun s step => step.updaterStep s.point)
      (fun s u => s.updater.Matches u) (fun s => s.point.heldUp = true) .blocked where
  quiet step _ _ hstep h := systemStep_quiet step hstep h
  makes step _ _ _ hstep h := systemStep_calls step hstep h
  held step _ hs := updaterStep_heldUp step hs

theorem Updater.matches_refl (s : Updater) : s.Matches s :=
  ⟨rfl, rfl, rfl, trivial, s.client.app.fwupDownloadImage, rfl⟩

end Runs

section Start

variable (partition : Partition) (config : IapHttpsConfig) (metadataBuffer firmwareBuffer : Malloc)
  (replies : TimerReplies) (steps : List SystemStep)

theorem Updater.Matches.ready {s u : Updater} (h : s.Matches u) (hu : Ready u.client.app) :
    Ready s.client.app := by
  obtain ⟨bit, hbit⟩ := h.client.app
  rw [hbit] at hu
  exact ⟨hu.known, hu.initialized⟩

-- The device is always one that the next download can work on.
theorem ready_of_system :
    wp (run SystemStep.run steps)
      (fun _ t => ¬t.point.heldUp = true → Ready t.updater.client.app) (fun _ _ => True)
      (System.start partition config metadataBuffer firmwareBuffer replies) := by
  have hkeeps := system_matching.run_keeps (I := fun s : Updater => Ready s.client.app)
    (s := System.start partition config metadataBuffer firmwareBuffer replies)
    (fun step s hs _ => ready_step step s hs) steps (Updater.matches_refl _)
    (ready_start partition config metadataBuffer firmwareBuffer) (along_true UpdaterStep.run _ _)
  refine wp_mono hkeeps (fun _ t ht hfree => ?_) (fun _ _ _ => trivial)
  obtain ⟨u, hmatches, hready⟩ := ht hfree
  exact hmatches.ready hready

-- The module of the task is the one that its calls have made, one after the other: they have all come
-- back, or the last of them has not, or it has ended the program.
theorem system_refines_updater :
    let start := System.start partition config metadataBuffer firmwareBuffer replies
    let calls := run UpdaterStep.run (updaterSteps steps start)
      (iapHttpsInit partition config metadataBuffer firmwareBuffer)
    (∀ t, run SystemStep.run steps start = .ok ⟨⟩ t → ∃ u, t.updater.Matches u ∧
      (calls = .ok ⟨⟩ u ∨ calls = .error .blocked u ∧ t.point.heldUp = true)) ∧
    ∀ e t, run SystemStep.run steps start = .error e t → ∃ u, t.updater.Matches u ∧ calls = .error e u := by
  intro start calls
  exact system_matching.run_exits (s := start) steps
    (Updater.matches_refl (iapHttpsInit partition config metadataBuffer firmwareBuffer))

end Start

end Esp32Ota

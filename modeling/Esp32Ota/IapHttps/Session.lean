import Esp32Ota.IapHttps.Step
import Esp32Ota.Iap.Commit

-- A download attempt, from whatever the earlier ones have left behind.
namespace Esp32Ota

open CLib Halting

-- Between two attempts.
structure Ready (s : App) : Prop where
  known : Known s.device
  initialized : s.device.iapState.initialized = true

-- Between two callbacks of an attempt.
structure InAttempt (s : App) : Prop extends Ready s where
  session : s.hasIapSession = true → Session s.device

theorem Ready.of_idle {s : App} (hidle : Idle s.device) (hinit : s.device.iapState.initialized = true) :
    Ready s :=
  ⟨.inl (.inl hidle), hinit⟩

theorem Ready.of_session {s : App} (hs : Session s.device) : Ready s := ⟨.inl (.inr hs), hs.initialized⟩

theorem Ready.newAttempt {s : App} (hs : Ready s) : InAttempt s.newAttempt :=
  { hs with session := fun h => by cases h }

-- A session that was left open is aborted, and another begin opens the new one.
def FirmwareReplies.opening (replies : FirmwareReplies) (s : Device) : BeginReplies :=
  if s.iapState.sessionOpen then replies.beginAgain else replies.begin

def FirmwareReplies.leftover (replies : FirmwareReplies) (s : Device) : List Event :=
  if s.iapState.sessionOpen then [.otaEnd s.iapState.otaHandle false replies.abortOpen] else []

-- ESP-IDF accepts and activates the image.
structure CommitReplies.Succeeds (replies : CommitReplies) : Prop where
  otaEnd : replies.otaEnd = ESP_OK
  otaSetBootPartition : replies.otaSetBootPartition = ESP_OK

-- A fresh session behind the events `before`.
structure Opened (replies : BeginReplies) (boot : Partition) (before : List Event) (t : Device) : Prop where
  session : Session t
  target : ∃ partition, iapFindNextBootPartition replies.partitionFindFirst boot = some partition ∧
    t.iapState.partitionToProgram = some partition ∧
    t.trace = .otaBegin partition ESP_OK replies.otaHandle :: before
  handle : t.iapState.otaHandle = replies.otaHandle
  empty : t.accepted = []
  start : t.iapState.pageBufferIx = 0
  boot : t.bootPartition = boot

structure Unopened (replies : BeginReplies) (boot : Partition) (before : List Event) (t : Device) : Prop where
  idle : Idle t
  initialized : t.iapState.initialized = true
  failed : ¬BeginSucceeds replies boot
  trace : ∃ events, t.trace = events ++ before ∧ NoWrites events

theorem iapBegin_opens {s : Device} (hs : Idle s) (hinit : s.iapState.initialized = true)
    (replies : BeginReplies) :
    wp (iapBegin replies) (fun result t => result ≠ .sessionAlreadyOpen ∧
      (result = .ok → Opened replies s.bootPartition s.trace t) ∧
      (result ≠ .ok → Unopened replies s.bootPartition s.trace t)) (fun _ _ => False) s := by
  refine wp_mono (iapBegin_spec hs hinit replies) ?_ (fun _ _ h => h)
  intro result t ht
  obtain ⟨hbegun, hsteady⟩ := ht
  have hinit' := hsteady.initialized.trans hinit
  cases hbegun with
  | unallocated idle hresult cause trace =>
      have hunopened : Unopened replies s.bootPartition s.trace t := by
        refine ⟨idle, hinit', ?_, [], trace, by simp [NoWrites]⟩
        exact fun h => cause.elim h.malloc h.next
      rcases hresult with rfl | rfl
      · exact ⟨by decide, fun h => (by cases h), fun _ => hunopened⟩
      · exact ⟨by decide, fun h => (by cases h), fun _ => hunopened⟩
  | rejected partition idle hresult _ failed trace =>
      subst hresult
      exact ⟨by decide, fun h => (by cases h),
        fun _ => ⟨idle, hinit', fun h => failed h.otaBegin, [_], trace, by simp [NoWrites]⟩⟩
  | opened partition session hresult next _ trace boot handle target empty start =>
      subst hresult
      exact ⟨by decide,
        fun _ => ⟨session, ⟨partition, next, target, trace⟩, handle, empty, start, boot⟩,
        fun h => absurd rfl h⟩

inductive Started (replies : FirmwareReplies) (s t : App) (started : Bool) : Prop
  | running (hstarted : started = true) (has : s.hasIapSession = true) (heq : t = s)
  | opened (hstarted : started = true) (fresh : s.hasIapSession = false)
      (opened : Opened (replies.opening s.device) s.device.bootPartition
        (replies.leftover s.device ++ s.device.trace) t.device)
      (heq : t = { s with device := t.device, totalNofBytesReceived := 0, hasIapSession := true })
  | failed (hstarted : started = false) (fresh : s.hasIapSession = false)
      (unopened : Unopened (replies.opening s.device) s.device.bootPartition
        (replies.leftover s.device ++ s.device.trace) t.device)
      (heq : t = { s with device := t.device })

theorem iapHttpsStartSession_spec {s : App} (hs : Ready s) (replies : FirmwareReplies) :
    wp (iapHttpsStartSession replies) (fun started t => Started replies s t started)
      (fun _ _ => False) s := by
  simp only [iapHttpsStartSession, wp_bind, wp_get, wp_ite, wp_pure, wp_onDevice, wp_modify]
  refine ⟨fun has => .running rfl has rfl, fun hfresh => ?_⟩
  have hfresh : s.hasIapSession = false := by simpa using hfresh
  rcases or_assoc.mp hs.known with hidle | hopen
  · have hnext : replies.opening s.device = replies.begin := by simp [FirmwareReplies.opening, hidle.closed]
    have hbefore : replies.leftover s.device = [] := by simp [FirmwareReplies.leftover, hidle.closed]
    refine wp_mono (iapBegin_opens hidle hs.initialized replies.begin) ?_ (fun _ _ h => h)
    intro first t ht
    obtain ⟨hclosed, hopened, hfailed⟩ := ht
    refine ⟨fun h => absurd h hclosed, fun _ => ⟨fun h => ?_, fun h => ?_⟩⟩
    · exact .failed rfl hfresh (by rw [hnext, hbefore]; exact hfailed h) rfl
    · exact .opened rfl hfresh (by rw [hnext, hbefore]; exact hopened (not_not.mp h)) rfl
  · have hisOpen : s.device.iapState.sessionOpen = true := hopen.elim Session.isOpen Stuck.isOpen
    have hnext : replies.opening s.device = replies.beginAgain := by simp [FirmwareReplies.opening, hisOpen]
    have hbefore : replies.leftover s.device =
        [.otaEnd s.device.iapState.otaHandle false replies.abortOpen] := by
      simp [FirmwareReplies.leftover, hisOpen]
    refine wp_mono (iapBegin_open hs.initialized hisOpen replies.begin) ?_ (fun _ _ h => h)
    intro _ _ hsame
    obtain ⟨rfl, rfl⟩ := hsame
    refine ⟨fun _ => ?_, fun h => absurd rfl h⟩
    refine wp_mono (iapAbort_spec hopen replies.abortOpen) ?_ (fun _ _ h => h)
    intro _ u hu
    obtain ⟨-, hidle, hsteady, htrace, hboot⟩ := hu
    refine wp_mono (iapBegin_opens hidle (hsteady.initialized.trans hs.initialized) replies.beginAgain) ?_
      (fun _ _ h => h)
    intro result t ht
    obtain ⟨-, hopened, hfailed⟩ := ht
    rw [htrace, hboot] at hopened hfailed
    refine ⟨fun h => ?_, fun h => ?_⟩
    · exact .failed rfl hfresh (by rw [hnext, hbefore]; exact hfailed h) rfl
    · exact .opened rfl hfresh (by rw [hnext, hbefore]; exact hopened (not_not.mp h)) rfl

-- A write that fails is followed by an abort.
inductive Stored (replies : FirmwareReplies) (bytes : Bytes) (s t : App) (cr : HttpContinueReceiving) : Prop
  | continued (hcr : cr = .continueReceiving) (written : Written replies.write bytes s.device .ok t.device)
  | aborted (u : Device) (hcr : cr = .stopReceiving)
      (written : Written replies.write bytes s.device .writeFailed u) (idle : Idle t.device)
      (initialized : t.device.iapState.initialized = true)
      (trace : t.device.trace = .otaEnd u.iapState.otaHandle false replies.abort :: u.trace)

theorem iapHttpsWriteData_spec {s : App} (hs : Session s.device) (replies : FirmwareReplies)
    (responseBuffer : Bytes) (bytesReceived : Nat) :
    wp (iapHttpsWriteData replies responseBuffer bytesReceived) (fun cr t =>
      Stored replies (responseBuffer.take (uint16 bytesReceived)) s t cr ∧
      t = { s with
        device := t.device
        totalNofBytesReceived := toInt32 (s.totalNofBytesReceived + bytesReceived) })
      (fun _ _ => False) s := by
  simp only [iapHttpsWriteData, wp_bind, wp_ite, wp_pure, wp_onDevice, wp_modify]
  refine wp_mono (iapWrite_spec hs _ replies.write) ?_ (fun _ _ h => h)
  intro result u hu
  refine ⟨fun hne => ?_, fun hok => ?_⟩
  · have hfailed : result = .writeFailed := hu.outcome.elim (fun h => absurd h.1 hne) And.left
    subst hfailed
    refine wp_mono (iapAbort_spec (.inl hu.session) replies.abort) ?_ (fun _ _ h => h)
    intro _ v hv
    obtain ⟨-, hidle, hsteady, htrace, -⟩ := hv
    exact ⟨.aborted u rfl hu hidle (hsteady.initialized.trans hu.session.initialized) htrace, trivial⟩
  · rw [not_not] at hok
    subst hok
    exact ⟨.continued rfl hu, trivial⟩

theorem Committed.known {replies : CommitReplies} {s t : Device} {result : IapErr}
    (h : Committed replies s result t) : Known t := by
  obtain ⟨u, v, -, -, -, -, hfinished, rfl⟩ := h.path
  exact hfinished.known _

-- What is reported after a commit does not depend on its result.
def App.reportInstalled (s : App) (device : Device) : App :=
  { s with device, hasIapSession := false, hasNewFirmware := true }

theorem wp_iapHttpsFinishSession_commit {s : App} (replies : FirmwareReplies)
    (htotal : 0 < s.totalNofBytesReceived) (Q : HttpContinueReceiving → App → Prop) (E : Halt → App → Prop) :
    wp (iapHttpsFinishSession replies) Q E s ↔
      wp (iapCommit replies.commit) (fun _ device =>
        (s.config.autoReboot = true →
          E .restart (s.reportInstalled { device with trace := .espRestart :: device.trace })) ∧
        (s.config.autoReboot = false → Q .stopReceiving (s.reportInstalled device)))
        (fun e device => E e { s with device, hasIapSession := false }) s.device := by
  simp only [iapHttpsFinishSession, wp_bind, wp_get, wp_ite, wp_pure, wp_onDevice, wp_modify, wp_log,
    wp_throw, Bool.not_eq_true]
  exact ⟨fun h => h.1 htotal, fun h => ⟨fun _ => h, fun hnot => absurd htotal hnot⟩⟩

theorem iapHttpsFinishSession_aborts {s : App} (hs : Session s.device) (replies : FirmwareReplies)
    (htotal : ¬0 < s.totalNofBytesReceived) :
    wp (iapHttpsFinishSession replies) (fun cr t => cr = .stopReceiving ∧ Idle t.device ∧
      t.device.iapState.initialized = true ∧
      t.device.trace = .otaEnd s.device.iapState.otaHandle false replies.abort :: s.device.trace ∧
      t = { s with device := t.device, hasIapSession := false }) (fun _ _ => False) s := by
  simp only [iapHttpsFinishSession, wp_bind, wp_get, wp_ite, wp_pure, wp_onDevice, wp_modify, wp_log,
    wp_throw]
  refine ⟨fun h => absurd h htotal, fun _ => ?_⟩
  refine wp_mono (iapAbort_spec (.inl hs) replies.abort) ?_ (fun _ _ h => h)
  intro _ device hpost
  obtain ⟨-, hidle, hsteady, htrace, -⟩ := hpost
  exact ⟨trivial, hidle, hsteady.initialized.trans hs.initialized, htrace, trivial⟩

-- The invariant of the callback, whatever ESP-IDF answers.
theorem Started.inAttempt {replies : FirmwareReplies} {s t : App} {started : Bool}
    (h : Started replies s t started) (hs : InAttempt s) :
    InAttempt t ∧ (started = true → Session t.device) := by
  cases h with
  | running _ has heq =>
      subst heq
      exact ⟨hs, fun _ => hs.session has⟩
  | opened _ _ opened _ =>
      exact ⟨{ Ready.of_session opened.session with session := fun _ => opened.session },
        fun _ => opened.session⟩
  | failed hstarted fresh unopened heq =>
      have hnone : t.hasIapSession = false := by rw [heq]; exact fresh
      exact ⟨{ Ready.of_idle unopened.idle unopened.initialized with
          session := fun h => by rw [hnone] at h; cases h },
        fun h => by rw [hstarted] at h; cases h⟩

theorem iapHttpsFirmwareBodyCallback_ready {s : App} (hs : InAttempt s) (replies : FirmwareReplies)
    (responseBuffer : Bytes) (bytesReceived : Nat) :
    wp (iapHttpsFirmwareBodyCallback replies responseBuffer bytesReceived)
      (fun cr t => Ready t ∧ (cr = .continueReceiving → InAttempt t)) (fun e _ => e = .restart) s := by
  simp only [iapHttpsFirmwareBodyCallback, wp_bind, wp_ite, wp_pure]
  refine wp_mono (iapHttpsStartSession_spec hs.toReady replies) ?_ (fun _ _ h => h.elim)
  intro started t ht
  obtain ⟨ht, hsession⟩ := ht.inAttempt hs
  refine ⟨fun hstarted => ⟨fun _ => ?_, fun _ => ?_⟩, fun _ => ⟨ht.toReady, fun h => by cases h⟩⟩
  · refine wp_mono (iapHttpsWriteData_spec (hsession hstarted) replies responseBuffer bytesReceived) ?_
      (fun _ _ h => h.elim)
    intro cr u hu
    obtain ⟨hstored, -⟩ := hu
    cases hstored with
    | continued _ written =>
        exact ⟨.of_session written.session, fun _ =>
          { Ready.of_session written.session with session := fun _ => written.session }⟩
    | aborted _ hcr _ idle initialized =>
        exact ⟨.of_idle idle initialized, fun h => by rw [hcr] at h; cases h⟩
  · by_cases htotal : 0 < t.totalNofBytesReceived
    · rw [wp_iapHttpsFinishSession_commit replies htotal]
      refine wp_mono (iapCommit_spec (hsession hstarted) replies.commit) ?_ (fun _ _ h => h.elim)
      intro result device hcommitted
      exact ⟨fun _ => rfl, fun _ => ⟨⟨hcommitted.known,
        hcommitted.steady.initialized.trans ht.initialized⟩, fun h => by cases h⟩⟩
    · refine wp_mono (iapHttpsFinishSession_aborts (hsession hstarted) replies htotal) ?_
        (fun _ _ h => h.elim)
      intro cr u hu
      obtain ⟨hcr, hidle, hinit, -, -⟩ := hu
      exact ⟨.of_idle hidle hinit, fun h => by rw [hcr] at h; cases h⟩

theorem InAttempt.count {s : App} (hs : InAttempt s) (nofCallbacks : Nat) : InAttempt { s with nofCallbacks } :=
  ⟨⟨hs.known, hs.initialized⟩, hs.session⟩

theorem firmwareBodyCallback_inAttempt {s : App} (hs : InAttempt s) (platform : Nat → FirmwareReplies)
    (responseBuffer : Bytes) (bytesReceived : Nat) :
    wp (firmwareBodyCallback platform responseBuffer bytesReceived)
      (fun cr t => Ready t ∧ (cr = .continueReceiving → InAttempt t)) (fun e _ => e = .restart) s := by
  simp only [firmwareBodyCallback, wp_bind, wp_get, wp_set]
  exact iapHttpsFirmwareBodyCallback_ready (hs.count _) _ _ _

theorem firmwareBodyCallback_ready {platform : Nat → FirmwareReplies} {valid : ValidRequest App}
    (hbody : valid.bodyCallback = firmwareBodyCallback platform)
    (herror : valid.errorCallback = iapHttpsErrorCallback) :
    Handles valid InAttempt (fun _ t => Ready t.app) (fun _ _ _ => True) := by
  refine ⟨fun _ n t _ ht => ?_, fun _ t ht _ => ?_, fun _ _ _ t ht => ?_, fun _ _ ht => ht.toReady,
    fun _ _ _ _ _ => trivial⟩
  · rw [wp_invokeBodyCallback, hbody]
    exact wp_mono (firmwareBodyCallback_inAttempt ht platform _ n) (fun _ _ hu => ⟨hu.2, fun _ => hu.1⟩)
      (fun _ _ _ => trivial)
  · rw [wp_invokeBodyCallback, hbody]
    exact wp_mono (firmwareBodyCallback_inAttempt ht platform _ 0) (fun _ _ hu => hu.1)
      (fun _ _ _ => trivial)
  · rw [wp_invokeErrorCallback, herror]
    exact ht.toReady

theorem Ready.same {s t : App} (hs : Ready s) (hst : SameDevice s t) : Ready t :=
  ⟨hst.device ▸ hs.known, hst.device ▸ hs.initialized⟩

theorem ready_step (step : UpdaterStep) (s : Updater) (hs : Ready s.client.app) :
    wp step.run (fun _ t => Ready t.client.app) (fun _ _ => True) s := by
  cases step with
  | checkForUpdate script =>
      exact wp_mono (iapHttpsCheckForUpdate_same script s) (fun _ _ ht => hs.same ht) (fun _ _ _ => trivial)
  | downloadImage platform script =>
      refine wp_mono (iapHttpsDownloadImage_handled script hs.newAttempt fun valid hbody herror =>
        firmwareBodyCallback_ready hbody herror) ?_ (fun _ _ _ => trivial)
      intro _ t hpost
      rcases hpost with ⟨happ, -⟩ | ⟨_, ht, -⟩
      · exact happ ▸ hs.newAttempt.toReady
      · exact ht

theorem ready_start (partition : Partition) (config : IapHttpsConfig) (metadataBuffer firmwareBuffer : Malloc) :
    Ready (iapHttpsInit partition config metadataBuffer firmwareBuffer).client.app := by
  refine .of_idle ?_ rfl
  rw [iapHttpsInit_device]
  exact ⟨rfl, (boot_idle partition).noLeak, rfl⟩

-- Any history of checks and downloads that has come back.
theorem ready_of_run {partition : Partition} {config : IapHttpsConfig}
    {metadataBuffer firmwareBuffer : Malloc} {steps : List UpdaterStep} {s : Updater}
    (h : run UpdaterStep.run steps (iapHttpsInit partition config metadataBuffer firmwareBuffer) =
      .ok ⟨⟩ s) : Ready s.client.app := by
  have hrun := run_invariant UpdaterStep.run (I := fun s : Updater => Ready s.client.app)
    (fun step s hs _ => ready_step step s hs) steps _
    (ready_start partition config metadataBuffer firmwareBuffer) (along_true UpdaterStep.run steps _)
  exact wp_ok (Q := fun _ (t : Updater) => Ready t.client.app) hrun h

end Esp32Ota

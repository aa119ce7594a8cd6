import Esp32Ota.Lib.Trace
import Esp32Ota.IapHttps.Session

-- One attempt among others: what it writes, and what it installs.
namespace Esp32Ota

open CLib Halting Trace

-- The callbacks of a download, until one of them stops it. The one without
-- bytes marks the end of the body.
def firmwareCallbacks : List (Bytes × FirmwareReplies) → AppM Unit
  | [] => pure ()
  | (fragment, replies) :: rest => do
    let cr ← iapHttpsFirmwareBodyCallback replies fragment fragment.length
    if cr = .continueReceiving then
      firmwareCallbacks rest

def attempt (calls : List (Bytes × FirmwareReplies)) : AppM Unit := do
  modify App.newAttempt
  firmwareCallbacks calls

-- The handle is that of a session begun among the events before the write, and
-- nothing but `image` goes to it.
structure OwnWrite (image : Bytes) (handle : Nat) (payload : Bytes) (earlier : List Event) : Prop where
  begun : ∃ writes partition before, earlier = writes ++ .otaBegin partition ESP_OK handle :: before ∧
    ∀ event ∈ writes, ∃ payload result, event = .otaWrite handle payload result
  next : flashed earlier ++ payload <+: image

def OwnWrites (image : Bytes) (events : List Event) : Prop :=
  Justified (fun event earlier => ∀ handle payload result, event = .otaWrite handle payload result →
    OwnWrite image handle payload earlier) events

-- What came before the latest begin makes no difference to its session.
theorem flashed_of_begin {writes : List Event} {partition : Partition} {handle : Nat} {before : List Event}
    (h : ∀ event ∈ writes, ∃ payload result, event = .otaWrite handle payload result) :
    flashed (writes ++ .otaBegin partition ESP_OK handle :: before) = flashed writes := by
  induction writes with
  | nil => simp [flashed]
  | cons event writes ih =>
      obtain ⟨payload, result, rfl⟩ := h event List.mem_cons_self
      have ih := ih fun e he => h e (List.mem_cons_of_mem _ he)
      simp only [List.cons_append, flashed, ih]

theorem OwnWrites.mono {image image' : Bytes} {events : List Event} (h : OwnWrites image events)
    (himage : image <+: image') : OwnWrites image' events :=
  Justified.mono h fun _ _ hP handle payload result heq =>
    ⟨(hP handle payload result heq).begun, (hP handle payload result heq).next.trans himage⟩

theorem OwnWrites.append {image : Bytes} {events more : List Event} (h : OwnWrites image events)
    (hquiet : NoWrites more) : OwnWrites image (more ++ events) :=
  Justified.append h fun _ he _ handle payload result heq => absurd (heq ▸ he) (hquiet handle payload result)

theorem ownWrites_of_noWrites {image : Bytes} {events : List Event} (h : NoWrites events) :
    OwnWrites image events := by
  simpa using OwnWrites.append justified_nil h

-- A session that was begun behind the events of `s`.
theorem Streamed.own {image : Bytes} {partition : Partition} {handle : Nat} {before earlier trace : List Event}
    (h : Streamed image handle (.otaBegin partition ESP_OK handle :: (before ++ earlier)) trace)
    (hquiet : NoWrites before) :
    ∃ writes, trace = writes ++ .otaBegin partition ESP_OK handle :: (before ++ earlier) ∧
      (∀ event ∈ writes, ∃ payload result, event = .otaWrite handle payload result) ∧
      OwnWrites image (writes ++ .otaBegin partition ESP_OK handle :: before) := by
  induction h with
  | nothing =>
      refine ⟨[], rfl, by simp, ?_⟩
      exact Justified.cons (ownWrites_of_noWrites hquiet) fun _ _ _ h => by cases h
  | write payload result _ next ih =>
      obtain ⟨writes, rfl, hwrites, hown⟩ := ih
      refine ⟨.otaWrite handle payload result :: writes, rfl, by simpa using hwrites, ?_⟩
      have hnext : flashed (writes ++ .otaBegin partition ESP_OK handle :: before) ++ payload <+: image := by
        rw [flashed_of_begin hwrites] at next ⊢
        exact next
      apply Justified.cons hown
      rintro _ _ _ heq
      cases heq
      exact ⟨⟨writes, partition, before, rfl, hwrites⟩, hnext⟩

-- All that has been written since `s₀` is the attempt's own.
def Own (s₀ : Device) (image : Bytes) (s : Device) : Prop :=
  ∃ events, s.trace = events ++ s₀.trace ∧ OwnWrites image events

-- An open session of the attempt, and what it has accepted.
structure Collecting (s₀ : Device) (image : Bytes) (s : App) : Prop where
  has : s.hasIapSession = true
  session : Session s.device
  accepted : s.device.accepted = image
  streamed : ∃ partition before, NoWrites before ∧ Streamed image s.device.iapState.otaHandle
    (.otaBegin partition ESP_OK s.device.iapState.otaHandle :: (before ++ s₀.trace)) s.device.trace

theorem Own.mono {s₀ s : Device} {image image' : Bytes} (h : Own s₀ image s) (himage : image <+: image') :
    Own s₀ image' s := by
  obtain ⟨events, htrace, hown⟩ := h
  exact ⟨events, htrace, hown.mono himage⟩

-- The session streams some more, and is left by events that write nothing.
theorem Collecting.own {s₀ t : Device} {image image' : Bytes} {s : App} (hs : Collecting s₀ image s)
    {trace : List Event} (events : List Event) (htrace : t.trace = events ++ trace) (hquiet : NoWrites events)
    (hstreamed : Streamed image' s.device.iapState.otaHandle s.device.trace trace)
    (himage : image <+: image') : Own s₀ image' t := by
  obtain ⟨partition, before, hbefore, hbegun⟩ := hs.streamed
  obtain ⟨writes, rfl, -, hown⟩ := ((hbegun.mono himage).trans hstreamed).own hbefore
  exact ⟨events ++ (writes ++ .otaBegin partition ESP_OK s.device.iapState.otaHandle :: before),
    by rw [htrace]; simp, hown.append hquiet⟩

-- Before the first callback of an attempt there is no session yet.
inductive Attempting (s₀ : Device) (image : Bytes) (s : App) : Prop
  | waiting (has : s.hasIapSession = false) (ready : Ready s) (device : s.device = s₀) (empty : image = [])
  | collecting (h : Collecting s₀ image s)

section Own

variable {s₀ : Device} {image : Bytes} {s : App} {replies : FirmwareReplies}

theorem Attempting.ready (h : Attempting s₀ image s) : Ready s := by
  cases h with
  | waiting _ ready => exact ready
  | collecting h => exact .of_session h.session

theorem Attempting.own (h : Attempting s₀ image s) : Own s₀ image s.device := by
  cases h with
  | waiting _ _ device => exact ⟨[], by rw [device]; rfl, justified_nil⟩
  | collecting h => exact h.own [] rfl (by simp [NoWrites]) .nothing (List.prefix_refl _)

theorem noWrites_leftover (replies : FirmwareReplies) (s : Device) : NoWrites (replies.leftover s) := by
  unfold FirmwareReplies.leftover
  split <;> simp [NoWrites]

theorem NoWrites.append {events more : List Event} (h : NoWrites events) (hmore : NoWrites more) :
    NoWrites (more ++ events) :=
  fun handle payload result he => (List.mem_append.mp he).elim (hmore handle payload result)
    (h handle payload result)

theorem Started.attempting {t : App} {started : Bool} (h : Started replies s t started)
    (hs : Attempting s₀ image s) :
    (started = true → Collecting s₀ image t) ∧ (started = false → Own s₀ image t.device) := by
  cases h with
  | running hstarted has heq =>
      subst heq
      refine ⟨fun _ => ?_, fun h => by rw [hstarted] at h; cases h⟩
      cases hs with
      | waiting hnone => rw [hnone] at has; cases has
      | collecting h => exact h
  | opened hstarted fresh opened heq =>
      refine ⟨fun _ => ?_, fun h => by rw [hstarted] at h; cases h⟩
      cases hs with
      | waiting _ _ device empty =>
          subst device empty
          obtain ⟨partition, -, -, htrace⟩ := opened.target
          refine ⟨by rw [heq], opened.session, opened.empty, partition, replies.leftover s.device,
            noWrites_leftover replies s.device, ?_⟩
          rw [htrace, opened.handle]
          exact .nothing
      | collecting h => rw [h.has] at fresh; cases fresh
  | failed hstarted fresh unopened heq =>
      refine ⟨fun h => (by rw [hstarted] at h; cases h), fun _ => ?_⟩
      cases hs with
      | waiting _ _ device empty =>
          subst device
          obtain ⟨events, htrace, hquiet⟩ := unopened.trace
          refine ⟨events ++ replies.leftover s.device, by rw [htrace, List.append_assoc], ?_⟩
          exact ownWrites_of_noWrites ((noWrites_leftover replies s.device).append hquiet)
      | collecting h => rw [h.has] at fresh; cases fresh

theorem iapHttpsWriteData_own {fragment : Bytes} (hs : Collecting s₀ image s)
    (hlen : fragment.length ≤ IAP_PAGE_SIZE) :
    wp (iapHttpsWriteData replies fragment fragment.length) (fun cr t =>
      (cr = .continueReceiving → Collecting s₀ (image ++ fragment) t) ∧ Own s₀ (image ++ fragment) t.device)
      (fun _ _ => False) s := by
  refine wp_mono (iapHttpsWriteData_spec hs.session replies fragment fragment.length) ?_ (fun _ _ h => h)
  intro cr t ht
  obtain ⟨hstored, heq⟩ := ht
  rw [uint16_of_le_page hlen, List.take_length] at hstored
  have himage := List.prefix_append image fragment
  cases hstored with
  | continued hcr written =>
      have hstreamed := written.streamed
      rw [hs.accepted] at hstreamed
      have haccepted := written.all
      rw [hs.accepted] at haccepted
      obtain ⟨partition, before, hquiet, hbegun⟩ := hs.streamed
      refine ⟨fun _ => ⟨by rw [heq]; exact hs.has, written.session, haccepted, partition, before, hquiet, ?_⟩,
        hs.own [] rfl (by simp [NoWrites]) hstreamed himage⟩
      rw [written.writes.handle]
      exact (hbegun.mono himage).trans hstreamed
  | aborted u hcr written _ _ trace =>
      have hstreamed := written.streamed
      rw [hs.accepted] at hstreamed
      exact ⟨fun h => (by rw [hcr] at h; cases h),
        hs.own [_] trace (by simp [NoWrites]) hstreamed himage⟩

theorem iapHttpsFinishSession_own (hs : Collecting s₀ image s) :
    wp (iapHttpsFinishSession replies) (fun cr t => cr = .stopReceiving ∧ Own s₀ image t.device)
      (fun _ t => Own s₀ image t.device) s := by
  by_cases htotal : 0 < s.totalNofBytesReceived
  · rw [wp_iapHttpsFinishSession_commit replies htotal]
    refine wp_mono (iapCommit_streamed hs.session replies.commit) ?_ (fun _ _ h => h.elim)
    intro _ device hpost
    obtain ⟨events, trace, htrace, hquiet, hstreamed⟩ := hpost
    rw [hs.accepted] at hstreamed
    refine ⟨fun _ => ?_, fun _ => ⟨rfl, hs.own _ htrace hquiet hstreamed (List.prefix_refl image)⟩⟩
    refine hs.own (.espRestart :: events) (by rw [htrace]; rfl) ?_ hstreamed (List.prefix_refl image)
    simpa [NoWrites] using hquiet
  · refine wp_mono (iapHttpsFinishSession_aborts hs.session replies htotal) ?_ (fun _ _ h => h.elim)
    intro _ t ht
    obtain ⟨hcr, -, -, htrace, -⟩ := ht
    exact ⟨hcr, hs.own [_] htrace (by simp [NoWrites]) .nothing (List.prefix_refl image)⟩

theorem iapHttpsFirmwareBodyCallback_own {fragment : Bytes} (hs : Attempting s₀ image s)
    (hlen : fragment.length ≤ IAP_PAGE_SIZE) :
    wp (iapHttpsFirmwareBodyCallback replies fragment fragment.length) (fun cr t =>
      (cr = .continueReceiving → Collecting s₀ (image ++ fragment) t) ∧ Own s₀ (image ++ fragment) t.device)
      (fun _ t => Own s₀ (image ++ fragment) t.device) s := by
  simp only [iapHttpsFirmwareBodyCallback, wp_bind, wp_ite, wp_pure]
  refine wp_mono (iapHttpsStartSession_spec hs.ready replies) ?_ (fun _ _ h => h.elim)
  intro started t ht
  obtain ⟨hcollecting, hown⟩ := ht.attempting hs
  have himage := List.prefix_append image fragment
  refine ⟨fun hstarted => ⟨fun _ => ?_, fun _ => ?_⟩, fun hnot => ⟨fun h => (by cases h), ?_⟩⟩
  · exact wp_mono (iapHttpsWriteData_own (hcollecting hstarted) hlen) (fun _ _ h => h) (fun _ _ h => h.elim)
  · refine wp_mono (iapHttpsFinishSession_own (hcollecting hstarted)) ?_ (fun _ _ h => h.mono himage)
    intro cr u hpost
    obtain ⟨rfl, hu⟩ := hpost
    exact ⟨fun h => (by cases h), hu.mono himage⟩
  · exact (hown (by simpa using hnot)).mono himage

theorem firmwareCallbacks_own (calls : List (Bytes × FirmwareReplies))
    (hcalls : ∀ call ∈ calls, call.1.length ≤ IAP_PAGE_SIZE) {image : Bytes} {s : App}
    (hs : Attempting s₀ image s) :
    wp (firmwareCallbacks calls) (fun _ t => Own s₀ (image ++ calls.flatMap Prod.fst) t.device)
      (fun _ t => Own s₀ (image ++ calls.flatMap Prod.fst) t.device) s := by
  induction calls generalizing image s with
  | nil => simpa [firmwareCallbacks] using hs.own
  | cons call rest ih =>
      obtain ⟨fragment, replies⟩ := call
      have hlen := hcalls _ List.mem_cons_self
      have hrest := fun call hcall => hcalls call (List.mem_cons_of_mem _ hcall)
      simp only [firmwareCallbacks, wp_bind, wp_ite, wp_pure, List.flatMap_cons]
      rw [← List.append_assoc]
      have hmore := List.prefix_append (image ++ fragment) (rest.flatMap Prod.fst)
      refine wp_mono (iapHttpsFirmwareBodyCallback_own hs hlen) ?_ (fun _ _ h => h.mono hmore)
      intro cr t ht
      obtain ⟨hcontinue, hown⟩ := ht
      exact ⟨fun hcr => ih hrest (.collecting (hcontinue hcr)), fun _ => hown.mono hmore⟩

end Own

-- An attempt with data, for which every call on its own session succeeds.
structure Succeeds (s : Device) (first : Bytes × FirmwareReplies) (rest : List (Bytes × FirmwareReplies))
    (last : FirmwareReplies) : Prop where
  fragments : ∀ call ∈ first :: rest, call.1 ≠ [] ∧ call.1.length ≤ IAP_PAGE_SIZE
  size : ((first :: rest).flatMap Prod.fst).length < 2 ^ 31
  opens : BeginSucceeds (first.2.opening s) s.bootPartition
  writes : ∀ call ∈ first :: rest, ∀ k, call.2.write k = ESP_OK
  flush : last.commit.otaWrite = ESP_OK
  commits : last.commit.Succeeds

-- A session begun behind `before` has been given `image` and nothing else, and
-- its partition has been activated; `after` has happened since.
structure Installs (begin : BeginReplies) (boot : Partition) (before : List Event) (image : Bytes)
    (after : List Event) (t : Device) : Prop where
  closed : t.iapState.sessionOpen = false
  session : ∃ partition writes,
    iapFindNextBootPartition begin.partitionFindFirst boot = some partition ∧
    t.bootPartition = partition ∧
    t.trace = after ++ .iapCommit .ok :: .otaSetBootPartition (some partition) ESP_OK ::
      .otaEnd begin.otaHandle true ESP_OK ::
      (writes ++ .otaBegin partition ESP_OK begin.otaHandle :: before) ∧
    (∀ event ∈ writes, ∃ payload, event = .otaWrite begin.otaHandle payload ESP_OK) ∧
    flashed writes = image

-- The same before the commit.
structure Installing (begin : BeginReplies) (boot : Partition) (before : List Event) (image : Bytes)
    (s : App) : Prop where
  has : s.hasIapSession = true
  session : Session s.device
  accepted : s.device.accepted = image
  total : s.totalNofBytesReceived = image.length
  handle : s.device.iapState.otaHandle = begin.otaHandle
  target : ∃ partition writes,
    iapFindNextBootPartition begin.partitionFindFirst boot = some partition ∧
    s.device.iapState.partitionToProgram = some partition ∧
    s.device.trace = writes ++ .otaBegin partition ESP_OK begin.otaHandle :: before ∧
    ∀ event ∈ writes, ∃ payload, event = .otaWrite begin.otaHandle payload ESP_OK

section Success

variable {begin : BeginReplies} {boot : Partition} {before : List Event} {image : Bytes} {s : App}
  {replies : FirmwareReplies}

-- Writes that succeed belong to the session.
theorem Installing.writes {t : Device} {P : Bytes → EspErr → Prop}
    (hs : Installing begin boot before image s) (hwrites : Writes P s.device t)
    (hok : ∀ payload result, P payload result → result = ESP_OK) :
    ∃ partition writes, iapFindNextBootPartition begin.partitionFindFirst boot = some partition ∧
      t.iapState.partitionToProgram = some partition ∧
      t.trace = writes ++ .otaBegin partition ESP_OK begin.otaHandle :: before ∧
      ∀ event ∈ writes, ∃ payload, event = .otaWrite begin.otaHandle payload ESP_OK := by
  obtain ⟨partition, writes, hnext, htarget, htrace, hevents⟩ := hs.target
  obtain ⟨more, hmore, hnew⟩ := hwrites.events
  refine ⟨partition, more ++ writes, hnext, hwrites.partition.trans htarget,
    by rw [hmore, htrace, List.append_assoc], fun event he => ?_⟩
  rcases List.mem_append.mp he with he | he
  · obtain ⟨payload, result, rfl, hp⟩ := hnew event he
    exact ⟨payload, by rw [hok payload result hp, hs.handle]⟩
  · exact hevents event he

theorem iapHttpsWriteData_succeeds {fragment : Bytes} (hs : Installing begin boot before image s)
    (hlen : fragment.length ≤ IAP_PAGE_SIZE) (hsize : (image ++ fragment).length < 2 ^ 31)
    (hwrite : ∀ k, replies.write k = ESP_OK) :
    wp (iapHttpsWriteData replies fragment fragment.length) (fun cr t => cr = .continueReceiving ∧
      Installing begin boot before (image ++ fragment) t ∧ t.config = s.config) (fun _ _ => False) s := by
  refine wp_mono (iapHttpsWriteData_spec hs.session replies fragment fragment.length) ?_ (fun _ _ h => h)
  intro cr t ht
  obtain ⟨hstored, heq⟩ := ht
  rw [uint16_of_le_page hlen, List.take_length] at hstored
  cases hstored with
  | continued hcr written =>
      have haccepted := written.all
      rw [hs.accepted] at haccepted
      have htotal : t.totalNofBytesReceived = (image ++ fragment).length := by
        have hcount := congrArg App.totalNofBytesReceived heq
        simp only [hs.total] at hcount
        rw [hcount, ← Int.natCast_add, ← List.length_append, toInt32_of_lt _ hsize]
      refine ⟨hcr, ⟨by rw [heq]; exact hs.has, written.session, haccepted, htotal,
        written.writes.handle.trans hs.handle, hs.writes written.writes ?_⟩, by rw [heq]⟩
      intro payload result hpost
      obtain ⟨-, k, rfl⟩ := hpost
      exact hwrite k
  | aborted u _ written =>
      rcases written.outcome with ⟨h, -⟩ | ⟨-, k, hfail⟩
      · cases h
      · exact absurd (hwrite k) hfail

theorem iapHttpsFinishSession_succeeds (hs : Installing begin boot before image s) (hdata : image ≠ [])
    (hflush : replies.commit.otaWrite = ESP_OK) (hcommit : replies.commit.Succeeds) :
    wp (iapHttpsFinishSession replies)
      (fun cr t => cr = .stopReceiving ∧ s.config.autoReboot = false ∧
        Installs begin boot before image [] t.device)
      (fun e t => e = .restart ∧ s.config.autoReboot = true ∧
        Installs begin boot before image [.espRestart] t.device) s := by
  have htotal : 0 < s.totalNofBytesReceived := by
    rw [hs.total]
    exact_mod_cast List.length_pos_of_ne_nil hdata
  rw [wp_iapHttpsFinishSession_commit replies htotal]
  refine wp_mono (iapCommit_spec hs.session replies.commit) ?_ (fun _ _ h => h.elim)
  intro result device hcommitted
  obtain ⟨u, v, -, haccepted, hwrites, hflushed, hfinished, rfl⟩ := hcommitted.path
  obtain ⟨partition, writes, hnext, htarget, htrace, hevents⟩ :=
    hs.writes hwrites fun _ _ h => h.2.trans hflush
  have hempty : u.iapState.pageBufferIx = 0 := by
    cases hflushed with
    | written hempty => exact hempty
    | lost hfailed => exact absurd hflush hfailed
  have himage : flashed writes = image := by
    rw [hs.accepted, Device.accepted, hempty, List.take_zero, List.append_nil, htrace] at haccepted
    rw [← haccepted, flashed_of_begin]
    intro event he
    obtain ⟨payload, rfl⟩ := hevents event he
    exact ⟨payload, ESP_OK, rfl⟩
  cases hfinished with
  | imageRejected _ _ hfail => exact absurd hcommit.otaEnd hfail
  | activationFailed _ _ _ hfail => exact absurd hcommit.otaSetBootPartition hfail
  | activated hidle hresult _ _ htrace' hboot =>
      have hhandle : u.iapState.otaHandle = begin.otaHandle := hwrites.handle.trans hs.handle
      have hinstalls : ∀ after, Installs begin boot before image after
          { v with trace := after ++ .iapCommit result :: v.trace } := by
        intro after
        refine ⟨hidle.closed, partition, writes, hnext, by simp [hboot, htarget], ?_, hevents, himage⟩
        simp only [hresult, htrace', htarget, hhandle, htrace]
      exact ⟨fun hreboot => ⟨rfl, hreboot, hinstalls [.espRestart]⟩,
        fun hmanual => ⟨rfl, hmanual, hinstalls []⟩⟩

theorem Started.installing {started : Bool} {t : App} (h : Started replies s t started)
    (hfresh : s.hasIapSession = false)
    (hopens : BeginSucceeds (replies.opening s.device) s.device.bootPartition) :
    started = true ∧ t.config = s.config ∧ Installing (replies.opening s.device) s.device.bootPartition
      (replies.leftover s.device ++ s.device.trace) [] t := by
  cases h with
  | running _ has => rw [hfresh] at has; cases has
  | opened hstarted _ opened heq =>
      obtain ⟨partition, hnext, htarget, htrace⟩ := opened.target
      exact ⟨hstarted, by rw [heq], by rw [heq], opened.session, opened.empty, by rw [heq]; rfl,
        opened.handle, partition, [], hnext, htarget, htrace, by simp⟩
  | failed _ _ unopened => exact absurd hopens unopened.failed

theorem wp_iapHttpsFirmwareBodyCallback_running (has : s.hasIapSession = true) (responseBuffer : Bytes)
    (bytesReceived : Nat) (Q : HttpContinueReceiving → App → Prop) (E : Halt → App → Prop) :
    wp (iapHttpsFirmwareBodyCallback replies responseBuffer bytesReceived) Q E s ↔
      (0 < bytesReceived → wp (iapHttpsWriteData replies responseBuffer bytesReceived) Q E s) ∧
      (¬0 < bytesReceived → wp (iapHttpsFinishSession replies) Q E s) := by
  simp [iapHttpsFirmwareBodyCallback, iapHttpsStartSession, has]

theorem firmwareCallbacks_succeed (rest : List (Bytes × FirmwareReplies)) {last : FirmwareReplies}
    (hs : Installing begin boot before image s) (hdata : image ≠ [])
    (hfragments : ∀ call ∈ rest, call.1 ≠ [] ∧ call.1.length ≤ IAP_PAGE_SIZE)
    (hsize : (image ++ rest.flatMap Prod.fst).length < 2 ^ 31)
    (hwrites : ∀ call ∈ rest, ∀ k, call.2.write k = ESP_OK) (hflush : last.commit.otaWrite = ESP_OK)
    (hcommit : last.commit.Succeeds) :
    wp (firmwareCallbacks (rest ++ [([], last)]))
      (fun _ t => s.config.autoReboot = false ∧
        Installs begin boot before (image ++ rest.flatMap Prod.fst) [] t.device)
      (fun e t => e = .restart ∧ s.config.autoReboot = true ∧
        Installs begin boot before (image ++ rest.flatMap Prod.fst) [.espRestart] t.device) s := by
  induction rest generalizing image s with
  | nil =>
      simp only [List.nil_append, firmwareCallbacks, wp_bind, wp_ite, wp_pure, List.flatMap_nil,
        List.append_nil]
      rw [wp_iapHttpsFirmwareBodyCallback_running hs.has]
      refine ⟨fun h => absurd h (Nat.lt_irrefl 0), fun _ => ?_⟩
      refine wp_mono (iapHttpsFinishSession_succeeds hs hdata hflush hcommit) ?_ (fun _ _ h => h)
      intro _ t hpost
      obtain ⟨rfl, hmanual, hinstalls⟩ := hpost
      exact ⟨fun h => (by cases h), fun _ => ⟨hmanual, hinstalls⟩⟩
  | cons call rest ih =>
      obtain ⟨fragment, replies⟩ := call
      obtain ⟨hne, hlen⟩ := hfragments _ List.mem_cons_self
      rw [List.flatMap_cons, ← List.append_assoc] at hsize
      simp only [List.cons_append, firmwareCallbacks, wp_bind, wp_ite, wp_pure, List.flatMap_cons]
      rw [wp_iapHttpsFirmwareBodyCallback_running hs.has]
      refine ⟨fun _ => ?_, fun h => absurd (List.length_pos_of_ne_nil hne) h⟩
      have hfits : (image ++ fragment).length < 2 ^ 31 := lt_of_le_of_lt (by simp) hsize
      refine wp_mono (iapHttpsWriteData_succeeds hs hlen hfits (hwrites _ List.mem_cons_self)) ?_
        (fun _ _ h => h.elim)
      intro _ t hpost
      obtain ⟨rfl, ht, hconfig⟩ := hpost
      refine ⟨fun _ => ?_, fun h => absurd rfl h⟩
      have hrest := ih ht (by simp [hdata]) (fun call hcall => hfragments call (List.mem_cons_of_mem _ hcall))
        hsize (fun call hcall => hwrites call (List.mem_cons_of_mem _ hcall))
      simpa only [hconfig, List.append_assoc] using hrest

theorem attempt_succeeds (hs : Ready s) {first : Bytes × FirmwareReplies}
    {rest : List (Bytes × FirmwareReplies)} {last : FirmwareReplies}
    (h : Succeeds s.device first rest last) :
    wp (attempt (first :: rest ++ [([], last)]))
      (fun _ t => s.config.autoReboot = false ∧ Installs (first.2.opening s.device) s.device.bootPartition
        (first.2.leftover s.device ++ s.device.trace) ((first :: rest).flatMap Prod.fst) [] t.device)
      (fun e t => e = .restart ∧ s.config.autoReboot = true ∧
        Installs (first.2.opening s.device) s.device.bootPartition
          (first.2.leftover s.device ++ s.device.trace) ((first :: rest).flatMap Prod.fst)
          [.espRestart] t.device) s := by
  obtain ⟨fragment, replies⟩ := first
  obtain ⟨hne, hlen⟩ := h.fragments _ List.mem_cons_self
  have hsize := h.size
  rw [List.flatMap_cons] at hsize
  simp only [attempt, List.cons_append, firmwareCallbacks, iapHttpsFirmwareBodyCallback, wp_bind, wp_modify,
    wp_ite, wp_pure]
  refine wp_mono (iapHttpsStartSession_spec hs.newAttempt.toReady replies) ?_ (fun _ _ h => h.elim)
  intro started t ht
  obtain ⟨hstarted, hconfig, ht⟩ := ht.installing rfl h.opens
  refine ⟨fun _ => ⟨fun _ => ?_, fun h => absurd (List.length_pos_of_ne_nil hne) h⟩,
    fun hnot => absurd hstarted hnot⟩
  have hfits : ([] ++ fragment).length < 2 ^ 31 := lt_of_le_of_lt (by simp) hsize
  refine wp_mono (iapHttpsWriteData_succeeds ht hlen hfits (h.writes _ List.mem_cons_self)) ?_
    (fun _ _ h => h.elim)
  intro _ u hpost
  obtain ⟨rfl, hu, hconfig'⟩ := hpost
  refine ⟨fun _ => ?_, fun h => absurd rfl h⟩
  have hrest := firmwareCallbacks_succeed rest hu (by simpa using hne)
    (fun call hcall => h.fragments call (List.mem_cons_of_mem _ hcall)) hsize
    (fun call hcall => h.writes call (List.mem_cons_of_mem _ hcall)) h.flush h.commits
  rw [hconfig', hconfig] at hrest
  exact hrest

end Success

-- After any history of checks and downloads: an attempt that meets no failure
-- installs its image, and no attempt writes anything but its own data to its
-- own session.
theorem attempt_independent {partition : Partition} {config : IapHttpsConfig}
    {metadataBuffer firmwareBuffer : Malloc} {steps : List UpdaterStep} {s : Updater}
    (hrun : run UpdaterStep.run steps (iapHttpsInit partition config metadataBuffer firmwareBuffer) =
      .ok ⟨⟩ s) :
    (∀ first rest last, Succeeds s.client.app.device first rest last →
      wp (attempt (first :: rest ++ [([], last)]))
        (fun _ t => s.client.app.config.autoReboot = false ∧
          Installs (first.2.opening s.client.app.device) s.client.app.device.bootPartition
            (first.2.leftover s.client.app.device ++ s.client.app.device.trace)
            ((first :: rest).flatMap Prod.fst) [] t.device)
        (fun e t => e = .restart ∧ s.client.app.config.autoReboot = true ∧
          Installs (first.2.opening s.client.app.device) s.client.app.device.bootPartition
            (first.2.leftover s.client.app.device ++ s.client.app.device.trace)
            ((first :: rest).flatMap Prod.fst) [.espRestart] t.device) s.client.app) ∧
    ∀ calls : List (Bytes × FirmwareReplies), (∀ call ∈ calls, call.1.length ≤ IAP_PAGE_SIZE) →
      wp (attempt calls)
        (fun _ t => OwnWrites (calls.flatMap Prod.fst) (newEvents s.client.app.device t.device))
        (fun _ t => OwnWrites (calls.flatMap Prod.fst) (newEvents s.client.app.device t.device))
        s.client.app := by
  have hready := ready_of_run hrun
  refine ⟨fun first rest last h => attempt_succeeds hready h, fun calls hcalls => ?_⟩
  have hown : ∀ image t, Own s.client.app.device image t →
      OwnWrites image (newEvents s.client.app.device t) := by
    intro image t ht
    obtain ⟨events, htrace, hown⟩ := ht
    rwa [newEvents_of_append htrace]
  simp only [attempt, wp_bind, wp_modify]
  have hstart : Attempting s.client.app.device [] s.client.app.newAttempt :=
    .waiting rfl hready.newAttempt.toReady rfl rfl
  apply wp_mono (firmwareCallbacks_own calls hcalls hstart)
  · exact fun _ t ht => hown _ _ ht
  · exact fun _ t ht => hown _ _ ht

-- A download without automatic reboots that comes back, whatever becomes of its commit.
theorem exampleDownload_returns : ∃ s,
    run UpdaterStep.run [exampleDownload exampleConnect ⟨ESP_OK, -1, ESP_OK⟩]
      (iapHttpsInit ⟨"factory", 0x10000⟩ (exampleConfig false) (some fun _ => 0) (some fun _ => 0)) =
      .ok ⟨⟩ s ∧ s.client.app.config.autoReboot = false ∧
    s.client.app.device.bootPartition = ⟨"factory", 0x10000⟩ := by
  obtain ⟨_, h⟩ := exists_ok_of_wp (x := run UpdaterStep.run
    [exampleDownload exampleConnect ⟨ESP_OK, -1, ESP_OK⟩]) (s := iapHttpsInit ⟨"factory", 0x10000⟩
    (exampleConfig false) (some fun _ => 0) (some fun _ => 0)) (Q := fun _ s =>
    s.client.app.config.autoReboot = false ∧
    s.client.app.device.bootPartition = ⟨"factory", 0x10000⟩) (by decide +kernel)
  exact h

-- A commit that `esp_ota_end` has rejected, and then a good attempt.
theorem attempt_after_failed_commit : ∃ s : Updater,
    run UpdaterStep.run [exampleDownload exampleConnect ⟨ESP_OK, -1, ESP_OK⟩]
      (iapHttpsInit ⟨"factory", 0x10000⟩ (exampleConfig false) (some fun _ => 0) (some fun _ => 0)) =
      .ok ⟨⟩ s ∧
    wp (attempt [([7], exampleFirmwareReplies ⟨ESP_OK, ESP_OK, ESP_OK⟩),
        ([], exampleFirmwareReplies ⟨ESP_OK, ESP_OK, ESP_OK⟩)])
      (fun _ t => (∃ begin before, Installs begin ⟨"factory", 0x10000⟩ before [7] [] t.device) ∧
        OwnWrites [7] (newEvents s.client.app.device t.device)) (fun _ _ => False) s.client.app := by
  obtain ⟨s, hrun, hmanual, hboot⟩ := exampleDownload_returns
  refine ⟨s, hrun, ?_⟩
  have hsucceeds : Succeeds s.client.app.device ([7], exampleFirmwareReplies ⟨ESP_OK, ESP_OK, ESP_OK⟩) []
      (exampleFirmwareReplies ⟨ESP_OK, ESP_OK, ESP_OK⟩) := by
    refine ⟨by simp [IAP_PAGE_SIZE], by decide, ?_, by simp [exampleFirmwareReplies], rfl, rfl, rfl⟩
    unfold FirmwareReplies.opening
    rw [hboot]
    split <;> exact ⟨by simp [exampleFirmwareReplies], by decide +kernel, rfl⟩
  obtain ⟨hinstalls, hown⟩ := attempt_independent hrun
  clear hrun
  have hattempt := hinstalls _ _ _ hsucceeds
  have hwrites := hown [([7], exampleFirmwareReplies ⟨ESP_OK, ESP_OK, ESP_OK⟩),
    ([], exampleFirmwareReplies ⟨ESP_OK, ESP_OK, ESP_OK⟩)] (by simp [IAP_PAGE_SIZE])
  simp only [List.cons_append, List.nil_append, hmanual, hboot] at hattempt
  apply wp_mono (wp_and hattempt hwrites)
  · intro _ t ht
    obtain ⟨⟨-, h⟩, hwrites⟩ := ht
    exact ⟨⟨_, _, h⟩, hwrites⟩
  · intro _ t ht
    obtain ⟨⟨-, hreboot, -⟩, -⟩ := ht
    cases hreboot

end Esp32Ota

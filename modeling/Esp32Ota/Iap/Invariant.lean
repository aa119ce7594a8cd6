import Esp32Ota.Iap.Session

-- The invariant of the programming session over any sequence of calls.
namespace Esp32Ota

open CLib Halting

inductive IapCall
  | init
  | begin (replies : BeginReplies)
  | write (bytes : Bytes) (otaWrite : Nat → EspErr)
  | commit (replies : CommitReplies)
  | abort (otaEnd : EspErr)

def IapCall.run : IapCall → DeviceM Unit
  | .init => do let _ ← iapInit
  | .begin replies => do let _ ← iapBegin replies
  | .write bytes otaWrite => do let _ ← iapWrite bytes otaWrite
  | .commit replies => do let _ ← iapCommit replies
  | .abort otaEnd => do let _ ← iapAbort otaEnd

structure SessionInvariant (s : Device) : Prop where
  buffer : s.iapState.sessionOpen = true →
    ∃ page, s.heap.deref s.iapState.pageBuffer = some page ∧ page.length = IAP_PAGE_SIZE
  index : s.iapState.sessionOpen = true → s.iapState.pageBufferIx ≤ IAP_PAGE_SIZE
  address : s.iapState.sessionOpen = true → ∃ partition,
    s.iapState.partitionToProgram = some partition ∧
    s.iapState.curFlashAddress = partition.address + UInt32.ofNat (flashed s.trace).length
  noLeak : s.iapState.sessionOpen = false → s.heap.OnlyLive none

-- ESP-IDF accepts the image and the activation when an open session is committed.
def CommitSucceeds (s : Device) : IapCall → Prop
  | .commit replies => s.iapState.sessionOpen = true →
      replies.otaEnd = ESP_OK ∧ replies.otaSetBootPartition = ESP_OK
  | _ => True

-- The states between calls as long as no commit has failed.
def Sound (s : Device) : Prop := Idle s ∨ Session s

theorem Sound.invariant {s : Device} (hs : Sound s) : SessionInvariant s := by
  rcases hs with hs | hs
  · have hopen : s.iapState.sessionOpen ≠ true := by simp [hs.closed]
    exact ⟨fun h => absurd h hopen, fun h => absurd h hopen, fun h => absurd h hopen,
      fun _ => hs.noLeak⟩
  · exact ⟨fun _ => ⟨s.page, hs.live, hs.size⟩, fun _ => hs.inPage, fun _ => hs.address,
      fun h => absurd hs.isOpen (by simp [h])⟩

theorem Stuck.not_invariant {s : Device} (hs : Stuck s) : ¬SessionInvariant s := by
  intro h
  obtain ⟨page, hpage, -⟩ := h.buffer hs.isOpen
  simp [hs.noBuffer] at hpage

theorem Idle.log {s : Device} (hs : Idle s) (trace : List Event) : Idle { s with trace } :=
  ⟨hs.closed, hs.noLeak, hs.emptyBuffer⟩

theorem Stuck.log {s : Device} (hs : Stuck s) (trace : List Event) : Stuck { s with trace } :=
  ⟨hs.initialized, hs.isOpen, hs.noBuffer, hs.noLeak, hs.emptyBuffer⟩

theorem boot_idle (partition : Partition) : Idle (Device.boot partition) :=
  ⟨rfl, fun q _ => Heap.deref_empty q, rfl⟩

theorem begin_of_idle {s : Device} (hs : Idle s) (replies : BeginReplies) :
    wp (iapBegin replies) (fun _ => Sound) (fun _ _ => False) s := by
  cases hinit : s.iapState.initialized with
  | false =>
      refine wp_mono (iapBegin_uninitialized hinit replies) ?_ (fun _ _ h => h)
      intro _ t hpost
      obtain ⟨-, rfl⟩ := hpost
      exact .inl hs
  | true =>
      refine wp_mono (iapBegin_spec hs hinit replies) ?_ (fun _ _ h => h)
      intro _ t hpost
      obtain ⟨ht, -⟩ := hpost
      cases ht with
      | unallocated hidle => exact .inl hidle
      | rejected _ hidle => exact .inl hidle
      | opened _ hsession => exact .inr hsession

-- A commit of an open session ends it, or leaves it without a page buffer.
theorem commit_of_session {s : Device} (hs : Session s) (replies : CommitReplies) :
    wp (iapCommit replies) (fun _ t =>
      (replies.otaEnd = ESP_OK ∧ replies.otaSetBootPartition = ESP_OK ∧ Idle t) ∨
        (¬(replies.otaEnd = ESP_OK ∧ replies.otaSetBootPartition = ESP_OK) ∧ Stuck t))
      (fun _ _ => False) s := by
  refine wp_mono (iapCommit_spec hs replies) ?_ (fun _ _ h => h)
  intro _ t ht
  obtain ⟨-, u, v, -, -, -, -, hfinished, rfl⟩ := ht
  cases hfinished with
  | imageRejected hstuck _ hfail => exact .inr ⟨fun h => hfail h.1, hstuck.log _⟩
  | activationFailed hstuck _ _ hfail => exact .inr ⟨fun h => hfail h.2, hstuck.log _⟩
  | activated hidle _ hend hset => exact .inl ⟨hend, hset, hidle.log _⟩

theorem sound_step (call : IapCall) {s : Device} (hs : Sound s) (hcall : CommitSucceeds s call) :
    wp call.run (fun _ => Sound) (fun _ _ => False) s := by
  cases call with
  | init =>
      simp only [IapCall.run, wp_bind, wp_pure]
      refine wp_mono iapInit_spec ?_ (fun _ _ h => h)
      intro _ t ht
      rcases ht with ⟨-, rfl⟩ | ⟨hinit, rfl⟩
      · exact hs
      · rcases hs with hs | hs
        · exact .inl ⟨rfl, hs.noLeak, hs.emptyBuffer⟩
        · exact absurd hs.initialized (by simp [hinit])
  | begin replies =>
      simp only [IapCall.run, wp_bind, wp_pure]
      rcases hs with hs | hs
      · exact begin_of_idle hs replies
      · refine wp_mono (iapBegin_open hs.initialized hs.isOpen replies) ?_ (fun _ _ h => h)
        intro _ t ht
        obtain ⟨-, rfl⟩ := ht
        exact .inr hs
  | write bytes otaWrite =>
      simp only [IapCall.run, wp_bind, wp_pure]
      rcases hs with hs | hs
      · refine wp_mono (iapWrite_closed hs.closed bytes otaWrite) ?_ (fun _ _ h => h)
        intro _ t ht
        obtain ⟨-, rfl⟩ := ht
        exact .inl hs
      · exact wp_mono (iapWrite_spec hs bytes otaWrite) (fun _ _ h => .inr h.session) (fun _ _ h => h)
  | commit replies =>
      simp only [IapCall.run, wp_bind, wp_pure]
      rcases hs with hs | hs
      · rw [iapCommit_empty hs.emptyBuffer]
        refine wp_mono (iapFinish_closed hs.closed _ _ _) ?_ (fun _ _ h => h)
        intro _ t ht
        obtain ⟨-, rfl⟩ := ht
        exact .inl (hs.log _)
      · refine wp_mono (commit_of_session hs replies) ?_ (fun _ _ h => h)
        intro _ t ht
        rcases ht with ⟨-, -, hidle⟩ | ⟨hfail, -⟩
        · exact .inl hidle
        · exact absurd (hcall hs.isOpen) hfail
  | abort otaEnd =>
      simp only [IapCall.run, wp_bind, wp_pure]
      rcases hs with hs | hs
      · refine wp_mono (iapFinish_closed hs.closed _ _ _) ?_ (fun _ _ h => h)
        intro _ t ht
        obtain ⟨-, rfl⟩ := ht
        exact .inl hs
      · refine wp_mono (iapAbort_spec (.inl hs) otaEnd) ?_ (fun _ _ h => h)
        intro _ t ht
        obtain ⟨-, hidle, -⟩ := ht
        exact .inl hidle

theorem failed_commit_stuck (call : IapCall) {s : Device} (hs : Sound s)
    (hcall : ¬CommitSucceeds s call) : wp call.run (fun _ => Stuck) (fun _ _ => False) s := by
  cases call with
  | commit replies =>
      simp only [CommitSucceeds, Classical.not_imp] at hcall
      rcases hs with hs | hs
      · exact absurd hcall.1 (by simp [hs.closed])
      · simp only [IapCall.run, wp_bind, wp_pure]
        refine wp_mono (commit_of_session hs replies) ?_ (fun _ _ h => h.elim)
        intro _ t ht
        rcases ht with ⟨hend, hset, -⟩ | ⟨-, hstuck⟩
        · exact absurd ⟨hend, hset⟩ hcall.2
        · exact hstuck
  | init => exact absurd trivial hcall
  | begin _ => exact absurd trivial hcall
  | write _ _ => exact absurd trivial hcall
  | abort _ => exact absurd trivial hcall

theorem failed_commit_breaks (call : IapCall) {s : Device} (hs : Sound s)
    (hcall : ¬CommitSucceeds s call) :
    wp call.run (fun _ t => ¬SessionInvariant t) (fun _ _ => ¬False) s :=
  wp_mono (failed_commit_stuck call hs hcall) (fun _ _ ht => ht.not_invariant) (fun _ _ h => h.elim)

-- After every prefix of the calls the invariant holds and nothing undefined has
-- happened, exactly if no commit of an open session has failed in ESP-IDF.
theorem sessionInvariant_iff_commits_succeed (partition : Partition) (calls : List IapCall) :
    (∀ n, wp (run IapCall.run (calls.take n)) (fun _ => SessionInvariant) (fun _ _ => False)
      (Device.boot partition)) ↔
    Along IapCall.run CommitSucceeds calls (Device.boot partition) := by
  have hstep : ∀ call s, Sound s → True → CommitSucceeds s call →
      wp (IapCall.run call) (fun _ => Sound) (fun _ _ => False) s :=
    fun call _ hs _ hcall => sound_step call hs hcall
  exact run_iff_along IapCall.run hstep (fun call _ hs hcall => failed_commit_breaks call hs hcall)
    (fun _ h => h.invariant) calls _ (.inl (boot_idle partition)) (along_true IapCall.run calls _)

-- The first session after power-up, once every call that opens it succeeds.
theorem first_session (partition : Partition) {replies : BeginReplies}
    (hreplies : BeginSucceeds replies partition) :
    wp (run IapCall.run [.init, .begin replies]) (fun _ t =>
      Session t ∧ t.accepted = [] ∧ t.bootPartition = partition ∧ t.runningPartition = partition ∧
      t.iapState.pageBufferIx = 0) (fun _ _ => False) (Device.boot partition) := by
  simp only [run, IapCall.run, wp_bind, wp_pure]
  refine wp_mono iapInit_spec ?_ (fun _ _ h => h)
  intro _ s hs
  rcases hs with ⟨hinit, -⟩ | ⟨-, rfl⟩
  · cases hinit
  · refine wp_mono (iapBegin_succeeds ⟨rfl, ?_, rfl⟩ rfl ?_) ?_ (fun _ _ h => h)
    · exact (boot_idle partition).noLeak
    · exact hreplies
    intro _ t ht
    obtain ⟨-, hsteady, hsession, hempty, hboot, -, hstart, -⟩ := ht
    exact ⟨hsession, hempty, hboot, hsteady.running, hstart⟩

def exampleReplies : BeginReplies where
  malloc := some fun _ => 0
  partitionFindFirst := fun label => some ⟨label, 0x110000⟩
  otaBegin := ESP_OK
  otaHandle := 1

theorem exampleReplies_succeeds : BeginSucceeds exampleReplies ⟨"factory", 0x10000⟩ :=
  ⟨by simp [exampleReplies], by simp [exampleReplies, iapFindNextBootPartition], rfl⟩

-- A bad image: `esp_ota_end` rejects what was written, and the session stays
-- open with a NULL page buffer.
theorem sessionInvariant_not_kept :
    ¬∀ (partition : Partition) (calls : List IapCall),
      wp (run IapCall.run calls) (fun _ => SessionInvariant) (fun _ _ => False)
        (Device.boot partition) := by
  intro h
  have hrun := h ⟨"factory", 0x10000⟩ ([.init, .begin exampleReplies] ++ [.commit ⟨ESP_OK, -1, ESP_OK⟩])
  rw [wp_run_append] at hrun
  obtain ⟨_, s, _, hcommit, hsession, -⟩ :=
    exists_ok_of_wp (wp_mono (wp_and hrun (first_session _ exampleReplies_succeeds))
      (fun _ _ h => h) (fun _ _ h => h.1))
  simp only [run, IapCall.run, wp_bind, wp_pure] at hcommit
  obtain ⟨_, t, _, hinv, hresult⟩ := exists_ok_of_wp
    (wp_mono (wp_and hcommit (commit_of_session hsession ⟨ESP_OK, -1, ESP_OK⟩))
      (fun _ _ h => h) (fun _ _ h => h.1))
  rcases hresult with ⟨hend, -⟩ | ⟨-, hstuck⟩
  · cases hend
  · exact hstuck.not_invariant hinv

end Esp32Ota

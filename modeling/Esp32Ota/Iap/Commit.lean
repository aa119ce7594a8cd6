import Esp32Ota.Iap.Invariant

-- What is activated by a commit, compared with what the session has accepted.
namespace Esp32Ota

open CLib Halting

-- Consecutive writes; the answer is whether each of them returned `IAP_OK`.
def iapWriteAll : List (Bytes × (Nat → EspErr)) → DeviceM Bool
  | [] => pure true
  | (bytes, otaWrite) :: rest => do
    let result ← iapWrite bytes otaWrite
    if result = .ok then
      iapWriteAll rest
    else
      return false

-- The events since an earlier state of the same run.
def newEvents (s t : Device) : List Event := t.trace.take (t.trace.length - s.trace.length)

@[simp] theorem newEvents_of_append {s t : Device} {events : List Event}
    (h : t.trace = events ++ s.trace) : newEvents s t = events := by
  simp [newEvents, h]

-- The commit has gone on to the activation: it has called
-- `esp_ota_set_boot_partition`, reported success or moved the boot partition.
def Activates (s t : Device) (result : IapErr) : Prop :=
  (∃ partition r, .otaSetBootPartition partition r ∈ newEvents s t) ∨ result = .ok ∨
    t.bootPartition ≠ s.bootPartition

-- Any state between two calls, failed commits included.
def Known (s : Device) : Prop := Sound s ∨ Stuck s

theorem write_of_stuck {s : Device} (hs : Stuck s) (bytes : Bytes) (otaWrite : Nat → EspErr) :
    wp (iapWrite bytes otaWrite) (fun _ t => t = s) (fun e _ => e = .undefined) s := by
  simp only [iapWrite, iapWriteLoop, copyToPageBuffer, wp_bind, wp_get, hs.initialized, hs.isOpen,
    Bool.not_true, Bool.false_eq_true, wp_ite, wp_pure, implies_true, true_and]
  intro _
  simp [hs.noBuffer, Heap.write]

-- Whatever the commit comes to, and once it is logged.
theorem Finished.known {replies : CommitReplies} {s t : Device} {result : IapErr}
    (h : Finished replies s t result) (trace : List Event) : Known { t with trace } := by
  cases h with
  | imageRejected hstuck => exact .inr (hstuck.log trace)
  | activationFailed hstuck => exact .inr (hstuck.log trace)
  | activated hidle => exact .inl (.inl (hidle.log trace))

theorem known_step (call : IapCall) {s : Device} (hs : Known s) :
    wp call.run (fun _ => Known) (fun e _ => e = .undefined) s := by
  rcases hs with hs | hs
  · by_cases hcall : CommitSucceeds s call
    · exact wp_mono (sound_step call hs hcall) (fun _ _ h => .inl h) (fun _ _ h => h.elim)
    · exact wp_mono (failed_commit_stuck call hs hcall) (fun _ _ h => .inr h) (fun _ _ h => h.elim)
  · cases call with
    | init =>
        simp only [IapCall.run, wp_bind, wp_pure]
        refine wp_mono iapInit_spec ?_ (fun _ _ h => h.elim)
        intro _ t ht
        rcases ht with ⟨-, rfl⟩ | ⟨hinit, -⟩
        · exact .inr hs
        · exact absurd hs.initialized (by simp [hinit])
    | begin replies =>
        simp only [IapCall.run, wp_bind, wp_pure]
        refine wp_mono (iapBegin_open hs.initialized hs.isOpen replies) ?_ (fun _ _ h => h.elim)
        intro _ t ht
        obtain ⟨-, rfl⟩ := ht
        exact .inr hs
    | write bytes otaWrite =>
        simp only [IapCall.run, wp_bind, wp_pure]
        refine wp_mono (write_of_stuck hs bytes otaWrite) ?_ (fun _ _ h => h)
        intro _ t ht
        obtain rfl := ht
        exact .inr hs
    | commit replies =>
        simp only [IapCall.run, wp_bind, wp_pure]
        rw [iapCommit_empty hs.emptyBuffer]
        refine wp_mono (iapFinish_commit (.inr hs) replies) ?_ (fun _ _ h => h.elim)
        intro result t ht
        obtain ⟨hfinished, -⟩ := ht
        exact hfinished.known _
    | abort otaEnd =>
        simp only [IapCall.run, wp_bind, wp_pure]
        refine wp_mono (iapAbort_spec (.inr hs) otaEnd) ?_ (fun _ _ h => h.elim)
        intro _ t ht
        obtain ⟨-, hidle, -⟩ := ht
        exact .inl (.inl hidle)

theorem known_of_calls {partition : Partition} {calls : List IapCall} {s : Device}
    (h : run IapCall.run calls (Device.boot partition) = .ok ⟨⟩ s) : Known s := by
  have hboot : Known (Device.boot partition) := .inl (.inl (boot_idle partition))
  have hrun : wp (run IapCall.run calls) (fun _ => Known) (fun e _ => e = Halt.undefined)
      (Device.boot partition) :=
    run_invariant IapCall.run (fun call _ hs _ => known_step call hs) calls _ hboot
      (along_true IapCall.run calls _)
  exact wp_ok (Q := fun _ => Known) hrun h

-- A session that `iap_begin` has just opened has accepted nothing.
theorem opened_of_begin {replies : BeginReplies} {s t : Device} (hs : Known s)
    (h : iapBegin replies s = .ok .ok t) : Session t ∧ t.accepted = [] ∧ t.iapState.pageBufferIx = 0 := by
  have hopen : s.iapState.initialized = true → s.iapState.sessionOpen = true → False := by
    intro hinit hopen
    have := wp_ok (iapBegin_open hinit hopen replies) h
    cases this.1
  rcases hs with (hs | hs) | hs
  · cases hinit : s.iapState.initialized with
    | false =>
        have := wp_ok (iapBegin_uninitialized hinit replies) h
        cases this.1
    | true =>
        obtain ⟨hbegun, -⟩ := wp_ok (iapBegin_spec hs hinit replies) h
        cases hbegun with
        | unallocated _ hresult => rcases hresult with hresult | hresult <;> cases hresult
        | rejected _ _ hresult => cases hresult
        | opened _ hsession _ _ _ _ _ _ _ hempty hstart => exact ⟨hsession, hempty, hstart⟩
  · exact (hopen hs.initialized hs.isOpen).elim
  · exact (hopen hs.initialized hs.isOpen).elim

-- Between the writes of a session: all accepted bytes, in whole pages but for
-- the part in the buffer.
structure Streaming (image : Bytes) (s : Device) : Prop where
  session : Session s
  accepted : s.accepted = image
  pages : (flashed s.trace).length % IAP_PAGE_SIZE = 0
  partialPage : s.iapState.pageBufferIx < IAP_PAGE_SIZE

theorem flashed_pages {s : Device} {events : List Event}
    (h : ∀ event ∈ events, ∃ payload result,
      event = .otaWrite s.iapState.otaHandle payload result ∧ payload.length = IAP_PAGE_SIZE) :
    (flashed (events ++ s.trace)).length % IAP_PAGE_SIZE = (flashed s.trace).length % IAP_PAGE_SIZE := by
  induction events with
  | nil => rfl
  | cons event events ih =>
      obtain ⟨payload, result, rfl, hlen⟩ := h event List.mem_cons_self
      have ih := ih fun e he => h e (List.mem_cons_of_mem _ he)
      by_cases hr : result = ESP_OK
      · simpa only [List.cons_append, flashed, hr, ite_true, List.length_append, hlen,
          Nat.add_mod_right] using ih
      · simpa only [List.cons_append, flashed, hr, ite_false] using ih

theorem iapWrite_streaming {image bytes : Bytes} {otaWrite : Nat → EspErr} {s : Device}
    (hs : Streaming image s) :
    wp (iapWrite bytes otaWrite) (fun result t => result = .ok → Streaming (image ++ bytes) t)
      (fun _ _ => False) s := by
  refine wp_mono (iapWrite_spec hs.session bytes otaWrite) ?_ (fun _ _ h => h)
  intro result t hwritten heq
  obtain rfl := heq
  obtain ⟨events, htrace, hevents⟩ := hwritten.writes.events
  refine ⟨hwritten.session, ?_, ?_, ?_⟩
  · rw [hwritten.all, hs.accepted]
  · rw [htrace, flashed_pages, hs.pages]
    intro event he
    obtain ⟨payload, result, heq, hlen, -⟩ := hevents event he
    exact ⟨payload, result, heq, hlen⟩
  · rcases hwritten.outcome with ⟨-, hlt | ⟨-, rfl⟩⟩ | ⟨hfail, -⟩
    · exact hlt
    · exact hs.partialPage
    · cases hfail

theorem iapWriteAll_streaming (writes : List (Bytes × (Nat → EspErr))) {image : Bytes} {s : Device}
    (hs : Streaming image s) :
    wp (iapWriteAll writes) (fun all t => all = true → Streaming (image ++ writes.flatMap Prod.fst) t)
      (fun _ _ => False) s := by
  induction writes generalizing image s with
  | nil => simpa [iapWriteAll] using hs
  | cons write rest ih =>
      obtain ⟨bytes, otaWrite⟩ := write
      simp only [iapWriteAll, wp_bind]
      refine wp_mono (iapWrite_streaming hs) ?_ (fun _ _ h => h)
      intro result t ht
      simp only [wp_ite, wp_pure]
      refine ⟨fun hok => ?_, fun _ h => by cases h⟩
      simpa only [List.flatMap_cons, List.append_assoc] using ih (ht hok)

theorem Streaming.pageBufferIx {image : Bytes} {s : Device} (hs : Streaming image s) :
    s.iapState.pageBufferIx = image.length % IAP_PAGE_SIZE := by
  have hlen : (s.page.take s.iapState.pageBufferIx).length = s.iapState.pageBufferIx := by
    rw [List.length_take, hs.session.size, Nat.min_eq_left hs.session.inPage]
  have hmod := hs.pages
  have hlt := hs.partialPage
  rw [← hs.accepted, Device.accepted, List.length_append, hlen]
  unfold IAP_PAGE_SIZE at *
  omega

theorem flashed_finish {replies : CommitReplies} {u v : Device} {result : IapErr}
    (h : Finished replies u v result) : flashed v.trace = flashed u.trace := by
  cases h with
  | imageRejected _ _ _ htrace => simp only [htrace, flashed]
  | activationFailed _ _ _ _ htrace => simp only [htrace, flashed]
  | activated _ _ _ _ htrace => simp only [htrace, flashed]

-- The flash holds the whole image unless the flush of a partial page was lost.
theorem commit_flashes {image : Bytes} {replies : CommitReplies} {s t : Device} {result : IapErr}
    (hs : Streaming image s) (h : Committed replies s result t) :
    flashed t.trace = image ↔ image.length % IAP_PAGE_SIZE = 0 ∨ replies.otaWrite = ESP_OK := by
  obtain ⟨u, v, hu, haccepted, -, hflush, hfinished, rfl⟩ := h.path
  rw [hs.accepted, Device.accepted] at haccepted
  simp only [flashed, flashed_finish hfinished, ← hs.pageBufferIx]
  cases hflush with
  | written hempty hcause =>
      rw [hempty, List.take_zero, List.append_nil] at haccepted
      exact iff_of_true haccepted hcause
  | lost hfail hpartial hkept =>
      refine iff_of_false (fun heq => ?_) (fun h => h.elim hpartial hfail)
      have hlen := congrArg List.length haccepted
      rw [heq, List.length_append, List.length_take, hu.size, hkept] at hlen
      have := hs.session.inPage
      omega

-- The outcome of the flush plays no part in the activation.
theorem commit_activates {replies : CommitReplies} {s t : Device} {result : IapErr}
    (h : Committed replies s result t) : Activates s t result ↔ replies.otaEnd = ESP_OK := by
  obtain ⟨u, v, -, -, hwrites, -, hfinished, rfl⟩ := h.path
  obtain ⟨events, htrace, hevents⟩ := hwrites.events
  have hnone : ∀ partition r, .otaSetBootPartition partition r ∉ events := by
    intro partition r hmem
    obtain ⟨payload, result, heq, -⟩ := hevents _ hmem
    cases heq
  cases hfinished with
  | imageRejected _ hresult hfail htrace' hboot =>
      have hnew : newEvents s { v with trace := .iapCommit result :: v.trace } =
          .iapCommit result :: .otaEnd u.iapState.otaHandle true replies.otaEnd :: events :=
        newEvents_of_append (by simp [htrace', htrace])
      refine iff_of_false ?_ hfail
      intro hactivates
      rcases hactivates with ⟨partition, r, hmem⟩ | hok | hmoved
      · rw [hnew] at hmem
        simp [hnone] at hmem
      · rw [hresult] at hok
        cases hok
      · exact hmoved (hboot.trans hwrites.boot)
  | activationFailed _ _ hend _ htrace' _ =>
      have hnew : newEvents s { v with trace := .iapCommit result :: v.trace } =
          .iapCommit result :: .otaSetBootPartition u.iapState.partitionToProgram
            replies.otaSetBootPartition :: .otaEnd u.iapState.otaHandle true ESP_OK :: events :=
        newEvents_of_append (by simp [htrace', htrace])
      refine iff_of_true (.inl ⟨u.iapState.partitionToProgram, replies.otaSetBootPartition, ?_⟩) hend
      rw [hnew]
      exact List.mem_cons_of_mem _ List.mem_cons_self
  | activated _ hresult hend _ _ _ => exact iff_of_true (.inr (.inl hresult)) hend

-- A session opened after any history, written to without an error, and
-- committed: the activated image is complete unless a partial last page was
-- lost in an `esp_ota_write` that failed.
theorem commit_exact_iff {partition : Partition} {calls : List IapCall} {begin : BeginReplies}
    {writes : List (Bytes × (Nat → EspErr))} {replies : CommitReplies} {s₀ s₁ s₂ t : Device}
    {result : IapErr} (hcalls : run IapCall.run calls (Device.boot partition) = .ok ⟨⟩ s₀)
    (hbegin : iapBegin begin s₀ = .ok .ok s₁) (hwrites : iapWriteAll writes s₁ = .ok true s₂)
    (hcommit : iapCommit replies s₂ = .ok result t) :
    (Activates s₂ t result → flashed t.trace = writes.flatMap Prod.fst) ↔
      (writes.flatMap Prod.fst).length % IAP_PAGE_SIZE = 0 ∨ replies.otaWrite = ESP_OK ∨
        replies.otaEnd ≠ ESP_OK := by
  obtain ⟨hsession, hempty, hstart⟩ := opened_of_begin (known_of_calls hcalls) hbegin
  have hopened : Streaming [] s₁ := by
    refine ⟨hsession, hempty, ?_, by rw [hstart]; decide⟩
    rw [Device.accepted, List.append_eq_nil_iff] at hempty
    rw [hempty.1]
    rfl
  have hstreaming : Streaming (writes.flatMap Prod.fst) s₂ := by
    simpa using wp_ok (iapWriteAll_streaming writes hopened) hwrites rfl
  have hcommitted := wp_ok (iapCommit_spec hstreaming.session replies) hcommit
  rw [commit_activates hcommitted, commit_flashes hstreaming hcommitted]
  constructor
  · intro h
    by_cases hend : replies.otaEnd = ESP_OK
    · exact (h hend).imp_right .inl
    · exact .inr (.inr hend)
  · rintro (h | h | h) hend
    · exact .inl h
    · exact .inr h
    · exact absurd hend h

-- One byte, accepted by the first session after power-up.
theorem one_byte_run (replies : CommitReplies) :
    ∃ s₀ s₁ s₂ t result,
      run IapCall.run [.init] (Device.boot ⟨"factory", 0x10000⟩) = .ok ⟨⟩ s₀ ∧
      iapBegin exampleReplies s₀ = .ok .ok s₁ ∧
      iapWriteAll [([7], fun _ => ESP_OK)] s₁ = .ok true s₂ ∧
      iapCommit replies s₂ = .ok result t ∧ Streaming [7] s₂ ∧ Committed replies s₂ result t := by
  have hinit : wp (run IapCall.run [.init]) (fun _ s => Idle s ∧ s.iapState.initialized = true ∧
      s.bootPartition = ⟨"factory", 0x10000⟩) (fun _ _ => False)
      (Device.boot ⟨"factory", 0x10000⟩) :=
    ⟨⟨rfl, (boot_idle ⟨"factory", 0x10000⟩).noLeak, rfl⟩, rfl, rfl⟩
  obtain ⟨_, s₀, h₀, hidle, hi, hboot⟩ := exists_ok_of_wp hinit
  have hbegin := iapBegin_succeeds hidle hi (hboot ▸ exampleReplies_succeeds)
  obtain ⟨_, s₁, h₁, rfl, -, hsession, hempty, -, -, hstart, partition, -, -, htrace⟩ :=
    exists_ok_of_wp hbegin
  have hopened : Streaming [] s₁ :=
    ⟨hsession, hempty, by simp [htrace, flashed], by rw [hstart]; decide⟩
  have hwrite : wp (iapWriteAll [([7], fun _ => ESP_OK)]) (fun all t => all = true ∧ Streaming [7] t)
      (fun _ _ => False) s₁ := by
    simp only [iapWriteAll, wp_bind]
    refine wp_mono (wp_and (iapWrite_spec hsession [7] fun _ => ESP_OK) (iapWrite_streaming hopened))
      ?_ (fun _ _ h => h.1)
    intro result t hpost
    obtain ⟨hwritten, hstreaming⟩ := hpost
    have hok : result = .ok := by
      rcases hwritten.outcome with ⟨hok, -⟩ | ⟨-, k, hfail⟩
      · exact hok
      · exact absurd rfl hfail
    simp only [wp_ite, wp_pure]
    exact ⟨fun _ => ⟨trivial, hstreaming hok⟩, fun hne => absurd hok hne⟩
  obtain ⟨_, s₂, h₂, rfl, hstreaming⟩ := exists_ok_of_wp hwrite
  obtain ⟨result, t, ht, hcommitted⟩ := exists_ok_of_wp (iapCommit_spec hstreaming.session replies)
  exact ⟨s₀, s₁, s₂, t, result, h₀, h₁, h₂, ht, hstreaming, hcommitted⟩

-- The failed write of the last page goes unnoticed.
theorem commit_of_lost_page : ∃ s₂ t result, iapCommit ⟨-1, ESP_OK, ESP_OK⟩ s₂ = .ok result t ∧
    ¬(Activates s₂ t result → flashed t.trace = [7]) := by
  obtain ⟨s₀, s₁, s₂, t, result, h₀, h₁, h₂, ht, -, -⟩ := one_byte_run ⟨-1, ESP_OK, ESP_OK⟩
  exact ⟨s₂, t, result, ht, fun h => absurd ((commit_exact_iff h₀ h₁ h₂ ht).mp h) (by decide)⟩

theorem commit_not_exact :
    ¬∀ (partition : Partition) (calls : List IapCall) (begin : BeginReplies)
      (writes : List (Bytes × (Nat → EspErr))) (replies : CommitReplies) (s₀ s₁ s₂ t : Device)
      (result : IapErr), run IapCall.run calls (Device.boot partition) = .ok ⟨⟩ s₀ →
      iapBegin begin s₀ = .ok .ok s₁ → iapWriteAll writes s₁ = .ok true s₂ →
      iapCommit replies s₂ = .ok result t → Activates s₂ t result →
      flashed t.trace = writes.flatMap Prod.fst := by
  intro h
  obtain ⟨s₀, s₁, s₂, t, result, h₀, h₁, h₂, ht, hstreaming, hcommitted⟩ :=
    one_byte_run ⟨-1, ESP_OK, ESP_OK⟩
  have hactivates := (commit_activates hcommitted).mpr rfl
  have hflashed := h _ _ _ _ _ s₀ s₁ s₂ t result h₀ h₁ h₂ ht hactivates
  exact absurd ((commit_flashes hstreaming hcommitted).mp hflashed) (by decide)

end Esp32Ota

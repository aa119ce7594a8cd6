import Esp32Ota.Iap.Session

-- What the calls of iap.c cannot do, in whatever state they start.
namespace Esp32Ota

open CLib Halting

-- `t` follows `s` in the same boot, and `P` holds of every event in between.
structure Follows (P : Event → Prop) (s t : Device) : Prop where
  running : t.runningPartition = s.runningPartition
  events : ∃ events, t.trace = events ++ s.trace ∧ ∀ event ∈ events, P event

theorem Follows.refl (P : Event → Prop) (s : Device) : Follows P s s := ⟨rfl, [], rfl, by simp⟩

theorem Follows.trans {P : Event → Prop} {s t u : Device} (hst : Follows P s t)
    (htu : Follows P t u) : Follows P s u := by
  obtain ⟨events, htrace, hevents⟩ := hst.events
  obtain ⟨events', htrace', hevents'⟩ := htu.events
  refine ⟨htu.running.trans hst.running, events' ++ events, ?_, ?_⟩
  · rw [htrace', htrace, List.append_assoc]
  · intro event he
    exact (List.mem_append.mp he).elim (hevents' event) (hevents event)

theorem Follows.mono {P R : Event → Prop} {s t : Device} (h : Follows P s t)
    (hP : ∀ event, P event → R event) : Follows R s t := by
  obtain ⟨events, htrace, hevents⟩ := h.events
  exact ⟨h.running, events, htrace, fun event he => hP event (hevents event he)⟩

-- What holds of all earlier events and of the new ones holds of all.
theorem Follows.all {P : Event → Prop} {s t : Device} (h : Follows P s t)
    (hs : ∀ event ∈ s.trace, P event) : ∀ event ∈ t.trace, P event := by
  obtain ⟨events, htrace, hevents⟩ := h.events
  rw [htrace]
  intro event he
  exact (List.mem_append.mp he).elim (hevents event) (hs event)

-- The boot partition stays as well.
structure Keeps (P : Event → Prop) (s t : Device) : Prop extends Follows P s t where
  boot : t.bootPartition = s.bootPartition

theorem Keeps.refl (P : Event → Prop) (s : Device) : Keeps P s s := ⟨Follows.refl P s, rfl⟩

theorem Keeps.trans {P : Event → Prop} {s t u : Device} (hst : Keeps P s t) (htu : Keeps P t u) :
    Keeps P s u :=
  ⟨hst.toFollows.trans htu.toFollows, htu.boot.trans hst.boot⟩

theorem Keeps.mono {P R : Event → Prop} {s t : Device} (h : Keeps P s t)
    (hP : ∀ event, P event → R event) : Keeps R s t :=
  ⟨h.toFollows.mono hP, h.boot⟩

theorem Keeps.same {P : Event → Prop} {s t : Device} (htrace : t.trace = s.trace)
    (hrunning : t.runningPartition = s.runningPartition) (hboot : t.bootPartition = s.bootPartition) :
    Keeps P s t :=
  ⟨⟨hrunning, [], htrace, by simp⟩, hboot⟩

theorem Keeps.one {P : Event → Prop} {s t : Device} {event : Event} (hevent : P event)
    (htrace : t.trace = event :: s.trace) (hrunning : t.runningPartition = s.runningPartition)
    (hboot : t.bootPartition = s.bootPartition) : Keeps P s t :=
  ⟨⟨hrunning, [event], htrace, by simpa using hevent⟩, hboot⟩

section Calls

variable {s : Device}

-- The state at either exit, for programs that reach it by a frame condition.
theorem wp_freePageBuffer_any {Q : Unit → Device → Prop} {E : Halt → Device → Prop}
    (hQ : ∀ heap, Q () { s with heap }) (hE : E .undefined s) : wp freePageBuffer Q E s := by
  simp only [freePageBuffer, wp_bind, wp_get]
  cases s.heap.free s.iapState.pageBuffer with
  | none => exact hE
  | some heap => exact hQ heap

def IsWrite (event : Event) : Prop := ∃ handle payload result, event = .otaWrite handle payload result

def IsAbort (event : Event) : Prop := ∃ handle result, event = .otaEnd handle false result

def BeginsOn (target : Option Partition) (event : Event) : Prop :=
  ∃ partition result handle, event = .otaBegin partition result handle ∧ target = some partition

theorem iapBegin_keeps (replies : BeginReplies) (s : Device) :
    wp (iapBegin replies)
      (fun _ t => Keeps (BeginsOn (iapFindNextBootPartition replies.partitionFindFirst s.bootPartition)) s t)
      (fun _ t => Keeps (BeginsOn (iapFindNextBootPartition replies.partitionFindFirst s.bootPartition)) s t)
      s := by
  simp only [iapBegin, wp_bind, wp_get, wp_ite, wp_pure]
  refine ⟨fun _ => Keeps.refl _ s, fun _ => ⟨fun _ => Keeps.refl _ s, fun _ => ?_⟩⟩
  cases replies.malloc with
  | none => exact Keeps.same rfl rfl rfl
  | some stale =>
      simp only [wp_bind, wp_modify]
      cases hnext : iapFindNextBootPartition replies.partitionFindFirst s.bootPartition with
      | none =>
          simp only [wp_bind, wp_pure]
          exact wp_freePageBuffer_any (fun _ => Keeps.same rfl rfl rfl) (Keeps.same rfl rfl rfl)
      | some partition =>
          have hevent : BeginsOn (some partition)
              (.otaBegin partition replies.otaBegin replies.otaHandle) := ⟨_, _, _, rfl, rfl⟩
          simp only [wp_bind, wp_modify, wp_log, wp_ite, wp_pure]
          refine ⟨fun _ => ?_, fun _ => Keeps.one hevent rfl rfl rfl⟩
          exact wp_freePageBuffer_any (fun _ => Keeps.one hevent rfl rfl rfl)
            (Keeps.one hevent rfl rfl rfl)

theorem iapWritePageBuffer_keeps (otaWrite : EspErr) (s : Device) :
    wp (iapWritePageBuffer otaWrite) (fun _ t => Keeps IsWrite s t) (fun _ t => Keeps IsWrite s t) s := by
  simp only [iapWritePageBuffer, wp_bind, wp_get, wp_ite, wp_pure]
  refine ⟨fun _ => Keeps.refl _ s, fun _ => ?_⟩
  cases s.heap.read s.iapState.pageBuffer s.iapState.pageBufferIx with
  | none => exact Keeps.refl _ s
  | some payload =>
      have hevent : IsWrite (.otaWrite s.iapState.otaHandle payload otaWrite) := ⟨_, _, _, rfl⟩
      simp only [wp_bind, wp_log, wp_ite, wp_pure, wp_modify]
      exact ⟨fun _ => Keeps.one hevent rfl rfl rfl, fun _ => Keeps.one hevent rfl rfl rfl⟩

theorem copyToPageBuffer_keeps {P : Event → Prop} (bytes : Bytes) (s : Device) :
    wp (copyToPageBuffer bytes) (fun _ t => Keeps P s t) (fun _ t => Keeps P s t) s := by
  simp only [copyToPageBuffer, wp_bind, wp_get]
  cases s.heap.write s.iapState.pageBuffer s.iapState.pageBufferIx bytes with
  | none => exact Keeps.refl P s
  | some heap => exact Keeps.same rfl rfl rfl

theorem iapWriteLoop_keeps (otaWrite : Nat → EspErr) (fuel k : Nat) (bytes : Bytes) (s : Device) :
    wp (iapWriteLoop otaWrite fuel k bytes) (fun _ t => Keeps IsWrite s t)
      (fun _ t => Keeps IsWrite s t) s := by
  induction fuel generalizing k bytes s with
  | zero => exact Keeps.refl _ s
  | succ fuel ih =>
      simp only [iapWriteLoop, wp_bind, wp_get, wp_ite, wp_pure]
      refine ⟨fun _ => Keeps.refl _ s, fun _ => ?_⟩
      refine wp_mono (copyToPageBuffer_keeps _ s) ?_ (fun _ _ h => h)
      intro _ t ht
      have hrest := fun k bytes (u : Device) (hu : Keeps IsWrite s u) =>
        wp_weaken (ih k bytes u) fun _ hv => hu.trans hv
      refine ⟨fun _ => ?_, fun _ => hrest _ _ t ht⟩
      refine wp_mono (iapWritePageBuffer_keeps (otaWrite k) t) ?_ (fun _ _ hu => ht.trans hu)
      intro _ u hu
      exact ⟨fun _ => ht.trans hu, fun _ => hrest _ _ u (ht.trans hu)⟩

theorem iapWrite_keeps (bytes : Bytes) (otaWrite : Nat → EspErr) (s : Device) :
    wp (iapWrite bytes otaWrite) (fun _ t => Keeps IsWrite s t) (fun _ t => Keeps IsWrite s t) s := by
  simp only [iapWrite, wp_bind, wp_get, wp_ite, wp_pure]
  exact ⟨fun _ => Keeps.refl _ s, fun _ => ⟨fun _ => Keeps.refl _ s,
    fun _ => iapWriteLoop_keeps otaWrite _ 0 bytes s⟩⟩

theorem iapAbort_keeps (otaEnd : EspErr) (s : Device) :
    wp (iapAbort otaEnd) (fun _ t => Keeps IsAbort s t) (fun _ t => Keeps IsAbort s t) s := by
  simp only [iapAbort, iapFinish, wp_bind, wp_get, wp_ite, wp_pure]
  refine ⟨fun _ => Keeps.refl _ s, fun _ => ⟨fun _ => Keeps.refl _ s, fun _ => ?_⟩⟩
  have hevent : IsAbort (.otaEnd s.iapState.otaHandle false otaEnd) := ⟨_, _, rfl⟩
  refine wp_freePageBuffer_any (fun heap => ?_) (Keeps.refl _ s)
  simp only [wp_modify, wp_log]
  exact ⟨fun h => (by cases h), fun _ => Keeps.one hevent rfl rfl rfl⟩

-- A commit only writes, ends the update and moves the boot partition.
def IsFinish (event : Event) : Prop :=
  (∃ handle result, event = .otaEnd handle true result) ∨
    ∃ partition result, event = .otaSetBootPartition partition result

def IsCommit (event : Event) : Prop :=
  IsWrite event ∨ (∃ handle result, event = .otaEnd handle true result) ∨
    (∃ partition result, event = .otaSetBootPartition partition result) ∨
    ∃ result, event = .iapCommit result

theorem iapFinish_follows (replies : CommitReplies) (s : Device) :
    wp (iapFinish true replies.otaEnd replies.otaSetBootPartition) (fun _ t => Follows IsFinish s t)
      (fun _ t => Follows IsFinish s t) s := by
  simp only [iapFinish, wp_bind, wp_get, wp_ite, wp_pure]
  refine ⟨fun _ => Follows.refl _ s, fun _ => ⟨fun _ => Follows.refl _ s, fun _ => ?_⟩⟩
  refine wp_freePageBuffer_any (fun heap => ?_) (Follows.refl _ s)
  have hend : IsFinish (.otaEnd s.iapState.otaHandle true replies.otaEnd) := .inl ⟨_, _, rfl⟩
  have hset : IsFinish (.otaSetBootPartition s.iapState.partitionToProgram
      replies.otaSetBootPartition) := .inr ⟨_, _, rfl⟩
  simp only [wp_modify, wp_log]
  refine ⟨fun _ => ⟨fun _ => ⟨rfl, [_], rfl, by simpa using hend⟩, fun _ => ⟨fun _ => ?_, fun _ => ?_⟩⟩,
    fun h => absurd trivial h⟩
  · exact ⟨rfl, [_, _], rfl, by simpa using ⟨hset, hend⟩⟩
  · exact ⟨rfl, [_, _], rfl, by simpa using ⟨hset, hend⟩⟩

theorem iapCommit_follows (replies : CommitReplies) (s : Device) :
    wp (iapCommit replies) (fun _ t => Follows IsCommit s t) (fun _ t => Follows IsCommit s t) s := by
  simp only [iapCommit, wp_bind, wp_log, wp_pure]
  have hwrites := fun t (ht : Keeps IsWrite s t) => ht.toFollows.mono (R := IsCommit) fun _ => .inl
  refine wp_mono (iapWritePageBuffer_keeps replies.otaWrite s) ?_ (fun _ t ht => hwrites t ht)
  intro _ t ht
  have hfinish := fun u (hu : Follows IsFinish t u) => (hwrites t ht).trans (hu.mono (R := IsCommit) fun _ h =>
    .inr (h.imp_right .inl))
  refine wp_mono (iapFinish_follows replies t) ?_ (fun _ u hu => hfinish u hu)
  intro result u hu
  have hlog : Follows IsCommit u { u with trace := .iapCommit result :: u.trace } :=
    ⟨rfl, [_], rfl, by simp [IsCommit]⟩
  exact (hfinish u hu).trans hlog

end Calls

section Rejected

-- ESP-IDF does not take a full page.
def RejectedPage (event : Event) : Prop :=
  ∃ handle payload result, event = .otaWrite handle payload result ∧ payload.length = IAP_PAGE_SIZE ∧
    result ≠ ESP_OK

-- Between `s` and `t` a page is rejected, or none is.
def Rejects (s t : Device) : Prop :=
  ∃ events, t.trace = events ++ s.trace ∧ ∃ event ∈ events, RejectedPage event

abbrev Accepting : Device → Device → Prop := Follows fun event => ¬RejectedPage event

variable {s t u : Device}

theorem Accepting.not_rejects (h : Accepting s t) : ¬Rejects s t := by
  intro hrejects
  obtain ⟨events, htrace, hevents⟩ := h.events
  obtain ⟨events', htrace', event, hevent, hpage⟩ := hrejects
  have hsame : events = events' := List.append_cancel_right (htrace.symm.trans htrace')
  exact hevents event (hsame ▸ hevent) hpage

theorem Rejects.after {P : Event → Prop} (htu : Rejects t u) (hst : Follows P s t) : Rejects s u := by
  obtain ⟨events, htrace, -⟩ := hst.events
  obtain ⟨later, hlater, event, hevent, hpage⟩ := htu
  exact ⟨later ++ events, by rw [hlater, htrace, List.append_assoc], event, List.mem_append_left _ hevent, hpage⟩

theorem Rejects.before {P : Event → Prop} (hst : Rejects s t) (htu : Follows P t u) : Rejects s u := by
  obtain ⟨events, htrace, event, hevent, hpage⟩ := hst
  obtain ⟨later, hlater, -⟩ := htu.events
  exact ⟨later ++ events, by rw [hlater, htrace, List.append_assoc], event, List.mem_append_right _ hevent, hpage⟩

-- A call whose events are no page writes rejects no page.
theorem Follows.accepting {P : Event → Prop} (h : Follows P s t)
    (hP : ∀ event, P event → ¬IsWrite event) : Accepting s t := by
  refine h.mono fun event hevent hpage => ?_
  obtain ⟨handle, payload, result, rfl, -⟩ := hpage
  exact hP _ hevent ⟨handle, payload, result, rfl⟩

theorem length_of_read {heap : Heap} {p : Pointer} {count : Nat} {payload : Bytes}
    (h : heap.read p count = some payload) : payload.length = count := by
  unfold Heap.read at h
  split at h
  · split at h
    · rename_i hle
      rw [Option.some.injEq] at h
      rw [← h, List.length_take, Nat.min_eq_left hle]
    · cases h
  · cases h

-- A flush writes the bytes in the page buffer.
theorem iapWritePageBuffer_accepts (otaWrite : EspErr) (s : Device) :
    wp (iapWritePageBuffer otaWrite)
      (fun result t => (s.iapState.pageBufferIx ≠ IAP_PAGE_SIZE ∨ result = .ok → Accepting s t) ∧
        (s.iapState.pageBufferIx = IAP_PAGE_SIZE → result ≠ .ok → Rejects s t))
      (fun _ _ => True) s := by
  simp only [iapWritePageBuffer, wp_bind, wp_get, wp_ite, wp_pure]
  refine ⟨fun _ => ⟨fun _ => Follows.refl _ s, fun _ h => absurd rfl h⟩, fun _ => ?_⟩
  cases hread : s.heap.read s.iapState.pageBuffer s.iapState.pageBufferIx with
  | none => exact trivial
  | some payload =>
      have hlength := length_of_read hread
      have hone : ∀ t : Device, t.trace = .otaWrite s.iapState.otaHandle payload otaWrite :: s.trace →
          t.runningPartition = s.runningPartition →
          s.iapState.pageBufferIx ≠ IAP_PAGE_SIZE ∨ otaWrite = ESP_OK → Accepting s t := by
        intro t htrace hrunning hcause
        refine ⟨hrunning, [_], htrace, ?_⟩
        simp only [List.mem_singleton, forall_eq]
        intro hpage
        obtain ⟨_, _, _, hevent, hfull, hfailed⟩ := hpage
        cases hevent
        exact hcause.elim (fun hne => hne (hlength ▸ hfull)) hfailed
      simp only [wp_bind, wp_log, wp_ite, wp_pure, wp_modify]
      refine ⟨fun hfailed => ⟨fun hcause => ?_, fun hfull _ => ?_⟩, fun hok => ⟨fun _ => ?_, fun _ h => ?_⟩⟩
      · exact hone _ rfl rfl (hcause.imp_right fun h => by cases h)
      · exact ⟨[_], rfl, _, List.mem_singleton_self _, _, payload, otaWrite, rfl, hlength.trans hfull, hfailed⟩
      · exact hone _ rfl rfl (.inr (not_not.mp hok))
      · exact absurd rfl h

theorem iapWriteLoop_accepts (otaWrite : Nat → EspErr) (fuel k : Nat) (bytes : Bytes) (s : Device) :
    wp (iapWriteLoop otaWrite fuel k bytes)
      (fun result t => (result = .ok → Accepting s t) ∧ (result ≠ .ok → Rejects s t)) (fun _ _ => True) s := by
  induction fuel generalizing k bytes s with
  | zero => exact trivial
  | succ fuel ih =>
      simp only [iapWriteLoop, wp_bind, wp_get, wp_ite, wp_pure]
      refine ⟨fun _ => ⟨fun _ => Follows.refl _ s, fun h => absurd rfl h⟩, fun _ => ?_⟩
      refine wp_mono (copyToPageBuffer_keeps (P := fun event => ¬RejectedPage event) _ s) ?_
        (fun _ _ _ => trivial)
      intro _ t hkeeps
      have ht : Accepting s t := hkeeps.toFollows
      have hrest : ∀ k bytes (u : Device), Accepting s u → wp (iapWriteLoop otaWrite fuel k bytes)
          (fun result v => (result = .ok → Accepting s v) ∧ (result ≠ .ok → Rejects s v)) (fun _ _ => True) u :=
        fun k bytes u hu => wp_mono (ih k bytes u)
          (fun _ _ hv => ⟨fun h => hu.trans (hv.1 h), fun h => (hv.2 h).after hu⟩) (fun _ _ h => h)
      refine ⟨fun hfull => ?_, fun _ => hrest _ _ t ht⟩
      refine wp_mono (iapWritePageBuffer_accepts (otaWrite k) t) ?_ (fun _ _ h => h)
      intro result u hu
      refine ⟨fun hne => ⟨fun h => (by cases h), fun _ => (hu.2 hfull hne).after ht⟩, fun hok => ?_⟩
      exact hrest _ _ u (ht.trans (hu.1 (.inr (not_not.mp hok))))

theorem iapWrite_accepts {s : Device} (hs : Session s) (bytes : Bytes) (otaWrite : Nat → EspErr) :
    wp (iapWrite bytes otaWrite)
      (fun result t => (result = .ok → Accepting s t) ∧ (result ≠ .ok → Rejects s t)) (fun _ _ => True) s := by
  simp only [iapWrite, wp_bind, wp_get, hs.initialized, hs.isOpen, Bool.not_true,
    Bool.false_eq_true, ite_false]
  exact iapWriteLoop_accepts otaWrite _ 0 bytes s

theorem iapBegin_accepts (replies : BeginReplies) (s : Device) :
    wp (iapBegin replies) (fun _ t => Accepting s t) (fun _ t => Accepting s t) s := by
  have hbegin : ∀ t, Keeps (BeginsOn (iapFindNextBootPartition replies.partitionFindFirst s.bootPartition)) s t →
      Accepting s t := by
    intro t ht
    refine ht.toFollows.accepting fun event hevent hwrite => ?_
    obtain ⟨_, _, _, rfl, -⟩ := hevent
    obtain ⟨_, _, _, hevent⟩ := hwrite
    cases hevent
  exact wp_weaken (iapBegin_keeps replies s) hbegin

theorem iapAbort_accepts (otaEnd : EspErr) (s : Device) :
    wp (iapAbort otaEnd) (fun _ t => Accepting s t) (fun _ t => Accepting s t) s := by
  have habort : ∀ t, Keeps IsAbort s t → Accepting s t := by
    intro t ht
    refine ht.toFollows.accepting fun event hevent hwrite => ?_
    obtain ⟨_, _, rfl⟩ := hevent
    obtain ⟨_, _, _, hevent⟩ := hwrite
    cases hevent
  exact wp_weaken (iapAbort_keeps otaEnd s) habort

-- The last write of a commit is none of a full page.
theorem iapCommit_accepts (replies : CommitReplies) {s : Device} (hs : s.iapState.pageBufferIx ≠ IAP_PAGE_SIZE) :
    wp (iapCommit replies) (fun _ t => Accepting s t) (fun _ _ => True) s := by
  simp only [iapCommit, wp_bind, wp_log, wp_pure]
  refine wp_mono (iapWritePageBuffer_accepts replies.otaWrite s) ?_ (fun _ _ _ => trivial)
  intro _ t ht
  have ht := ht.1 (.inl hs)
  refine wp_mono (iapFinish_follows replies t) ?_ (fun _ _ _ => trivial)
  intro result u hu
  have hfinish : Accepting t u := by
    refine hu.accepting fun event hevent hwrite => ?_
    obtain ⟨_, _, _, rfl⟩ := hwrite
    rcases hevent with ⟨_, _, hevent⟩ | ⟨_, _, hevent⟩ <;> cases hevent
  have hlog : Accepting u { u with trace := .iapCommit result :: u.trace } :=
    ⟨rfl, [_], rfl, by simp [RejectedPage]⟩
  exact (ht.trans hfinish).trans hlog

end Rejected

end Esp32Ota

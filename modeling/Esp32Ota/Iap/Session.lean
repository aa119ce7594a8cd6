import Esp32Ota.Iap

-- What a programming session is worth: the bytes it has flashed and buffered,
-- and what each call of iap.c does to them.
namespace Esp32Ota

open CLib Halting

-- The payloads of the successful writes since the last successful begin.
def flashed : List Event → Bytes
  | [] => []
  | .otaBegin _ result _ :: earlier => if result = ESP_OK then [] else flashed earlier
  | .otaWrite _ payload result :: earlier =>
      if result = ESP_OK then flashed earlier ++ payload else flashed earlier
  | _ :: earlier => flashed earlier

namespace Device

def page (s : Device) : Bytes := (s.heap.deref s.iapState.pageBuffer).getD []

-- The bytes the session has taken over: those in flash, then those in the
-- page buffer.
def accepted (s : Device) : Bytes :=
  flashed s.trace ++ s.page.take s.iapState.pageBufferIx

end Device

-- No session, and no page buffer that nobody would free.
structure Idle (s : Device) : Prop where
  closed : s.iapState.sessionOpen = false
  noLeak : s.heap.OnlyLive none
  emptyBuffer : s.iapState.pageBufferIx = 0

-- A session with a usable page buffer.
structure Session (s : Device) : Prop where
  initialized : s.iapState.initialized = true
  isOpen : s.iapState.sessionOpen = true
  live : s.heap.deref s.iapState.pageBuffer = some s.page
  size : s.page.length = IAP_PAGE_SIZE
  onlyLive : s.heap.OnlyLive s.iapState.pageBuffer
  inPage : s.iapState.pageBufferIx ≤ IAP_PAGE_SIZE
  address : ∃ partition, s.iapState.partitionToProgram = some partition ∧
    s.iapState.curFlashAddress = partition.address + UInt32.ofNat (flashed s.trace).length

-- What a failed commit leaves open: a session without a page buffer.
structure Stuck (s : Device) : Prop where
  initialized : s.iapState.initialized = true
  isOpen : s.iapState.sessionOpen = true
  noBuffer : s.iapState.pageBuffer = none
  noLeak : s.heap.OnlyLive none
  emptyBuffer : s.iapState.pageBufferIx = 0

-- `t` follows `s` by page writes alone, and `P` holds of each of them.
structure Writes (P : Bytes → EspErr → Prop) (s t : Device) : Prop where
  initialized : t.iapState.initialized = s.iapState.initialized
  sessionOpen : t.iapState.sessionOpen = s.iapState.sessionOpen
  partition : t.iapState.partitionToProgram = s.iapState.partitionToProgram
  handle : t.iapState.otaHandle = s.iapState.otaHandle
  buffer : t.iapState.pageBuffer = s.iapState.pageBuffer
  boot : t.bootPartition = s.bootPartition
  running : t.runningPartition = s.runningPartition
  events : ∃ events, t.trace = events ++ s.trace ∧ ∀ event ∈ events, ∃ payload result,
    event = .otaWrite s.iapState.otaHandle payload result ∧ P payload result

theorem Writes.refl (P : Bytes → EspErr → Prop) (s : Device) : Writes P s s :=
  ⟨rfl, rfl, rfl, rfl, rfl, rfl, rfl, [], rfl, by simp⟩

theorem Writes.trans {P : Bytes → EspErr → Prop} {s t u : Device}
    (hst : Writes P s t) (htu : Writes P t u) : Writes P s u := by
  obtain ⟨events, htrace, hevents⟩ := hst.events
  obtain ⟨events', htrace', hevents'⟩ := htu.events
  refine ⟨htu.initialized.trans hst.initialized, htu.sessionOpen.trans hst.sessionOpen,
    htu.partition.trans hst.partition, htu.handle.trans hst.handle, htu.buffer.trans hst.buffer,
    htu.boot.trans hst.boot, htu.running.trans hst.running, events' ++ events, ?_, ?_⟩
  · rw [htrace', htrace, List.append_assoc]
  · intro event he
    rcases List.mem_append.mp he with he | he
    · rw [← hst.handle]
      exact hevents' event he
    · exact hevents event he

theorem Writes.mono {P R : Bytes → EspErr → Prop} {s t : Device} (h : Writes P s t)
    (hP : ∀ payload result, P payload result → R payload result) : Writes R s t := by
  refine { h with events := ?_ }
  obtain ⟨events, htrace, hevents⟩ := h.events
  refine ⟨events, htrace, fun event he => ?_⟩
  obtain ⟨payload, result, heq, hp⟩ := hevents event he
  exact ⟨payload, result, heq, hP payload result hp⟩

-- The trace has grown by writes to `handle` alone, each of which goes on with
-- `image` where the successful ones before it have ended.
inductive Streamed (image : Bytes) (handle : Nat) (before : List Event) : List Event → Prop
  | nothing : Streamed image handle before before
  | write {trace : List Event} (payload : Bytes) (result : EspErr)
      (h : Streamed image handle before trace) (next : flashed trace ++ payload <+: image) :
      Streamed image handle before (.otaWrite handle payload result :: trace)

theorem Streamed.trans {image : Bytes} {handle : Nat} {before between after : List Event}
    (hst : Streamed image handle before between) (htu : Streamed image handle between after) :
    Streamed image handle before after := by
  induction htu with
  | nothing => exact hst
  | write payload result _ next ih => exact .write payload result ih next

theorem Streamed.mono {image image' : Bytes} {handle : Nat} {before after : List Event}
    (h : Streamed image handle before after) (himage : image <+: image') :
    Streamed image' handle before after := by
  induction h with
  | nothing => exact .nothing
  | write payload result _ next ih => exact .write payload result ih (next.trans himage)

@[simp] theorem wp_log (event : Event) (Q : Unit → Device → Prop) (E : Halt → Device → Prop)
    (s : Device) : wp (log event) Q E s ↔ Q () { s with trace := event :: s.trace } := Iff.rfl

-- A page buffer with room for a page, be it full.
structure Writable (s : Device) : Prop where
  live : s.heap.deref s.iapState.pageBuffer = some s.page
  size : s.page.length = IAP_PAGE_SIZE
  inPage : s.iapState.pageBufferIx ≤ IAP_PAGE_SIZE

-- The flash address moves with what is flashed, and the other blocks of the heap stay.
structure Advances (s t : Device) : Prop where
  others : ∀ q, q ≠ s.iapState.pageBuffer → t.heap.deref q = s.heap.deref q
  address : ∃ n, t.iapState.curFlashAddress = s.iapState.curFlashAddress + UInt32.ofNat n ∧
    (flashed t.trace).length = (flashed s.trace).length + n

theorem Advances.refl (s : Device) : Advances s s := ⟨fun _ _ => rfl, 0, by simp, by simp⟩

theorem Advances.trans {s t u : Device} (hbuffer : t.iapState.pageBuffer = s.iapState.pageBuffer)
    (hst : Advances s t) (htu : Advances t u) : Advances s u := by
  obtain ⟨m, hm, hflashed⟩ := hst.address
  obtain ⟨n, hn, hflashed'⟩ := htu.address
  refine ⟨fun q hq => ?_, m + n, ?_, by omega⟩
  · rw [htu.others q (by rwa [hbuffer]), hst.others q hq]
  · rw [hn, hm, UInt32.ofNat_add, UInt32.add_assoc]

theorem Session.writable {s : Device} (hs : Session s) : Writable s := ⟨hs.live, hs.size, hs.inPage⟩

-- A session stays one under page writes.
theorem Session.advance {P : Bytes → EspErr → Prop} {s t : Device} (hs : Session s) (ht : Writable t)
    (hwrites : Writes P s t) (hadvances : Advances s t) : Session t := by
  obtain ⟨partition, hpartition, haddress⟩ := hs.address
  obtain ⟨n, hn, hflashed⟩ := hadvances.address
  refine ⟨hwrites.initialized.trans hs.initialized, hwrites.sessionOpen.trans hs.isOpen, ht.live, ht.size, ?_,
    ht.inPage, partition, hwrites.partition.trans hpartition, ?_⟩
  · rw [hwrites.buffer]
    exact hs.onlyLive.write hadvances.others
  · rw [hn, haddress, hflashed, UInt32.ofNat_add, UInt32.add_assoc]

theorem read_page {s : Device} (hs : Writable s) :
    s.heap.read s.iapState.pageBuffer s.iapState.pageBufferIx =
      some (s.page.take s.iapState.pageBufferIx) := by
  simp only [Heap.read, hs.live, hs.size, hs.inPage, ite_true]

-- A flush that succeeds moves the buffered bytes to flash; one that fails
-- leaves them where they are.
theorem iapWritePageBuffer_writes {s : Device} (hs : Writable s) (otaWrite : EspErr) :
    wp (iapWritePageBuffer otaWrite) (fun result t =>
      Writable t ∧ Advances s t ∧ t.accepted = s.accepted ∧
      Writes (fun payload result => payload = s.page.take s.iapState.pageBufferIx ∧
        result = otaWrite) s t ∧
      (result = .ok ∧ t.iapState.pageBufferIx = 0 ∧
          (s.iapState.pageBufferIx = 0 ∨ otaWrite = ESP_OK) ∨
        result = .writeFailed ∧ otaWrite ≠ ESP_OK ∧
          t.iapState.pageBufferIx = s.iapState.pageBufferIx ∧ s.iapState.pageBufferIx ≠ 0))
      (fun _ _ => False) s := by
  simp only [iapWritePageBuffer, wp_bind, wp_get, wp_ite, wp_pure]
  refine ⟨fun hix => ⟨hs, .refl s, trivial, Writes.refl _ s, .inl ⟨trivial, hix, .inl hix⟩⟩, fun hix => ?_⟩
  rw [read_page hs]
  simp only [wp_bind, wp_log, wp_ite, wp_pure, wp_modify]
  refine ⟨fun hw => ?_, fun hw => ?_⟩
  · refine ⟨⟨hs.live, hs.size, hs.inPage⟩, ⟨fun _ _ => rfl, 0, by simp, by simp [flashed, hw]⟩, ?_,
      ⟨rfl, rfl, rfl, rfl, rfl, rfl, rfl, [_], rfl, by simp⟩, .inr ⟨trivial, hw, trivial, hix⟩⟩
    simp [Device.accepted, Device.page, flashed, hw]
  · rw [not_not] at hw
    have hlen : (s.page.take s.iapState.pageBufferIx).length = s.iapState.pageBufferIx := by
      rw [List.length_take, hs.size, Nat.min_eq_left hs.inPage]
    refine ⟨⟨hs.live, hs.size, Nat.zero_le _⟩, ⟨fun _ _ => rfl, s.iapState.pageBufferIx, rfl, ?_⟩, ?_,
      ⟨rfl, rfl, rfl, rfl, rfl, rfl, rfl, [_], rfl, by simp⟩, .inl ⟨trivial, trivial, .inr hw⟩⟩
    · simp only [flashed, hw, ite_true, List.length_append, hlen]
    · simp [Device.accepted, Device.page, flashed, hw]

theorem iapWritePageBuffer_spec {s : Device} (hs : Session s) (otaWrite : EspErr) :
    wp (iapWritePageBuffer otaWrite) (fun result t =>
      Session t ∧ t.accepted = s.accepted ∧
      Writes (fun payload result => payload = s.page.take s.iapState.pageBufferIx ∧
        result = otaWrite) s t ∧
      (result = .ok ∧ t.iapState.pageBufferIx = 0 ∧
          (s.iapState.pageBufferIx = 0 ∨ otaWrite = ESP_OK) ∨
        result = .writeFailed ∧ otaWrite ≠ ESP_OK ∧
          t.iapState.pageBufferIx = s.iapState.pageBufferIx ∧ s.iapState.pageBufferIx ≠ 0))
      (fun _ _ => False) s := by
  refine wp_mono (iapWritePageBuffer_writes hs.writable otaWrite) ?_ (fun _ _ h => h)
  intro result t hpost
  obtain ⟨ht, hadvances, haccepted, hwrites, hresult⟩ := hpost
  exact ⟨hs.advance ht hwrites hadvances, haccepted, hwrites, hresult⟩

theorem iapWritePageBuffer_streamed {s : Device} (hs : Writable s) (otaWrite : EspErr) :
    wp (iapWritePageBuffer otaWrite)
      (fun _ t => Streamed s.accepted s.iapState.otaHandle s.trace t.trace) (fun _ _ => False) s := by
  simp only [iapWritePageBuffer, wp_bind, wp_get, wp_ite, wp_pure]
  refine ⟨fun _ => .nothing, fun _ => ?_⟩
  rw [read_page hs]
  simp only [wp_bind, wp_log, wp_ite, wp_pure, wp_modify]
  have hwrite : Streamed s.accepted s.iapState.otaHandle s.trace (.otaWrite s.iapState.otaHandle
      (s.page.take s.iapState.pageBufferIx) otaWrite :: s.trace) :=
    .write _ otaWrite .nothing (List.prefix_refl s.accepted)
  exact ⟨fun _ => hwrite, fun _ => hwrite⟩

-- Up to a page, a length keeps its value as a `uint16_t`.
theorem uint16_of_le_page {n : Nat} (h : n ≤ IAP_PAGE_SIZE) : uint16 n = n := by
  unfold uint16 IAP_PAGE_SIZE at *
  omega

theorem spaceRemaining_of_le_page {n : Nat} (h : n ≤ IAP_PAGE_SIZE) :
    uint16 (IAP_PAGE_SIZE + 2 ^ 16 - n) = IAP_PAGE_SIZE - n := by
  unfold uint16 IAP_PAGE_SIZE at *
  omega

theorem copyToPageBuffer_writes {s : Device} (hs : Writable s) (bytes : Bytes)
    (hfits : s.iapState.pageBufferIx + bytes.length ≤ IAP_PAGE_SIZE) :
    wp (copyToPageBuffer bytes) (fun _ t =>
      Writable t ∧ Advances s t ∧ t.accepted = s.accepted ++ bytes ∧ Writes (fun _ _ => False) s t ∧
      t.iapState.pageBufferIx = s.iapState.pageBufferIx + bytes.length ∧ t.trace = s.trace)
      (fun _ _ => False) s := by
  obtain ⟨heap, hwrite, hself, hother⟩ :=
    Heap.write_eq_some hs.live s.iapState.pageBufferIx bytes (by rw [hs.size]; exact hfits)
  simp only [copyToPageBuffer, wp_bind, wp_get, hwrite, wp_set, uint16_of_le_page hfits]
  have hlen := length_store s.page s.iapState.pageBufferIx bytes (by rw [hs.size]; exact hfits)
  refine ⟨⟨?_, ?_, hfits⟩, ⟨hother, 0, by simp, by simp⟩, ?_,
    ⟨rfl, rfl, rfl, rfl, rfl, rfl, rfl, [], rfl, by simp⟩, trivial, trivial⟩
  · simp [Device.page, hself]
  · simpa [Device.page, hself] using hlen.trans hs.size
  · have htake := take_store s.page s.iapState.pageBufferIx bytes (by rw [hs.size]; exact hs.inPage)
    simp only [Device.accepted, Device.page, hself, Option.getD_some] at htake ⊢
    rw [htake, List.append_assoc]

-- What a write leaves behind: a prefix of the bytes is accepted, which is the
-- whole of them unless a flush has failed.
structure Wrote (otaWrite : Nat → EspErr) (bytes : Bytes) (s : Device) (result : IapErr)
    (t : Device) : Prop where
  writable : Writable t
  advances : Advances s t
  writes : Writes (fun payload result =>
    payload.length = IAP_PAGE_SIZE ∧ ∃ k, result = otaWrite k) s t
  accepted : ∃ n ≤ bytes.length, t.accepted = s.accepted ++ bytes.take n ∧
    (result = .ok → n = bytes.length)
  outcome : result = .ok ∧ (t.iapState.pageBufferIx < IAP_PAGE_SIZE ∨ bytes = [] ∧ t = s) ∨
    result = .writeFailed ∧ ∃ k, otaWrite k ≠ ESP_OK
  streamed : Streamed (s.accepted ++ bytes) s.iapState.otaHandle s.trace t.trace

structure Written (otaWrite : Nat → EspErr) (bytes : Bytes) (s : Device) (result : IapErr)
    (t : Device) : Prop where
  session : Session t
  writes : Writes (fun payload result =>
    payload.length = IAP_PAGE_SIZE ∧ ∃ k, result = otaWrite k) s t
  accepted : ∃ n ≤ bytes.length, t.accepted = s.accepted ++ bytes.take n ∧
    (result = .ok → n = bytes.length)
  outcome : result = .ok ∧ (t.iapState.pageBufferIx < IAP_PAGE_SIZE ∨ bytes = [] ∧ t = s) ∨
    result = .writeFailed ∧ ∃ k, otaWrite k ≠ ESP_OK
  streamed : Streamed (s.accepted ++ bytes) s.iapState.otaHandle s.trace t.trace

theorem Written.all {otaWrite : Nat → EspErr} {bytes : Bytes} {s t : Device}
    (h : Written otaWrite bytes s .ok t) : t.accepted = s.accepted ++ bytes := by
  obtain ⟨n, -, haccepted, hall⟩ := h.accepted
  rw [haccepted, hall rfl, List.take_length]

-- A pass that copies `n` bytes comes before the passes for the others.
theorem Wrote.step {otaWrite : Nat → EspErr} {bytes : Bytes} {n : Nat} {s t u : Device}
    {result : IapErr} (hn : n ≤ bytes.length) (hadvances : Advances s t) (hst : Writes (fun payload result =>
      payload.length = IAP_PAGE_SIZE ∧ ∃ k, result = otaWrite k) s t)
    (haccepted : t.accepted = s.accepted ++ bytes.take n)
    (hix : t.iapState.pageBufferIx < IAP_PAGE_SIZE)
    (hstreamed : Streamed (s.accepted ++ bytes) s.iapState.otaHandle s.trace t.trace)
    (hrest : Wrote otaWrite (bytes.drop n) t result u) : Wrote otaWrite bytes s result u := by
  obtain ⟨m, hm, hacc, hok⟩ := hrest.accepted
  rw [List.length_drop] at hm hok
  refine ⟨hrest.writable, hadvances.trans hst.buffer hrest.advances, hst.trans hrest.writes,
    ⟨n + m, by omega, ?_, ?_⟩, ?_, ?_⟩
  · rw [hacc, haccepted, List.append_assoc, List.take_add]
  · intro hr
    have := hok hr
    omega
  · rcases hrest.outcome with ⟨hr, hlt | ⟨-, rfl⟩⟩ | hfail
    · exact .inl ⟨hr, .inl hlt⟩
    · exact .inl ⟨hr, .inl hix⟩
    · exact .inr hfail
  · have hnext := hrest.streamed
    rw [haccepted, List.append_assoc, List.take_append_drop, hst.handle] at hnext
    exact hstreamed.trans hnext

-- A pass copies something unless a failed flush has left a full page behind,
-- and then only the first pass does not: two units of fuel pay for that page.
theorem iapWriteLoop_wrote (otaWrite : Nat → EspErr) (fuel k : Nat) (bytes : Bytes) {s : Device}
    (hs : Writable s)
    (hfuel : bytes.length + (if s.iapState.pageBufferIx = IAP_PAGE_SIZE then 2 else 1) ≤ fuel) :
    wp (iapWriteLoop otaWrite fuel k bytes) (Wrote otaWrite bytes s) (fun _ _ => False) s := by
  induction fuel generalizing k bytes s with
  | zero => split at hfuel <;> omega
  | succ fuel ih =>
      simp only [iapWriteLoop, wp_bind, wp_get, wp_ite, wp_pure]
      refine ⟨fun hnil => ?_, fun hnil => ?_⟩
      · rw [List.length_eq_zero_iff] at hnil
        subst hnil
        exact ⟨hs, .refl s, Writes.refl _ s, ⟨0, Nat.le_refl _, by simp, fun _ => rfl⟩,
          .inl ⟨rfl, .inr ⟨rfl, rfl⟩⟩, .nothing⟩
      have hpage := hs.inPage
      rw [spaceRemaining_of_le_page hpage]
      generalize hn : min (IAP_PAGE_SIZE - s.iapState.pageBufferIx) bytes.length = n
      have hlen : (bytes.take n).length = n := by rw [List.length_take]; omega
      have hdrop : (bytes.drop n).length + 1 ≤ fuel := by
        rw [List.length_drop]
        split at hfuel <;> omega
      refine wp_mono (copyToPageBuffer_writes hs (bytes.take n) (by omega)) ?_ (fun _ _ h => h)
      intro _ t hpost
      obtain ⟨ht, hadvances, haccepted, hwrites, hix, htrace⟩ := hpost
      have hcopied : Streamed (s.accepted ++ bytes) s.iapState.otaHandle s.trace t.trace := by
        rw [htrace]
        exact .nothing
      have hst := hwrites.mono (R := fun payload result =>
        payload.length = IAP_PAGE_SIZE ∧ ∃ k, result = otaWrite k) (fun _ _ h => h.elim)
      refine ⟨fun hfull => ?_, fun hroom => ?_⟩
      · refine wp_mono (wp_and (iapWritePageBuffer_writes ht (otaWrite k))
          (iapWritePageBuffer_streamed ht (otaWrite k))) ?_ (fun _ _ h => h.1)
        intro result u hpost
        obtain ⟨⟨hu, hadvances', hacc, hw, hresult⟩, hflushed⟩ := hpost
        rw [hst.handle, haccepted] at hflushed
        have hstreamed := hcopied.trans (hflushed.mono ((List.prefix_append_right_inj _).mpr
          (List.take_prefix n bytes)))
        have hadvanced := hadvances.trans hst.buffer hadvances'
        have htu := hw.mono (R := fun payload result =>
            payload.length = IAP_PAGE_SIZE ∧ ∃ k, result = otaWrite k) (by
          intro _ _ hnone
          obtain ⟨rfl, rfl⟩ := hnone
          refine ⟨?_, k, rfl⟩
          rw [List.length_take, ht.size, hfull, Nat.min_self])
        rcases hresult with ⟨rfl, hzero, -⟩ | ⟨rfl, hfail, -, -⟩
        · refine ⟨fun h => absurd rfl h, fun _ => ?_⟩
          have hne : u.iapState.pageBufferIx ≠ IAP_PAGE_SIZE := by
            rw [hzero]
            decide
          refine wp_mono (ih (k + 1) (bytes.drop n) hu (by rw [if_neg hne]; exact hdrop)) ?_
            (fun _ _ h => h)
          intro result v hv
          exact hv.step (by omega) hadvanced (hst.trans htu) (hacc.trans haccepted)
            (by unfold IAP_PAGE_SIZE; omega) hstreamed
        · refine ⟨fun _ => ?_, fun h => absurd (by simp) h⟩
          exact ⟨hu, hadvanced, hst.trans htu, ⟨n, by omega, hacc.trans haccepted, by simp⟩,
            .inr ⟨rfl, k, hfail⟩, hstreamed⟩
      · have := ht.inPage
        refine wp_mono (ih k (bytes.drop n) ht (by rw [if_neg hroom]; exact hdrop)) ?_ (fun _ _ h => h)
        intro result v hv
        exact hv.step (by omega) hadvances hst haccepted (by omega) hcopied

theorem iapWrite_wrote {s : Device} (hinit : s.iapState.initialized = true)
    (hopen : s.iapState.sessionOpen = true) (hs : Writable s) (bytes : Bytes) (otaWrite : Nat → EspErr) :
    wp (iapWrite bytes otaWrite) (Wrote otaWrite bytes s) (fun _ _ => False) s := by
  simp only [iapWrite, wp_bind, wp_get, hinit, hopen, Bool.not_true, Bool.false_eq_true, ite_false]
  exact iapWriteLoop_wrote otaWrite _ 0 bytes hs (by split <;> omega)

theorem iapWrite_spec {s : Device} (hs : Session s) (bytes : Bytes) (otaWrite : Nat → EspErr) :
    wp (iapWrite bytes otaWrite) (Written otaWrite bytes s) (fun _ _ => False) s := by
  refine wp_mono (iapWrite_wrote hs.initialized hs.isOpen hs.writable bytes otaWrite) ?_ (fun _ _ h => h)
  intro result t ht
  exact ⟨hs.advance ht.writable ht.writes ht.advances, ht.writes, ht.accepted, ht.outcome, ht.streamed⟩

-- The calls that open and close a session, by the state they start from.

-- What the calls never touch: the partition the device executes from, and
-- whether the module is initialised.
structure Steady (s t : Device) : Prop where
  initialized : t.iapState.initialized = s.iapState.initialized
  running : t.runningPartition = s.runningPartition

inductive Begun (replies : BeginReplies) (s t : Device) (result : IapErr) : Prop
  | unallocated (idle : Idle t) (hresult : result = .outOfMemory ∨ result = .partitionNotFound)
      (cause : replies.malloc = none ∨
        iapFindNextBootPartition replies.partitionFindFirst s.bootPartition = none)
      (trace : t.trace = s.trace) (boot : t.bootPartition = s.bootPartition)
  | rejected (partition : Partition) (idle : Idle t) (hresult : result = .fail)
      (next : iapFindNextBootPartition replies.partitionFindFirst s.bootPartition = some partition)
      (failed : replies.otaBegin ≠ ESP_OK)
      (trace : t.trace = .otaBegin partition replies.otaBegin replies.otaHandle :: s.trace)
      (boot : t.bootPartition = s.bootPartition)
  | opened (partition : Partition) (session : Session t) (hresult : result = .ok)
      (next : iapFindNextBootPartition replies.partitionFindFirst s.bootPartition = some partition)
      (succeeded : replies.otaBegin = ESP_OK)
      (trace : t.trace = .otaBegin partition ESP_OK replies.otaHandle :: s.trace)
      (boot : t.bootPartition = s.bootPartition)
      (handle : t.iapState.otaHandle = replies.otaHandle)
      (target : t.iapState.partitionToProgram = some partition)
      (empty : t.accepted = []) (start : t.iapState.pageBufferIx = 0)

-- The page buffer is NULL or live, so it can be freed.
theorem wp_freePageBuffer {s : Device} {Q : Unit → Device → Prop} {E : Halt → Device → Prop}
    (honly : s.heap.OnlyLive s.iapState.pageBuffer)
    (hfree : s.iapState.pageBuffer = none ∨ ∃ page, s.heap.deref s.iapState.pageBuffer = some page)
    (hQ : ∀ heap : Heap, heap.OnlyLive none → Q () { s with heap }) :
    wp freePageBuffer Q E s := by
  rcases hfree with hnull | ⟨page, hpage⟩
  · simp only [freePageBuffer, wp_bind, wp_get, hnull, Heap.free, wp_set]
    exact hQ s.heap (hnull ▸ honly)
  · obtain ⟨heap, hfreed, hgone, hother⟩ := Heap.free_eq_some hpage
    simp only [freePageBuffer, wp_bind, wp_get, hfreed, wp_set]
    exact hQ heap (honly.free hgone hother)

theorem iapBegin_spec {s : Device} (hs : Idle s) (hinit : s.iapState.initialized = true)
    (replies : BeginReplies) :
    wp (iapBegin replies) (fun result t => Begun replies s t result ∧ Steady s t)
      (fun _ _ => False) s := by
  simp only [iapBegin, wp_bind, wp_get, hinit, hs.closed, Bool.not_true, Bool.false_eq_true, ite_false]
  cases hmalloc : replies.malloc with
  | none =>
      exact ⟨.unallocated ⟨hs.closed, hs.noLeak, rfl⟩ (.inl rfl) (.inl hmalloc) rfl rfl, rfl, rfl⟩
  | some stale =>
      have hself := Heap.deref_alloc_self s.heap (staleBlock stale IAP_PAGE_SIZE)
      have honly := Heap.OnlyLive.alloc hs.noLeak (staleBlock stale IAP_PAGE_SIZE)
      simp only [wp_bind, wp_modify]
      cases hnext : iapFindNextBootPartition replies.partitionFindFirst s.bootPartition with
      | none =>
          simp only [wp_bind, wp_pure]
          refine wp_freePageBuffer honly (.inr ⟨_, hself⟩) fun heap hheap => ?_
          exact ⟨.unallocated ⟨hs.closed, hheap, rfl⟩ (.inr rfl) (.inr hnext) rfl rfl, rfl, rfl⟩
      | some partition =>
          simp only [wp_bind, wp_modify, wp_log, wp_ite, wp_pure]
          refine ⟨fun hfail => ?_, fun hok => ?_⟩
          · refine wp_freePageBuffer honly (.inr ⟨_, hself⟩) fun heap hheap => ?_
            exact ⟨.rejected partition ⟨hs.closed, hheap, rfl⟩ rfl hnext hfail rfl rfl, rfl, rfl⟩
          · rw [not_not] at hok
            refine ⟨.opened partition ⟨hinit, rfl, ?_, ?_, honly, Nat.zero_le _, partition, rfl, ?_⟩ rfl
              hnext hok ?_ rfl rfl rfl ?_ rfl, rfl, rfl⟩
            · simp only [Device.page, hself, Option.getD_some]
            · simp only [Device.page, hself, Option.getD_some, length_staleBlock]
            · simp [flashed, hok]
            · rw [hok]
            · simp [Device.accepted, flashed, hok]

-- Every call that opens a session succeeds.
structure BeginSucceeds (replies : BeginReplies) (boot : Partition) : Prop where
  malloc : replies.malloc ≠ none
  next : iapFindNextBootPartition replies.partitionFindFirst boot ≠ none
  otaBegin : replies.otaBegin = ESP_OK

theorem iapBegin_succeeds {s : Device} (hs : Idle s) (hinit : s.iapState.initialized = true)
    {replies : BeginReplies} (hreplies : BeginSucceeds replies s.bootPartition) :
    wp (iapBegin replies) (fun result t => result = .ok ∧ Steady s t ∧
      Session t ∧ t.accepted = [] ∧ t.bootPartition = s.bootPartition ∧
      t.iapState.otaHandle = replies.otaHandle ∧ t.iapState.pageBufferIx = 0 ∧
      ∃ partition, iapFindNextBootPartition replies.partitionFindFirst s.bootPartition = some partition ∧
        t.iapState.partitionToProgram = some partition ∧
        t.trace = .otaBegin partition ESP_OK replies.otaHandle :: s.trace) (fun _ _ => False) s := by
  refine wp_mono (iapBegin_spec hs hinit replies) ?_ (fun _ _ h => h)
  intro result t hpost
  obtain ⟨ht, hsteady⟩ := hpost
  cases ht with
  | unallocated _ _ hcause =>
      rcases hcause with h | h
      · exact absurd h hreplies.malloc
      · exact absurd h hreplies.next
  | rejected _ _ _ _ hfail => exact absurd hreplies.otaBegin hfail
  | opened partition hsession hresult hnext _ htrace hboot hhandle htarget hempty hstart =>
      exact ⟨hresult, hsteady, hsession, hempty, hboot, hhandle, hstart, partition, hnext, htarget, htrace⟩

theorem iapBegin_open {s : Device} (hinit : s.iapState.initialized = true)
    (hopen : s.iapState.sessionOpen = true) (replies : BeginReplies) :
    wp (iapBegin replies) (fun result t => result = .sessionAlreadyOpen ∧ t = s)
      (fun _ _ => False) s := by
  simp only [iapBegin, wp_bind, wp_get, hinit, hopen, Bool.not_true, Bool.false_eq_true, ite_false,
    ite_true, wp_pure, and_self]

-- The three ways out of a commit of an open session.
inductive Finished (replies : CommitReplies) (s t : Device) (result : IapErr) : Prop
  | imageRejected (stuck : Stuck t) (hresult : result = .fail) (failed : replies.otaEnd ≠ ESP_OK)
      (trace : t.trace = .otaEnd s.iapState.otaHandle true replies.otaEnd :: s.trace)
      (boot : t.bootPartition = s.bootPartition)
  | activationFailed (stuck : Stuck t) (hresult : result = .fail) (ended : replies.otaEnd = ESP_OK)
      (failed : replies.otaSetBootPartition ≠ ESP_OK)
      (trace : t.trace = .otaSetBootPartition s.iapState.partitionToProgram
          replies.otaSetBootPartition ::
        .otaEnd s.iapState.otaHandle true ESP_OK :: s.trace)
      (boot : t.bootPartition = s.bootPartition)
  | activated (idle : Idle t) (hresult : result = .ok) (ended : replies.otaEnd = ESP_OK)
      (succeeded : replies.otaSetBootPartition = ESP_OK)
      (trace : t.trace = .otaSetBootPartition s.iapState.partitionToProgram ESP_OK ::
        .otaEnd s.iapState.otaHandle true ESP_OK :: s.trace)
      (boot : t.bootPartition = s.iapState.partitionToProgram.getD s.bootPartition)

section Finish

variable {s : Device}

theorem Session.freeable (hs : Session s) : s.iapState.pageBuffer = none ∨
    ∃ page, s.heap.deref s.iapState.pageBuffer = some page :=
  .inr ⟨s.page, hs.live⟩

theorem Stuck.onlyLive (hs : Stuck s) : s.heap.OnlyLive s.iapState.pageBuffer :=
  hs.noBuffer ▸ hs.noLeak

theorem iapFinish_commit (hs : Session s ∨ Stuck s) (replies : CommitReplies) :
    wp (iapFinish true replies.otaEnd replies.otaSetBootPartition)
      (fun result t => Finished replies s t result ∧ Steady s t) (fun _ _ => False) s := by
  have hinit : s.iapState.initialized = true := hs.elim Session.initialized Stuck.initialized
  have hopen : s.iapState.sessionOpen = true := hs.elim Session.isOpen Stuck.isOpen
  simp only [iapFinish, wp_bind, wp_get, hinit, hopen, Bool.not_true, Bool.false_eq_true, ite_false]
  refine wp_freePageBuffer (hs.elim Session.onlyLive Stuck.onlyLive)
    (hs.elim Session.freeable fun h => .inl h.noBuffer) fun heap hheap => ?_
  simp only [wp_bind, wp_modify, wp_log, wp_ite, wp_pure, ite_true]
  have hstuck : ∀ trace, Stuck { s with
      heap
      iapState.pageBuffer := none
      iapState.pageBufferIx := 0
      iapState.curFlashAddress := 0
      trace } := fun trace => ⟨hinit, hopen, rfl, hheap, rfl⟩
  refine ⟨fun hend => ?_, fun hend => ⟨fun hset => ?_, fun hset => ?_⟩⟩
  · exact ⟨.imageRejected (hstuck _) rfl hend rfl rfl, rfl, rfl⟩
  · rw [not_not] at hend
    exact ⟨.activationFailed (hstuck _) rfl hend hset (by rw [hend]) rfl, rfl, rfl⟩
  · rw [not_not] at hend hset
    exact ⟨.activated ⟨rfl, hheap, rfl⟩ rfl hend hset (by rw [hend, hset]) rfl, rfl, rfl⟩

theorem iapAbort_spec (hs : Session s ∨ Stuck s) (otaEnd : EspErr) :
    wp (iapAbort otaEnd) (fun result t => result = .ok ∧ Idle t ∧ Steady s t ∧
      t.trace = .otaEnd s.iapState.otaHandle false otaEnd :: s.trace ∧
      t.bootPartition = s.bootPartition) (fun _ _ => False) s := by
  have hinit : s.iapState.initialized = true := hs.elim Session.initialized Stuck.initialized
  have hopen : s.iapState.sessionOpen = true := hs.elim Session.isOpen Stuck.isOpen
  simp only [iapAbort, iapFinish, wp_bind, wp_get, hinit, hopen, Bool.not_true, Bool.false_eq_true,
    ite_false]
  refine wp_freePageBuffer (hs.elim Session.onlyLive Stuck.onlyLive)
    (hs.elim Session.freeable fun h => .inl h.noBuffer) fun heap hheap => ?_
  simp only [wp_modify, wp_log]
  exact ⟨rfl, ⟨rfl, hheap, rfl⟩, ⟨rfl, rfl⟩, rfl, rfl⟩

-- A commit goes on to finish the session whether or not the flush has failed.
inductive Flushed (otaWrite : EspErr) (s u : Device) : Prop
  | written (empty : u.iapState.pageBufferIx = 0)
      (cause : s.iapState.pageBufferIx = 0 ∨ otaWrite = ESP_OK)
  | lost (failed : otaWrite ≠ ESP_OK) (partialPage : s.iapState.pageBufferIx ≠ 0)
      (kept : u.iapState.pageBufferIx = s.iapState.pageBufferIx)

structure Committed (replies : CommitReplies) (s : Device) (result : IapErr) (t : Device) : Prop where
  steady : Steady s t
  path : ∃ u v, Session u ∧ u.accepted = s.accepted ∧
    Writes (fun payload result => payload = s.page.take s.iapState.pageBufferIx ∧
      result = replies.otaWrite) s u ∧
    Flushed replies.otaWrite s u ∧ Finished replies u v result ∧
    t = { v with trace := .iapCommit result :: v.trace }

theorem iapCommit_spec (hs : Session s) (replies : CommitReplies) :
    wp (iapCommit replies) (Committed replies s) (fun _ _ => False) s := by
  simp only [iapCommit, wp_bind, wp_log, wp_pure]
  refine wp_mono (iapWritePageBuffer_spec hs replies.otaWrite) ?_ (fun _ _ h => h)
  intro _ u hpost
  obtain ⟨hu, haccepted, hwrites, hflush⟩ := hpost
  refine wp_mono (iapFinish_commit (.inl hu) replies) ?_ (fun _ _ h => h)
  intro result v hv
  obtain ⟨hfinished, hsteady⟩ := hv
  refine ⟨⟨hsteady.initialized.trans hwrites.initialized, hsteady.running.trans hwrites.running⟩,
    u, v, hu, haccepted, hwrites, ?_, hfinished, rfl⟩
  rcases hflush with ⟨-, hempty, hcause⟩ | ⟨-, hfail, hkept, hpartial⟩
  · exact .written hempty hcause
  · exact .lost hfail hpartial hkept

def NoWrites (events : List Event) : Prop :=
  ∀ handle payload result, .otaWrite handle payload result ∉ events

theorem Finished.trace {replies : CommitReplies} {t : Device} {result : IapErr}
    (h : Finished replies s t result) : ∃ events, t.trace = events ++ s.trace ∧ NoWrites events := by
  cases h with
  | imageRejected _ _ _ trace => exact ⟨[_], trace, by simp [NoWrites]⟩
  | activationFailed _ _ _ _ trace => exact ⟨[_, _], trace, by simp [NoWrites]⟩
  | activated _ _ _ _ trace => exact ⟨[_, _], trace, by simp [NoWrites]⟩

-- A commit writes at most what is left in the page buffer.
theorem iapCommit_streamed (hs : Session s) (replies : CommitReplies) :
    wp (iapCommit replies) (fun _ t => ∃ events trace, t.trace = events ++ trace ∧ NoWrites events ∧
      Streamed s.accepted s.iapState.otaHandle s.trace trace) (fun _ _ => False) s := by
  simp only [iapCommit, wp_bind, wp_log, wp_pure]
  refine wp_mono (wp_and (iapWritePageBuffer_spec hs replies.otaWrite)
    (iapWritePageBuffer_streamed hs.writable replies.otaWrite)) ?_ (fun _ _ h => h.1)
  intro _ u hpost
  obtain ⟨⟨hu, -⟩, hstreamed⟩ := hpost
  refine wp_mono (iapFinish_commit (.inl hu) replies) ?_ (fun _ _ h => h)
  intro result v hv
  obtain ⟨hfinished, -⟩ := hv
  obtain ⟨events, htrace, hquiet⟩ := hfinished.trace
  refine ⟨.iapCommit result :: events, u.trace, by rw [htrace]; rfl, ?_, hstreamed⟩
  intro handle payload r hmem
  rcases List.mem_cons.mp hmem with h | h
  · cases h
  · exact hquiet handle payload r h

-- Without a buffered byte the flush does nothing.
theorem iapCommit_empty (hix : s.iapState.pageBufferIx = 0) (replies : CommitReplies)
    (Q : IapErr → Device → Prop) (E : Halt → Device → Prop) :
    wp (iapCommit replies) Q E s ↔
      wp (iapFinish true replies.otaEnd replies.otaSetBootPartition) (fun result v =>
        Q result { v with trace := .iapCommit result :: v.trace }) E s := by
  simp only [iapCommit, iapWritePageBuffer, wp_bind, wp_get, hix, ite_true, wp_pure, wp_log]

-- Without a session every call but `iap_init` and `iap_begin` is refused.
theorem iapFinish_closed (hs : s.iapState.sessionOpen = false) (commit : Bool)
    (otaEnd otaSetBootPartition : EspErr) :
    wp (iapFinish commit otaEnd otaSetBootPartition)
      (fun result t => (result = .notInitialized ∨ result = .noSession) ∧ t = s)
      (fun _ _ => False) s := by
  cases hinit : s.iapState.initialized <;>
    simp [iapFinish, hs, hinit]

theorem iapWrite_closed (hs : s.iapState.sessionOpen = false) (bytes : Bytes)
    (otaWrite : Nat → EspErr) :
    wp (iapWrite bytes otaWrite)
      (fun result t => (result = .notInitialized ∨ result = .noSession) ∧ t = s)
      (fun _ _ => False) s := by
  cases hinit : s.iapState.initialized <;>
    simp [iapWrite, hs, hinit]

theorem iapBegin_uninitialized (hinit : s.iapState.initialized = false) (replies : BeginReplies) :
    wp (iapBegin replies) (fun result t => result = .notInitialized ∧ t = s)
      (fun _ _ => False) s := by
  simp [iapBegin, hinit]

theorem iapInit_spec :
    wp iapInit (fun _ t => s.iapState.initialized = true ∧ t = s ∨
      s.iapState.initialized = false ∧ t = { s with
      iapState.initialized := true
      iapState.sessionOpen := false }) (fun _ _ => False) s := by
  cases hinit : s.iapState.initialized <;>
    simp [iapInit, hinit]

end Finish

end Esp32Ota

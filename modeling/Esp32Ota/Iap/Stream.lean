import Esp32Ota.Iap.Commit

-- The stream of bytes through the page buffer, from any state of the buffer.
namespace Esp32Ota

open CLib Halting

-- A `uint16_t` that has the exact value of its expression.
def exact16 (n : Int) : DeviceM Nat := if 0 ≤ n ∧ n < 2 ^ 16 then pure n.toNat else throw .undefined

-- The copy of a pass of `iap_write`, with its bounds checked.
def copyToPageBufferExact (bytes : Bytes) : DeviceM Unit := do
  let s ← get
  if s.iapState.pageBufferIx + bytes.length > IAP_PAGE_SIZE then
    throw .undefined
  match s.heap.write s.iapState.pageBuffer s.iapState.pageBufferIx bytes with
  | none => throw .undefined
  | some heap =>
    let pageBufferIx ← exact16 (s.iapState.pageBufferIx + bytes.length)
    set { s with heap, iapState.pageBufferIx := pageBufferIx }

-- The loop of `iap_write` as long as no expression wraps.
def iapWriteLoopExact (otaWrite : Nat → EspErr) : (fuel k : Nat) → Bytes → DeviceM IapErr
  | 0, _, _ => throw .blocked
  | fuel + 1, k, bytes => do
    let len ← exact16 bytes.length
    if len = 0 then
      return .ok
    let s ← get
    let spaceRemaining ← exact16 ((IAP_PAGE_SIZE : Int) - s.iapState.pageBufferIx)
    let nofBytesToCopy := min spaceRemaining len
    copyToPageBufferExact (bytes.take nofBytesToCopy)
    let _ ← exact16 ((len : Int) - nofBytesToCopy)
    if (← get).iapState.pageBufferIx = IAP_PAGE_SIZE then
      let result ← iapWritePageBuffer (otaWrite k)
      if result ≠ .ok then
        return .writeFailed
      iapWriteLoopExact otaWrite fuel (k + 1) (bytes.drop nofBytesToCopy)
    else
      iapWriteLoopExact otaWrite fuel k (bytes.drop nofBytesToCopy)

def iapWriteExact (bytes : Bytes) (otaWrite : Nat → EspErr) : DeviceM IapErr := do
  let s ← get
  if !s.iapState.initialized then
    return .notInitialized
  if !s.iapState.sessionOpen then
    return .noSession
  iapWriteLoopExact otaWrite (bytes.length + 2) 0 bytes

section Exact

variable {s : Device}

theorem exact16_of_lt {n : Int} {k : Nat} (h : n = k) (hk : k < 2 ^ 16) : exact16 n = pure k := by
  rw [exact16, if_pos (by omega), h, Int.toNat_natCast]

theorem copyToPageBufferExact_eq (hs : Writable s) {bytes : Bytes}
    (hfits : s.iapState.pageBufferIx + bytes.length ≤ IAP_PAGE_SIZE) :
    copyToPageBufferExact bytes s = copyToPageBuffer bytes s := by
  obtain ⟨heap, hwrite, -, -⟩ :=
    Heap.write_eq_some hs.live s.iapState.pageBufferIx bytes (by rw [hs.size]; exact hfits)
  have hexact : exact16 (s.iapState.pageBufferIx + bytes.length) =
      pure (s.iapState.pageBufferIx + bytes.length) :=
    exact16_of_lt (by omega) (by unfold IAP_PAGE_SIZE at hfits; omega)
  refine bind_congr_runs rfl fun t u hget => ?_
  cases hget
  simp only [hwrite, hexact, uint16_of_le_page hfits, gt_iff_lt, Nat.not_lt.mpr hfits, ite_false, pure_bind]

-- Each pass computes what it would without a bound on the integers.
theorem iapWriteLoopExact_eq (otaWrite : Nat → EspErr) (fuel k : Nat) {bytes : Bytes} (hs : Writable s)
    (hlen : bytes.length < 2 ^ 16) :
    iapWriteLoopExact otaWrite fuel k bytes s = iapWriteLoop otaWrite fuel k bytes s := by
  induction fuel generalizing k bytes s with
  | zero => rfl
  | succ fuel ih =>
      unfold iapWriteLoopExact iapWriteLoop
      rw [exact16_of_lt rfl hlen, pure_bind]
      by_cases hnil : bytes.length = 0
      · rw [if_pos hnil, if_pos hnil]
      rw [if_neg hnil, if_neg hnil]
      refine bind_congr_runs rfl fun t u hget => ?_
      cases hget
      have hpage := hs.inPage
      have hspace : exact16 ((IAP_PAGE_SIZE : Int) - s.iapState.pageBufferIx) =
          pure (IAP_PAGE_SIZE - s.iapState.pageBufferIx) := by
        unfold IAP_PAGE_SIZE at *
        exact exact16_of_lt (by omega) (by omega)
      rw [hspace, pure_bind, spaceRemaining_of_le_page hpage]
      dsimp only
      generalize hn : min (IAP_PAGE_SIZE - s.iapState.pageBufferIx) bytes.length = n
      have hcopied : (bytes.take n).length = n := by rw [List.length_take]; omega
      have hdrop : (bytes.drop n).length < 2 ^ 16 := by
        rw [List.length_drop]
        omega
      have hleft : exact16 ((bytes.length : Int) - n) = pure (bytes.length - n) :=
        exact16_of_lt (by omega) (by omega)
      have hfits : s.iapState.pageBufferIx + (bytes.take n).length ≤ IAP_PAGE_SIZE := by omega
      refine bind_congr_runs (copyToPageBufferExact_eq hs hfits) fun _ t hcopy => ?_
      obtain ⟨ht, -⟩ := wp_ok (copyToPageBuffer_writes hs (bytes.take n) hfits) hcopy
      rw [hleft, pure_bind]
      refine bind_congr_runs rfl fun t' u hget => ?_
      cases hget
      by_cases hfull : t.iapState.pageBufferIx = IAP_PAGE_SIZE
      · rw [if_pos hfull, if_pos hfull]
        refine bind_congr_runs rfl fun result u hflush => ?_
        obtain ⟨hu, -⟩ := wp_ok (iapWritePageBuffer_writes ht (otaWrite k)) hflush
        by_cases hresult : result ≠ .ok
        · rw [if_pos hresult, if_pos hresult]
        · rw [if_neg hresult, if_neg hresult]
          exact ih (k + 1) hu hdrop
      · rw [if_neg hfull, if_neg hfull]
        exact ih k ht hdrop

theorem iapWriteExact_eq (hs : Writable s) {bytes : Bytes} (hlen : bytes.length < 2 ^ 16)
    (otaWrite : Nat → EspErr) : iapWriteExact bytes otaWrite s = iapWrite bytes otaWrite s := by
  unfold iapWriteExact iapWrite
  refine bind_congr_runs rfl fun t u hget => ?_
  cases hget
  by_cases hinit : (!s.iapState.initialized) = true
  · rw [if_pos hinit, if_pos hinit]
  · rw [if_neg hinit, if_neg hinit]
    by_cases hopen : (!s.iapState.sessionOpen) = true
    · rw [if_pos hopen, if_pos hopen]
    · rw [if_neg hopen, if_neg hopen]
      exact iapWriteLoopExact_eq otaWrite _ 0 hs hlen

end Exact

section Pieces

variable {s t u : Device}

-- Consecutive writes of these pieces have all succeeded.
structure WroteAll (data : Bytes) (s t : Device) : Prop where
  accepted : t.accepted = s.accepted ++ data
  pages : (flashed t.trace).length % IAP_PAGE_SIZE = (flashed s.trace).length % IAP_PAGE_SIZE
  partialPage : data ≠ [] → t.iapState.pageBufferIx < IAP_PAGE_SIZE
  unchanged : data = [] → t = s

-- An empty write does not even flush a page that an earlier one has left full.
theorem iapWrite_nil (hinit : s.iapState.initialized = true) (hopen : s.iapState.sessionOpen = true)
    (otaWrite : Nat → EspErr) : wp (iapWrite [] otaWrite) (fun _ u => u = s) (fun _ _ => False) s := by
  simp only [iapWrite, iapWriteLoop, wp_bind, wp_get, wp_ite, wp_pure, hinit, hopen]
  simp

theorem iapWrite_wroteAll (hinit : s.iapState.initialized = true) (hopen : s.iapState.sessionOpen = true)
    (hs : Writable s) {bytes : Bytes} {otaWrite : Nat → EspErr} (h : iapWrite bytes otaWrite s = .ok .ok t) :
    WroteAll bytes s t ∧ Writable t ∧ t.iapState.initialized = true ∧ t.iapState.sessionOpen = true := by
  have hwrote := wp_ok (iapWrite_wrote hinit hopen hs bytes otaWrite) h
  obtain ⟨n, -, haccepted, hall⟩ := hwrote.accepted
  obtain ⟨events, htrace, hevents⟩ := hwrote.writes.events
  refine ⟨⟨?_, ?_, fun hne => ?_, fun hnil => ?_⟩, hwrote.writable, hwrote.writes.initialized.trans hinit,
    hwrote.writes.sessionOpen.trans hopen⟩
  · rw [haccepted, hall rfl, List.take_length]
  · rw [htrace, flashed_pages]
    intro event he
    obtain ⟨payload, result, heq, hlen, -⟩ := hevents event he
    exact ⟨payload, result, heq, hlen⟩
  · rcases hwrote.outcome with ⟨-, hlt | ⟨hnil, -⟩⟩ | ⟨hfail, -⟩
    · exact hlt
    · exact absurd hnil hne
    · cases hfail
  · subst hnil
    have hsame := wp_ok (iapWrite_nil hinit hopen otaWrite) h
    exact hsame

theorem WroteAll.append {first rest : Bytes} (hst : WroteAll first s t) (htu : WroteAll rest t u) :
    WroteAll (first ++ rest) s u := by
  refine ⟨?_, htu.pages.trans hst.pages, fun hne => ?_, fun hnil => ?_⟩
  · rw [htu.accepted, hst.accepted, List.append_assoc]
  · by_cases hrest : rest = []
    · rw [htu.unchanged hrest]
      exact hst.partialPage fun hfirst => hne (by rw [hfirst, hrest, List.append_nil])
    · exact htu.partialPage hrest
  · rw [List.append_eq_nil_iff] at hnil
    rw [htu.unchanged hnil.2, hst.unchanged hnil.1]

theorem iapWriteAll_wroteAll (writes : List (Bytes × (Nat → EspErr))) (hinit : s.iapState.initialized = true)
    (hopen : s.iapState.sessionOpen = true) (hs : Writable s) (h : iapWriteAll writes s = .ok true t) :
    WroteAll (writes.flatMap Prod.fst) s t ∧ Writable t := by
  induction writes generalizing s with
  | nil =>
      cases h
      exact ⟨⟨by simp, rfl, fun hne => absurd rfl hne, fun _ => rfl⟩, hs⟩
  | cons write rest ih =>
      obtain ⟨bytes, otaWrite⟩ := write
      simp only [iapWriteAll, bind, EStateM.bind] at h
      cases hwrite : iapWrite bytes otaWrite s with
      | error e u => simp [hwrite] at h
      | ok result u =>
          rw [hwrite] at h
          by_cases hok : result = .ok
          · subst hok
            obtain ⟨hfirst, hu, hinit', hopen'⟩ := iapWrite_wroteAll hinit hopen hs hwrite
            obtain ⟨hrest, ht⟩ := ih hinit' hopen' hu h
            exact ⟨hfirst.append hrest, ht⟩
          · simp only [hok, ite_false] at h
            cases h

-- How much of a stream is in flash is up to its length alone.
theorem flashed_of_wroteAll {data : Bytes} (hst : WroteAll data s t) (hsu : WroteAll data s u) (ht : Writable t)
    (hu : Writable u) : flashed t.trace = flashed u.trace := by
  by_cases hnil : data = []
  · rw [hst.unchanged hnil, hsu.unchanged hnil]
  have hlen : ∀ v, Writable v → v.accepted.length = (flashed v.trace).length + v.iapState.pageBufferIx := by
    intro v hv
    rw [Device.accepted, List.length_append, List.length_take, hv.size, Nat.min_eq_left hv.inPage]
  have hsame : t.accepted = u.accepted := hst.accepted.trans hsu.accepted.symm
  have hcount : (flashed t.trace).length = (flashed u.trace).length := by
    have htu := congrArg List.length hsame
    rw [hlen t ht, hlen u hu] at htu
    have hpages := hst.pages.trans hsu.pages.symm
    have := hst.partialPage hnil
    have := hsu.partialPage hnil
    unfold IAP_PAGE_SIZE at *
    omega
  exact (List.append_inj hsame hcount).1

end Pieces

-- One write, whatever becomes of its flushes, and any two ways to cut the same data.
theorem iapWrite_stream (s : Device) (hinit : s.iapState.initialized = true)
    (hopen : s.iapState.sessionOpen = true) (hs : Writable s) :
    (∀ (bytes : Bytes) (otaWrite : Nat → EspErr), bytes.length < 2 ^ 16 →
      iapWriteExact bytes otaWrite s = iapWrite bytes otaWrite s ∧
      wp (iapWrite bytes otaWrite) (fun result t =>
        (∃ n ≤ bytes.length, t.accepted = s.accepted ++ bytes.take n ∧ (result = .ok → n = bytes.length)) ∧
        (result = .ok → bytes ≠ [] → t.iapState.pageBufferIx < IAP_PAGE_SIZE) ∧
        ∃ events, t.trace = events ++ s.trace ∧ ∀ event ∈ events, ∃ payload result,
          event = .otaWrite s.iapState.otaHandle payload result ∧ payload.length = IAP_PAGE_SIZE)
        (fun _ _ => False) s) ∧
    ∀ (writes others : List (Bytes × (Nat → EspErr))) (t u : Device), iapWriteAll writes s = .ok true t →
      iapWriteAll others s = .ok true u → writes.flatMap Prod.fst = others.flatMap Prod.fst →
      flashed t.trace = flashed u.trace ∧ t.accepted = u.accepted := by
  refine ⟨fun bytes otaWrite hlen => ⟨iapWriteExact_eq hs hlen otaWrite, ?_⟩, ?_⟩
  · refine wp_mono (iapWrite_wrote hinit hopen hs bytes otaWrite) ?_ (fun _ _ h => h)
    intro result t ht
    refine ⟨ht.accepted, fun hok hne => ?_, ?_⟩
    · rcases ht.outcome with ⟨-, hlt | ⟨hnil, -⟩⟩ | ⟨hfail, -⟩
      · exact hlt
      · exact absurd hnil hne
      · rw [hok] at hfail
        cases hfail
    · obtain ⟨events, htrace, hevents⟩ := ht.writes.events
      refine ⟨events, htrace, fun event he => ?_⟩
      obtain ⟨payload, result, heq, hlen, -⟩ := hevents event he
      exact ⟨payload, result, heq, hlen⟩
  · intro writes others t u ht hu hdata
    obtain ⟨hst, htw⟩ := iapWriteAll_wroteAll writes hinit hopen hs ht
    obtain ⟨hsu, huw⟩ := iapWriteAll_wroteAll others hinit hopen hs hu
    rw [hdata] at hst
    exact ⟨flashed_of_wroteAll hst hsu htw huw, hst.accepted.trans hsu.accepted.symm⟩

-- A failed flush has left a full page behind.
def fullPage : Device :=
  { Device.boot ⟨"factory", 0x10000⟩ with
    iapState := ⟨true, true, some ⟨"ota_0", 0x110000⟩, 1, 0x110000, some 0, IAP_PAGE_SIZE⟩
    heap := ⟨[some (staleBlock (fun _ => 0) IAP_PAGE_SIZE)]⟩ }

theorem fullPage_writable : Writable fullPage := by
  have hblock : fullPage.heap.deref fullPage.iapState.pageBuffer =
      some (staleBlock (fun _ => 0) IAP_PAGE_SIZE) := rfl
  have hpage : fullPage.page = staleBlock (fun _ => 0) IAP_PAGE_SIZE := by
    rw [Device.page, hblock, Option.getD_some]
  refine ⟨?_, ?_, ?_⟩
  · rw [hblock, hpage]
  · rw [hpage, length_staleBlock]
  · rw [fullPage]

theorem fullPage_stream :
    iapWriteExact [7] (fun _ => -1) fullPage = iapWrite [7] (fun _ => -1) fullPage ∧
    wp (iapWrite [7] (fun _ => -1)) (fun _ t => ∃ n ≤ 1, t.accepted = fullPage.accepted ++ [7].take n)
      (fun _ _ => False) fullPage := by
  have hstream := (iapWrite_stream fullPage rfl rfl fullPage_writable).1 [7] (fun _ => -1) (by decide)
  -- Nothing from here on may look into the 4096 bytes of the page.
  generalize fullPage = s at hstream ⊢
  refine ⟨hstream.1, wp_mono hstream.2 (fun _ t ht => ?_) (fun _ _ h => h)⟩
  obtain ⟨n, hn, haccepted, -⟩ := ht.1
  exact ⟨n, hn, haccepted⟩

end Esp32Ota

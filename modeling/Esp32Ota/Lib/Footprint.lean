import Esp32Ota.Lib.Heap
import Esp32Ota.Lib.Simulation

-- Programs that allocate, with the blocks that they own on top of a heap that they leave alone.
namespace CLib

open Halting

namespace Heap

-- The heap is `base` with the given blocks in addition.
structure Adds (base : Heap) (blocks : List (Nat × Bytes)) (heap : Heap) : Prop where
  nodup : (blocks.map Prod.fst).Nodup
  fresh : ∀ i ∈ blocks.map Prod.fst, base.deref (some i) = none
  owned : ∀ i block, (i, block) ∈ blocks → heap.deref (some i) = some block
  kept : ∀ p, (∀ i ∈ blocks.map Prod.fst, p ≠ some i) → heap.deref p = base.deref p

-- The same live blocks with the same contents.
def Same (base heap : Heap) : Prop := ∀ p, heap.deref p = base.deref p

section Adds

variable {base heap : Heap} {blocks : List (Nat × Bytes)} {i : Nat} {block : Bytes}

theorem adds_nil_iff : base.Adds [] heap ↔ base.Same heap :=
  ⟨fun h p => h.kept p fun _ hi => (List.not_mem_nil hi).elim,
    fun h => ⟨List.nodup_nil, fun _ hi => (List.not_mem_nil hi).elim, fun _ _ hi => (List.not_mem_nil hi).elim,
      fun p _ => h p⟩⟩

theorem adds_refl (heap : Heap) : heap.Adds [] heap := adds_nil_iff.mpr fun _ => rfl

theorem Adds.head (h : base.Adds ((i, block) :: blocks) heap) : heap.deref (some i) = some block :=
  h.owned i block List.mem_cons_self

-- The order of the blocks does not matter.
theorem Adds.perm {others : List (Nat × Bytes)} (h : base.Adds blocks heap) (hperm : blocks.Perm others) :
    base.Adds others heap where
  nodup := (hperm.map Prod.fst).nodup_iff.mp h.nodup
  fresh j hj := h.fresh j ((hperm.map Prod.fst).mem_iff.mpr hj)
  owned j b hj := h.owned j b (hperm.mem_iff.mpr hj)
  kept p hp := h.kept p fun j hj => hp j ((hperm.map Prod.fst).mem_iff.mp hj)

theorem Adds.alloc (h : base.Adds blocks heap) (content : Bytes) :
    base.Adds ((heap.blocks.length, content) :: blocks) (heap.alloc content).2 := by
  have hdead : heap.deref (some heap.blocks.length) = none := by
    cases hderef : heap.deref (some heap.blocks.length) with
    | none => rfl
    | some b => exact absurd (lt_of_deref hderef) (Nat.lt_irrefl _)
  have hnew : heap.blocks.length ∉ blocks.map Prod.fst := by
    intro hmem
    obtain ⟨⟨j, b⟩, hb, rfl⟩ := List.mem_map.mp hmem
    have hlive := h.owned _ _ hb
    rw [hdead] at hlive
    cases hlive
  have hother : ∀ p, p ≠ some heap.blocks.length → (heap.alloc content).2.deref p = heap.deref p :=
    fun p hp => deref_alloc_other heap content p hp
  refine ⟨List.nodup_cons.mpr ⟨hnew, h.nodup⟩, fun j hj => ?_, fun j b hj => ?_, fun p hp => ?_⟩
  · rcases List.mem_cons.mp hj with rfl | hj
    · refine (h.kept _ fun j hj heq => ?_).symm.trans hdead
      have hsame : heap.blocks.length = j := Option.some.inj heq
      exact hnew (hsame ▸ hj)
    · exact h.fresh j hj
  · rcases List.mem_cons.mp hj with heq | hj
    · rw [Prod.mk.injEq] at heq
      obtain ⟨rfl, rfl⟩ := heq
      exact deref_alloc_self heap b
    · rw [hother (some j) fun heq => hnew ?_]
      · exact h.owned j b hj
      · rw [Option.some.injEq] at heq
        exact heq ▸ List.mem_map_of_mem hj
  · rw [hother p (hp _ List.mem_cons_self)]
    exact h.kept p fun j hj => hp j (List.mem_cons_of_mem _ hj)

-- A change of the first block alone.
theorem Adds.update {heap' : Heap} {content : Bytes} (h : base.Adds ((i, block) :: blocks) heap)
    (hself : heap'.deref (some i) = some content) (hother : ∀ q, q ≠ some i → heap'.deref q = heap.deref q) :
    base.Adds ((i, content) :: blocks) heap' := by
  have hnotin : i ∉ blocks.map Prod.fst := (List.nodup_cons.mp h.nodup).1
  refine ⟨h.nodup, h.fresh, fun j b hj => ?_, fun p hp => ?_⟩
  · rcases List.mem_cons.mp hj with heq | hj
    · rw [Prod.mk.injEq] at heq
      obtain ⟨rfl, rfl⟩ := heq
      exact hself
    · rw [hother (some j) fun heq => hnotin ?_]
      · exact h.owned j b (List.mem_cons_of_mem _ hj)
      · rw [Option.some.injEq] at heq
        exact heq ▸ List.mem_map_of_mem hj
  · rw [hother p (hp i List.mem_cons_self)]
    exact h.kept p hp

theorem Adds.write (h : base.Adds ((i, block) :: blocks) heap) {offset : Nat} {src : Bytes}
    (hfits : offset + src.length ≤ block.length) :
    ∃ heap', heap.write (some i) offset src = some heap' ∧
      base.Adds ((i, store block offset src) :: blocks) heap' := by
  obtain ⟨heap', hwrite, hself, hother⟩ := write_eq_some h.head offset src hfits
  exact ⟨heap', hwrite, h.update hself hother⟩

theorem Adds.free (h : base.Adds ((i, block) :: blocks) heap) :
    ∃ heap', heap.free (some i) = some heap' ∧ base.Adds blocks heap' := by
  obtain ⟨heap', hfree, hself, hother⟩ := free_eq_some h.head
  have hnotin : i ∉ blocks.map Prod.fst := (List.nodup_cons.mp h.nodup).1
  refine ⟨heap', hfree, (List.nodup_cons.mp h.nodup).2, fun j hj => h.fresh j (List.mem_cons_of_mem _ hj),
    fun j b hj => ?_, fun p hp => ?_⟩
  · rw [hother (some j) fun heq => hnotin ?_]
    · exact h.owned j b (List.mem_cons_of_mem _ hj)
    · rw [Option.some.injEq] at heq
      exact heq ▸ List.mem_map_of_mem hj
  · by_cases hpi : p = some i
    · rw [hpi, hself]
      exact (h.fresh i List.mem_cons_self).symm
    · rw [hother p hpi]
      refine h.kept p fun j hj => ?_
      rcases List.mem_cons.mp hj with rfl | hj
      · exact hpi
      · exact hp j hj

end Adds

end Heap

-- A state next to a heap.
structure OnHeap (σ : Type) where
  heap : Heap
  state : σ

abbrev HeapM (σ : Type) := EStateM Halt (OnHeap σ)

section Programs

variable {σ α : Type}

def onState (x : EStateM Halt σ α) : HeapM σ α := zoom OnHeap.state (fun state s => { s with state }) x

-- The answer is NULL without memory.
def malloc (reply : Malloc) (size : Nat) : HeapM σ Pointer := do
  match reply with
  | none => return none
  | some stale =>
    let s ← get
    let (i, heap) := s.heap.alloc (staleBlock stale size)
    set { s with heap }
    return some i

def free (p : Pointer) : HeapM σ Unit := do
  let s ← get
  match s.heap.free p with
  | some heap => set { s with heap }
  | none => throw .undefined

def memcpy (p : Pointer) (offset : Nat) (src : Bytes) : HeapM σ Unit := do
  let s ← get
  match s.heap.write p offset src with
  | some heap => set { s with heap }
  | none => throw .undefined

-- The first `count` bytes behind the pointer.
def readBytes (p : Pointer) (count : Nat) : HeapM σ Bytes := do
  match (← get).heap.read p count with
  | some bytes => return bytes
  | none => throw .undefined

-- `calloc(size, 1)`
def calloc (reply : Bool) (size : Nat) : HeapM σ Pointer :=
  malloc (if reply then some fun _ => 0 else none) size

-- The `count` bytes from `&p[offset]` on.
def readBytesAt (p : Pointer) (offset count : Nat) : HeapM σ Bytes := do
  match (← get).heap.deref p with
  | some block =>
    if offset + count ≤ block.length then
      return (block.drop offset).take count
    throw .undefined
  | none => throw .undefined

-- The string behind the pointer; without a NUL the scan leaves the block.
def readString (p : Pointer) : HeapM σ Bytes := do
  match (← get).heap.deref p with
  | some block =>
    if 0 ∈ block then
      return cstr block
    throw .undefined
  | none => throw .undefined

variable {base : Heap} {blocks : List (Nat × Bytes)} {i : Nat} {block : Bytes} {s : OnHeap σ}

-- The state next to the heap is as it was, and the program owns the given blocks.
def Owns (base : Heap) (state : σ) (blocks : List (Nat × Bytes)) (t : OnHeap σ) : Prop :=
  t.state = state ∧ base.Adds blocks t.heap

theorem wp_malloc {state : σ} {Q : Pointer → OnHeap σ → Prop} {E : Halt → OnHeap σ → Prop} {reply : Malloc}
    {size : Nat} (h : Owns base state blocks s) (hnull : reply = none → Q none s)
    (hblock : ∀ stale i t, reply = some stale → Owns base state ((i, staleBlock stale size) :: blocks) t →
      Q (some i) t) : wp (malloc reply size) Q E s := by
  cases reply with
  | none => exact hnull rfl
  | some stale => exact hblock stale _ _ rfl ⟨h.1, h.2.alloc _⟩

theorem wp_free {state : σ} {Q : Unit → OnHeap σ → Prop} {E : Halt → OnHeap σ → Prop}
    (h : Owns base state ((i, block) :: blocks) s) (hfreed : ∀ t, Owns base state blocks t → Q ⟨⟩ t) :
    wp (free (some i)) Q E s := by
  obtain ⟨heap, hfree, hadds⟩ := h.2.free
  simp only [free, wp_bind, wp_get, hfree, wp_set]
  exact hfreed _ ⟨h.1, hadds⟩

theorem wp_free_null {Q : Unit → OnHeap σ → Prop} {E : Halt → OnHeap σ → Prop} :
    wp (free none) Q E s ↔ Q ⟨⟩ s := Iff.rfl

theorem wp_memcpy {state : σ} {Q : Unit → OnHeap σ → Prop} {E : Halt → OnHeap σ → Prop} {offset : Nat}
    {src : Bytes} (h : Owns base state ((i, block) :: blocks) s) (hfits : offset + src.length ≤ block.length)
    (hwritten : ∀ t, Owns base state ((i, store block offset src) :: blocks) t → Q ⟨⟩ t) :
    wp (memcpy (some i) offset src) Q E s := by
  obtain ⟨heap, hwrite, hadds⟩ := h.2.write hfits
  simp only [memcpy, wp_bind, wp_get, hwrite, wp_set]
  exact hwritten _ ⟨h.1, hadds⟩

theorem wp_readBytes {state : σ} {Q : Bytes → OnHeap σ → Prop} {E : Halt → OnHeap σ → Prop} {count : Nat}
    (h : Owns base state ((i, block) :: blocks) s) (hfits : count ≤ block.length) (hread : Q (block.take count) s) :
    wp (readBytes (some i) count) Q E s := by
  simp only [readBytes, wp_bind, wp_get, Heap.read, h.2.head, if_pos hfits, wp_pure]
  exact hread

theorem Owns.perm {state : σ} {others : List (Nat × Bytes)} (h : Owns base state blocks s)
    (hperm : blocks.Perm others) : Owns base state others s := ⟨h.1, h.2.perm hperm⟩

theorem staleBlock_zero (size : Nat) : staleBlock (fun _ => 0) size = List.replicate size 0 := by
  rw [staleBlock, List.map_const', List.length_range]

theorem wp_calloc {state : σ} {Q : Pointer → OnHeap σ → Prop} {E : Halt → OnHeap σ → Prop} {reply : Bool}
    {size : Nat} (h : Owns base state blocks s) (hnull : reply = false → Q none s)
    (hblock : ∀ i t, reply = true → Owns base state ((i, List.replicate size 0) :: blocks) t → Q (some i) t) :
    wp (calloc reply size) Q E s := by
  unfold calloc
  cases reply with
  | false => exact wp_malloc h (fun _ => hnull rfl) (fun _ _ _ hsome => by cases hsome)
  | true =>
      refine wp_malloc h (fun hnone => by cases hnone) fun stale i t hsome ht => ?_
      cases hsome
      rw [staleBlock_zero] at ht
      exact hblock i t rfl ht

theorem wp_readBytesAt {state : σ} {Q : Bytes → OnHeap σ → Prop} {E : Halt → OnHeap σ → Prop} {offset count : Nat}
    (h : Owns base state ((i, block) :: blocks) s) (hfits : offset + count ≤ block.length)
    (hread : Q ((block.drop offset).take count) s) : wp (readBytesAt (some i) offset count) Q E s := by
  simp only [readBytesAt, wp_bind, wp_get, h.2.head, if_pos hfits, wp_pure]
  exact hread

-- What is below the own blocks is still there.
theorem Owns.deref_base {state : σ} {p : Pointer} (h : Owns base state blocks s) (hblock : base.deref p = some block) :
    s.heap.deref p = some block := by
  rw [h.2.kept p, hblock]
  intro i hi heq
  rw [heq, h.2.fresh i hi] at hblock
  cases hblock

theorem wp_readString {state : σ} {Q : Bytes → OnHeap σ → Prop} {E : Halt → OnHeap σ → Prop} {p : Pointer}
    (h : Owns base state blocks s) (hblock : base.deref p = some block) (hnul : 0 ∈ block)
    (hread : Q (cstr block) s) : wp (readString p) Q E s := by
  simp only [readString, wp_bind, wp_get, h.deref_base hblock, if_pos hnul, wp_pure]
  exact hread

-- A program of the state alone leaves the blocks alone.
theorem onState_refined (x : EStateM Halt σ α) {u : σ} (h : Owns base u blocks s) :
    Refines (fun a b t v => a = b ∧ Owns base v blocks t) (fun t v => t.state = v) (onState x) x s u :=
  refines_zoom h.1 (fun _ _ => ⟨rfl, rfl, h.2⟩) fun _ => rfl

theorem owns_self (s : OnHeap σ) : Owns s.heap s.state [] s := ⟨rfl, Heap.adds_refl s.heap⟩

end Programs

end CLib

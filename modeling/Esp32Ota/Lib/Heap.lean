import Esp32Ota.Lib.CLib

namespace CLib

-- A pointer to the start of a heap block; NULL is `none`.
abbrev Pointer := Option Nat

-- The blocks in the order of their allocation; a freed block is `none`.
-- Numbers are never used again, so a stale pointer stays recognisable.
structure Heap where
  blocks : List (Option Bytes)
  deriving DecidableEq, Repr

namespace Heap

def empty : Heap := ⟨[]⟩

-- The block behind a pointer, unless the pointer is NULL or dangling.
def deref (heap : Heap) : Pointer → Option Bytes
  | none => none
  | some i => heap.blocks.getD i none

def alloc (heap : Heap) (content : Bytes) : Nat × Heap :=
  (heap.blocks.length, ⟨heap.blocks ++ [some content]⟩)

-- `free(NULL)` does nothing; freeing a block twice is undefined.
def free (heap : Heap) : Pointer → Option Heap
  | none => some heap
  | some i => if (heap.deref (some i)).isSome then some ⟨heap.blocks.set i none⟩ else none

-- A `memcpy` to the block; undefined through a stale pointer or past the end.
def write (heap : Heap) (p : Pointer) (offset : Nat) (src : Bytes) : Option Heap :=
  match p, heap.deref p with
  | some i, some block =>
      if offset + src.length ≤ block.length then
        some ⟨heap.blocks.set i (some (store block offset src))⟩
      else none
  | _, _ => none

-- The first `count` bytes of the block.
def read (heap : Heap) (p : Pointer) (count : Nat) : Option Bytes :=
  match heap.deref p with
  | some block => if count ≤ block.length then some (block.take count) else none
  | none => none

-- No block but the one behind `p` is live.
def OnlyLive (heap : Heap) (p : Pointer) : Prop := ∀ q, q ≠ p → heap.deref q = none

@[simp] theorem deref_null (heap : Heap) : heap.deref none = none := rfl

@[simp] theorem deref_empty (p : Pointer) : empty.deref p = none := by
  cases p <;> rfl

theorem deref_alloc_self (heap : Heap) (content : Bytes) :
    (heap.alloc content).2.deref (some (heap.alloc content).1) = some content := by
  simp [alloc, deref]

theorem deref_alloc_other (heap : Heap) (content : Bytes) (p : Pointer)
    (h : p ≠ some (heap.alloc content).1) : (heap.alloc content).2.deref p = heap.deref p := by
  cases p with
  | none => rfl
  | some i =>
      have hi : i ≠ heap.blocks.length := fun he => h (by rw [he]; rfl)
      simp only [alloc, deref, List.getD_eq_getElem?_getD]
      rcases Nat.lt_or_gt_of_ne hi with hlt | hgt
      · rw [List.getElem?_append_left hlt]
      · rw [List.getElem?_append_right (by omega), List.getElem?_eq_none (by simp; omega),
          List.getElem?_eq_none (by omega)]

theorem lt_of_deref {heap : Heap} {i : Nat} {block : Bytes} (h : heap.deref (some i) = some block) :
    i < heap.blocks.length := by
  by_contra hi
  simp [deref, List.getElem?_eq_none (Nat.le_of_not_lt hi)] at h

theorem write_eq_some {heap : Heap} {p : Pointer} {block : Bytes} (h : heap.deref p = some block)
    (offset : Nat) (src : Bytes) (hb : offset + src.length ≤ block.length) :
    ∃ heap', heap.write p offset src = some heap' ∧
      heap'.deref p = some (store block offset src) ∧ ∀ q, q ≠ p → heap'.deref q = heap.deref q := by
  cases p with
  | none => cases h
  | some i =>
      refine ⟨⟨heap.blocks.set i (some (store block offset src))⟩, ?_, ?_, ?_⟩
      · simp [write, h, hb]
      · simp [deref, lt_of_deref h]
      · intro q hq
        cases q with
        | none => rfl
        | some j =>
            have hj : i ≠ j := fun he => hq (by rw [he])
            simp [deref, List.getElem?_set_ne hj]

theorem free_eq_some {heap : Heap} {p : Pointer} {block : Bytes} (h : heap.deref p = some block) :
    ∃ heap', heap.free p = some heap' ∧ heap'.deref p = none ∧
      ∀ q, q ≠ p → heap'.deref q = heap.deref q := by
  cases p with
  | none => cases h
  | some i =>
      refine ⟨⟨heap.blocks.set i none⟩, ?_, ?_, ?_⟩
      · simp [free, h]
      · simp [deref, lt_of_deref h]
      · intro q hq
        cases q with
        | none => rfl
        | some j =>
            have hj : i ≠ j := fun he => hq (by rw [he])
            simp [deref, List.getElem?_set_ne hj]

theorem OnlyLive.alloc {heap : Heap} (h : heap.OnlyLive none) (content : Bytes) :
    (heap.alloc content).2.OnlyLive (some (heap.alloc content).1) := by
  intro q hq
  rw [deref_alloc_other heap content q hq]
  cases q with
  | none => rfl
  | some i => exact h (some i) (by simp)

theorem OnlyLive.write {heap heap' : Heap} {p : Pointer} (h : heap.OnlyLive p)
    (hw : ∀ q, q ≠ p → heap'.deref q = heap.deref q) : heap'.OnlyLive p := by
  intro q hq
  rw [hw q hq]
  exact h q hq

-- Freeing the only live block leaves none.
theorem OnlyLive.free {heap heap' : Heap} {p : Pointer} (h : heap.OnlyLive p)
    (hp : heap'.deref p = none) (hf : ∀ q, q ≠ p → heap'.deref q = heap.deref q) :
    heap'.OnlyLive none := by
  intro q _
  by_cases hq : q = p
  · rw [hq, hp]
  · rw [hf q hq]
    exact h q hq

end Heap

end CLib

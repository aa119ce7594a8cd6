import Mathlib.Algebra.Group.Int.Defs
import Mathlib.Algebra.Group.Nat.Defs
import Mathlib.Data.List.Basic
import Mathlib.Data.List.Infix
import Mathlib.Data.List.TakeWhile

-- Byte buffers and the C library functions over them.
namespace CLib

abbrev Bytes := List UInt8

-- Why a task stops short of the end of a function: C leaves the behaviour
-- undefined, the device restarts, or a call has not returned yet.
inductive Halt
  | undefined
  | restart
  | blocked
  deriving DecidableEq, Repr

def ascii (text : String) : Bytes := text.toList.map fun c => UInt8.ofNat c.toNat

section Memory

-- What `malloc` answers: the stale bytes of the new block, or NULL.
abbrev Malloc := Option (Nat → UInt8)

def staleBlock (stale : Nat → UInt8) (size : Nat) : Bytes := (List.range size).map stale

@[simp] theorem length_staleBlock (stale : Nat → UInt8) (size : Nat) :
    (staleBlock stale size).length = size := by
  simp [staleBlock]

-- `memcpy(&dst[offset], src, src.length)` inside the bounds of `dst`.
def store (dst : Bytes) (offset : Nat) (src : Bytes) : Bytes :=
  dst.take offset ++ src ++ dst.drop (offset + src.length)

theorem length_store (dst : Bytes) (offset : Nat) (src : Bytes)
    (h : offset + src.length ≤ dst.length) : (store dst offset src).length = dst.length := by
  simp only [store, List.length_append, List.length_take, List.length_drop]
  omega

theorem take_store (dst : Bytes) (offset : Nat) (src : Bytes) (h : offset ≤ dst.length) :
    (store dst offset src).take (offset + src.length) = dst.take offset ++ src := by
  have hlen : (dst.take offset ++ src).length = offset + src.length := by
    rw [List.length_append, List.length_take, Nat.min_eq_left h]
  rw [store, List.take_append_of_le_length hlen.ge, List.take_of_length_le hlen.le]

theorem store_zero (dst src : Bytes) : store dst 0 src = src ++ dst.drop src.length := by
  simp [store]

-- A store over the whole of the buffer.
theorem store_all {dst src : Bytes} (h : src.length = dst.length) : store dst 0 src = src := by
  rw [store_zero, h, List.drop_length, List.append_nil]

-- Behind the stored bytes the buffer is what it was.
theorem getElem?_store_of_ge {dst src : Bytes} {offset k : Nat} (hoffset : offset ≤ dst.length)
    (h : offset + src.length ≤ k) : (store dst offset src)[k]? = dst[k]? := by
  have hlen : (dst.take offset ++ src).length = offset + src.length := by
    rw [List.length_append, List.length_take, Nat.min_eq_left hoffset]
  rw [store, List.getElem?_append_right (by omega), List.getElem?_drop, hlen]
  congr 1
  omega

theorem getElem?_store_of_lt {dst src : Bytes} {offset k : Nat} (hoffset : offset ≤ dst.length)
    (h : k < offset) : (store dst offset src)[k]? = dst[k]? := by
  have hlen : (dst.take offset).length = offset := by rw [List.length_take, Nat.min_eq_left hoffset]
  rw [store, List.append_assoc, List.getElem?_append_left (by omega), List.getElem?_take_of_lt h]

theorem getElem?_store_self {dst : Bytes} {offset : Nat} (hoffset : offset ≤ dst.length) (b : UInt8) :
    (store dst offset [b])[offset]? = some b := by
  have hlen : (dst.take offset).length = offset := by rw [List.length_take, Nat.min_eq_left hoffset]
  rw [store, List.append_assoc, List.getElem?_append_right (by omega), hlen, Nat.sub_self]
  rfl

-- A store right behind the used part of a buffer extends the used part.
theorem store_append (used spare src : Bytes) :
    store (used ++ spare) used.length src = used ++ src ++ spare.drop src.length := by
  simp [store, List.drop_append]

-- `size_t` of an `int`, and the `int` of a sum of an `int` and a `size_t`.
def toSize (n : Int) : Nat := (n % 2 ^ 32).toNat

def toInt32 (n : Int) : Int := n.bmod (2 ^ 32)

theorem toSize_natCast (n : Nat) (h : n < 2 ^ 32) : toSize n = n := by
  unfold toSize
  omega

theorem toInt32_of_lt (n : Nat) (h : n < 2 ^ 31) : toInt32 n = n := by
  unfold toInt32
  rw [Int.bmod_eq_of_le_mul_two] <;> omega

end Memory

section Strings

-- The bytes of a C string: everything before the first NUL.
def cstr (buffer : Bytes) : Bytes := buffer.takeWhile (· ≠ 0)

theorem cstr_isPrefix (buffer : Bytes) : cstr buffer <+: buffer := List.takeWhile_prefix _

theorem cstr_of_notMem (text : Bytes) (h : 0 ∉ text) : cstr text = text := by
  rw [cstr, List.takeWhile_eq_self_iff]
  intro b hb
  simpa using fun hz : b = 0 => h (hz ▸ hb)

theorem cstr_append (text rest : Bytes) (h : 0 ∉ text) : cstr (text ++ rest) = text ++ cstr rest := by
  unfold cstr
  apply List.takeWhile_append_of_pos
  intro b hb
  simpa using fun hz : b = 0 => h (hz ▸ hb)

theorem cstr_append_of_mem (text rest : Bytes) (h : 0 ∈ text) : cstr (text ++ rest) = cstr text := by
  induction text with
  | nil => cases h
  | cons b text ih =>
      unfold cstr at *
      rw [List.cons_append, List.takeWhile_cons, List.takeWhile_cons]
      by_cases hb : b = 0
      · simp [hb]
      · rw [ih ((List.mem_cons.mp h).resolve_left (Ne.symm hb))]

@[simp] theorem cstr_cons_zero (rest : Bytes) : cstr (0 :: rest) = [] := by
  simp [cstr]

theorem zero_notMem_cstr (buffer : Bytes) : 0 ∉ cstr buffer := by
  intro h
  have := List.mem_takeWhile_imp h
  simp at this

-- Undefined where the string with its NUL does not fit.
def strcpy (dst src : Bytes) : Option Bytes :=
  if (cstr src).length < dst.length then some (store dst 0 (cstr src ++ [0])) else none

theorem strcpy_eq_some {dst src : Bytes} (h : (cstr src).length < dst.length) :
    strcpy dst src = some (cstr src ++ [0] ++ dst.drop ((cstr src).length + 1)) := by
  rw [strcpy, if_pos h, store_zero, List.length_append, List.length_singleton]

-- The copy is a string of its own, whatever lies behind it.
theorem cstr_copied (src spare : Bytes) : cstr (cstr src ++ [0] ++ spare) = cstr src := by
  rw [List.append_assoc, cstr_append _ _ (zero_notMem_cstr src), List.singleton_append, cstr_cons_zero,
    List.append_nil]

-- The offset of the first occurrence of `needle`.
def find (needle : Bytes) : Bytes → Option Nat
  | [] => if needle.isEmpty then some 0 else none
  | b :: rest => if needle.isPrefixOf (b :: rest) then some 0 else (find needle rest).map (· + 1)

-- `strstr`, as an offset into `buffer`; the scan ends at the first NUL or at
-- the end of the buffer.
def strstr (buffer needle : Bytes) : Option Nat := find needle (cstr buffer)

theorem find_eq_some_iff (needle hay : Bytes) (i : Nat) :
    find needle hay = some i ↔
      i ≤ hay.length ∧ needle <+: hay.drop i ∧ ∀ j < i, ¬needle <+: hay.drop j := by
  induction hay generalizing i with
  | nil =>
      simp only [find, List.drop_nil, List.length_nil, Nat.le_zero, List.prefix_nil]
      by_cases h : needle = []
      · simp only [h, List.isEmpty_nil, ite_true, Option.some.injEq, true_and, not_true_eq_false]
        exact ⟨fun he => by subst he; simp, fun he => he.1.symm⟩
      · simp [h]
  | cons b rest ih =>
      simp only [find, List.isPrefixOf_iff_prefix]
      by_cases h : needle <+: b :: rest
      · simp only [h, ite_true, Option.some.injEq]
        constructor
        · intro heq
          obtain rfl := heq
          exact ⟨Nat.zero_le _, h, fun j hj => absurd hj (Nat.not_lt_zero j)⟩
        · intro hhead
          obtain ⟨-, -, hmin⟩ := hhead
          by_contra hne
          exact hmin 0 (Nat.pos_of_ne_zero (Ne.symm hne)) h
      · simp only [h, ite_false, Option.map_eq_some_iff]
        constructor
        · intro hfound
          obtain ⟨k, hk, rfl⟩ := hfound
          obtain ⟨hle, hpre, hmin⟩ := (ih k).mp hk
          refine ⟨by simpa using hle, hpre, ?_⟩
          intro j hj
          cases j with
          | zero => exact h
          | succ j => exact hmin j (by omega)
        · intro hfirst
          obtain ⟨hle, hpre, hmin⟩ := hfirst
          cases i with
          | zero => exact absurd hpre h
          | succ k =>
              refine ⟨k, (ih k).mpr ⟨by simpa using hle, hpre, ?_⟩, rfl⟩
              intro j hj
              exact hmin (j + 1) (by omega)

theorem find_bound {needle hay : Bytes} {i : Nat} (h : find needle hay = some i) :
    i + needle.length ≤ hay.length := by
  obtain ⟨hle, hpre, -⟩ := (find_eq_some_iff needle hay i).mp h
  have hl := hpre.length_le
  simp only [List.length_drop] at hl
  omega

-- Text behind the first occurrence does not move it.
theorem find_append {needle hay : Bytes} {i : Nat} (h : find needle hay = some i) (more : Bytes) :
    find needle (hay ++ more) = some i := by
  have hb := find_bound h
  obtain ⟨hle, hpre, hmin⟩ := (find_eq_some_iff needle hay i).mp h
  refine (find_eq_some_iff needle _ i).mpr ⟨by simp; omega, ?_, ?_⟩
  · rw [List.drop_append_of_le_length hle]
    exact hpre.trans (List.prefix_append _ _)
  · intro j hj hpj
    rw [List.drop_append_of_le_length (by omega)] at hpj
    refine hmin j hj (List.prefix_of_prefix_length_le hpj (List.prefix_append _ more) ?_)
    simp only [List.length_drop]
    omega

-- A text that ends before the first occurrence does contain none.
theorem find_take_none {needle hay : Bytes} {i n : Nat} (h : find needle hay = some i)
    (hn : n < i + needle.length) : find needle (hay.take n) = none := by
  cases hf : find needle (hay.take n) with
  | none => rfl
  | some k =>
      have hb := find_bound hf
      have hk := find_append hf (hay.drop n)
      rw [List.take_append_drop, h, Option.some.injEq] at hk
      simp only [List.length_take] at hb
      omega

end Strings

section Numbers

-- The white space that `strtol` and `scanf` skip.
def isSpace (b : UInt8) : Bool := b = 32 || (9 ≤ b && b ≤ 13)

def isDigit (b : UInt8) : Bool := 48 ≤ b && b ≤ 57

def decimal (digits : Bytes) : Nat := digits.foldl (fun n d => 10 * n + (d.toNat - 48)) 0

def skipSpace (text : Bytes) : Bytes := text.dropWhile isSpace

def sign : Bytes → Bool × Bytes
  | 45 :: rest => (true, rest)
  | 43 :: rest => (false, rest)
  | text => (false, text)

theorem sign_append {text : Bytes} (hne : text ≠ []) (more : Bytes) :
    sign (text ++ more) = ((sign text).1, (sign text).2 ++ more) := by
  obtain ⟨b, text, rfl⟩ := List.exists_cons_of_ne_nil hne
  by_cases hminus : b = 45
  · subst hminus
    rfl
  · by_cases hplus : b = 43
    · subst hplus
      rfl
    · have hunsigned : ∀ rest, sign (b :: rest) = (false, b :: rest) := by
        intro rest
        unfold sign
        split
        · rename_i heq
          exact absurd (List.cons.inj heq).1 hminus
        · rename_i heq
          exact absurd (List.cons.inj heq).1 hplus
        · rfl
      rw [List.cons_append, hunsigned, hunsigned, List.cons_append]

-- A value outside the range of `int` saturates.
def clampInt (n : Int) : Int := max (-2 ^ 31) (min n (2 ^ 31 - 1))

-- The decimal number at the start of the text, and what follows it.
def strtol (text : Bytes) : Option (Int × Bytes) :=
  let (negative, rest) := sign (skipSpace text)
  let digits := rest.takeWhile isDigit
  if digits.isEmpty then none
  else
    let n : Int := decimal digits
    some (clampInt (if negative then -n else n), rest.dropWhile isDigit)

theorem skipSpace_of_digit {b : UInt8} {text : Bytes} (h : isDigit b = true) :
    skipSpace (b :: text) = b :: text := by
  have hspace : isSpace b = false := by grind [isDigit, isSpace]
  rw [skipSpace, List.dropWhile_cons_of_neg (by simp [hspace])]

theorem sign_of_digit {b : UInt8} {text : Bytes} (h : isDigit b = true) :
    sign (b :: text) = (false, b :: text) := by
  unfold sign
  split
  · exact absurd h (by simp_all [isDigit])
  · exact absurd h (by simp_all [isDigit])
  · rfl

-- A number ends where its digits do.
theorem strtol_digits (digits : Bytes) {rest : Bytes} (hne : digits ≠ [])
    (hdigits : ∀ b ∈ digits, isDigit b = true) (hrest : ∀ b ∈ rest.head?, isDigit b = false) :
    strtol (digits ++ rest) = some (clampInt (decimal digits), rest) := by
  have hstop : rest.takeWhile isDigit = [] ∧ rest.dropWhile isDigit = rest := by
    cases rest with
    | nil => exact ⟨rfl, rfl⟩
    | cons b rest =>
        have hb : isDigit b = false := hrest b (by simp)
        simp [hb]
  obtain ⟨b, more, rfl⟩ := List.exists_cons_of_ne_nil hne
  have hb := hdigits b List.mem_cons_self
  have htake : ((b :: more) ++ rest).takeWhile isDigit = b :: more := by
    rw [List.takeWhile_append_of_pos hdigits, hstop.1, List.append_nil]
  have hdrop : ((b :: more) ++ rest).dropWhile isDigit = rest := by
    rw [List.dropWhile_append_of_pos hdigits, hstop.2]
  rw [strtol, List.cons_append, skipSpace_of_digit hb, sign_of_digit hb, ← List.cons_append]
  simp only [htake, hdrop, List.isEmpty_cons, Bool.false_eq_true, ite_false]

def atoi (text : Bytes) : Int :=
  match strtol text with
  | some (n, _) => n
  | none => 0

-- The decimal number at the start of the text, whatever its size.
def numeral (text : Bytes) : Option Int :=
  let (negative, rest) := sign (skipSpace text)
  let digits := rest.takeWhile isDigit
  if digits.isEmpty then none
  else
    let n : Int := decimal digits
    some (if negative then -n else n)

abbrev FitsInt (n : Int) : Prop := -2 ^ 31 ≤ n ∧ n < 2 ^ 31

theorem clampInt_eq_iff (n : Int) : clampInt n = n ↔ FitsInt n := by
  unfold clampInt FitsInt
  omega

-- A count is read as it is below the bound of `int`.
theorem toSize_clampInt_iff (n : Nat) : toSize (clampInt n) = n ↔ n < 2 ^ 31 := by
  rcases Nat.lt_or_ge n (2 ^ 31) with hsmall | hlarge
  · have hfits : clampInt n = n := (clampInt_eq_iff n).mpr ⟨by omega, by omega⟩
    rw [hfits, toSize_natCast n (by omega)]
    exact iff_of_true rfl hsmall
  · have hbound : clampInt n = 2 ^ 31 - 1 := by
      unfold clampInt
      omega
    have hsize : toSize (2 ^ 31 - 1) = 2 ^ 31 - 1 := rfl
    rw [hbound, hsize]
    exact ⟨fun h => absurd h (by omega), fun h => absurd h (Nat.not_lt.mpr hlarge)⟩

-- `atoi` cannot tell a zero from a text without digits, nor the largest number
-- from one that is out of range.
theorem atoi_of_numeral (text : Bytes) : atoi text = ((numeral text).map clampInt).getD 0 := by
  unfold atoi strtol numeral
  generalize sign (skipSpace text) = signed
  obtain ⟨negative, rest⟩ := signed
  by_cases hdigits : (rest.takeWhile isDigit).isEmpty = true
  · simp only [hdigits, ite_true]
    rfl
  · simp only [hdigits]
    rfl

end Numbers

end CLib

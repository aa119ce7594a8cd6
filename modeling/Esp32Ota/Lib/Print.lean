import Esp32Ota.Lib.CLib
import Mathlib.Data.Nat.Digits.Lemmas

-- Numbers as `printf` writes them, and the numbers that are read back from that.
namespace CLib

-- What `%u` writes.
def formatNat (n : Nat) : Bytes :=
  if n = 0 then [48] else (Nat.digits 10 n).reverse.map fun d => UInt8.ofNat (48 + d)

-- What `%d` writes.
def formatInt (n : Int) : Bytes :=
  if n < 0 then 45 :: formatNat n.natAbs else formatNat n.natAbs

theorem toNat_digit {d : Nat} (h : d < 10) : (UInt8.ofNat (48 + d)).toNat = 48 + d :=
  UInt8.toNat_ofNat_of_lt (by unfold UInt8.size; omega)

theorem formatNat_ne_nil (n : Nat) : formatNat n ≠ [] := by
  unfold formatNat
  by_cases hn : n = 0
  · rw [if_pos hn]
    exact List.cons_ne_nil _ _
  · rw [if_neg hn, Ne, List.map_eq_nil_iff, List.reverse_eq_nil_iff]
    exact Nat.digits_ne_nil_iff_ne_zero.mpr hn

theorem isDigit_formatNat (n : Nat) : ∀ b ∈ formatNat n, isDigit b = true := by
  intro b hb
  unfold formatNat at hb
  by_cases hn : n = 0
  · rw [if_pos hn, List.mem_singleton] at hb
    subst hb
    decide
  · rw [if_neg hn, List.mem_map] at hb
    obtain ⟨d, hd, rfl⟩ := hb
    have hlt : d < 10 := Nat.digits_lt_base (by decide) (List.mem_reverse.mp hd)
    have htoNat := toNat_digit hlt
    simp only [isDigit, Bool.and_eq_true, decide_eq_true_eq, UInt8.le_iff_toNat_le]
    rw [htoNat]
    exact ⟨by simp, by simp; omega⟩

theorem decimal_append (digits : Bytes) (b : UInt8) :
    decimal (digits ++ [b]) = 10 * decimal digits + (b.toNat - 48) := by
  simp only [decimal, List.foldl_append, List.foldl_cons, List.foldl_nil]

-- By induction on the digits, the last one of the text first.
theorem decimal_digits (ds : List Nat) (h : ∀ d ∈ ds, d < 10) :
    decimal (ds.reverse.map fun d => UInt8.ofNat (48 + d)) = Nat.ofDigits 10 ds := by
  induction ds with
  | nil => rfl
  | cons d ds ih =>
      have hrest := ih fun e he => h e (List.mem_cons_of_mem d he)
      have hd := toNat_digit (h d List.mem_cons_self)
      rw [List.reverse_cons, List.map_append, List.map_singleton, decimal_append, hrest, hd, Nat.ofDigits_cons]
      omega

theorem decimal_formatNat (n : Nat) : decimal (formatNat n) = n := by
  unfold formatNat
  by_cases hn : n = 0
  · rw [if_pos hn, hn]
    rfl
  · rw [if_neg hn, decimal_digits _ fun d hd => Nat.digits_lt_base (by decide) hd, Nat.ofDigits_digits]

theorem length_formatNat_le {n k : Nat} (hk : 0 < k) (h : n < 10 ^ k) : (formatNat n).length ≤ k := by
  unfold formatNat
  by_cases hn : n = 0
  · rw [if_pos hn]
    exact hk
  · rw [if_neg hn, List.length_map, List.length_reverse]
    exact (Nat.digits_length_le_iff (by decide) n).mpr h

-- A sign and digits
theorem mem_formatInt (n : Int) : ∀ b ∈ formatInt n, b = 45 ∨ isDigit b = true := by
  intro b hb
  unfold formatInt at hb
  by_cases hneg : n < 0
  · rw [if_pos hneg, List.mem_cons] at hb
    exact hb.imp id (isDigit_formatNat _ b)
  · rw [if_neg hneg] at hb
    exact .inr (isDigit_formatNat _ b hb)

-- What is printed is read back.
theorem numeral_formatInt (n : Int) : numeral (formatInt n) = some n := by
  have hdigits : (formatNat n.natAbs).takeWhile isDigit = formatNat n.natAbs :=
    List.takeWhile_eq_self_iff.mpr (isDigit_formatNat _)
  have hempty : (formatNat n.natAbs).isEmpty = false := by simpa using formatNat_ne_nil _
  unfold formatInt numeral
  by_cases hneg : n < 0
  · have habs : -((n.natAbs : Nat) : Int) = n := by omega
    have hspace : skipSpace (45 :: formatNat n.natAbs) = 45 :: formatNat n.natAbs :=
      List.dropWhile_cons_of_neg (by decide)
    rw [if_pos hneg, hspace]
    simp only [sign, hdigits, hempty, Bool.false_eq_true, ite_false, ite_true, decimal_formatNat, habs]
  · have habs : ((n.natAbs : Nat) : Int) = n := by omega
    obtain ⟨b, more, hcons⟩ := List.exists_cons_of_ne_nil (formatNat_ne_nil n.natAbs)
    have hb : isDigit b = true := isDigit_formatNat _ b (hcons ▸ List.mem_cons_self)
    have hsign : sign (skipSpace (formatNat n.natAbs)) = (false, formatNat n.natAbs) := by
      rw [hcons, skipSpace_of_digit hb, sign_of_digit hb]
    rw [if_neg hneg, hsign]
    simp only [hdigits, hempty, Bool.false_eq_true, ite_false, decimal_formatNat, habs]

end CLib

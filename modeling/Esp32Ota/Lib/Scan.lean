import Esp32Ota.Lib.CLib

-- C strings as the library functions walk over them, one byte after the other.
namespace CLib

-- What memory holds from an address on. To read behind its end is undefined.
abbrev CharPtr := Bytes

abbrev Access := Except Halt

section Store

-- `dst[offset] = b`
def storeByte (dst : Bytes) (offset : Nat) (b : UInt8) : Access Bytes :=
  if offset < dst.length then return store dst offset [b] else throw .undefined

theorem storeByte_of_lt {dst : Bytes} {offset : Nat} (h : offset < dst.length) (b : UInt8) :
    storeByte dst offset b = .ok (store dst offset [b]) := if_pos h

-- `memcpy(&dst[offset], &src[start], len)`
def copyBytes (dst : Bytes) (offset : Nat) (src : Bytes) (start len : Nat) : Access Bytes :=
  if offset + len ≤ dst.length ∧ start + len ≤ src.length then
    return store dst offset ((src.drop start).take len)
  else throw .undefined

theorem copyBytes_of_le {dst src : Bytes} {offset start len : Nat} (hdst : offset + len ≤ dst.length)
    (hsrc : start + len ≤ src.length) :
    copyBytes dst offset src start len = .ok (store dst offset ((src.drop start).take len)) := if_pos ⟨hdst, hsrc⟩

-- A difference of two counters, which must not be negative.
def subtract (a b : Nat) : Access Nat := if b ≤ a then return a - b else throw .undefined

theorem subtract_of_le {a b : Nat} (h : b ≤ a) : subtract a b = .ok (a - b) := if_pos h

theorem store_nil (dst : Bytes) (offset : Nat) : store dst offset [] = dst := by
  simp [store]

-- Two stores in a row are one.
theorem store_store {dst : Bytes} {offset : Nat} (h : offset ≤ dst.length) (src more : Bytes) :
    store (store dst offset src) (offset + src.length) more = store dst offset (src ++ more) := by
  have hlen : (dst.take offset ++ src).length = offset + src.length := by
    rw [List.length_append, List.length_take, Nat.min_eq_left h]
  have hdrop : (store dst offset src).drop (offset + src.length + more.length) =
      dst.drop (offset + src.length + more.length) := by
    rw [store, ← hlen, List.drop_append, List.drop_of_length_le (by omega), List.nil_append,
      Nat.add_sub_cancel_left, List.drop_drop, hlen]
  rw [store, take_store dst offset src h, hdrop, store, List.length_append]
  simp only [List.append_assoc, Nat.add_assoc]

end Store

section Terminated

theorem eq_cstr_append {buffer : Bytes} (h : 0 ∈ buffer) : ∃ rest, buffer = cstr buffer ++ 0 :: rest := by
  induction buffer with
  | nil => cases h
  | cons b buffer ih =>
      by_cases hb : b = 0
      · exact ⟨buffer, by rw [hb, cstr_cons_zero, List.nil_append]⟩
      · obtain ⟨rest, hrest⟩ := ih ((List.mem_cons.mp h).resolve_left (Ne.symm hb))
        have hcons : cstr (b :: buffer) = b :: cstr buffer := List.takeWhile_cons_of_pos (by simpa using hb)
        exact ⟨rest, by rw [hcons, List.cons_append, ← hrest]⟩

-- A pointer into a string is a string.
theorem nul_mem_drop {buffer : Bytes} (h : 0 ∈ buffer) {k : Nat} (hk : k ≤ (cstr buffer).length) :
    0 ∈ buffer.drop k := by
  obtain ⟨rest, hrest⟩ := eq_cstr_append h
  rw [hrest, List.drop_append_of_le_length hk]
  simp

theorem cstr_drop {buffer : Bytes} {k : Nat} (hk : k ≤ (cstr buffer).length) :
    cstr (buffer.drop k) = (cstr buffer).drop k := by
  have hzero : 0 ∉ (cstr buffer).drop k := fun hmem => zero_notMem_cstr buffer (List.mem_of_mem_drop hmem)
  by_cases h : 0 ∈ buffer
  · obtain ⟨rest, hrest⟩ := eq_cstr_append h
    conv_lhs => rw [hrest]
    rw [List.drop_append_of_le_length hk, cstr_append _ _ hzero, cstr_cons_zero, List.append_nil]
  · rw [cstr_of_notMem _ h] at hzero ⊢
    exact cstr_of_notMem _ hzero

end Terminated

namespace CharPtr

def load : CharPtr → Access UInt8
  | [] => throw .undefined
  | b :: _ => return b

-- Whether the string starts with the bytes of `needle`.
def startsWith : Bytes → CharPtr → Access Bool
  | [], _ => return true
  | _ :: _, [] => throw .undefined
  | c :: needle, b :: rest => if c = b then startsWith needle rest else return false

-- `strstr`, as an offset.
def strstr (needle : Bytes) : CharPtr → Access (Option Nat)
  | [] => throw .undefined
  | b :: rest =>
    if b = 0 then return if needle.isEmpty then some 0 else none
    else do
      if ← startsWith needle (b :: rest) then
        return some 0
      return (← strstr needle rest).map (· + 1)

theorem startsWith_of_leads {needle : Bytes} {p : CharPtr} (h : needle <+: p) :
    startsWith needle p = .ok true := by
  induction needle generalizing p with
  | nil => rfl
  | cons c needle ih =>
      obtain ⟨rest, rfl⟩ := h
      rw [List.cons_append, startsWith, if_pos rfl]
      exact ih (List.prefix_append needle rest)

-- The comparison ends inside the memory unless that ends within an occurrence.
theorem startsWith_of_differs {needle : Bytes} {p : CharPtr} (h : ¬needle <+: p) (hend : ¬p <+: needle) :
    startsWith needle p = .ok false := by
  induction needle generalizing p with
  | nil => exact absurd List.nil_prefix h
  | cons c needle ih =>
      cases p with
      | nil => exact absurd List.nil_prefix hend
      | cons b rest =>
          by_cases hc : c = b
          · subst hc
            rw [List.cons_prefix_cons] at h hend
            rw [startsWith, if_pos rfl]
            exact ih (fun hmore => h ⟨rfl, hmore⟩) (fun hmore => hend ⟨rfl, hmore⟩)
          · rw [startsWith, if_neg hc]
            rfl

theorem startsWith_of_end {needle : Bytes} {p : CharPtr} (hend : p <+: needle) (h : p ≠ needle) :
    startsWith needle p = .error .undefined := by
  induction p generalizing needle with
  | nil =>
      cases needle with
      | nil => exact absurd rfl h
      | cons c needle => rfl
  | cons b rest ih =>
      obtain ⟨more, rfl⟩ := hend
      rw [List.cons_append, startsWith, if_pos rfl]
      exact ih (List.prefix_append rest more) fun hmore => h (congrArg (b :: ·) hmore)

theorem prefix_cstr_iff {needle : Bytes} (hneedle : 0 ∉ needle) (p : CharPtr) :
    needle <+: cstr p ↔ needle <+: p := by
  constructor
  · exact fun h => h.trans (cstr_isPrefix p)
  · intro h
    obtain ⟨rest, rfl⟩ := h
    rw [cstr_append _ _ hneedle]
    exact List.prefix_append _ _

theorem strstr_cons {needle : Bytes} (hneedle : 0 ∉ needle) {b : UInt8} (hb : b ≠ 0) (rest : CharPtr) :
    CLib.strstr (b :: rest) needle =
      if needle.isPrefixOf (b :: rest) then some 0 else (CLib.strstr rest needle).map (· + 1) := by
  have hcstr : cstr (b :: rest) = b :: cstr rest := List.takeWhile_cons_of_pos (by simpa using hb)
  have hprefix : needle.isPrefixOf (b :: cstr rest) = needle.isPrefixOf (b :: rest) := by
    rw [← hcstr, Bool.eq_iff_iff, List.isPrefixOf_iff_prefix, List.isPrefixOf_iff_prefix]
    exact prefix_cstr_iff hneedle (b :: rest)
  rw [CLib.strstr, hcstr, find, hprefix]
  rfl

-- A NUL in memory ends the search.
theorem strstr_of_nul {needle : Bytes} (hneedle : 0 ∉ needle) {p : CharPtr} (h : 0 ∈ p) :
    strstr needle p = .ok (CLib.strstr p needle) := by
  induction p with
  | nil => cases h
  | cons b rest ih =>
      by_cases hb : b = 0
      · rw [hb, strstr, if_pos rfl, CLib.strstr, cstr_cons_zero]
        rfl
      · have hrest : 0 ∈ rest := (List.mem_cons.mp h).resolve_left (Ne.symm hb)
        rw [strstr, if_neg hb, strstr_cons hneedle hb]
        by_cases hp : needle <+: b :: rest
        · rw [startsWith_of_leads hp, if_pos (List.isPrefixOf_iff_prefix.mpr hp)]
          rfl
        · have hend : ¬b :: rest <+: needle := fun hend => hneedle (hend.subset h)
          rw [startsWith_of_differs hp hend, if_neg (by rwa [List.isPrefixOf_iff_prefix]), ih hrest]
          rfl

-- Without one it runs out of memory unless it meets an occurrence.
theorem strstr_of_no_nul {needle : Bytes} (hne : needle ≠ []) {p : CharPtr} (h : 0 ∉ p) :
    strstr needle p = match find needle p with
      | some i => .ok (some i)
      | none => .error .undefined := by
  induction p with
  | nil =>
      rw [strstr, find, if_neg (by simpa using hne)]
      rfl
  | cons b rest ih =>
      have hb : b ≠ 0 := fun hb => h (hb ▸ List.mem_cons_self)
      rw [strstr, if_neg hb, find]
      by_cases hp : needle <+: b :: rest
      · rw [startsWith_of_leads hp, if_pos (List.isPrefixOf_iff_prefix.mpr hp)]
        rfl
      · rw [if_neg (by rwa [List.isPrefixOf_iff_prefix])]
        by_cases hend : b :: rest <+: needle
        · have hshort : (b :: rest).length < needle.length := by
            refine lt_of_le_of_ne hend.length_le fun hlen => hp ?_
            rw [hend.eq_of_length hlen]
          have hnone : find needle rest = none := by
            by_contra hsome
            obtain ⟨i, hi⟩ := Option.ne_none_iff_exists'.mp hsome
            have hbound := find_bound hi
            rw [List.length_cons] at hshort
            omega
          rw [startsWith_of_end hend (fun heq => by rw [heq] at hshort; omega), hnone]
          rfl
        · rw [startsWith_of_differs hp hend, ih fun hmem => h (List.mem_cons_of_mem b hmem)]
          cases find needle rest <;> rfl

-- What a search may be asked in memory: it meets a NUL, or what it looks for.
theorem strstr_of_found {needle : Bytes} (hneedle : 0 ∉ needle) {p : CharPtr} (hne : 0 ∉ p → needle ≠ [])
    (h : 0 ∈ p ∨ find needle p ≠ none) : strstr needle p = .ok (CLib.strstr p needle) := by
  by_cases hzero : 0 ∈ p
  · exact strstr_of_nul hneedle hzero
  · obtain ⟨i, hi⟩ := Option.ne_none_iff_exists'.mp (h.resolve_left hzero)
    rw [strstr_of_no_nul (hne hzero) hzero, CLib.strstr, cstr_of_notMem _ hzero, hi]

theorem strstr_of_not_found {needle : Bytes} (hne : needle ≠ []) {p : CharPtr} (hzero : 0 ∉ p)
    (h : find needle p = none) : strstr needle p = .error .undefined := by
  rw [strstr_of_no_nul hne hzero, h]

-- The bytes up to the first one without the property, which is read as well.
def span (p : UInt8 → Bool) : CharPtr → Access (Bytes × CharPtr)
  | [] => throw .undefined
  | b :: rest =>
    if p b then do
      let (start, rest) ← span p rest
      return (b :: start, rest)
    else return ([], b :: rest)

-- `strtol` as it is used for base ten.
def strtol (text : CharPtr) : Access (Option (Int × CharPtr)) := do
  let (_, text) ← span isSpace text
  let (negative, rest) := sign text
  let (digits, rest) ← span isDigit rest
  if digits.isEmpty then
    return none
  let n : Int := decimal digits
  return some (clampInt (if negative then -n else n), rest)

def atoi (text : CharPtr) : Access Int := do
  match ← strtol text with
  | some (n, _) => return n
  | none => return 0

-- Something stands behind the number.
def NumberEnds (text : CharPtr) : Prop := (sign (skipSpace text)).2.dropWhile isDigit ≠ []

instance (text : CharPtr) : Decidable (NumberEnds text) :=
  inferInstanceAs (Decidable ((sign (skipSpace text)).2.dropWhile isDigit ≠ []))

theorem span_of_ends {p : UInt8 → Bool} {text : CharPtr} (h : text.dropWhile p ≠ []) :
    span p text = .ok (text.takeWhile p, text.dropWhile p) := by
  induction text with
  | nil => exact absurd rfl h
  | cons b rest ih =>
      by_cases hb : p b = true
      · rw [List.dropWhile_cons_of_pos hb] at h
        rw [span, if_pos hb, ih h, List.takeWhile_cons_of_pos hb, List.dropWhile_cons_of_pos hb]
        rfl
      · rw [span, if_neg hb, List.takeWhile_cons_of_neg hb, List.dropWhile_cons_of_neg hb]
        rfl

theorem span_of_not_ends {p : UInt8 → Bool} {text : CharPtr} (h : text.dropWhile p = []) :
    span p text = .error .undefined := by
  induction text with
  | nil => rfl
  | cons b rest ih =>
      have hb : p b = true := by
        by_contra hb
        rw [List.dropWhile_cons_of_neg hb] at h
        cases h
      rw [List.dropWhile_cons_of_pos hb] at h
      rw [span, if_pos hb, ih h]
      rfl

theorem strtol_of_ends {text : CharPtr} (h : NumberEnds text) : strtol text = .ok (CLib.strtol text) := by
  have hspace : skipSpace text ≠ [] := by
    intro hnil
    rw [NumberEnds, hnil] at h
    exact h rfl
  rw [strtol, CLib.strtol, span_of_ends hspace]
  change (do
    let (digits, rest) ← span isDigit (sign (skipSpace text)).2
    if digits.isEmpty then return none
    let n : Int := decimal digits
    return some (clampInt (if (sign (skipSpace text)).1 then -n else n), rest)) = _
  rw [span_of_ends h]
  cases hdigits : ((sign (skipSpace text)).2.takeWhile isDigit).isEmpty with
  | true => simp [bind, Except.bind, hdigits, pure, Except.pure]
  | false => simp [bind, Except.bind, hdigits, pure, Except.pure]

theorem strtol_of_not_ends {text : CharPtr} (h : ¬NumberEnds text) : strtol text = .error .undefined := by
  rw [NumberEnds, not_not] at h
  rw [strtol]
  by_cases hspace : text.dropWhile isSpace = []
  · rw [span_of_not_ends hspace]
    rfl
  · rw [span_of_ends hspace]
    change (span isDigit (sign (skipSpace text)).2 >>= _) = _
    rw [span_of_not_ends h]
    rfl

-- A NUL is neither a space nor a sign nor a digit.
theorem dropWhile_append_nul {p : UInt8 → Bool} (hp : p 0 = false) (text rest : Bytes) :
    (text ++ 0 :: rest).dropWhile p = text.dropWhile p ++ 0 :: rest := by
  rw [List.dropWhile_append, List.dropWhile_cons_of_neg (by simp [hp])]
  split
  · rename_i hempty
    rw [List.isEmpty_iff.mp hempty, List.nil_append]
  · rfl

theorem takeWhile_append_nul {p : UInt8 → Bool} (hp : p 0 = false) (text rest : Bytes) :
    (text ++ 0 :: rest).takeWhile p = text.takeWhile p := by
  rw [List.takeWhile_append, List.takeWhile_cons_of_neg (by simp [hp]), List.append_nil]
  split
  · rename_i hall
    exact ((List.takeWhile_prefix p).eq_of_length hall).symm
  · rfl

theorem sign_append_nul (text rest : Bytes) :
    sign (text ++ 0 :: rest) = ((sign text).1, (sign text).2 ++ 0 :: rest) := by
  cases text with
  | nil => rfl
  | cons b text => exact sign_append (List.cons_ne_nil b text) _

theorem numberEnds_append_nul (text rest : Bytes) : NumberEnds (text ++ 0 :: rest) := by
  rw [NumberEnds, skipSpace, dropWhile_append_nul rfl, sign_append_nul, dropWhile_append_nul rfl]
  simp

theorem numberEnds_of_nul {p : CharPtr} (h : 0 ∈ p) : NumberEnds p := by
  obtain ⟨rest, hrest⟩ := eq_cstr_append h
  rw [hrest]
  exact numberEnds_append_nul _ rest

theorem strtol_append_nul (text rest : Bytes) :
    CLib.strtol (text ++ 0 :: rest) = (CLib.strtol text).map fun number => (number.1, number.2 ++ 0 :: rest) := by
  rw [CLib.strtol, CLib.strtol, skipSpace, skipSpace, dropWhile_append_nul rfl, sign_append_nul]
  generalize sign (text.dropWhile isSpace) = signed
  obtain ⟨negative, number⟩ := signed
  simp only [takeWhile_append_nul (p := isDigit) rfl, dropWhile_append_nul (p := isDigit) rfl]
  cases (number.takeWhile isDigit).isEmpty <;> rfl

theorem atoi_cstr {p : CharPtr} (h : 0 ∈ p) : CLib.atoi p = CLib.atoi (cstr p) := by
  obtain ⟨rest, hrest⟩ := eq_cstr_append h
  conv_lhs => rw [hrest]
  rw [CLib.atoi, CLib.atoi, strtol_append_nul]
  cases CLib.strtol (cstr p) <;> rfl

theorem atoi_of_ends {text : CharPtr} (h : NumberEnds text) : atoi text = .ok (CLib.atoi text) := by
  rw [atoi, strtol_of_ends h, CLib.atoi]
  cases CLib.strtol text <;> rfl

theorem atoi_of_not_ends {text : CharPtr} (h : ¬NumberEnds text) : atoi text = .error .undefined := by
  rw [atoi, strtol_of_not_ends h]
  rfl

end CharPtr

end CLib

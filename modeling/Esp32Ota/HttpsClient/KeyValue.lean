import Esp32Ota.HttpsClient.Fields
import Esp32Ota.Lib.Scan

-- `http_parse_key_value_string` as it walks over the buffer, one byte after the other.
namespace Esp32Ota

open CLib Halting

-- At most `n` more bytes go from `src` to `str[i]` on.
def httpParseKeyValueStringLoop : Nat → CharPtr → Bytes → Nat → Access (Bytes × Nat)
  | 0, _, str, i => return (str, i)
  | n + 1, src, str, i => do
    let c ← src.load
    if c = 0 ∨ c = 13 ∨ c = 10 then
      return (str, i)
    httpParseKeyValueStringLoop n (src.drop 1) (← storeByte str i c) (i + 1)

def httpParseKeyValueStringAt (buffer : CharPtr) (key str : Bytes) (strLen : Nat) : Access (Int × Bytes) := do
  match ← CharPtr.strstr key buffer with
  | none => return (-1, str)
  | some locKey =>
    let (str, i) ← httpParseKeyValueStringLoop (strLen - 1) (buffer.drop (locKey + key.length)) str 0
    return (0, ← storeByte str i 0)

section Line

-- The first `n` bytes up to the end of the string or line.
def lineStart (text : Bytes) (n : Nat) : Bytes := (text.take n).takeWhile fun c => c ≠ 13 ∧ c ≠ 10

-- The longest of the prefixes that have no end of line and fit into `n` bytes.
structure LongestLine (text : Bytes) (n : Nat) (value : Bytes) : Prop where
  initial : value <+: text
  oneLine : ∀ c ∈ value, c ≠ 13 ∧ c ≠ 10
  fits : value.length ≤ n
  longest : ∀ longer, longer <+: text → (∀ c ∈ longer, c ≠ 13 ∧ c ≠ 10) → longer.length ≤ n →
    longer.length ≤ value.length

theorem longestLine_lineStart (text : Bytes) (n : Nat) : LongestLine text n (lineStart text n) := by
  have hinitial : lineStart text n <+: text.take n := List.takeWhile_prefix _
  refine ⟨hinitial.trans (List.take_prefix n text), fun c hc => ?_, ?_, fun longer hlonger hline hfits => ?_⟩
  · simpa using List.mem_takeWhile_imp hc
  · exact hinitial.length_le.trans (List.length_take_le n text)
  · have htake : longer <+: text.take n := by
      rw [List.prefix_take_iff]
      exact ⟨hlonger, hfits⟩
    obtain ⟨more, hmore⟩ := htake
    have hall : lineStart text n = longer ++ more.takeWhile fun c => c ≠ 13 ∧ c ≠ 10 := by
      rw [lineStart, ← hmore, List.takeWhile_append_of_pos]
      exact fun c hc => decide_eq_true (hline c hc)
    rw [hall, List.length_append]
    exact Nat.le_add_right _ _

end Line

section Loop

-- The line ends in memory, or `n` bytes of it are there.
def LineEnds (n : Nat) (src : CharPtr) : Prop := n ≤ src.length ∨ ∃ c ∈ src, c = 0 ∨ c = 13 ∨ c = 10

instance (n : Nat) (src : CharPtr) : Decidable (LineEnds n src) :=
  inferInstanceAs (Decidable (n ≤ src.length ∨ ∃ c ∈ src, c = 0 ∨ c = 13 ∨ c = 10))

theorem lineEnds_cons {n : Nat} {c : UInt8} {rest : CharPtr} (hc : ¬(c = 0 ∨ c = 13 ∨ c = 10)) :
    LineEnds (n + 1) (c :: rest) ↔ LineEnds n rest := by
  simp only [LineEnds, List.length_cons, Nat.add_le_add_iff_right, List.mem_cons, exists_eq_or_imp, hc, false_or]

-- The loop stops in front of the NUL at the latest.
theorem httpParseKeyValueStringLoop_eq {n i : Nat} {src : CharPtr} {str : Bytes} (hsrc : LineEnds n src)
    (hfits : i + n ≤ str.length) :
    httpParseKeyValueStringLoop n src str i =
      .ok (store str i (lineStart (cstr src) n), i + (lineStart (cstr src) n).length) := by
  induction n generalizing src str i with
  | zero => simp [httpParseKeyValueStringLoop, lineStart, store_nil, pure, Except.pure]
  | succ n ih =>
      have hne : src ≠ [] := by
        rintro rfl
        simp [LineEnds] at hsrc
      obtain ⟨c, rest, rfl⟩ := List.exists_cons_of_ne_nil hne
      rw [httpParseKeyValueStringLoop]
      by_cases hend : c = 0 ∨ c = 13 ∨ c = 10
      · have hnil : lineStart (cstr (c :: rest)) (n + 1) = [] := by
          rcases hend with rfl | rfl | rfl
          · simp [lineStart]
          · rfl
          · rfl
        rw [hnil, store_nil]
        simp [CharPtr.load, hend, bind, Except.bind, pure, Except.pure]
      · rw [lineEnds_cons hend] at hsrc
        push Not at hend
        obtain ⟨hzero, hcr, hlf⟩ := hend
        have hcons : lineStart (cstr (c :: rest)) (n + 1) = c :: lineStart (cstr rest) n := by
          simp [lineStart, cstr, hzero, hcr, hlf]
        have hlen : (store str i [c]).length = str.length := length_store _ _ _ (by simp; omega)
        have hstore := store_store (show i ≤ str.length by omega) [c] (lineStart (cstr rest) n)
        have hnext := @ih (i + 1) rest (store str i [c]) hsrc (by omega)
        simp only [CharPtr.load, pure_bind, hzero, hcr, hlf, or_self, ite_false, List.drop_succ_cons, List.drop_zero,
          storeByte_of_lt (show i < str.length by omega)]
        apply hnext.trans
        rw [List.length_singleton, List.singleton_append] at hstore
        rw [hcons, hstore, List.length_cons, Nat.add_assoc, Nat.add_comm 1]

theorem httpParseKeyValueStringLoop_runs_off {n i : Nat} {src : CharPtr} {str : Bytes} (hsrc : ¬LineEnds n src)
    (hfits : i + n ≤ str.length) : httpParseKeyValueStringLoop n src str i = .error .undefined := by
  induction n generalizing src str i with
  | zero => exact absurd (.inl (Nat.zero_le _)) hsrc
  | succ n ih =>
      cases src with
      | nil => rfl
      | cons c rest =>
          have hc : ¬(c = 0 ∨ c = 13 ∨ c = 10) := fun hc => hsrc (.inr ⟨c, List.mem_cons_self, hc⟩)
          have hlen : (store str i [c]).length = str.length := length_store _ _ _ (by simp; omega)
          rw [lineEnds_cons hc] at hsrc
          have hnext := @ih (i + 1) rest (store str i [c]) hsrc (by omega)
          simp only [httpParseKeyValueStringLoop, CharPtr.load, pure_bind, hc, ite_false, List.drop_succ_cons,
            List.drop_zero, storeByte_of_lt (show i < str.length by omega)]
          exact hnext

-- The lookup ends in the memory of the buffer.
def LineStops (buffer key : Bytes) (n : Nat) : Prop := 0 ∈ buffer ∨ ∃ text ∈ after key buffer, LineEnds n text

instance (buffer key : Bytes) (n : Nat) : Decidable (LineStops buffer key n) :=
  inferInstanceAs (Decidable (0 ∈ buffer ∨ ∃ text ∈ after key buffer, LineEnds n text))

variable {buffer : CharPtr} {key str : Bytes} {strLen : Nat}

-- With room for `strLen` bytes, it is the function of the model.
theorem httpParseKeyValueStringAt_eq (hstops : LineStops buffer key (strLen - 1)) (hkey : 0 ∉ key)
    (hne : 0 ∉ buffer → key ≠ []) (hpos : 1 ≤ strLen) (hstr : strLen ≤ str.length) :
    httpParseKeyValueStringAt buffer key str strLen = .ok (match httpParseKeyValueString buffer key strLen with
      | none => (-1, str)
      | some value => (0, store str 0 (value ++ [0]))) := by
  have hfound : 0 ∈ buffer ∨ find key buffer ≠ none := by
    refine hstops.imp_right fun ⟨text, htext, _⟩ hnone => ?_
    rw [after_eq_none_iff.mpr hnone] at htext
    cases htext
  rw [httpParseKeyValueStringAt, CharPtr.strstr_of_found hkey hne hfound, httpParseKeyValueString]
  cases hfind : strstr buffer key with
  | none => rfl
  | some locKey =>
      have hbound := find_bound hfind
      have hcstr := cstr_drop hbound
      have hsrc : LineEnds (strLen - 1) (buffer.drop (locKey + key.length)) := by
        by_cases hzero : 0 ∈ buffer
        · exact .inr ⟨0, nul_mem_drop hzero hbound, .inl rfl⟩
        · obtain ⟨text, htext, hends⟩ := hstops.resolve_left hzero
          rw [strstr, cstr_of_notMem _ hzero] at hfind
          rw [after, hfind] at htext
          cases htext
          exact hends
      have hvalue := (longestLine_lineStart ((cstr buffer).drop (locKey + key.length)) (strLen - 1)).fits
      have hloop := @httpParseKeyValueStringLoop_eq (strLen - 1) 0 _ str hsrc (by omega)
      rw [hcstr, Nat.zero_add] at hloop
      simp only [bind, Except.bind, hloop, Option.map_some]
      change _ = Except.ok (0, store str 0
        (lineStart ((cstr buffer).drop (locKey + key.length)) (strLen - 1) ++ [0]))
      generalize lineStart ((cstr buffer).drop (locKey + key.length)) (strLen - 1) = value at hvalue
      have hend : storeByte (store str 0 value) value.length 0 = .ok (store str 0 (value ++ [0])) := by
        have hstore := store_store (Nat.zero_le str.length) value [0]
        rw [Nat.zero_add] at hstore
        rw [storeByte_of_lt (by rw [length_store] <;> omega), hstore]
      rw [hend]
      rfl

theorem httpParseKeyValueStringAt_runs_off (hstops : ¬LineStops buffer key (strLen - 1)) (hne : key ≠ [])
    (hstr : strLen ≤ str.length) : httpParseKeyValueStringAt buffer key str strLen = .error .undefined := by
  rw [LineStops, not_or] at hstops
  obtain ⟨hzero, hafter⟩ := hstops
  rw [httpParseKeyValueStringAt, CharPtr.strstr_of_no_nul hne hzero]
  cases hfind : find key buffer with
  | none => rfl
  | some locKey =>
      have hends : ¬LineEnds (strLen - 1) (buffer.drop (locKey + key.length)) := fun hends =>
        hafter ⟨_, by rw [after, hfind]; rfl, hends⟩
      simp only [bind, Except.bind,
        httpParseKeyValueStringLoop_runs_off hends (show 0 + (strLen - 1) ≤ str.length by omega)]

end Loop

section Int

def httpParseKeyValueIntAt (buffer : CharPtr) (key : Bytes) : Access (Option Int) := do
  match ← CharPtr.strstr key buffer with
  | none => return none
  | some locKey => return some (← CharPtr.atoi (buffer.drop (locKey + key.length)))

def NumberStops (buffer key : Bytes) : Prop := 0 ∈ buffer ∨ ∃ text ∈ after key buffer, CharPtr.NumberEnds text

instance (buffer key : Bytes) : Decidable (NumberStops buffer key) :=
  inferInstanceAs (Decidable (0 ∈ buffer ∨ ∃ text ∈ after key buffer, CharPtr.NumberEnds text))

variable {buffer : CharPtr} {key : Bytes}

theorem httpParseKeyValueIntAt_eq (hstops : NumberStops buffer key) (hkey : 0 ∉ key) (hne : key ≠ []) :
    httpParseKeyValueIntAt buffer key = .ok (httpParseKeyValueInt buffer key) := by
  have hfound : 0 ∈ buffer ∨ find key buffer ≠ none := by
    refine hstops.imp_right fun ⟨text, htext, _⟩ hnone => ?_
    rw [after_eq_none_iff.mpr hnone] at htext
    cases htext
  rw [httpParseKeyValueIntAt, CharPtr.strstr_of_found hkey (fun _ => hne) hfound, httpParseKeyValueInt]
  cases hfind : strstr buffer key with
  | none => rfl
  | some locKey =>
      have hbound := find_bound hfind
      by_cases hzero : 0 ∈ buffer
      · have hends := nul_mem_drop hzero hbound
        simp only [bind, Except.bind, CharPtr.atoi_of_ends (CharPtr.numberEnds_of_nul hends),
          CharPtr.atoi_cstr hends, cstr_drop hbound]
        rfl
      · obtain ⟨text, htext, hends⟩ := hstops.resolve_left hzero
        rw [strstr, cstr_of_notMem _ hzero] at hfind
        rw [after, hfind] at htext
        cases htext
        simp only [bind, Except.bind, CharPtr.atoi_of_ends hends, cstr_of_notMem _ hzero]
        rfl

theorem httpParseKeyValueIntAt_runs_off (hstops : ¬NumberStops buffer key) (hne : key ≠ []) :
    httpParseKeyValueIntAt buffer key = .error .undefined := by
  rw [NumberStops, not_or] at hstops
  obtain ⟨hzero, hafter⟩ := hstops
  rw [httpParseKeyValueIntAt, CharPtr.strstr_of_no_nul hne hzero]
  cases hfind : find key buffer with
  | none => rfl
  | some locKey =>
      have hends : ¬CharPtr.NumberEnds (buffer.drop (locKey + key.length)) := fun hends =>
        hafter ⟨_, by rw [after, hfind]; rfl, hends⟩
      simp only [bind, Except.bind, CharPtr.atoi_of_not_ends hends]

end Int

end Esp32Ota

import Esp32Ota.Lib.CLib

-- Searches in a text of several lines for what fits into one line.
namespace CLib

-- The text behind the first occurrence of `needle`.
def after (needle hay : Bytes) : Option Bytes :=
  (find needle hay).map fun i => hay.drop (i + needle.length)

theorem after_eq_none_iff {needle hay : Bytes} : after needle hay = none ↔ find needle hay = none :=
  Option.map_eq_none_iff

theorem find_prefix (needle more : Bytes) : find needle (needle ++ more) = some 0 :=
  (find_eq_some_iff _ _ _).mpr ⟨Nat.zero_le _, by simp, fun j hj => absurd hj (Nat.not_lt_zero j)⟩

theorem after_prefix (needle more : Bytes) : after needle (needle ++ more) = some more := by
  rw [after, find_prefix, Option.map_some, Nat.zero_add, List.drop_left]

theorem find_cons_of_not {needle : Bytes} {b : UInt8} {rest : Bytes} (h : ¬needle <+: b :: rest) :
    find needle (b :: rest) = (find needle rest).map (· + 1) := by
  rw [find, if_neg (by rwa [List.isPrefixOf_iff_prefix])]

theorem find_eq_none_iff {needle hay : Bytes} : find needle hay = none ↔ ¬needle <:+: hay := by
  induction hay with
  | nil =>
      rw [find, List.infix_nil]
      by_cases h : needle = []
      · simp [h]
      · simp [h]
  | cons b hay ih =>
      rw [List.infix_cons_iff, not_or, ← ih]
      by_cases h : needle <+: b :: hay
      · simp [find, h]
      · rw [find_cons_of_not h, Option.map_eq_none_iff]
        exact (and_iff_right h).symm

-- No occurrence starts where the first byte is missing.
theorem find_behind {c : UInt8} {line : Bytes} (h : c ∉ line) (needle more : Bytes) :
    find (c :: needle) (line ++ more) = (find (c :: needle) more).map (· + line.length) := by
  induction line with
  | nil => exact Option.map_id'.symm
  | cons b line ih =>
      rw [List.mem_cons, not_or] at h
      have hhead : ¬c :: needle <+: b :: (line ++ more) := fun hprefix => h.1 (List.cons_prefix_cons.mp hprefix).1
      rw [List.cons_append, find_cons_of_not hhead, ih h.2, Option.map_map]
      rfl

-- An occurrence does not reach over a byte that it lacks.
theorem find_across {needle : Bytes} (hne : needle ≠ []) {b : UInt8} (hb : b ∉ needle) (line more : Bytes) :
    find needle (line ++ b :: more) = match find needle line with
      | some i => some i
      | none => (find needle more).map (· + (line.length + 1)) := by
  induction line with
  | nil =>
      have hnil : find needle [] = none := by rw [find, if_neg (by simpa using hne)]
      have hhead : ¬needle <+: b :: more := by
        intro h
        obtain ⟨c, needle, rfl⟩ := List.exists_cons_of_ne_nil hne
        rw [List.cons_prefix_cons] at h
        exact hb (h.1 ▸ List.mem_cons_self)
      rw [hnil, List.nil_append, find, if_neg (by rwa [List.isPrefixOf_iff_prefix])]
      rfl
  | cons c line ih =>
      have hprefix : needle <+: c :: (line ++ b :: more) ↔ needle <+: c :: line := by
        constructor
        · intro h
          rcases Nat.le_total needle.length (c :: line).length with hle | hlong
          · exact List.prefix_of_prefix_length_le h (List.prefix_append (c :: line) (b :: more)) hle
          · have hover : c :: line <+: needle :=
              List.prefix_of_prefix_length_le (List.prefix_append (c :: line) (b :: more)) h hlong
            obtain ⟨rest, rfl⟩ := hover
            cases rest with
            | nil => rw [List.append_nil]
            | cons d rest =>
                rw [← List.cons_append, List.prefix_append_right_inj, List.cons_prefix_cons] at h
                exact absurd (h.1 ▸ by simp : b ∈ c :: line ++ d :: rest) hb
        · intro h
          exact h.trans (List.prefix_append (c :: line) (b :: more))
      rw [List.cons_append, find, find]
      simp only [List.isPrefixOf_iff_prefix, hprefix, ih]
      by_cases h : needle <+: c :: line
      · simp only [h, ite_true]
      · simp only [h, ite_false]
        cases find needle line with
        | some i => rfl
        | none =>
            rw [Option.map_none, Option.map_map]
            congr 1

theorem after_across {needle : Bytes} (hne : needle ≠ []) {b : UInt8} (hb : b ∉ needle) (line more : Bytes) :
    after needle (line ++ b :: more) = match after needle line with
      | some text => some (text ++ b :: more)
      | none => after needle more := by
  rw [after, after, after, find_across hne hb]
  cases hline : find needle line with
  | some i => rw [Option.map_some, Option.map_some, List.drop_append_of_le_length (find_bound hline)]
  | none =>
      rw [Option.map_none, Option.map_map]
      congr 1
      funext i
      have hskip : (line ++ b :: more).drop (line.length + 1) = more := by
        rw [← List.drop_drop, List.drop_left]
        rfl
      rw [Function.comp_apply, show i + (line.length + 1) + needle.length =
        line.length + 1 + (i + needle.length) by omega, ← List.drop_drop, hskip]

section Lines

-- The bytes that end a line.
def IsBreak (b : UInt8) : Prop := b = 13 ∨ b = 10

instance (b : UInt8) : Decidable (IsBreak b) := inferInstanceAs (Decidable (b = 13 ∨ b = 10))

-- Decided along the text: the search over all values of a byte is far too deep.
instance decidableForallBytes (text : Bytes) (P : UInt8 → Prop) [DecidablePred P] : Decidable (∀ b ∈ text, P b) :=
  List.decidableBAll P text

-- A search key of at least one byte and at most one line.
structure LineKey (key : Bytes) : Prop where
  nonempty : key ≠ []
  oneLine : ∀ b ∈ key, ¬IsBreak b

-- CRLF or LF
def lineBreak (crlf : Bool) : Bytes := if crlf then [13, 10] else [10]

-- The first line, and the others with the end of line in front of each of them.
def joinLines : Bytes → List (Bool × Bytes) → Bytes
  | line, [] => line
  | line, (crlf, next) :: rest => line ++ lineBreak crlf ++ joinLines next rest

-- What follows in a text of several lines ends the line or the text.
def EndsLine (text : Bytes) : Prop := ∀ b ∈ text.head?, IsBreak b

variable {key : Bytes}

theorem endsLine_lineBreak (crlf : Bool) (more : Bytes) : EndsLine (lineBreak crlf ++ more) := by
  cases crlf with
  | false => exact fun b hb => .inr (by simpa [lineBreak, eq_comm] using hb)
  | true => exact fun b hb => .inl (by simpa [lineBreak, eq_comm] using hb)

theorem EndsLine.noDigit {text : Bytes} (h : EndsLine text) : ∀ b ∈ text.head?, isDigit b = false := by
  intro b hb
  rcases h b hb with rfl | rfl <;> rfl

theorem exists_joinLines (line : Bytes) (rest : List (Bool × Bytes)) :
    ∃ more, joinLines line rest = line ++ more ∧ EndsLine more := by
  cases rest with
  | nil => exact ⟨[], by rw [joinLines, List.append_nil], fun b hb => by cases hb⟩
  | cons next rest =>
      exact ⟨lineBreak next.1 ++ joinLines next.2 rest, by rw [joinLines, List.append_assoc],
        endsLine_lineBreak next.1 _⟩

theorem after_lineBreak (hkey : LineKey key) (crlf : Bool) (line more : Bytes) :
    after key (line ++ lineBreak crlf ++ more) = match after key line with
      | some text => some (text ++ (lineBreak crlf ++ more))
      | none => after key more := by
  have hcr : 13 ∉ key := fun h => hkey.oneLine 13 h (.inl rfl)
  have hlf : 10 ∉ key := fun h => hkey.oneLine 10 h (.inr rfl)
  have hnil : after key [] = none := by
    rw [after_eq_none_iff, find, if_neg (by simpa using hkey.nonempty)]
  cases crlf with
  | false =>
      have hlf' := after_across hkey.nonempty hlf line more
      simpa [lineBreak] using hlf'
  | true =>
      have hcr' := after_across hkey.nonempty hcr line (10 :: more)
      have hlf' := after_across hkey.nonempty hlf [] more
      rw [hnil, List.nil_append] at hlf'
      rw [hlf'] at hcr'
      simpa [lineBreak] using hcr'

-- The first line that contains the key decides the search.
theorem after_joinLines (hkey : LineKey key) (line : Bytes) (rest : List (Bool × Bytes)) :
    match (line :: rest.map Prod.snd).find? fun l => (after key l).isSome with
    | none => after key (joinLines line rest) = none
    | some found => ∃ text more, after key found = some text ∧ EndsLine more ∧
        after key (joinLines line rest) = some (text ++ more) := by
  induction rest generalizing line with
  | nil =>
      cases hline : after key line with
      | none => simp [joinLines, hline]
      | some text =>
          simp only [List.map_nil, List.find?_cons, hline, Option.isSome_some]
          exact ⟨text, [], rfl, fun b hb => (by cases hb), by rw [joinLines, hline, List.append_nil]⟩
  | cons next rest ih =>
      obtain ⟨crlf, next⟩ := next
      rw [joinLines, after_lineBreak hkey, List.find?_cons]
      cases hline : after key line with
      | none => simpa [hline] using ih next
      | some text =>
          exact ⟨text, lineBreak crlf ++ joinLines next rest, hline, endsLine_lineBreak crlf _, rfl⟩

end Lines

section Labelled

-- A line with a label, the first mark in it, and a value.
structure Labelled (mark : UInt8) where
  label : Bytes
  value : Bytes
  plainLabel : ∀ b ∈ label, b ≠ mark ∧ b ≠ 0 ∧ ¬IsBreak b
  plainValue : ∀ b ∈ value, b ≠ 0 ∧ ¬IsBreak b

variable {mark : UInt8}

def Labelled.line (entry : Labelled mark) : Bytes := entry.label ++ mark :: entry.value

theorem Labelled.line_plain (hmark : mark ≠ 0 ∧ ¬IsBreak mark) (entry : Labelled mark) :
    ∀ b ∈ entry.line, b ≠ 0 ∧ ¬IsBreak b := by
  intro b hb
  rcases List.mem_append.mp hb with hb | hb
  · exact (entry.plainLabel b hb).2
  · rcases List.mem_cons.mp hb with rfl | hb
    · exact hmark
    · exact entry.plainValue b hb

theorem Labelled.takeWhile_line (entry : Labelled mark) : entry.line.takeWhile (· ≠ mark) = entry.label := by
  have hlabel : ∀ b ∈ entry.label, decide (b ≠ mark) = true := fun b hb =>
    decide_eq_true (entry.plainLabel b hb).1
  rw [Labelled.line, List.takeWhile_append_of_pos hlabel, List.takeWhile_cons_of_neg (by simp), List.append_nil]

theorem Labelled.prefix_line_iff {key : Bytes} (hkey : mark ∉ key) (entry : Labelled mark) :
    key ++ [mark] <+: entry.line ↔ entry.label = key := by
  constructor
  · rintro ⟨more, hmore⟩
    have hall : ∀ b ∈ key, decide (b ≠ mark) = true := by
      intro b hb
      simp only [decide_eq_true_eq]
      exact fun h => hkey (h ▸ hb)
    rw [← entry.takeWhile_line, ← hmore, List.append_assoc, List.takeWhile_append_of_pos hall,
      List.singleton_append, List.takeWhile_cons_of_neg (by simp), List.append_nil]
  · rintro rfl
    exact ⟨entry.value, by rw [List.append_assoc, List.singleton_append, Labelled.line]⟩

-- Behind its label a line has its value.
theorem Labelled.after_label (entry : Labelled mark) : after (entry.label ++ [mark]) entry.line = some entry.value := by
  have hline : entry.line = entry.label ++ [mark] ++ entry.value := by
    rw [List.append_assoc, List.singleton_append, Labelled.line]
  rw [hline, after_prefix]

-- A search for a label with the mark behind it ends up at the mark of the line, or in the value.
theorem Labelled.after_eq_none (entry : Labelled mark) {key : Bytes} (hkey : mark ∉ key)
    (hvalue : after (key ++ [mark]) entry.value = none) (hlabel : ¬key <:+ entry.label) :
    after (key ++ [mark]) entry.line = none := by
  rw [after_eq_none_iff, find_eq_none_iff] at hvalue ⊢
  have hmark : mark ∉ entry.label := fun h => (entry.plainLabel mark h).1 rfl
  rintro ⟨front, more, hline⟩
  have hsplit : (front ++ key) ++ mark :: more = entry.label ++ mark :: entry.value := by
    rw [← Labelled.line, ← hline]
    simp
  rcases List.append_eq_append_iff.mp hsplit with ⟨gap, hgap, hrest⟩ | ⟨gap, hgap, hrest⟩
  · cases gap with
    | nil => exact hlabel ⟨front, by simpa using hgap.symm⟩
    | cons b gap =>
        obtain ⟨rfl, -⟩ := List.cons.inj hrest
        exact hmark (hgap ▸ by simp)
  · cases gap with
    | nil => exact hlabel ⟨front, by simpa using hgap⟩
    | cons b gap =>
        obtain ⟨rfl, hbehind⟩ := List.cons.inj hrest
        rcases List.append_eq_append_iff.mp hgap with ⟨excess, -, hexcess⟩ | ⟨excess, -, hexcess⟩
        · exact hkey (hexcess ▸ by simp)
        · cases excess with
          | nil => exact hkey (by rw [List.nil_append] at hexcess; exact hexcess ▸ List.mem_cons_self)
          | cons c excess =>
              obtain ⟨-, rfl⟩ := List.cons.inj hexcess
              exact hvalue ⟨excess, more, by rw [hbehind]; simp⟩
end Labelled

section Values

-- A number is over where its line is.
theorem numeral_append {text more : Bytes} {n : Int} (h : numeral text = some n) (hmore : EndsLine more) :
    numeral (text ++ more) = some n := by
  have hstart : skipSpace text ≠ [] := by
    intro hnil
    rw [numeral, hnil] at h
    cases h
  have hspace : skipSpace (text ++ more) = skipSpace text ++ more := by
    rw [skipSpace, List.dropWhile_append, if_neg (by simpa [skipSpace] using hstart)]
    rfl
  have hstop : more.takeWhile isDigit = [] := by
    cases more with
    | nil => rfl
    | cons b more =>
        have hb := hmore.noDigit b (by simp)
        rw [List.takeWhile_cons_of_neg (by simp [hb])]
  have hdigits : ((sign (skipSpace text)).2 ++ more).takeWhile isDigit =
      (sign (skipSpace text)).2.takeWhile isDigit := by
    rw [List.takeWhile_append, hstop, List.append_nil]
    split
    · rename_i hall
      exact ((List.takeWhile_prefix isDigit).eq_of_length hall).symm
    · rfl
  unfold numeral at h ⊢
  rw [hspace, sign_append hstart]
  simp only [hdigits]
  exact h

-- A value that fits is read up to the end of its line.
theorem takeWhile_append_endsLine {text more : Bytes} {n : Nat} (hfits : text.length ≤ n)
    (hline : ∀ b ∈ text, ¬IsBreak b) (hmore : EndsLine more) :
    ((text ++ more).take n).takeWhile (fun b => ¬IsBreak b) = text := by
  rw [List.take_append, List.take_of_length_le hfits, List.takeWhile_append_of_pos (by simpa using hline)]
  cases hrest : more.take (n - text.length) with
  | nil => rw [List.takeWhile_nil, List.append_nil]
  | cons b rest =>
      have hb : IsBreak b := by
        apply hmore b
        have hhead := congrArg List.head? hrest
        rw [List.head?_take] at hhead
        split at hhead
        · cases hhead
        · rw [hhead]
          rfl
      rw [List.takeWhile_cons_of_neg (by simpa using hb), List.append_nil]

end Values

end CLib

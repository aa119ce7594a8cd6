import Esp32Ota.HttpsClient.Fields
import Esp32Ota.IapHttps.Decision
import Mathlib.Data.List.Find
import Mathlib.Data.List.Nodup
import Mathlib.Data.List.ReduceOption

-- A metadata document read line by line, and what the searches over its whole text make of it.
namespace Esp32Ota

open CLib Halting

-- A line "KEY=VALUE"
abbrev Entry := Labelled 61

-- Entries and empty lines, each but the first with the end of line in front of it.
structure Lines where
  first : Option Entry
  rest : List (Bool × Option Entry)

def lineText : Option Entry → Bytes
  | none => []
  | some entry => entry.line

def Lines.lines (doc : Lines) : List (Option Entry) := doc.first :: doc.rest.map Prod.snd

def Lines.text (doc : Lines) : Bytes :=
  joinLines (lineText doc.first) (doc.rest.map fun line => (line.1, lineText line.2))

def Lines.entries (doc : Lines) : List Entry := doc.lines.reduceOption

def Lines.lookup (doc : Lines) (key : Bytes) : Option Bytes :=
  (doc.entries.find? fun entry => entry.label = key).map Labelled.value

-- Each key occurs at most once, and the values are those that the update server gives.
structure Document extends Lines where
  distinct : (toLines.entries.map Labelled.label).Nodup
  numbers : ∀ key ∈ [ascii "INTERVAL", ascii "VERSION"], ∀ value ∈ toLines.lookup key,
    ∃ n ∈ numeral value, FitsInt n
  fileName : ∀ value ∈ toLines.lookup (ascii "FILE"), value.length ≤ 255

-- The values of a line-by-line parser.
def Document.number (doc : Document) (key : Bytes) : Option Int := (doc.lookup key).bind numeral

def Document.file (doc : Document) : Option Bytes := doc.lookup (ascii "FILE")

-- What the code copies from behind a key.
def fileText (text : Bytes) : Bytes := (text.take 255).takeWhile fun c => c ≠ 13 ∧ c ≠ 10

section Lookup

variable {doc : Lines} {key : Bytes}

theorem lineText_plain (line : Option Entry) : 0 ∉ lineText line := by
  cases line with
  | none => exact List.not_mem_nil
  | some entry => exact fun h => (entry.line_plain ⟨by decide, by decide⟩ 0 h).1 rfl

theorem Lines.text_plain (doc : Lines) : 0 ∉ doc.text := by
  obtain ⟨first, rest⟩ := doc
  unfold Lines.text
  have hfirst := lineText_plain first
  generalize lineText first = line at hfirst ⊢
  induction rest generalizing line with
  | nil => exact hfirst
  | cons next rest ih =>
      rw [List.map_cons, joinLines]
      simp only [List.mem_append, not_or]
      refine ⟨⟨hfirst, ?_⟩, ih _ (lineText_plain next.2)⟩
      cases next.1 <;> decide

theorem mem_entries {entry : Entry} : entry ∈ doc.entries ↔ some entry ∈ doc.lines :=
  List.reduceOption_mem_iff

theorem lookup_of_mem (hdistinct : (doc.entries.map Labelled.label).Nodup) {entry : Entry}
    (hentry : entry ∈ doc.entries) : doc.lookup entry.label = some entry.value := by
  have hfound : (doc.entries.find? fun other => other.label = entry.label).isSome := by
    rw [List.find?_isSome]
    exact ⟨entry, hentry, by simp⟩
  obtain ⟨other, hother⟩ := Option.isSome_iff_exists.mp hfound
  have hsame : other = entry :=
    List.inj_on_of_nodup_map hdistinct (List.mem_of_find?_eq_some hother) hentry
      (by simpa using List.find?_some hother)
  rw [Lines.lookup, hother, hsame, Option.map_some]

theorem exists_of_lookup {value : Bytes} (h : doc.lookup key = some value) :
    ∃ entry ∈ doc.entries, entry.label = key ∧ entry.value = value := by
  obtain ⟨entry, hfind, rfl⟩ := Option.map_eq_some_iff.mp h
  exact ⟨entry, List.mem_of_find?_eq_some hfind, by simpa using List.find?_some hfind, rfl⟩

-- The order of the lines does not matter to a lookup.
theorem lookup_perm {other : Lines} (hdistinct : (doc.entries.map Labelled.label).Nodup)
    (hperm : doc.entries.Perm other.entries) (key : Bytes) : doc.lookup key = other.lookup key := by
  have hfind : (doc.entries.find? fun entry => entry.label = key) =
      other.entries.find? fun entry => entry.label = key := by
    refine List.find?_eq_find?_of_perm hperm ?_
    rintro entry ⟨hentry, hkey⟩ entry' ⟨hentry', hkey'⟩
    exact List.inj_on_of_nodup_map hdistinct hentry hentry'
      ((of_decide_eq_true hkey).trans (of_decide_eq_true hkey').symm)
  rw [Lines.lookup, Lines.lookup, hfind]

end Lookup

section Search

variable {doc : Lines} {key : Bytes} {β : Type}

-- The first line that the search for "KEY=" stops at.
def Lines.firstLine (doc : Lines) (key : Bytes) : Option Bytes :=
  (doc.lines.map lineText).find? fun line => (after (key ++ [61]) line).isSome

-- That line starts with "KEY=", or else the same value happens to stand where the text occurs.
def Lines.InPlace (doc : Lines) (key : Bytes) (read : Bytes → β) (value : Option β) : Prop :=
  ∀ line ∈ doc.firstLine key, ¬key ++ [61] <+: line →
    ∃ text ∈ textBehind doc.text (key ++ [61]), value = some (read text)

instance [DecidableEq β] (doc : Lines) (key : Bytes) (read : Bytes → β) (value : Option β) :
    Decidable (doc.InPlace key read value) :=
  inferInstanceAs (Decidable (∀ line ∈ doc.firstLine key, ¬key ++ [61] <+: line →
    ∃ text ∈ textBehind doc.text (key ++ [61]), value = some (read text)))

theorem textBehind_of_firstLine (doc : Lines) (hkey : LineKey (key ++ [61])) :
    match doc.firstLine key with
    | none => textBehind doc.text (key ++ [61]) = none
    | some line => ∃ text more, after (key ++ [61]) line = some text ∧ EndsLine more ∧
        textBehind doc.text (key ++ [61]) = some (text ++ more) := by
  have hjoin := after_joinLines hkey (lineText doc.first) (doc.rest.map fun line => (line.1, lineText line.2))
  rw [List.map_map] at hjoin
  have hlines : doc.lines.map lineText = lineText doc.first :: doc.rest.map (lineText ∘ Prod.snd) := by
    rw [Lines.lines, List.map_cons, List.map_map]
  rw [textBehind, cstr_of_notMem _ doc.text_plain, Lines.firstLine, hlines]
  exact hjoin

-- A line that starts with the key is that of its entry.
theorem lookup_of_firstLine (hdistinct : (doc.entries.map Labelled.label).Nodup) (hkey : 61 ∉ key) {line : Bytes}
    (hline : doc.firstLine key = some line) (hstart : key ++ [61] <+: line) :
    ∃ value, doc.lookup key = some value ∧ after (key ++ [61]) line = some value := by
  obtain ⟨source, hsource, rfl⟩ := List.mem_map.mp (List.mem_of_find?_eq_some hline)
  cases source with
  | none => exact absurd (List.prefix_nil.mp hstart) (by simp)
  | some entry =>
      obtain rfl := (entry.prefix_line_iff hkey).mp hstart
      exact ⟨entry.value, lookup_of_mem hdistinct (mem_entries.mpr hsource), entry.after_label⟩

theorem lookup_of_no_firstLine (hline : doc.firstLine key = none) : doc.lookup key = none := by
  by_contra hsome
  obtain ⟨value, hvalue⟩ := Option.ne_none_iff_exists'.mp hsome
  obtain ⟨entry, hentry, rfl, -⟩ := exists_of_lookup hvalue
  have hmem : lineText (some entry) ∈ doc.lines.map lineText := List.mem_map_of_mem (mem_entries.mp hentry)
  have habsent := List.find?_eq_none.mp hline _ hmem
  rw [lineText, entry.after_label] at habsent
  exact habsent rfl

-- The search reads a value right exactly if it stops in the right place.
theorem map_textBehind_iff (hkey : LineKey (key ++ [61])) (hmark : 61 ∉ key)
    (hdistinct : (doc.entries.map Labelled.label).Nodup) {read : Bytes → β} {value : Option β}
    (hmissing : doc.lookup key = none → value = none)
    (hread : ∀ text more, doc.lookup key = some text → EndsLine more → value = some (read (text ++ more))) :
    (textBehind doc.text (key ++ [61])).map read = value ↔ doc.InPlace key read value := by
  have hsearch := textBehind_of_firstLine doc hkey
  unfold Lines.InPlace
  cases hline : doc.firstLine key with
  | none =>
      rw [hline] at hsearch
      rw [hsearch, hmissing (lookup_of_no_firstLine hline)]
      exact iff_of_true rfl fun line h => by cases h
  | some line =>
      rw [hline] at hsearch
      obtain ⟨text, more, htext, hmore, hbehind⟩ := hsearch
      rw [hbehind]
      constructor
      · intro h line _ _
        exact ⟨text ++ more, rfl, h.symm⟩
      · intro h
        by_cases hstart : key ++ [61] <+: line
        · obtain ⟨own, hlookup, hafter⟩ := lookup_of_firstLine hdistinct hmark hline hstart
          obtain rfl := Option.some.inj (htext.symm.trans hafter)
          exact (hread text more hlookup hmore).symm
        · obtain ⟨_, hfound, hvalue⟩ := h line rfl hstart
          rw [hvalue, ← Option.mem_some.mp hfound, Option.map_some]

end Search

section Document

-- What the callback reads is what the line-by-line parser gives.
structure ReadsLines (buffer : Bytes) (doc : Document) : Prop where
  interval : httpParseKeyValueInt buffer (ascii "INTERVAL=") = doc.number (ascii "INTERVAL")
  version : httpParseKeyValueInt buffer (ascii "VERSION=") = doc.number (ascii "VERSION")
  file : httpParseKeyValueString buffer (ascii "FILE=") 256 = doc.file

-- Every search stops in the line of its key, or without harm.
structure Document.Unambiguous (doc : Document) : Prop where
  interval : doc.InPlace (ascii "INTERVAL") atoi (doc.number (ascii "INTERVAL"))
  version : doc.InPlace (ascii "VERSION") atoi (doc.number (ascii "VERSION"))
  file : doc.InPlace (ascii "FILE") fileText doc.file

variable {doc : Document} {buffer : Bytes}

theorem number_of_lookup {key text : Bytes} (hkey : key ∈ [ascii "INTERVAL", ascii "VERSION"])
    (hlookup : doc.lookup key = some text) {more : Bytes} (hmore : EndsLine more) :
    doc.number key = some (atoi (text ++ more)) := by
  obtain ⟨n, hn, hfits⟩ := doc.numbers key hkey text hlookup
  rw [Document.number, hlookup, Option.bind_some, hn, atoi_of_numeral, numeral_append hn hmore, Option.map_some,
    Option.getD_some, (clampInt_eq_iff n).mpr hfits]

theorem file_of_lookup {text : Bytes} (hlookup : doc.lookup (ascii "FILE") = some text) {more : Bytes}
    (hmore : EndsLine more) : doc.file = some (fileText (text ++ more)) := by
  have hlen := doc.fileName text hlookup
  obtain ⟨entry, -, -, rfl⟩ := exists_of_lookup hlookup
  have hvalue := takeWhile_append_endsLine hlen (fun b hb => (entry.plainValue b hb).2) hmore
  rw [Document.file, hlookup, fileText]
  simp only [IsBreak, not_or] at hvalue
  rw [hvalue]

theorem readsLines_iff (hbuffer : cstr buffer = doc.text) : ReadsLines buffer doc ↔ doc.Unambiguous := by
  have htext : ∀ key, textBehind buffer key = textBehind doc.text key := by
    intro key
    rw [textBehind, textBehind, hbuffer, cstr_of_notMem _ doc.text_plain]
  have hnumber : ∀ key ∈ [ascii "INTERVAL", ascii "VERSION"], LineKey (key ++ [61]) → 61 ∉ key →
      (httpParseKeyValueInt buffer (key ++ [61]) = doc.number key ↔ doc.InPlace key atoi (doc.number key)) := by
    intro key hmem hkey hmark
    rw [httpParseKeyValueInt_behind, htext]
    refine map_textBehind_iff hkey hmark doc.distinct (fun hnone => ?_) (fun text more hlookup hmore => ?_)
    · rw [Document.number, hnone, Option.bind_none]
    · exact number_of_lookup hmem hlookup hmore
  have hfile : httpParseKeyValueString buffer (ascii "FILE=") 256 = doc.file ↔
      doc.InPlace (ascii "FILE") fileText doc.file := by
    rw [httpParseKeyValueString_behind, htext]
    exact map_textBehind_iff ⟨by decide, by decide⟩ (by decide) doc.distinct id
      (fun text more hlookup hmore => file_of_lookup hlookup hmore)
  have hinterval := hnumber (ascii "INTERVAL") (by decide) ⟨by decide, by decide⟩ (by decide)
  have hversion := hnumber (ascii "VERSION") (by decide) ⟨by decide, by decide⟩ (by decide)
  constructor
  · exact fun h => ⟨hinterval.mp h.interval, hversion.mp h.version, hfile.mp h.file⟩
  · exact fun h => ⟨hinterval.mpr h.interval, hversion.mpr h.version, hfile.mpr h.file⟩

theorem final_of_readsLines (h : ReadsLines buffer doc) (n : Nat) (s : App) :
    final (iapHttpsMetadataBodyCallback buffer n) s =
      s.withMetadata (doc.number (ascii "INTERVAL")) (doc.number (ascii "VERSION")) doc.file := by
  refine final_of_wp (P := fun t => t = _) ?_
  rw [wp_iapHttpsMetadataBodyCallback, h.interval, h.version, h.file]

end Document

-- A permutation of the lines makes no difference where both texts are read line by line.
theorem document_read_iff (doc : Document) (buffer : Bytes) (hbuffer : cstr buffer = doc.text) :
    (ReadsLines buffer doc ↔ doc.Unambiguous) ∧
    ∀ (other : Document) (buffer' : Bytes), doc.entries.Perm other.entries → cstr buffer' = other.text →
      doc.Unambiguous → other.Unambiguous → ∀ (n n' : Nat) (s : App),
        SameDecision (final (iapHttpsMetadataBodyCallback buffer n) s)
          (final (iapHttpsMetadataBodyCallback buffer' n') s) := by
  refine ⟨readsLines_iff hbuffer, fun other buffer' hperm hbuffer' hdoc hother n n' s => ?_⟩
  have hlookup := lookup_perm doc.distinct hperm
  have hnumber : ∀ key, doc.number key = other.number key := by
    intro key
    rw [Document.number, Document.number, hlookup]
  have hfile : doc.file = other.file := hlookup (ascii "FILE")
  rw [final_of_readsLines ((readsLines_iff hbuffer).mpr hdoc),
    final_of_readsLines ((readsLines_iff hbuffer').mpr hother), hnumber, hnumber, hfile]
  exact ⟨rfl, rfl, rfl⟩

def versionEntry : Entry :=
  { label := ascii "VERSION"
    value := ascii "2"
    plainLabel := by decide
    plainValue := by decide }

def fileEntry : Entry :=
  { label := ascii "FILE"
    value := ascii "/b"
    plainLabel := by decide
    plainValue := by decide }

def versionFirst : Document :=
  { first := some versionEntry
    rest := [(false, some fileEntry), (true, none)]
    distinct := by decide
    numbers := by decide
    fileName := by decide }

def fileFirst : Document :=
  { first := some fileEntry
    rest := [(true, some versionEntry)]
    distinct := by decide
    numbers := by decide
    fileName := by decide }

theorem versionFirst_read : ReadsLines versionFirst.text versionFirst ∧
    SameDecision (final (iapHttpsMetadataBodyCallback versionFirst.text 18) exampleCheck.client.app)
      (final (iapHttpsMetadataBodyCallback fileFirst.text 18) exampleCheck.client.app) := by
  have hcstr : cstr versionFirst.text = versionFirst.text := by decide
  have hfirst : versionFirst.Unambiguous := ⟨by decide, by decide, by decide⟩
  have hother : fileFirst.Unambiguous := ⟨by decide, by decide, by decide⟩
  have hread := document_read_iff versionFirst versionFirst.text hcstr
  exact ⟨hread.1.mpr hfirst,
    hread.2 fileFirst fileFirst.text (List.Perm.swap _ _ _) (by decide) hfirst hother 18 18 _⟩

-- A key that ends like another one.
def minVersionEntry : Entry :=
  { label := ascii "MINVERSION"
    value := ascii "1"
    plainLabel := by decide
    plainValue := by decide }

def minVersionFirst : Document :=
  { first := some minVersionEntry
    rest := [(false, some versionEntry), (false, some fileEntry)]
    distinct := by decide
    numbers := by decide
    fileName := by decide }

theorem minVersion_read :
    ¬∀ (doc : Document) (buffer : Bytes), cstr buffer = doc.text → ReadsLines buffer doc := by
  intro h
  have hread := h minVersionFirst minVersionFirst.text (by decide)
  exact absurd hread.version (by decide)

end Esp32Ota

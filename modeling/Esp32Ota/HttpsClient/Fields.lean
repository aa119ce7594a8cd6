import Esp32Ota.HttpsClient.Fragmentation
import Esp32Ota.Lib.Lines

-- The length of the body, as the code records it and as the header fields give it.
namespace Esp32Ota

open CLib Halting

section Lookup

-- What follows the first occurrence of the key.
def textBehind (buffer key : Bytes) : Option Bytes := after key (cstr buffer)

theorem httpParseKeyValueInt_behind (buffer key : Bytes) :
    httpParseKeyValueInt buffer key = (textBehind buffer key).map atoi := by
  rw [httpParseKeyValueInt, textBehind, after, Option.map_map]
  rfl

theorem httpParseKeyValueString_behind (buffer key : Bytes) (strLen : Nat) :
    httpParseKeyValueString buffer key strLen = (textBehind buffer key).map fun text =>
      (text.take (strLen - 1)).takeWhile fun c => c ≠ 13 ∧ c ≠ 10 := by
  rw [httpParseKeyValueString, textBehind, after, Option.map_map]
  rfl

end Lookup

section Recorded

variable {α : Type} {request : ValidRequest α} {tls received fragment : Bytes} {index i : Nat} {s : Client α}

-- The length of the body of an accepted response.
def recordedLength (s : Client α) : Option Nat :=
  if s.context.isProcessingHeaders then none else some s.context.contentLength

theorem Called.recorded {event : HttpEvent} {t : Client α} (h : Called event s t) :
    recordedLength t = recordedLength s := by
  rw [recordedLength, recordedLength, h.context]

-- The read that completes the headers records a length exactly if they are accepted. The
-- buffer is no larger than that of the TLS reads, so the copy of the body is defined.
theorem httpsTlsCallback_records (request : ValidRequest α) (hs : AwaitingHeaders received (s.atIndex index))
    (hfits : received.length + fragment.length ≤ s.responseBuffer.length)
    (htls : s.responseBuffer.length ≤ tls.length)
    (hfind : find crlfcrlf (cstr (received ++ fragment)) = some i) :
    wp (httpsTlsCallback request index (store tls 0 fragment) fragment.length)
      (fun _ t => recordedLength t = acceptedLength ((received ++ fragment).take i))
      (fun _ t => recordedLength t = acceptedLength ((received ++ fragment).take i)) s := by
  have hlen : (store tls 0 fragment).length = tls.length := length_store _ _ _ (by omega)
  refine wp_httpsTlsCallback_headers hs (fun hfull => ?_) (fun _ t ht _ => ?_) ?_ ?_ ?_
  · omega
  · rw [ht.pending] at hfind
    cases hfind
  · intro _ j hj hreject t _ hprocessing
    rw [hfind, Option.some.injEq] at hj
    subst hj
    rw [hreject]
    have hnone : recordedLength t = none := by rw [recordedLength, hprocessing, if_pos rfl]
    refine ⟨fun _ _ _ => hnone, fun error info _ _ => ?_⟩
    exact wp_error_of_called fun u hu => by rw [hu.recorded, hnone]
  · intro _ j _ _ _ hshort
    rw [hlen, List.length_append] at hshort
    omega
  · intro _ j contentLength content hj _ haccept _ _ t ht _ _
    rw [hfind, Option.some.injEq] at hj
    subst hj
    rw [haccept]
    have hgrown : ∀ u : Client α, Grown contentLength 0 u → recordedLength u = some contentLength := by
      intro u hu
      rw [recordedLength, hu.accepted, hu.length]
      rfl
    exact wp_mono (httpsProcessBody_grows ht (Nat.zero_le _)) (fun _ u hu => hgrown u hu.1)
      (fun _ u hu => hgrown u hu)

theorem recorded_iff (P : Option Nat → Prop) (hs : AwaitingHeaders received (s.atIndex index))
    (hfits : received.length + fragment.length ≤ s.responseBuffer.length)
    (htls : s.responseBuffer.length ≤ tls.length)
    (hfind : find crlfcrlf (cstr (received ++ fragment)) = some i) :
    wp (httpsTlsCallback request index (store tls 0 fragment) fragment.length)
        (fun _ t => P (recordedLength t)) (fun _ t => P (recordedLength t)) s ↔
      P (acceptedLength ((received ++ fragment).take i)) := by
  have hrecords := httpsTlsCallback_records request hs hfits htls hfind
  constructor
  · intro h
    by_contra hnot
    refine wp_contra hrecords (wp_weaken h fun t ht heq => hnot ?_)
    rwa [← heq]
  · intro h
    exact wp_weaken hrecords fun t ht => by rwa [ht]

end Recorded

-- "HTTP/1.x 200" and what else the first line says.
structure StatusLine where
  minor : UInt8
  reason : Bytes
  digit : isDigit minor = true
  separate : ∀ b ∈ reason.head?, isDigit b = false
  plain : ∀ b ∈ reason, b ≠ 0 ∧ ¬IsBreak b

def StatusLine.text (status : StatusLine) : Bytes :=
  ascii "HTTP/1." ++ status.minor :: ascii " 200" ++ status.reason

-- A line "Name: value", with all that follows the colon.
abbrev Field := Labelled 58

def lowerCase (b : UInt8) : UInt8 := if 65 ≤ b ∧ b ≤ 90 then b + 32 else b

-- The name is compared without regard to case.
def isLength (field : Field) : Bool := field.label.map lowerCase = ascii "content-length"

def headerLines (status : StatusLine) (fields : List Field) : Bytes :=
  joinLines status.text (fields.map fun field => (true, field.line))

section Header

variable {status : StatusLine} {fields : List Field}

theorem StatusLine.text_plain (status : StatusLine) : ∀ b ∈ status.text, b ≠ 0 ∧ ¬IsBreak b := by
  have hfixed : ∀ b ∈ ascii "HTTP/1." ++ ascii " 200", b ≠ 0 ∧ ¬IsBreak b := by decide
  have hminor : status.minor ≠ 0 ∧ ¬IsBreak status.minor := by
    have hdigit := status.digit
    constructor
    · intro h
      simp [h, isDigit] at hdigit
    · rintro (h | h) <;> simp [h, isDigit] at hdigit
  intro b hb
  simp only [StatusLine.text, List.mem_append, List.mem_cons] at hb
  rcases hb with (hb | rfl | hb) | hb
  · exact hfixed b (List.mem_append_left _ hb)
  · exact hminor
  · exact hfixed b (List.mem_append_right _ hb)
  · exact status.plain b hb

theorem field_plain (field : Field) : ∀ b ∈ field.line, b ≠ 0 ∧ ¬IsBreak b :=
  field.line_plain ⟨by decide, by decide⟩

-- A line does not start like the end of the headers.
theorem exists_fieldLine (field : Field) : ∃ b more, field.line = b :: more ∧ b ≠ 13 := by
  have hne : field.line ≠ [] := by simp [Labelled.line]
  obtain ⟨b, more, hline⟩ := List.exists_cons_of_ne_nil hne
  exact ⟨b, more, hline, fun h => (field_plain field b (by simp [hline])).2 (.inl h)⟩

-- The headers end behind the last field.
theorem find_headerEnd {line : Bytes} (hline : 13 ∉ line) (fields : List Field) :
    find crlfcrlf (joinLines line (fields.map fun field => (true, field.line)) ++ crlfcrlf) =
      some (joinLines line (fields.map fun field => (true, field.line))).length := by
  have hcrlfcrlf : crlfcrlf = [13, 10, 13, 10] := rfl
  induction fields generalizing line with
  | nil =>
      have hskip := find_behind hline [10, 13, 10] crlfcrlf
      rw [← hcrlfcrlf] at hskip
      have hstart := find_prefix crlfcrlf []
      rw [List.append_nil] at hstart
      rw [List.map_nil, joinLines, hskip, hstart, Option.map_some, Nat.zero_add]
  | cons field fields ih =>
      have hfield : 13 ∉ field.line := fun h => (field_plain field 13 h).2 (.inl rfl)
      have hnext := ih hfield
      obtain ⟨b, more, hfieldLine, hb⟩ := exists_fieldLine field
      obtain ⟨text, htext⟩ : ∃ text, joinLines field.line (fields.map fun field => (true, field.line)) ++ crlfcrlf =
          b :: text := by
        cases fields with
        | nil => exact ⟨more ++ crlfcrlf, by rw [List.map_nil, joinLines, hfieldLine, List.cons_append]⟩
        | cons next fields =>
            rw [List.map_cons, joinLines, hfieldLine]
            exact ⟨_, rfl⟩
      have hbreak : find crlfcrlf (13 :: 10 :: b :: text) = (find crlfcrlf (b :: text)).map (· + 2) := by
        have hcr : ¬crlfcrlf <+: 13 :: 10 :: b :: text := by
          rw [hcrlfcrlf]
          simpa using fun h => absurd h.symm hb
        have hlf : ¬crlfcrlf <+: 10 :: b :: text := by
          rw [hcrlfcrlf]
          simp
        rw [find_cons_of_not hcr, find_cons_of_not hlf, Option.map_map]
        rfl
      have hjoin : joinLines line ((field :: fields).map fun field => (true, field.line)) ++ crlfcrlf =
          line ++ 13 :: 10 :: b :: text := by
        rw [List.map_cons, joinLines, List.append_assoc, htext]
        simp [lineBreak]
      have hskip := find_behind hline [10, 13, 10] (13 :: 10 :: b :: text)
      rw [← hcrlfcrlf] at hskip
      rw [hjoin, hskip, hbreak, ← htext, hnext, List.map_cons, joinLines]
      simp [lineBreak]
      omega

theorem headerLines_plain (status : StatusLine) (fields : List Field) : 0 ∉ headerLines status fields := by
  unfold headerLines
  have hline : 0 ∉ status.text := fun h => (status.text_plain 0 h).1 rfl
  generalize status.text = line at hline
  induction fields generalizing line with
  | nil => exact hline
  | cons field fields ih =>
      have hnext := ih field.line fun h => (field_plain field 0 h).1 rfl
      rw [List.map_cons, joinLines]
      simp only [List.mem_append, not_or]
      exact ⟨⟨hline, by decide⟩, hnext⟩

theorem headerBlock_of_fields (status : StatusLine) (fields : List Field) :
    HeaderBlock (headerLines status fields ++ crlfcrlf) := by
  have hcr : 13 ∉ status.text := fun h => (status.text_plain 13 h).2 (.inl rfl)
  refine ⟨?_, ?_, status.minor, ?_⟩
  · rw [List.length_append, length_crlfcrlf, Nat.add_sub_cancel]
    exact find_headerEnd hcr fields
  · rw [List.mem_append, not_or]
    exact ⟨headerLines_plain status fields, by decide⟩
  · obtain ⟨more, hmore, hends⟩ := exists_joinLines status.text (fields.map fun field => (true, field.line))
    refine ⟨status.reason ++ (more ++ crlfcrlf), status.digit, fun b hb => ?_, ?_⟩
    · rw [List.head?_append] at hb
      cases hreason : status.reason.head? with
      | some c =>
          rw [hreason] at hb
          exact status.separate b (by rw [hreason]; exact hb)
      | none =>
          rw [hreason, Option.none_or, List.head?_append] at hb
          cases hhead : more.head? with
          | some c =>
              rw [hhead] at hb
              exact hends.noDigit b (by rw [hhead]; exact hb)
          | none =>
              rw [hhead, Option.none_or] at hb
              cases hb
              rfl
    · rw [headerLines, hmore, StatusLine.text]
      simp only [List.append_assoc]

-- The first line that the search for the length stops at.
def lengthLine (status : StatusLine) (fields : List Field) : Option Bytes :=
  (status.text :: fields.map Labelled.line).find? fun line => (after (ascii "Content-Length:") line).isSome

-- The length is that of the field, and there is none without the field.
def RecordsField (fields : List Field) (recorded : Option Nat) : Prop :=
  match fields.find? isLength with
  | none => recorded = none
  | some field => ∃ n : Nat, recorded = some n ∧ numeral field.value = some (n : Int)

-- The search stops at the line of the field, where its name is spelled the same way and its value
-- is in range, or else at another place with the same number. Without the field it finds nothing.
def SearchMeetsField (status : StatusLine) (fields : List Field) : Prop :=
  match lengthLine status fields, fields.find? isLength with
  | none, none => True
  | some line, some field => ∃ n : Nat, numeral field.value = some (n : Int) ∧
      if line = field.line ∧ field.label = ascii "Content-Length" then n < 2 ^ 31
      else ∃ text ∈ textBehind (headerLines status fields) (ascii "Content-Length:"), toSize (atoi text) = n
  | _, _ => False

theorem lengthKey_oneLine : LineKey (ascii "Content-Length:") := ⟨by decide, by decide⟩

theorem textBehind_headerLines (key : Bytes) :
    textBehind (headerLines status fields) key = after key (headerLines status fields) := by
  rw [textBehind, cstr_of_notMem _ (headerLines_plain status fields)]

theorem textBehind_of_lengthLine (status : StatusLine) (fields : List Field) :
    match lengthLine status fields with
    | none => textBehind (headerLines status fields) (ascii "Content-Length:") = none
    | some line => ∃ text more, after (ascii "Content-Length:") line = some text ∧ EndsLine more ∧
        textBehind (headerLines status fields) (ascii "Content-Length:") = some (text ++ more) := by
  have hjoin := after_joinLines lengthKey_oneLine status.text (fields.map fun field => (true, field.line))
  rw [List.map_map] at hjoin
  rw [textBehind_headerLines]
  exact hjoin

theorem recordsField_iff :
    RecordsField fields ((httpParseKeyValueInt (headerLines status fields) (ascii "Content-Length:")).map toSize) ↔
      SearchMeetsField status fields := by
  have hsearch := textBehind_of_lengthLine status fields
  rw [httpParseKeyValueInt_behind]
  unfold RecordsField SearchMeetsField
  cases hline : lengthLine status fields with
  | none =>
      rw [hline] at hsearch
      rw [hsearch]
      cases fields.find? isLength with
      | none => exact iff_of_true rfl trivial
      | some field => exact iff_of_false (fun ⟨_, h, _⟩ => by cases h) id
  | some line =>
      rw [hline] at hsearch
      obtain ⟨text, more, htext, hmore, hbehind⟩ := hsearch
      rw [hbehind]
      cases fields.find? isLength with
      | none => exact iff_of_false (fun h => by cases h) id
      | some field =>
          have hnumber : ∀ n : Nat, numeral field.value = some (n : Int) →
              (toSize (atoi (text ++ more)) = n ↔
                if line = field.line ∧ field.label = ascii "Content-Length" then n < 2 ^ 31
                else ∃ text' ∈ some (text ++ more), toSize (atoi text') = n) := by
            intro n hvalue
            split
            · rename_i hown
              have hvalue' : after (ascii "Content-Length:") line = some field.value := by
                have hlabel := field.after_label
                rwa [hown.2, ← hown.1] at hlabel
              rw [hvalue', Option.some.injEq] at htext
              rw [atoi_of_numeral, numeral_append (htext ▸ hvalue) hmore, Option.map_some, Option.getD_some]
              exact toSize_clampInt_iff n
            · exact ⟨fun h => ⟨_, rfl, h⟩, fun ⟨_, rfl, h⟩ => h⟩
          constructor
          · rintro ⟨n, hn, hvalue⟩
            exact ⟨n, hvalue, (hnumber n hvalue).mp (Option.some.inj hn)⟩
          · rintro ⟨n, hvalue, hn⟩
            exact ⟨n, congrArg some ((hnumber n hvalue).mpr hn), hvalue⟩

end Header

-- A response with status 200 in any fragmentation: the read that completes the headers records
-- what the search finds.
theorem length_from_field_iff {α : Type} (request : ValidRequest α) (status : StatusLine) (fields : List Field)
    (body received fragment tls : Bytes) (index : Nat) (s : Client α)
    (hs : AwaitingHeaders received (s.atIndex index))
    (hreceived : received ++ fragment = headerLines status fields ++ crlfcrlf ++ body)
    (hfits : received.length + fragment.length ≤ s.responseBuffer.length)
    (htls : s.responseBuffer.length ≤ tls.length) :
    wp (httpsTlsCallback request index (store tls 0 fragment) fragment.length)
        (fun _ t => RecordsField fields (recordedLength t)) (fun _ t => RecordsField fields (recordedLength t)) s ↔
      SearchMeetsField status fields := by
  have hheader := headerBlock_of_fields status fields
  have hfind := hheader.complete body
  have hlength : (headerLines status fields ++ crlfcrlf).length - 4 = (headerLines status fields).length := by
    rw [List.length_append, length_crlfcrlf, Nat.add_sub_cancel]
  rw [← hreceived] at hfind
  rw [recorded_iff (RecordsField fields) hs hfits htls hfind, hreceived, ← recordsField_iff]
  have haccepted := hheader.accepted
  rw [hlength, List.take_left] at haccepted
  rw [hlength, List.append_assoc, List.take_left, haccepted]

def okStatus : StatusLine :=
  { minor := 49
    reason := ascii " OK"
    digit := rfl
    separate := by
      rintro b ⟨⟩
      rfl
    plain := by decide }

def ownField : Field :=
  { label := ascii "Content-Length"
    value := ascii " 1"
    plainLabel := by decide
    plainValue := by decide }

-- A field whose name ends like that of the length.
def longerName : Field :=
  { label := ascii "X-Content-Length"
    value := ascii " 5"
    plainLabel := by decide
    plainValue := by decide }

theorem length_from_field_alone :
    wp (httpsTlsCallback (exampleRequest .waitForCompleteBody) 0
        (store staleBuffer 0 (headerLines okStatus [ownField] ++ crlfcrlf)) 38)
      (fun _ t => RecordsField [ownField] (recordedLength t))
      (fun _ t => RecordsField [ownField] (recordedLength t)) exampleClient.client := by
  have hsize : exampleClient.client.responseBuffer.length ≤ staleBuffer.length := by
    rw [staleBuffer, length_staleBlock]
    decide
  have hsearch : SearchMeetsField okStatus [ownField] := by
    have hline : lengthLine okStatus [ownField] = some ownField.line := by decide
    have hfield : [ownField].find? isLength = some ownField := rfl
    unfold SearchMeetsField
    rw [hline, hfield]
    exact ⟨1, by decide, by decide⟩
  exact (length_from_field_iff (exampleRequest .waitForCompleteBody) okStatus [ownField] [] []
    (headerLines okStatus [ownField] ++ crlfcrlf) staleBuffer 0 exampleClient.client (reset_awaiting _)
    (by rw [List.nil_append, List.append_nil]) (by decide) hsize).mpr hsearch

-- The length of the longer name is recorded.
theorem length_of_longer_name :
    ¬∀ fields : List Field, (headerLines okStatus fields ++ crlfcrlf).length ≤ 64 →
      wp (httpsTlsCallback (exampleRequest .waitForCompleteBody) 0
          (store staleBuffer 0 (headerLines okStatus fields ++ crlfcrlf))
          (headerLines okStatus fields ++ crlfcrlf).length)
        (fun _ t => RecordsField fields (recordedLength t)) (fun _ t => RecordsField fields (recordedLength t))
        exampleClient.client := by
  intro h
  have hsize : exampleClient.client.responseBuffer.length ≤ staleBuffer.length := by
    rw [staleBuffer, length_staleBlock]
    decide
  have hrecorded := h [longerName, ownField] (by decide)
  rw [recorded_iff (RecordsField [longerName, ownField]) (i := 55) (reset_awaiting _) (by decide) hsize
    (by decide)] at hrecorded
  have hfirst : acceptedLength (([] ++ (headerLines okStatus [longerName, ownField] ++ crlfcrlf)).take 55) =
      some 5 := by decide
  have hfield : [longerName, ownField].find? isLength = some ownField := rfl
  unfold RecordsField at hrecorded
  rw [hfirst, hfield] at hrecorded
  obtain ⟨n, hn, hvalue⟩ := hrecorded
  cases hn
  exact absurd hvalue (by decide)

end Esp32Ota

import Esp32Ota.HttpsClient.Fields
import Esp32Ota.IapHttps.Decision

-- Values that are no numbers, and what becomes of them.
namespace Esp32Ota

open CLib Halting

-- A reading of the value that takes nothing but numbers in the range of `int`.
def numberOf (buffer key : Bytes) : Option Int :=
  ((textBehind buffer key).bind numeral).filter fun n => FitsInt n

-- The code reads a number where there is one, and zero or a bound of `int` otherwise.
theorem httpParseKeyValueInt_eq_iff (buffer key : Bytes) :
    httpParseKeyValueInt buffer key = numberOf buffer key ↔
      ∀ text ∈ textBehind buffer key, ∃ n ∈ numeral text, FitsInt n := by
  rw [httpParseKeyValueInt_behind, numberOf]
  cases textBehind buffer key with
  | none => simp
  | some text =>
      simp only [Option.map_some, Option.bind_some, atoi_of_numeral, Option.mem_def, Option.some.injEq,
        forall_eq']
      cases numeral text with
      | none => simp
      | some n =>
          have hrange := clampInt_eq_iff n
          rw [Option.filter_some]
          by_cases hfits : FitsInt n
          · rw [if_pos (decide_eq_true hfits)]
            simpa only [Option.map_some, Option.getD_some, Option.some.injEq, exists_eq_left'] using hrange
          · rw [if_neg (by simpa only [decide_eq_true_eq] using hfits)]
            simpa only [reduceCtorEq, Option.some.injEq, exists_eq_left', false_iff] using hfits

section Version

variable {document : Bytes} {s : App}

-- A version that is no number counts as version 0.
theorem version_of_text {key : Bytes} (h : ∃ text ∈ textBehind document key, numeral text = none) :
    httpParseKeyValueInt document key = some 0 := by
  obtain ⟨text, htext, hnone⟩ := h
  rw [httpParseKeyValueInt_behind, htext, Option.map_some, atoi_of_numeral, hnone]
  rfl

theorem version_ignored_iff (n : Nat)
    (hversion : ∃ text ∈ textBehind document (ascii "VERSION="), numeral text = none) :
    wp (iapHttpsMetadataBodyCallback document n) (fun _ t => t.fwupDownloadImage = s.fwupDownloadImage)
        (fun _ _ => False) s ↔
      s.fwupDownloadImage = true ∨ textBehind document (ascii "FILE=") = none ∨
        s.config.currentSoftwareVersion = 0 := by
  rw [wp_iapHttpsMetadataBodyCallback, version_of_text hversion, httpParseKeyValueString_behind]
  cases textBehind document (ascii "FILE=") with
  | none => simp only [Option.map_none, App.withMetadata, true_or, or_true]
  | some text =>
      rw [Option.map_some, App.withMetadata_fwupDownloadImage]
      cases s.fwupDownloadImage with
      | true => simp only [Bool.true_or, true_or]
      | false =>
          simp only [Bool.false_or, decide_eq_false_iff_not, ne_eq, not_not, Bool.false_eq_true, reduceCtorEq,
            false_or]
          exact eq_comm

end Version

section Length

variable {α : Type} {request : ValidRequest α} {received fragment tls : Bytes} {index i : Nat} {s : Client α}

-- Where the field is there, a response with the status 200 is accepted, whatever its value.
theorem acceptedLength_of_field {headers text : Bytes}
    (htext : textBehind headers (ascii "Content-Length:") = some text) :
    acceptedLength headers = none ↔ ∀ minor, scanStatusLine headers ≠ some (1, minor, 200) := by
  rw [acceptedLength, httpParseKeyValueInt_behind, htext]
  cases scanStatusLine headers with
  | none => simp
  | some status =>
      obtain ⟨httpVersionMajor, httpVersionMinor, httpStatusCode⟩ := status
      by_cases haccept : httpVersionMajor = 1 ∧ httpStatusCode = 200
      · simp [haccept]
      · simp only [haccept, ite_false, true_iff, ne_eq, Option.some.injEq, Prod.mk.injEq]
        exact fun minor h => haccept ⟨h.1, h.2.2⟩

theorem length_rejected_iff (hs : AwaitingHeaders received (s.atIndex index))
    (hfits : received.length + fragment.length ≤ s.responseBuffer.length)
    (htls : s.responseBuffer.length ≤ tls.length)
    (hfind : find crlfcrlf (cstr (received ++ fragment)) = some i)
    (hlength : ∃ text ∈ textBehind ((received ++ fragment).take i) (ascii "Content-Length:"),
      ∀ n ∈ numeral text, n < 0) :
    wp (httpsTlsCallback request index (store tls 0 fragment) fragment.length)
        (fun _ t => recordedLength t = none) (fun _ t => recordedLength t = none) s ↔
      ∀ minor, scanStatusLine ((received ++ fragment).take i) ≠ some (1, minor, 200) := by
  obtain ⟨text, htext, -⟩ := hlength
  rw [← acceptedLength_of_field htext]
  exact recorded_iff (· = none) hs hfits htls hfind

end Length

-- What stands for a number is taken for one: a version sets the download bit for every
-- device that does not have version 0, and a length is always that of a body.
theorem malformed_numbers (buffer key : Bytes) :
    (httpParseKeyValueInt buffer key = numberOf buffer key ↔
      ∀ text ∈ textBehind buffer key, ∃ n ∈ numeral text, FitsInt n) ∧
    (∀ (document : Bytes) (n : Nat) (s : App),
      (∃ text ∈ textBehind document (ascii "VERSION="), numeral text = none) →
      (wp (iapHttpsMetadataBodyCallback document n) (fun _ t => t.fwupDownloadImage = s.fwupDownloadImage)
          (fun _ _ => False) s ↔
        s.fwupDownloadImage = true ∨ textBehind document (ascii "FILE=") = none ∨
          s.config.currentSoftwareVersion = 0)) ∧
    ∀ (α : Type) (request : ValidRequest α) (received fragment tls : Bytes) (index i : Nat) (s : Client α),
      AwaitingHeaders received (s.atIndex index) →
      received.length + fragment.length ≤ s.responseBuffer.length → s.responseBuffer.length ≤ tls.length →
      find crlfcrlf (cstr (received ++ fragment)) = some i →
      (∃ text ∈ textBehind ((received ++ fragment).take i) (ascii "Content-Length:"), ∀ n ∈ numeral text, n < 0) →
      (wp (httpsTlsCallback request index (store tls 0 fragment) fragment.length)
          (fun _ t => recordedLength t = none) (fun _ t => recordedLength t = none) s ↔
        ∀ minor, scanStatusLine ((received ++ fragment).take i) ≠ some (1, minor, 200)) := by
  refine ⟨httpParseKeyValueInt_eq_iff buffer key, ?_, ?_⟩
  · intro document n s hversion
    exact version_ignored_iff n hversion
  · intro α request received fragment tls index i s hs hfits htls hfind hlength
    exact length_rejected_iff hs hfits htls hfind hlength

def namedVersion : Bytes := ascii "VERSION=beta\nFILE=/b"

def negativeLength : Bytes := ascii "HTTP/1.1 200 OK\r\nContent-Length: -1\r\n\r\n"

theorem malformed_numbers_taken :
    httpParseKeyValueInt namedVersion (ascii "VERSION=") ≠ numberOf namedVersion (ascii "VERSION=") ∧
    ¬wp (iapHttpsMetadataBodyCallback namedVersion 20) (fun _ t => t.fwupDownloadImage = false)
      (fun _ _ => False) exampleCheck.client.app ∧
    ¬wp (httpsTlsCallback (exampleRequest .waitForCompleteBody) 0 (store staleBuffer 0 negativeLength)
        negativeLength.length)
      (fun _ t => recordedLength t = none) (fun _ t => recordedLength t = none) exampleClient.client := by
  refine ⟨?_, ?_, ?_⟩
  · rw [ne_eq, (malformed_numbers namedVersion (ascii "VERSION=")).1]
    decide
  · rw [show false = exampleCheck.client.app.fwupDownloadImage from rfl,
      (malformed_numbers [] []).2.1 namedVersion 20 exampleCheck.client.app ⟨_, rfl, by decide⟩]
    decide
  · have hsize : exampleClient.client.responseBuffer.length ≤ staleBuffer.length := by
      rw [staleBuffer, length_staleBlock]
      decide
    rw [(malformed_numbers [] []).2.2 Unit (exampleRequest .waitForCompleteBody) [] negativeLength staleBuffer
      0 35 exampleClient.client (reset_awaiting _) (by decide) hsize (by decide) ⟨_, rfl, by decide⟩]
    exact fun h => h 1 (by decide)

theorem malformed_number_read :
    ¬∀ buffer key : Bytes, httpParseKeyValueInt buffer key = numberOf buffer key := by
  intro h
  exact absurd (h namedVersion (ascii "VERSION=")) (by decide)

end Esp32Ota

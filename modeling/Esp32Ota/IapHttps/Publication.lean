import Esp32Ota.IapHttps.Check
import Esp32Ota.IapHttps.Document
import Esp32Ota.Lib.Print

-- What the update server publishes, as it is written into the metadata document, and what a check
-- makes of it.
namespace Esp32Ota

open CLib Halting

-- A search for the key of a number must not stop in the path, which stands before or behind it.
structure Publication where
  interval : Int
  version : Int
  path : Bytes
  fitsInterval : FitsInt interval
  fitsVersion : FitsInt version
  plainPath : ∀ b ∈ path, b ≠ 0 ∧ ¬IsBreak b
  shortPath : path.length ≤ 255
  noKey : ∀ key ∈ [ascii "INTERVAL", ascii "VERSION"], after (key ++ [61]) path = none

theorem plain_fileKey : ∀ b ∈ ascii "FILE", b ≠ 61 ∧ b ≠ 0 ∧ ¬IsBreak b := by decide

theorem plain_versionKey : ∀ b ∈ ascii "VERSION", b ≠ 61 ∧ b ≠ 0 ∧ ¬IsBreak b := by decide

theorem plain_intervalKey : ∀ b ∈ ascii "INTERVAL", b ≠ 61 ∧ b ≠ 0 ∧ ¬IsBreak b := by decide

theorem plain_formatInt (n : Int) : ∀ b ∈ formatInt n, b ≠ 0 ∧ ¬IsBreak b := by
  intro b hb
  have h := mem_formatInt n b hb
  grind [isDigit, IsBreak]

-- A number has no mark in it.
theorem after_formatInt (key : Bytes) (n : Int) : after (key ++ [61]) (formatInt n) = none := by
  rw [after_eq_none_iff, find_eq_none_iff]
  intro hoccurs
  have hmark := mem_formatInt n 61 (hoccurs.subset (by simp))
  revert hmark
  decide

namespace Publication

variable (p : Publication)

def fileLine : Entry :=
  { label := ascii "FILE"
    value := p.path
    plainLabel := plain_fileKey
    plainValue := p.plainPath }

def versionLine : Entry :=
  { label := ascii "VERSION"
    value := formatInt p.version
    plainLabel := plain_versionKey
    plainValue := plain_formatInt p.version }

def intervalLine : Entry :=
  { label := ascii "INTERVAL"
    value := formatInt p.interval
    plainLabel := plain_intervalKey
    plainValue := plain_formatInt p.interval }

-- The order of meta/ota.txt
def entries : List Entry := [p.fileLine, p.versionLine, p.intervalLine]

-- The lines in any order, with any ends of line and with empty lines between them.
def Writes (doc : Lines) : Prop := doc.entries.Perm p.entries

variable {p} {doc : Lines}

theorem Writes.distinct (h : p.Writes doc) : (doc.entries.map Labelled.label).Nodup := by
  have hlabels : p.entries.map Labelled.label = [ascii "FILE", ascii "VERSION", ascii "INTERVAL"] := rfl
  rw [(h.map Labelled.label).nodup_iff, hlabels]
  decide

theorem Writes.lookup (h : p.Writes doc) {entry : Entry} (hentry : entry ∈ p.entries) :
    doc.lookup entry.label = some entry.value :=
  lookup_of_mem h.distinct (h.mem_iff.mpr hentry)

theorem Writes.lookup_file (h : p.Writes doc) : doc.lookup (ascii "FILE") = some p.path := by
  have hline : p.fileLine ∈ p.entries := by simp [entries]
  exact h.lookup hline

theorem Writes.lookup_version (h : p.Writes doc) : doc.lookup (ascii "VERSION") = some (formatInt p.version) := by
  have hline : p.versionLine ∈ p.entries := by simp [entries]
  exact h.lookup hline

theorem Writes.lookup_interval (h : p.Writes doc) : doc.lookup (ascii "INTERVAL") = some (formatInt p.interval) := by
  have hline : p.intervalLine ∈ p.entries := by simp [entries]
  exact h.lookup hline

-- The document of a line-by-line parser.
def Writes.document (h : p.Writes doc) : Document where
  toLines := doc
  distinct := h.distinct
  numbers := by
    intro key hkey value hvalue
    rcases List.mem_cons.mp hkey with rfl | hkey
    · rw [h.lookup_interval] at hvalue
      obtain rfl := Option.some.inj hvalue
      exact ⟨_, numeral_formatInt _, p.fitsInterval⟩
    · obtain rfl := List.mem_singleton.mp hkey
      rw [h.lookup_version] at hvalue
      obtain rfl := Option.some.inj hvalue
      exact ⟨_, numeral_formatInt _, p.fitsVersion⟩
  fileName := by
    intro value hvalue
    rw [h.lookup_file] at hvalue
    obtain rfl := Option.some.inj hvalue
    exact p.shortPath

-- No search stops in the line of another key.
theorem after_otherLine {entry : Entry} (hentry : entry ∈ p.entries) {key : Bytes}
    (hkey : key ∈ [ascii "INTERVAL", ascii "VERSION", ascii "FILE"]) (hother : entry.label ≠ key) :
    after (key ++ [61]) entry.line = none := by
  have hmark : ∀ key ∈ [ascii "INTERVAL", ascii "VERSION", ascii "FILE"], 61 ∉ key := by decide
  have hlabels : ∀ key ∈ [ascii "INTERVAL", ascii "VERSION", ascii "FILE"],
      ∀ label ∈ [ascii "FILE", ascii "VERSION", ascii "INTERVAL"], label ≠ key → ¬key <:+ label := by decide
  have hlabel : entry.label ∈ [ascii "FILE", ascii "VERSION", ascii "INTERVAL"] :=
    List.mem_map.mpr ⟨entry, hentry, rfl⟩
  apply entry.after_eq_none (hmark key hkey) ?_ (hlabels key hkey entry.label hlabel hother)
  simp only [entries, List.mem_cons, List.not_mem_nil, or_false] at hentry hkey
  rcases hentry with rfl | rfl | rfl
  · rcases hkey with rfl | rfl | rfl
    · exact p.noKey _ (by simp)
    · exact p.noKey _ (by simp)
    · exact absurd rfl hother
  · exact after_formatInt key p.version
  · exact after_formatInt key p.interval

theorem Writes.inPlace {β : Type} (h : p.Writes doc) {key : Bytes}
    (hkey : key ∈ [ascii "INTERVAL", ascii "VERSION", ascii "FILE"]) (read : Bytes → β) (value : Option β) :
    doc.InPlace key read value := by
  intro line hline hstart
  have hmark : ∀ key ∈ [ascii "INTERVAL", ascii "VERSION", ascii "FILE"], 61 ∉ key := by decide
  have hfound := List.find?_some hline
  obtain ⟨source, hsource, rfl⟩ := List.mem_map.mp (List.mem_of_find?_eq_some hline)
  cases source with
  | none =>
      have hnil : after (key ++ [61]) [] = none := by
        rw [after_eq_none_iff, find_eq_none_iff, List.infix_nil]
        simp
      simp [lineText, hnil] at hfound
  | some entry =>
      have hentry : entry ∈ p.entries := h.mem_iff.mp (mem_entries.mpr hsource)
      by_cases hlabel : entry.label = key
      · exact absurd ((entry.prefix_line_iff (hmark key hkey)).mpr hlabel) hstart
      · simp [lineText, after_otherLine hentry hkey hlabel] at hfound

theorem Writes.unambiguous (h : p.Writes doc) : h.document.Unambiguous where
  interval := h.inPlace (by decide) _ _
  version := h.inPlace (by decide) _ _
  file := h.inPlace (by decide) _ _

-- What is published is what is read.
theorem Writes.read (h : p.Writes doc) {document : Bytes} (hdocument : cstr document = doc.text) :
    httpParseKeyValueInt document (ascii "INTERVAL=") = some p.interval ∧
    httpParseKeyValueInt document (ascii "VERSION=") = some p.version ∧
    httpParseKeyValueString document (ascii "FILE=") 256 = some p.path := by
  have hread := (@readsLines_iff h.document document hdocument).mpr h.unambiguous
  refine ⟨hread.interval.trans ?_, hread.version.trans ?_, hread.file.trans h.lookup_file⟩
  · change (doc.lookup _).bind numeral = _
    rw [h.lookup_interval, Option.bind_some, numeral_formatInt]
  · change (doc.lookup _).bind numeral = _
    rw [h.lookup_version, Option.bind_some, numeral_formatInt]

end Publication

-- The application has what is published, and a download is due exactly for another version.
structure Obeys (p : Publication) (s t : App) : Prop where
  pollingIntervalS : t.config.pollingIntervalS = toSize p.interval
  serverFirmwarePath : cstr t.config.serverFirmwarePath = p.path
  fwupDownloadImage : t.fwupDownloadImage = (s.fwupDownloadImage || p.version ≠ s.config.currentSoftwareVersion)
  setup : SameSetup s t

theorem obeys_of_document {p : Publication} {doc : Lines} {document : Bytes} (h : p.Writes doc)
    (hdocument : cstr document = doc.text) (s : App) : Obeys p s (s.withDocument document) := by
  obtain ⟨hinterval, hversion, hfile⟩ := h.read hdocument
  have hshort : p.path.length < 256 := Nat.lt_succ_of_le p.shortPath
  rw [App.withDocument, hinterval, hversion, hfile]
  refine ⟨rfl, ?_, rfl, App.withMetadata_setup _ _ ?_ s⟩
  · exact cstr_strncpy hshort fun hzero => (p.plainPath 0 hzero).1 rfl
  · intro name hname
    obtain rfl := Option.some.inj hname
    exact hshort

-- After any history of checks and downloads, a check that gets the document of a publication does
-- what is published.
theorem publication_obeyed (partition : Partition) (config : IapHttpsConfig) (metadataBuffer firmwareBuffer : Malloc)
    (steps : List UpdaterStep) {s : Updater}
    (hrun : run UpdaterStep.run steps (iapHttpsInit partition config metadataBuffer firmwareBuffer) = .ok ⟨⟩ s)
    (script : Script) (hask : script.Asks s) {stale : Nat → UInt8}
    (hstale : script.request.mallocResponseBuffer = some stale) {document : Bytes}
    (hdocument : wholeBody 512 [] (staleBlock stale tlsResponseBufferSize) (fragments script.request.reads) =
      some document)
    (p : Publication) {doc : Lines} (hwrites : p.Writes doc) (htext : cstr document = doc.text) :
    Obeys p s.client.app (final (iapHttpsCheckForUpdate script) s).client.app := by
  have hsetup : SameSetup (iapHttpsInit partition config metadataBuffer firmwareBuffer).client.app s.client.app :=
    wp_ok (x := run UpdaterStep.run steps) (updater_setup steps _) hrun
  have hcheck := (final_of_wp (iapHttpsCheckForUpdate_document hask hsetup.metadataBuffer hstale)).app
  rw [hcheck, hdocument]
  exact obeys_of_document hwrites htext s.client.app

def examplePublication : Publication where
  interval := 10
  version := 2
  path := ascii "/ota.bin"
  fitsInterval := by decide
  fitsVersion := by decide
  plainPath := by decide
  shortPath := by decide
  noKey := by decide

def examplePublished : Lines where
  first := some examplePublication.fileLine
  rest := [(false, some examplePublication.versionLine), (true, some examplePublication.intervalLine), (false, none)]

def examplePublishedScript : Script :=
  exampleScript exampleConnect
    [.data ⟨ascii "HTTP/1.1 200 OK\r\nContent-Length: 37\r\n\r\nFILE=/ota.bin\nVERSION=2\r\nINTERVAL=10\n", by decide⟩]

-- Behind a download that has been cut off.
theorem obeyed_of_examplePublication :
    ∃ s, run UpdaterStep.run [cutDownload] (exampleUpdater ⟨"factory", 0x10000⟩ false) = .ok ⟨⟩ s ∧
      s.client.app.hasIapSession = true ∧
      Obeys examplePublication s.client.app (final (iapHttpsCheckForUpdate examplePublishedScript) s).client.app := by
  obtain ⟨s, hcut, hs⟩ := cutDownload_leaves_session false
  have hrun := run_singleton_ok UpdaterStep.run hcut
  have htext : (wholeBody 512 [] (staleBlock (fun _ => 0) tlsResponseBufferSize)
      (fragments examplePublishedScript.request.reads)).map cstr = some examplePublished.text := by decide +kernel
  obtain ⟨document, hdocument, hcstr⟩ := Option.map_eq_some_iff.mp htext
  have hwrites : examplePublication.Writes examplePublished := List.Perm.refl _
  exact ⟨s, hrun, hs.hasIapSession,
    publication_obeyed ⟨"factory", 0x10000⟩ (exampleConfig false) (some fun _ => 0) (some fun _ => 0) [cutDownload]
      hrun examplePublishedScript (exampleScript_asks _ hs.metadataBuffer hs.host hs.metadataPath) rfl hdocument
      examplePublication hwrites hcstr⟩

end Esp32Ota

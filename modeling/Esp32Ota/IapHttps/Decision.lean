import Esp32Ota.HttpsClient.Terminator
import Esp32Ota.IapHttps.Step

-- What an update check decides from the metadata that it receives.
namespace Esp32Ota

open CLib Halting

theorem httpParseKeyValueString_cstr (buffer key : Bytes) (strLen : Nat) :
    httpParseKeyValueString buffer key strLen = httpParseKeyValueString (cstr buffer) key strLen := by
  simp only [httpParseKeyValueString, strstr, cstr_cstr]

-- The callback sees nothing but the string in the buffer.
theorem iapHttpsMetadataBodyCallback_cstr (buffer : Bytes) (m n : Nat) :
    iapHttpsMetadataBodyCallback buffer m = iapHttpsMetadataBodyCallback (cstr buffer) n := by
  unfold iapHttpsMetadataBodyCallback iapHttpsSetPollingInterval
  rw [← httpParseKeyValueInt_cstr, ← httpParseKeyValueInt_cstr, ← httpParseKeyValueString_cstr]

-- A response with this body and its length, cut so that a read starts with the body.
def Response (body : Bytes) (fs : List Bytes) : Prop :=
  ∃ header pre rest contentLength, HeaderBlock header ∧ headerLength header = some contentLength ∧
    toSize contentLength = body.length ∧ fs = pre ++ rest ∧ pre.flatten = header ∧ rest.flatten = body

section Response

variable {body : Bytes} {fs : List Bytes}

theorem headEnd_of_header {header : Bytes} (hheader : HeaderBlock header) {earlier : Bytes} (pre rest : List Bytes)
    (hearlier : earlier.length < header.length) (hpre : earlier ++ pre.flatten = header)
    (hne : ∀ f ∈ pre, f ≠ []) : headEnd earlier (pre ++ rest) = some (header, rest) := by
  induction pre generalizing earlier with
  | nil =>
      rw [List.flatten_nil, List.append_nil] at hpre
      rw [hpre] at hearlier
      exact absurd hearlier (lt_irrefl _)
  | cons fragment pre ih =>
      rw [List.flatten_cons, ← List.append_assoc] at hpre
      have hinitial : earlier ++ fragment <+: header := ⟨pre.flatten, hpre⟩
      rw [List.cons_append]
      by_cases hshort : (earlier ++ fragment).length < header.length
      · rw [headEnd_of_pending (hheader.incomplete hinitial hshort)]
        exact ih hshort hpre fun f hf => hne f (List.mem_cons_of_mem _ hf)
      · have hall : earlier ++ fragment = header :=
          hinitial.eq_of_length (Nat.le_antisymm hinitial.length_le (by omega))
        have hlast : pre = [] := by
          rw [hall] at hpre
          have hnil := List.flatten_eq_nil_iff.mp (List.self_eq_append_right.mp hpre.symm)
          exact List.eq_nil_iff_forall_not_mem.mpr fun f hf => hne f (List.mem_cons_of_mem _ hf) (hnil f hf)
        have hfind := hheader.complete []
        rw [List.append_nil, ← hall] at hfind
        rw [headEnd_of_found hfind, hall, hlast, List.nil_append]

theorem untilLength_all {rest : List Bytes} (hne : ∀ f ∈ rest, f ≠ []) (n : Nat) :
    untilLength (n + rest.flatten.length) n rest = some rest.flatten := by
  induction rest generalizing n with
  | nil => simp [untilLength]
  | cons fragment rest ih =>
      have hpos := List.length_pos_of_ne_nil (hne fragment List.mem_cons_self)
      have hmore := ih (fun f hf => hne f (List.mem_cons_of_mem _ hf)) (n + fragment.length)
      rw [Nat.add_assoc] at hmore
      rw [List.flatten_cons, List.length_append, untilLength, if_neg (by omega), hmore]
      rfl

theorem Response.reached (h : Response body fs) (hne : ∀ f ∈ fs, f ≠ []) :
    ∃ header, 4 ≤ header.length ∧ BodyReached [] fs header (header.length - 4) body := by
  obtain ⟨header, pre, rest, contentLength, hheader, hlength, hsize, rfl, hpre, rfl⟩ := h
  have hfour := hheader.length
  have hfind := hheader.complete []
  rw [List.append_nil] at hfind
  refine ⟨header, hfour, rest, toSize contentLength, ?_, hfind, ?_, fun hlong => absurd hlong (by omega), ?_⟩
  · exact headEnd_of_header hheader pre rest (by simpa using by omega) (by simpa using hpre)
      fun f hf => hne f (List.mem_append_left _ hf)
  · rw [hheader.accepted_length, hlength, Option.map_some]
  · have hrest : ∀ f ∈ rest, f ≠ [] := fun f hf => hne f (List.mem_append_right _ hf)
    have hall := untilLength_all hrest 0
    rw [Nat.zero_add] at hall
    rwa [hsize, show header.length - (header.length - 4 + 4) = 0 by omega]

end Response

section Check

variable {request : ValidRequest App} {reads others : List ReadResult} {stale stale' : Nat → UInt8}
  {s s' : Updater} {body : Bytes}

-- Behind a terminated body the buffer has no say.
theorem app_of_response (hmode : request.responseMode = .waitForCompleteBody)
    (hbody : request.bodyCallback = iapHttpsMetadataBodyCallback) (hs : s.client.events = [])
    (hfits : ¬Filled (readResponse request reads stale s).client) (hresponse : Response body (fragments reads))
    (hterminates : Terminates (fragments reads)) :
    (readResponse request reads stale s).client.app =
      final (iapHttpsMetadataBodyCallback body body.length) s.client.app := by
  obtain ⟨header, hfour, hreached⟩ := hresponse.reached (fragments_ne_nil reads)
  refine (readResponse_reaches (P := fun t => Filled t ∨ t.app =
    final (iapHttpsMetadataBodyCallback body body.length) s.client.app) hmode reads stale s hs
    (fun t ht => .inl ht.filled) ?_ ?_).resolve_left hfits
  · exact fun hnot => absurd hreached (hnot header (header.length - 4) body)
  · intro received i more contentLength n content t h hcontent ht hst
    obtain ⟨rfl, rfl, rfl⟩ := hreached.unique h
    have hnil : content = [] := List.length_eq_zero_iff.mp (by omega)
    subst hnil
    rw [List.nil_append] at ht ⊢
    have hzero := hterminates header _ body hreached
    rw [show header.length - (header.length - 4 + 4) + body.length = body.length by omega] at hzero
    rcases Nat.lt_or_ge body.length t.responseBuffer.length with hlt | hge
    · have hend : t.responseBuffer[body.length]? = some 0 := by
        have hbehind := ht.behind _ _ (le_refl _) (List.getElem?_eq_getElem hlt)
        rw [List.getElem?_eq_getElem hlt, hbehind, hzero]
      have hsame : request.bodyCallback t.responseBuffer body.length =
          iapHttpsMetadataBodyCallback body body.length := by
        rw [hbody, iapHttpsMetadataBodyCallback_cstr _ _ body.length, cstr_of_terminated ht.body.buffer hend,
          ← iapHttpsMetadataBodyCallback_cstr]
      rw [wp_invokeBodyCallback, hsame, hst.app]
      exact wp_weaken (wp_of_final (P := fun app => app =
        final (iapHttpsMetadataBodyCallback body body.length) s.client.app) rfl) fun _ h => .inr h
    · exact wp_body_of_called fun u hu => .inl (hu.filled hge)

-- The polling interval, the firmware path and the download bit.
structure SameDecision (s t : App) : Prop where
  pollingIntervalS : s.config.pollingIntervalS = t.config.pollingIntervalS
  serverFirmwarePath : s.config.serverFirmwarePath = t.config.serverFirmwarePath
  fwupDownloadImage : s.fwupDownloadImage = t.fwupDownloadImage

theorem sameDecision_of_terminates (hmode : request.responseMode = .waitForCompleteBody)
    (hbody : request.bodyCallback = iapHttpsMetadataBodyCallback) (hs : s.client.events = [])
    (hs' : s'.client.events = []) (happ : s.client.app = s'.client.app)
    (hfits : ¬Filled (readResponse request reads stale s).client)
    (hfits' : ¬Filled (readResponse request others stale' s').client)
    (hresponse : Response body (fragments reads)) (hresponse' : Response body (fragments others))
    (hterminates : Terminates (fragments reads)) (hterminates' : Terminates (fragments others)) :
    SameDecision (readResponse request reads stale s).client.app
      (readResponse request others stale' s').client.app := by
  have hdecided := app_of_response hmode hbody hs hfits hresponse hterminates
  have hdecided' := app_of_response hmode hbody hs' hfits' hresponse' hterminates'
  rw [hdecided, hdecided', happ]
  exact ⟨rfl, rfl, rfl⟩

end Check

-- A search in the buffer sees the body alone exactly if the byte behind it is
-- none of the headers, and what it decides then depends on the body only.
theorem body_decides {α : Type} (request : ValidRequest α) (reads : List ReadResult) (stale : Nat → UInt8)
    (s : Conn (Client α)) (hmode : request.responseMode = .waitForCompleteBody) (hs : s.client.events = [])
    (hfits : ¬Filled (readResponse request reads stale s).client) :
    (AllTerminated (readResponse request reads stale s).client.events ↔ Terminates (fragments reads)) ∧
    ∀ (request : ValidRequest App) (reads others : List ReadResult) (stale stale' : Nat → UInt8)
      (s s' : Updater) (body : Bytes), request.responseMode = .waitForCompleteBody →
      request.bodyCallback = iapHttpsMetadataBodyCallback → s.client.events = [] → s'.client.events = [] →
      s.client.app = s'.client.app → ¬Filled (readResponse request reads stale s).client →
      ¬Filled (readResponse request others stale' s').client → Response body (fragments reads) →
      Response body (fragments others) → Terminates (fragments reads) → Terminates (fragments others) →
      SameDecision (readResponse request reads stale s).client.app
        (readResponse request others stale' s').client.app := by
  constructor
  · exact allTerminated_iff request hmode reads stale s hs hfits
  · intro request reads others stale stale' s s' body hmode hbody hs hs' happ hfits hfits' hresponse hresponse'
      hterminates hterminates'
    exact sameDecision_of_terminates hmode hbody hs hs' happ hfits hfits' hresponse hresponse' hterminates
      hterminates'

-- One read with all of a response.
theorem oneRead_terminated : AllTerminated (readResponse (exampleRequest .waitForCompleteBody)
    [.data oneByteResponse] (fun _ => 0) exampleClient).client.events := by
  refine (body_decides (exampleRequest .waitForCompleteBody) [.data oneByteResponse] (fun _ => 0)
    exampleClient rfl rfl (by decide +kernel)).1.mpr ?_
  have hreached : BodyReached [] (fragments [.data oneByteResponse]) oneByteResponse.val 34 [] :=
    ⟨[], 1, by decide +kernel, by decide +kernel, by decide +kernel, fun _ => by decide, rfl⟩
  intro received i more h
  obtain ⟨rfl, rfl, rfl⟩ := hreached.unique h
  decide

-- The same body behind two header blocks.
def exampleMetadata : Bytes := ascii "VERSION=2\nFILE=/b"

def exampleMetadataRequest : ValidRequest App where
  host := ascii "www.classycode.io"
  path := ascii "/ota.txt"
  responseBuffer := List.replicate 512 0
  errorCallback := iapHttpsErrorCallback
  responseMode := .waitForCompleteBody
  bodyCallback := iapHttpsMetadataBodyCallback

def exampleCheck : Updater :=
  { exampleUpdater ⟨"factory", 0x10000⟩ false with
    client := (exampleUpdater ⟨"factory", 0x10000⟩ false).client.start exampleMetadataRequest }

def shortHeader : Fragment := ⟨ascii "HTTP/1.1 200 OK\r\nContent-Length: 17\r\n\r\n", by decide⟩

def datedHeader : Fragment :=
  ⟨ascii "HTTP/1.1 200 OK\r\nDate: today\r\nContent-Length: 17\r\n\r\n", by decide⟩

theorem decision_depends_on_headers :
    ¬∀ (request : ValidRequest App) (reads others : List ReadResult) (stale stale' : Nat → UInt8)
      (s s' : Updater) (body : Bytes), request.responseMode = .waitForCompleteBody →
      request.bodyCallback = iapHttpsMetadataBodyCallback → s.client.events = [] → s'.client.events = [] →
      s.client.app = s'.client.app → ¬Filled (readResponse request reads stale s).client →
      ¬Filled (readResponse request others stale' s').client → Response body (fragments reads) →
      Response body (fragments others) →
      SameDecision (readResponse request reads stale s).client.app
        (readResponse request others stale' s').client.app := by
  intro h
  have hshort : HeaderBlock shortHeader.val :=
    ⟨by decide, by decide, 49, ascii " OK\r\nContent-Length: 17\r\n\r\n", by decide, by simp [ascii, isDigit],
      by decide⟩
  have hdated : HeaderBlock datedHeader.val :=
    ⟨by decide, by decide, 49, ascii " OK\r\nDate: today\r\nContent-Length: 17\r\n\r\n", by decide,
      by simp [ascii, isDigit], by decide⟩
  have hresponse : ∀ header : Fragment, HeaderBlock header.val → headerLength header.val = some 17 →
      Response exampleMetadata (fragments [.data header, .data ⟨exampleMetadata, by decide⟩]) := by
    intro header hheader hlength
    exact ⟨header.val, [header.val], [exampleMetadata], 17, hheader, hlength, by decide, rfl, by simp, by simp⟩
  have hdecision := h exampleMetadataRequest [.data shortHeader, .data ⟨exampleMetadata, by decide⟩]
    [.data datedHeader, .data ⟨exampleMetadata, by decide⟩] (fun _ => 0) (fun _ => 0) exampleCheck exampleCheck
    exampleMetadata rfl rfl rfl rfl rfl (by decide +kernel) (by decide +kernel)
    (hresponse shortHeader hshort (by decide +kernel)) (hresponse datedHeader hdated (by decide +kernel))
  exact absurd hdecision.serverFirmwarePath (by decide +kernel)

end Esp32Ota

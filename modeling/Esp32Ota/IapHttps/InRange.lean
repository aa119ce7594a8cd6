import Esp32Ota.HttpsClient.Inside
import Esp32Ota.HttpsClient.WholeBody
import Esp32Ota.IapHttps.Decision
import Esp32Ota.IapHttps.Metadata

-- The accesses of a request to its buffers, and those of the metadata callback to a document.
namespace Esp32Ota

open CLib Halting

section Metadata

variable {document : Bytes} {n : Nat} {stale : Nat → UInt8} {w : Watched App}

def iapHttpsSetPollingIntervalAt (responseBuffer : Bytes) : EStateM Halt (Watched App) Unit := do
  match ← access (httpParseKeyValueIntAt responseBuffer (ascii "INTERVAL=")) with
  | some intervalSeconds => watch (modify fun s => { s with config.pollingIntervalS := toSize intervalSeconds })
  | none => pure ()

-- `iap_https_metadata_body_callback` with every access to the response buffer and to the
-- local array for the file name.
def iapHttpsMetadataBodyCallbackAt (stale : Nat → UInt8) (responseBuffer : Bytes) (_bytesReceived : Nat) :
    EStateM Halt (Watched App) HttpContinueReceiving := do
  iapHttpsSetPollingIntervalAt responseBuffer
  match ← access (httpParseKeyValueIntAt responseBuffer (ascii "VERSION=")) with
  | none => return .stopReceiving
  | some version =>
    let (result, fileName) ← access
      (httpParseKeyValueStringAt responseBuffer (ascii "FILE=") (staleBlock stale 256) 256)
    if result ≠ 0 then
      return .stopReceiving
    watch (modify fun s => { s with config.serverFirmwarePath := strncpy (cstr fileName) 256 })
    if version = (← watch get).config.currentSoftwareVersion then
      return .stopReceiving
    watch (modify fun s => { s with fwupDownloadImage := true })
    return .stopReceiving

-- Each of the three lookups ends in the document.
structure ScansStop (document : Bytes) : Prop where
  interval : NumberStops document (ascii "INTERVAL=")
  version : NumberStops document (ascii "VERSION=")
  file : LineStops document (ascii "FILE=") 255

instance (document : Bytes) : Decidable (ScansStop document) :=
  decidable_of_iff (NumberStops document (ascii "INTERVAL=") ∧ NumberStops document (ascii "VERSION=") ∧
    LineStops document (ascii "FILE=") 255) ⟨fun h => ⟨h.1, h.2.1, h.2.2⟩, fun h => ⟨h.1, h.2, h.3⟩⟩

theorem setPollingIntervalAt_inside (h : NumberStops document (ascii "INTERVAL=")) :
    iapHttpsSetPollingIntervalAt document = watch (iapHttpsSetPollingInterval document) := by
  unfold iapHttpsSetPollingIntervalAt iapHttpsSetPollingInterval
  rw [httpParseKeyValueIntAt_eq h (by decide) (by decide), access_ok, pure_bind]
  cases httpParseKeyValueInt document (ascii "INTERVAL=") <;> rfl

-- Then the callback does what it does without a look at the accesses.
theorem metadataBodyCallbackAt_inside (h : ScansStop document) :
    iapHttpsMetadataBodyCallbackAt stale document n = watch (iapHttpsMetadataBodyCallback document n) := by
  have hversion := httpParseKeyValueIntAt_eq h.version (by decide) (by decide)
  have hroom : 256 ≤ (staleBlock stale 256).length := by rw [length_staleBlock]
  have hfile := httpParseKeyValueStringAt_eq h.file (by decide) (fun _ => by decide) (by decide) hroom
  unfold iapHttpsMetadataBodyCallbackAt iapHttpsMetadataBodyCallback
  simp only [setPollingIntervalAt_inside h.interval, hversion, hfile, access_ok, pure_bind, watch_bind]
  cases hname : httpParseKeyValueString document (ascii "FILE=") 256 with
  | none => cases httpParseKeyValueInt document (ascii "VERSION=") <;> rfl
  | some fileName =>
      obtain ⟨-, hzero⟩ := fileName_of_parsed hname
      have hcstr : cstr (store (staleBlock stale 256) 0 (fileName ++ [0])) = fileName := by
        rw [store_zero, List.append_assoc, cstr_append _ _ hzero, List.singleton_append, cstr_cons_zero,
          List.append_nil]
      cases httpParseKeyValueInt document (ascii "VERSION=") with
      | none => rfl
      | some version =>
          simp only [hcstr, ne_eq, not_true_eq_false, ite_false, watch_bind, watch_ite, watch_pure]

theorem metadataBodyCallbackAt_runs_off (h : ¬ScansStop document) :
    wp (iapHttpsMetadataBodyCallbackAt stale document n) (fun _ _ => False) (fun _ t => t.outOfRange = true) w := by
  unfold iapHttpsMetadataBodyCallbackAt
  rw [wp_bind]
  by_cases hinterval : NumberStops document (ascii "INTERVAL=")
  · have hset : wp (iapHttpsSetPollingInterval document) (fun _ _ => True) (fun _ _ => False) w.state := by
      unfold iapHttpsSetPollingInterval
      cases httpParseKeyValueInt document (ascii "INTERVAL=") <;> trivial
    rw [setPollingIntervalAt_inside hinterval, wp_watch]
    refine wp_mono hset (fun _ t _ => ?_) (fun _ _ h => h.elim)
    by_cases hversion : NumberStops document (ascii "VERSION=")
    · -- without a NUL the version is there
      have hfile : ¬LineStops document (ascii "FILE=") 255 := fun hfile => h ⟨hinterval, hversion, hfile⟩
      have hzero : 0 ∉ document := fun hzero => hfile (.inl hzero)
      have hroom : 256 ≤ (staleBlock stale 256).length := by rw [length_staleBlock]
      obtain ⟨text, htext, -⟩ := hversion.resolve_left hzero
      rw [httpParseKeyValueIntAt_eq hversion (by decide) (by decide), access_ok, pure_bind,
        httpParseKeyValueInt_behind, textBehind, cstr_of_notMem _ hzero, Option.mem_def.mp htext, Option.map_some]
      dsimp only
      rw [httpParseKeyValueStringAt_runs_off hfile (by decide) hroom, wp_bind, wp_access_error]
    · rw [httpParseKeyValueIntAt_runs_off hversion (by decide), wp_bind, wp_access_error]
  · unfold iapHttpsSetPollingIntervalAt
    rw [httpParseKeyValueIntAt_runs_off hinterval (by decide), wp_bind, wp_access_error]

end Metadata

section Request

variable {α : Type}

-- The request with its own error callback, and a body callback that may have accesses.
def ValidRequest.watched (request : ValidRequest α) (bodyCallback : BodyCallback (Watched α)) :
    ValidRequest (Watched α) :=
  { request with
    errorCallback := fun error additionalInfo => watch (request.errorCallback error additionalInfo)
    bodyCallback }

def ValidRequest.unwatchedBody (request : ValidRequest α) : BodyCallback (Watched α) :=
  fun responseBuffer bytesReceived => watch (request.bodyCallback responseBuffer bytesReceived)

def Client.watched (s : Client α) : Client (Watched α) := { s with app := ⟨s.app, false⟩ }

-- The reads of one request with their accesses, from any state.
def readResponseAt (request : ValidRequest (Watched α)) (reads : List ReadResult) (stale : Nat → UInt8)
    (s : Conn (Client α)) : Conn (Client (Watched α)) :=
  final (wifiTlsReadLoop (httpsTlsCallbackAt request) reads 0 (staleBlock stale tlsResponseBufferSize))
    { s with client := s.client.watched }

def InRange (s : Client (Watched α)) : Prop := s.app.outOfRange = false

instance (s : Client (Watched α)) : Decidable (InRange s) := inferInstanceAs (Decidable (s.app.outOfRange = false))

variable {request : ValidRequest α} {s : Conn (Client α)}

theorem phase_start (size : Nat) (s : Client α) : Phase size 0 [] s :=
  .headers (awaiting_start s)

-- All the reads that the headers take are in range, or one of them is not.
theorem readResponseAt_client (request : ValidRequest α) (bodyCallback : BodyCallback (Watched α))
    (reads : List ReadResult) (stale : Nat → UInt8)
    (hsize : s.client.responseBuffer.length ≤ tlsResponseBufferSize) :
    (HeadersScanned s.client.responseBuffer.length [] (fragments reads) →
      (readResponseAt (request.watched bodyCallback) reads stale s).client =
        final (feed (httpsTlsCallback (request.watched bodyCallback)) (fragments reads) 0
          (staleBlock stale tlsResponseBufferSize)) s.client.watched) ∧
    (¬HeadersScanned s.client.responseBuffer.length [] (fragments reads) →
      ¬InRange (readResponseAt (request.watched bodyCallback) reads stale s).client) := by
  have htls : s.client.responseBuffer.length ≤ (staleBlock stale tlsResponseBufferSize).length := by
    rwa [length_staleBlock]
  have hreads : ∀ fragment ∈ fragments reads,
      fragment.length ≤ (staleBlock stale tlsResponseBufferSize).length := by
    intro fragment hfragment
    rw [length_staleBlock]
    exact (length_of_fragments reads fragment hfragment).2
  have hphase := phase_start s.client.responseBuffer.length s.client.watched
  rw [readResponseAt, client_of_feed]
  refine ⟨fun hscan => ?_, fun hscan => ?_⟩
  · rw [final, final, feedAt_eq (fragments reads) hphase rfl htls hreads hscan]
  · obtain ⟨t, ht, hflag⟩ := feedAt_runs_off (request.watched bodyCallback) (fragments reads) hphase rfl htls
      hreads hscan
    rw [final, ht, InRange, hflag]
    decide

-- Callbacks without accesses of their own stay in range.
theorem watched_inside (fs : List Bytes) (index : Nat) (buffer : Bytes) (s : Client α) :
    InRange (final (feed (httpsTlsCallback (request.watched request.unwatchedBody)) fs index buffer) s.watched) := by
  have hrelated : (request.watched request.unwatchedBody).Related Inside request :=
    ⟨rfl, rfl, rfl, rfl, fun _ _ _ _ h => watch_inside _ h, fun _ _ _ _ h => watch_inside _ h⟩
  have hstart : s.watched.Related Eq Inside s := ⟨rfl, rfl, rfl, rfl⟩
  have hfeed := feed_related (fun index tlsBuffer len _ _ h =>
    httpsTlsCallback_related relatesEvents_eq hrelated index tlsBuffer len h) fs index buffer hstart
  refine final_of_wp (wp_mono hfeed (fun _ t ht => ?_) (fun _ t ht => ?_))
  · obtain ⟨v, -, hv⟩ := ht
    rw [InRange, hv.app]
  · obtain ⟨v, -, hv⟩ := ht
    rw [InRange, hv.app]

end Request

section Document

variable {request : ValidRequest App}

-- The accesses of the callback leave the document that it is called with, or none.
def Watches (t : Client (Watched App)) : Prop := InRange t ↔ ∀ document ∈ documents t.events, ScansStop document

theorem callsOnce_watched (stale : Nat → UInt8) (s : Client App) (hs : s.events = []) :
    CallsOnce (request.watched (iapHttpsMetadataBodyCallbackAt stale)) s.watched Watches (fun _ => Watches) := by
  have hquiet : ∀ t, Uncalled s.watched t → t.events = [] ∧ t.app.outOfRange = false := by
    intro t ht
    rw [ht.events, ht.app]
    exact ⟨hs, rfl⟩
  have hwatches : ∀ t, Uncalled s.watched t → Watches t := by
    intro t ht
    obtain ⟨hevents, hflag⟩ := hquiet t ht
    rw [Watches, InRange, hevents, hflag]
    simp [documents]
  refine ⟨hwatches, fun _ => hwatches, fun n t ht => ?_, fun error info t ht => ?_⟩
  · obtain ⟨hevents, hflag⟩ := hquiet t ht
    rw [wp_invokeBodyCallback]
    change wp (iapHttpsMetadataBodyCallbackAt stale t.responseBuffer n) _ _ t.app
    simp only [Watches, InRange, documents, hevents, List.mem_singleton, forall_eq]
    by_cases hscan : ScansStop t.responseBuffer
    · rw [metadataBodyCallbackAt_inside hscan, wp_watch]
      exact wp_of_forall (fun _ _ => iff_of_true hflag hscan) (fun _ _ => iff_of_true hflag hscan)
    · refine wp_mono (metadataBodyCallbackAt_runs_off hscan) (fun _ _ h => h.elim) (fun _ v hv => ?_)
      exact iff_of_false (by simp [hv]) hscan
  · obtain ⟨hevents, hflag⟩ := hquiet t ht
    rw [wp_invokeErrorCallback]
    change wp (watch (request.errorCallback error info)) _ _ t.app
    rw [wp_watch]
    simp only [Watches, InRange, documents, hevents, hflag]
    exact wp_of_forall (fun _ _ => by simp) (fun _ _ => by simp)

end Document

-- The document is the one that the reads give.
theorem watched_document (request : ValidRequest App) (hmode : request.responseMode = .waitForCompleteBody)
    (reads : List ReadResult) (stale staleName : Nat → UInt8) (s : Client App)
    (hsize : s.responseBuffer.length ≤ tlsResponseBufferSize) (hs : s.events = []) :
    InRange (final (feed (httpsTlsCallback (request.watched (iapHttpsMetadataBodyCallbackAt staleName)))
      (fragments reads) 0 (staleBlock stale tlsResponseBufferSize)) s.watched) ↔
    ∀ document ∈ wholeBody s.responseBuffer.length [] (staleBlock stale tlsResponseBufferSize) (fragments reads),
      ScansStop document := by
  have hwait : (request.watched (iapHttpsMetadataBodyCallbackAt staleName)).responseMode =
      .waitForCompleteBody := hmode
  have hbuffer := length_staleBlock stale tlsResponseBufferSize
  have hwatches : Watches _ := final_of_wp (feed_once hwait (callsOnce_watched staleName s hs) (fragments reads) 0
    (staleBlock stale tlsResponseBufferSize) ⟨rfl, rfl⟩)
  have hhands : HandsOver _ _ := final_of_wp (feed_wholeBody hwait (fragments reads)
    (staleBlock stale tlsResponseBufferSize) rfl (by rwa [hbuffer])
    (fun fragment hfragment => by rw [hbuffer]; exact (length_of_fragments reads fragment hfragment).2)
    (awaiting_start s.watched)
    (by rw [show s.watched.events = [] from hs]; rfl) rfl)
  rw [Watches, hhands] at hwatches
  simp only [Option.mem_toList] at hwatches
  exact hwatches

-- The accesses leave the response buffer where the headers fill it up to its last byte and are
-- not over, or where the callback gets a document in which one of its lookups does not end.
theorem accesses_in_range_iff {α : Type} (request : ValidRequest α) (reads : List ReadResult) (stale : Nat → UInt8)
    (s : Conn (Client α)) (hsize : s.client.responseBuffer.length ≤ tlsResponseBufferSize) :
    (InRange (readResponseAt (request.watched request.unwatchedBody) reads stale s).client ↔
      HeadersScanned s.client.responseBuffer.length [] (fragments reads)) ∧
    ∀ (request : ValidRequest App) (reads : List ReadResult) (stale staleName : Nat → UInt8) (s : Updater),
      request.responseMode = .waitForCompleteBody → s.client.responseBuffer.length ≤ tlsResponseBufferSize →
      s.client.events = [] →
      (InRange (readResponseAt (request.watched (iapHttpsMetadataBodyCallbackAt staleName)) reads stale s).client ↔
        HeadersScanned s.client.responseBuffer.length [] (fragments reads) ∧
        ∀ document ∈ wholeBody s.client.responseBuffer.length [] (staleBlock stale tlsResponseBufferSize)
          (fragments reads), ScansStop document) := by
  constructor
  · obtain ⟨hinside, hoff⟩ := readResponseAt_client request request.unwatchedBody reads stale hsize
    by_cases hscan : HeadersScanned s.client.responseBuffer.length [] (fragments reads)
    · rw [hinside hscan]
      exact iff_of_true (watched_inside _ _ _ _) hscan
    · exact iff_of_false (hoff hscan) hscan
  · intro request reads stale staleName s hmode hsize hs
    obtain ⟨hinside, hoff⟩ := readResponseAt_client request (iapHttpsMetadataBodyCallbackAt staleName) reads stale
      hsize
    by_cases hscan : HeadersScanned s.client.responseBuffer.length [] (fragments reads)
    · rw [hinside hscan, watched_document request hmode reads stale staleName s.client hsize hs]
      exact ⟨fun h => ⟨hscan, h⟩, fun h => h.2⟩
    · exact iff_of_false (hoff hscan) fun h => hscan h.1

theorem short_responses_in_range :
    InRange (readResponseAt ((exampleRequest .streamBody).watched (exampleRequest .streamBody).unwatchedBody)
      [.data oneByteResponse] (fun _ => 0) exampleClient).client ∧
    InRange (readResponseAt (exampleMetadataRequest.watched (iapHttpsMetadataBodyCallbackAt fun _ => 0))
      [.data shortHeader, .data ⟨exampleMetadata, by decide⟩] (fun _ => 0) exampleCheck).client := by
  obtain ⟨hstreamed, hchecked⟩ := accesses_in_range_iff (exampleRequest .streamBody) [.data oneByteResponse]
    (fun _ => 0) exampleClient (by decide)
  refine ⟨hstreamed.mpr (by decide), ?_⟩
  exact (hchecked exampleMetadataRequest [.data shortHeader, .data ⟨exampleMetadata, by decide⟩] (fun _ => 0)
    (fun _ => 0) exampleCheck rfl (by decide +kernel) rfl).mpr ⟨by decide +kernel, by decide +kernel⟩

def metadataClient : Conn (Client Unit) where
  tls := Tls.create
  client := ⟨⟨0, 0, 0, false⟩, List.replicate 512 0, [], ()⟩

-- The first read fills the buffer, and the headers go on.
theorem full_buffer_runs_off :
    ¬∀ (request : ValidRequest Unit) (reads : List ReadResult) (stale : Nat → UInt8) (s : Conn (Client Unit)),
      1 ≤ s.client.responseBuffer.length → s.client.responseBuffer.length ≤ tlsResponseBufferSize →
      InRange (readResponseAt (request.watched request.unwatchedBody) reads stale s).client := by
  intro h
  obtain ⟨bytes, hlen, hplain⟩ : ∃ bytes : Bytes, bytes.length = 512 ∧ ∀ b ∈ bytes, b = 97 :=
    ⟨List.replicate 512 97, List.length_replicate, fun _ hb => List.eq_of_mem_replicate hb⟩
  have hread : 0 < bytes.length ∧ bytes.length ≤ tlsResponseBufferSize := by
    rw [hlen]
    decide
  have hsize : metadataClient.client.responseBuffer.length = 512 := List.length_replicate
  have hbound : metadataClient.client.responseBuffer.length ≤ tlsResponseBufferSize := by
    rw [hsize]
    decide
  refine (readResponseAt_client (exampleRequest .waitForCompleteBody) _ [.data ⟨bytes, hread⟩] (fun _ => 0)
    hbound).2 (fun hscan => ?_) (h (exampleRequest .waitForCompleteBody) [.data ⟨bytes, hread⟩] (fun _ => 0)
      metadataClient (by rw [hsize]; decide) hbound)
  rcases hscan.1 with hother | hzero | hfound
  · exact hother (by rw [hsize]; exact hlen)
  · exact absurd (hplain 0 hzero) (by decide)
  · have hcr : 13 ∉ bytes := fun hmem => absurd (hplain 13 hmem) (by decide)
    have hnone := find_behind hcr [10, 13, 10] []
    rw [List.append_nil] at hnone
    exact hfound hnone

end Esp32Ota

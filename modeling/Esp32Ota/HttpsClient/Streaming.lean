import Esp32Ota.HttpsClient.Terminator

-- How much room the response buffer needs when the body is streamed.
namespace Esp32Ota

open CLib Halting

-- What has been received with the read that completes the first `n` bytes.
def receivedWith (n : Nat) : List Bytes → Nat
  | [] => 0
  | fragment :: rest =>
      if n ≤ fragment.length then fragment.length
      else fragment.length + receivedWith (n - fragment.length) rest

section Streaming

variable {α : Type} {request : ValidRequest α} {header received body content : Bytes}
  {contentLength n size : Nat} {s : Client α}

theorem overflowed_cons {event : HttpEvent} {t : Client α} (h : Called event s t)
    (hevent : event.isOverflow = false) : Overflowed t ↔ Overflowed s := by
  simp only [Overflowed, h.events, List.mem_cons, exists_eq_or_imp, hevent, Bool.false_eq_true, false_or]

theorem invokeBodyCallback_overflowed (k : Nat) (s : Client α) (hclean : ¬Overflowed s) :
    wp (invokeBodyCallback request k)
      (fun _ t => ¬Overflowed t ∧ t.context = s.context ∧ t.responseBuffer = s.responseBuffer)
      (fun _ t => ¬Overflowed t) s := by
  refine wp_mono (invokeBodyCallback_called request k s) (fun _ t ht => ?_) (fun _ t ht => ?_)
  · exact ⟨fun h => hclean ((overflowed_cons ht rfl).mp h), ht.context, ht.buffer⟩
  · exact fun h => hclean ((overflowed_cons ht rfl).mp h)

-- A streamed fragment makes room for the next one.
theorem httpsProcessBody_clears (hmode : request.responseMode = .streamBody)
    (hs : InBody contentLength n content s) (hclean : ¬Overflowed s) :
    wp (httpsProcessBody request)
      (fun continueReading t => ¬Overflowed t ∧ (continueReading = true →
        InBody contentLength n [] t ∧ t.responseBuffer.length = s.responseBuffer.length))
      (fun _ t => ¬Overflowed t) s := by
  rw [wp_httpsProcessBody_stream hmode hs]
  refine ⟨fun hnil => ⟨hclean, fun _ => ⟨hnil ▸ hs, rfl⟩⟩, fun _ => ?_⟩
  refine wp_mono (invokeBodyCallback_overflowed _ s hclean) ?_ (fun _ _ ht => ht)
  intro cr t ht
  obtain ⟨ht, hcontext, hbuffer⟩ := ht
  refine ⟨fun _ => ⟨ht, fun h => by cases h⟩, fun _ => ⟨fun _ => ?_, fun _ => ⟨ht, fun _ => ?_⟩⟩⟩
  · refine wp_mono (invokeBodyCallback_overflowed 0 t ht) (fun _ u hu => ?_) (fun _ _ hu => hu)
    exact ⟨hu.1, fun h => by cases h⟩
  · exact ⟨(hs.congr hcontext hbuffer).clear, by rw [hbuffer]⟩

-- Behind the headers each fragment finds an empty buffer.
theorem feed_body_fits (hmode : request.responseMode = .streamBody) (rest : List Bytes) {index : Nat}
    (hindex : index ≠ 0) (buffer : Bytes) (hrest : ∀ fragment ∈ rest, fragment.length ≤ s.responseBuffer.length)
    (hs : InBody contentLength n [] s) (hclean : ¬Overflowed s) :
    wp (feed (httpsTlsCallback request) rest index buffer) (fun _ t => ¬Overflowed t)
      (fun _ t => ¬Overflowed t) s := by
  induction rest generalizing s n index buffer with
  | nil => exact hclean
  | cons fragment rest ih =>
      have hfits := hrest fragment List.mem_cons_self
      simp only [feed, wp_bind]
      refine wp_httpsTlsCallback_body hs hindex (fun hfull => ?_) (fun _ t ht hst _ => ?_)
      · simp only [List.length_nil, Nat.zero_add] at hfull
        exact absurd hfull (Nat.not_lt.mpr hfits)
      · have hclean' : ¬Overflowed t := by rwa [Overflowed, hst.events]
        refine wp_mono (httpsProcessBody_clears hmode ht hclean') ?_ (fun _ _ hu => hu)
        intro continueReading u hu
        cases continueReading with
        | false => exact hu.1
        | true =>
            obtain ⟨hbody, hlen⟩ := hu.2 rfl
            refine ih (Nat.succ_ne_zero index) _ (fun f hf => ?_) hbody hu.1
            rw [hlen, hst.bufferLen]
            exact hrest f (List.mem_cons_of_mem _ hf)

-- The reads up to the one that completes the headers have to fit into the buffer together.
theorem feed_overflowed_iff (hmode : request.responseMode = .streamBody) (hheader : HeaderBlock header)
    (hlength : headerLength header ≠ none) (fs : List Bytes) {index : Nat} {buffer : Bytes}
    (hbuffer : s.responseBuffer.length = size) (hsize : header.length ≤ size) (htls : size ≤ buffer.length)
    (hfs : ∀ fragment ∈ fs, fragment.length ≤ size)
    (hreceived : received ++ fs.flatten = header ++ body) (hmissing : received.length < header.length)
    (hs : AwaitingHeaders received (s.atIndex index)) (hclean : ¬Overflowed s) {full : Prop}
    (hfull : full ↔ size < received.length + receivedWith (header.length - received.length) fs) :
    wp (feed (httpsTlsCallback request) fs index buffer) (fun _ t => Overflowed t ↔ full)
      (fun _ t => Overflowed t ↔ full) s := by
  induction fs generalizing s received index buffer with
  | nil =>
      have hlen := congrArg List.length hreceived
      simp only [List.flatten_nil, List.append_nil, List.length_append] at hlen
      omega
  | cons fragment fs ih =>
      have hinitial : received ++ fragment <+: header ++ body := by
        rw [← hreceived, List.flatten_cons, ← List.append_assoc]
        exact List.prefix_append _ _
      have hfragment := hfs fragment List.mem_cons_self
      have hstored : (store buffer 0 fragment).length = buffer.length := length_store _ _ _ (by omega)
      have hcompletes : ∀ i, find crlfcrlf (cstr (received ++ fragment)) = some i →
          header.length ≤ received.length + fragment.length ∧
            acceptedLength ((received ++ fragment).take i) = (headerLength header).map toSize := by
        intro i hfind
        obtain ⟨-, hlen, htake⟩ := hheader.found hinitial hfind
        rw [List.length_append] at hlen
        exact ⟨hlen, by rw [htake, hheader.accepted_length]⟩
      rw [receivedWith] at hfull
      simp only [feed, wp_bind]
      refine wp_httpsTlsCallback_headers hs (fun hover => ?_) (fun _ t ht hst => ?_) ?_ ?_ ?_
      · rw [if_pos (by omega)] at hfull
        have hisFull : full := hfull.mpr (hbuffer ▸ hover)
        exact wp_error_of_called fun _ ht => iff_of_true ht.overflowed hisFull
      · have hincomplete := hheader.pending hinitial ht.pending
        rw [List.length_append] at hincomplete
        rw [if_neg (by omega), ← Nat.add_assoc, ← List.length_append, ← Nat.sub_add_eq, ← List.length_append] at hfull
        refine ih (hst.bufferLen.trans hbuffer) (hstored ▸ htls) (fun f hf => hfs f (List.mem_cons_of_mem _ hf))
          ?_ ?_ (ht.later index) (by rwa [Overflowed, hst.events]) hfull
        · rw [← hreceived, List.flatten_cons, List.append_assoc]
        · rwa [List.length_append]
      · intro _ i hfind hreject
        rw [(hcompletes i hfind).2, Option.map_eq_none_iff] at hreject
        exact absurd hreject hlength
      · intro hfits _ _ _ _ hshort
        rw [hstored, List.length_append] at hshort
        omega
      · intro hfits i contentLength content hfind _ _ _ _ t ht hst _
        have hcomplete := (hcompletes i hfind).1
        rw [if_pos (by omega)] at hfull
        have hnotFull : ¬full := fun h => by
          have := hfull.mp h
          omega
        refine wp_mono (httpsProcessBody_clears hmode ht (by rwa [Overflowed, hst.events])) ?_
          (fun _ u hu => iff_of_false hu hnotFull)
        intro continueReading u hu
        cases continueReading with
        | false => exact iff_of_false hu.1 hnotFull
        | true =>
            obtain ⟨hbody, hlen⟩ := hu.2 rfl
            refine wp_weaken (feed_body_fits hmode fs (Nat.succ_ne_zero index) _ (fun f hf => ?_) hbody hu.1)
              fun v hv => iff_of_false hv hnotFull
            rw [hlen, hst.bufferLen, hbuffer]
            exact hfs f (List.mem_cons_of_mem _ hf)

theorem readResponse_overflowed_iff (hmode : request.responseMode = .streamBody) (hheader : HeaderBlock header)
    (hlength : headerLength header ≠ none) (reads : List ReadResult) (stale : Nat → UInt8) {s : Conn (Client α)}
    (hsize : s.client.responseBuffer.length = tlsResponseBufferSize)
    (hfits : header.length ≤ s.client.responseBuffer.length) (hs : s.client.events = [])
    (hresponse : (fragments reads).flatten = header ++ body) :
    Overflowed (readResponse request reads stale s).client ↔
      s.client.responseBuffer.length < receivedWith header.length (fragments reads) := by
  have hclean : ¬Overflowed s.client := by
    rintro ⟨event, hevent, -⟩
    rw [hs] at hevent
    cases hevent
  have htls : s.client.responseBuffer.length ≤ (staleBlock stale tlsResponseBufferSize).length := by
    rw [hsize, length_staleBlock]
  have hreads : ∀ fragment ∈ fragments reads, fragment.length ≤ s.client.responseBuffer.length := by
    intro fragment hfragment
    rw [hsize]
    exact (length_of_fragments reads fragment hfragment).2
  have hfour := hheader.length
  rw [readResponse, client_of_feed]
  refine final_of_wp (P := fun t => Overflowed t ↔ _) (feed_overflowed_iff hmode hheader hlength (fragments reads)
    rfl hfits htls hreads (by rw [List.nil_append, hresponse]) (by rw [List.length_nil]; omega)
    (awaiting_start s.client) hclean ?_)
  rw [List.length_nil, Nat.sub_zero, Nat.zero_add]

end Streaming

-- A buffer of the size of a TLS read has room for the headers and for each fragment of the
-- body, but not always for the read that brings the end of the one and the start of the other.
theorem streaming_fits_iff {α : Type} (request : ValidRequest α) (hmode : request.responseMode = .streamBody)
    {header body : Bytes} (hheader : HeaderBlock header) (hlength : headerLength header ≠ none)
    (reads : List ReadResult) (stale : Nat → UInt8) (s : Conn (Client α))
    (hsize : s.client.responseBuffer.length = tlsResponseBufferSize)
    (hfits : header.length ≤ s.client.responseBuffer.length) (hs : s.client.events = [])
    (hresponse : (fragments reads).flatten = header ++ body) :
    ¬Overflowed (readResponse request reads stale s).client ↔
      receivedWith header.length (fragments reads) ≤ s.client.responseBuffer.length := by
  rw [readResponse_overflowed_iff hmode hheader hlength reads stale hsize hfits hs hresponse, Nat.not_lt]

def roomyClient : Conn (Client Unit) where
  tls := Tls.create
  client := ⟨⟨0, 0, 0, false⟩, List.replicate tlsResponseBufferSize 0, [], ()⟩

theorem oneRead_fits : ¬Overflowed (readResponse (exampleRequest .streamBody) [.data oneByteResponse]
    (fun _ => 0) roomyClient).client := by
  have hsize : roomyClient.client.responseBuffer.length = tlsResponseBufferSize := List.length_replicate
  have hresponse : (fragments [.data oneByteResponse]).flatten = statusLine ++ lengthField ++ [97] := by decide
  refine (streaming_fits_iff (exampleRequest .streamBody) rfl exampleHeader (by decide) [.data oneByteResponse]
    (fun _ => 0) roomyClient hsize ?_ rfl hresponse).mpr ?_
  · rw [hsize]
    decide
  · rw [hsize]
    decide

-- The length of all the bytes that still fit into the second read.
def fullField : Bytes := ascii "Content-Length: 4072\r\n\r\n"

theorem fullHeader : HeaderBlock (statusLine ++ fullField) :=
  ⟨by decide, by decide, 49, ascii " OK\r\nContent-Length: 4072\r\n\r\n", by decide, by simp [ascii, isDigit],
    by decide⟩

theorem cut_headers_overflow :
    ¬∀ (header body : Bytes) (reads : List ReadResult) (stale : Nat → UInt8), HeaderBlock header →
      headerLength header = some (body.length : Int) → header.length ≤ tlsResponseBufferSize →
      (fragments reads).flatten = header ++ body →
      ¬Overflowed (readResponse (exampleRequest .streamBody) reads stale roomyClient).client := by
  intro h
  obtain ⟨body, hbody⟩ : ∃ body : Bytes, body.length = 4072 := ⟨List.replicate 4072 97, List.length_replicate⟩
  have hfield : fullField.length = 24 := by decide
  have hfull : 1 ≤ (fullField ++ body).length ∧ (fullField ++ body).length ≤ tlsResponseBufferSize := by
    rw [List.length_append, hfield, hbody]
    decide
  have hresponse : (fragments [.data ⟨statusLine, by decide⟩, .data ⟨fullField ++ body, hfull⟩]).flatten =
      statusLine ++ fullField ++ body := by
    simp only [fragments, List.flatten_cons, List.flatten_nil, List.append_nil, List.append_assoc]
  have hlength : headerLength (statusLine ++ fullField) = some 4072 := by decide
  refine h _ _ _ (fun _ => 0) fullHeader ?_ (by decide) hresponse ?_
  · rw [hlength, hbody]
    rfl
  · have hsize : roomyClient.client.responseBuffer.length = tlsResponseBufferSize := List.length_replicate
    have hstatus : statusLine.length = 17 := by decide
    rw [readResponse_overflowed_iff rfl fullHeader (by rw [hlength]; exact Option.some_ne_none _) _ _ hsize
      (by rw [hsize]; decide) rfl hresponse, hsize]
    simp only [fragments, receivedWith, List.length_append, hfield, hstatus, hbody]
    decide

end Esp32Ota

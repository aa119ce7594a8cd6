import Esp32Ota.HttpsClient.Streaming
import Esp32Ota.HttpsClient.Wire

-- An application that consumes a streamed body gets it in order and as a whole.
namespace Esp32Ota

open CLib Halting

-- `I image` holds of the application that has been handed `image`, and `Done` of the one that
-- has been handed the whole body and told of its end.
structure Consumes {α : Type} (request : ValidRequest α) (size : Nat) (body : Bytes) (I : Bytes → α → Prop)
    (Done : α → Prop) : Prop where
  mode : request.responseMode = .streamBody
  fragment : ∀ image fragment rest buffer app, image ++ fragment ++ rest = body → fragment ≠ [] →
    fragment <+: buffer → buffer.length = size → I image app →
    wp (request.bodyCallback buffer fragment.length)
      (fun cr app => cr = .continueReceiving ∧ I (image ++ fragment) app) (fun _ _ => False) app
  last : ∀ buffer app, I body app → wp (request.bodyCallback buffer 0) (fun _ => Done) (fun _ => Done) app

-- Unless a packet has been dropped.
def Consumed {α : Type} (Done : α → Prop) (t : Client α) : Prop := Overflowed t ∨ Done t.app

section Feed

variable {α : Type} {request : ValidRequest α} {size : Nat} {header body image content rest : Bytes}
  {I : Bytes → α → Prop} {Done : α → Prop} {s : Client α}

-- What is in the buffer is consumed, and then the end of the body if that was all.
theorem httpsProcessBody_consumed (h : Consumes request size body I Done) (hsmall : body.length < 2 ^ 32)
    {Q : Bool → Client α → Prop} {E : Halt → Client α → Prop}
    (hs : InBody body.length (image ++ content).length content s) (hsize : s.responseBuffer.length = size)
    (hI : I image s.app) (hwhole : image ++ content ++ rest = body)
    (hnext : ∀ t, InBody body.length (image ++ content).length [] t → t.responseBuffer.length = size →
      I (image ++ content) t.app → (content ≠ [] → (image ++ content).length < body.length) → Q true t)
    (hstop : ∀ t, Done t.app → Q false t) (hhalt : ∀ e t, Done t.app → E e t) :
    wp (httpsProcessBody request) Q E s := by
  have hlength := congrArg List.length hwhole
  rw [List.length_append] at hlength
  have htotal : sizeT (image ++ content).length = (image ++ content).length := Nat.mod_eq_of_lt (by omega)
  rw [wp_httpsProcessBody_stream h.mode hs, htotal]
  refine ⟨fun hnil => ?_, fun hne => ?_⟩
  · subst hnil
    exact hnext s hs hsize (by rwa [List.append_nil]) fun hne => absurd rfl hne
  rw [wp_invokeBodyCallback]
  refine wp_mono (h.fragment image content rest _ _ hwhole hne hs.buffer hsize hI) ?_ (fun _ _ hfalse => hfalse.elim)
  intro cr app hcr
  obtain ⟨rfl, hI⟩ := hcr
  refine ⟨fun hstopped => absurd rfl hstopped, fun _ => ⟨fun hdone => ?_, fun hmore => ?_⟩⟩
  · have hrest : rest = [] := List.eq_nil_of_length_eq_zero (by omega)
    rw [hrest, List.append_nil] at hwhole
    rw [hwhole] at hI
    rw [wp_invokeBodyCallback]
    exact wp_mono (h.last _ _ hI) (fun _ app hdone => hstop _ hdone) (fun _ app hdone => hhalt _ _ hdone)
  · have hcalled : InBody body.length (image ++ content).length content
        { s with events := .body s.responseBuffer content.length :: s.events, app } := hs.congr rfl rfl
    exact hnext _ hcalled.clear hsize hI fun _ => hmore

-- By induction on the reads: each of them finds an empty buffer.
theorem feed_consumed (h : Consumes request size body I Done) (hsmall : body.length < 2 ^ 32) (rest : List Bytes)
    (hrest : ∀ fragment ∈ rest, fragment ≠ []) (hwhole : image ++ rest.flatten = body)
    (hmissing : image.length < body.length) {index : Nat} (hindex : index ≠ 0) (buffer : Bytes)
    (hs : InBody body.length image.length [] s) (hsize : s.responseBuffer.length = size) (hI : I image s.app) :
    wp (feed (httpsTlsCallback request) rest index buffer) (fun _ => Consumed Done) (fun _ => Consumed Done) s := by
  induction rest generalizing s image index buffer with
  | nil =>
      rw [List.flatten_nil, List.append_nil] at hwhole
      rw [hwhole] at hmissing
      exact absurd hmissing (Nat.lt_irrefl _)
  | cons fragment rest ih =>
      have hne : fragment ≠ [] := hrest fragment List.mem_cons_self
      have hwhole' : image ++ fragment ++ rest.flatten = body := by
        rw [← hwhole, List.flatten_cons, List.append_assoc]
      simp only [feed, wp_bind]
      refine wp_httpsTlsCallback_body hs hindex (fun _ => ?_) (fun _ t ht hst _ => ?_)
      · exact wp_error_of_called fun t ht => .inl ht.overflowed
      rw [← List.length_append, List.nil_append] at ht
      refine httpsProcessBody_consumed h hsmall ht (hst.bufferLen.trans hsize) (by rwa [hst.app]) hwhole'
        (fun u hu hlen hI hmore => ?_) (fun _ hdone => .inr hdone) (fun _ _ hdone => .inr hdone)
      exact ih (fun f hf => hrest f (List.mem_cons_of_mem _ hf)) hwhole' (hmore hne) (Nat.succ_ne_zero index) _
        hu hlen hI

theorem headerLength_le {n : Int} (h : headerLength header = some n) : n < 2 ^ 31 := by
  unfold headerLength httpParseKeyValueInt at h
  rw [Option.map_eq_some_iff] at h
  obtain ⟨i, -, rfl⟩ := h
  rw [atoi_of_numeral]
  cases numeral _ with
  | none => decide
  | some n =>
      simp only [Option.map_some, Option.getD_some, clampInt]
      omega

-- The reads before that one leave the application alone.
theorem feed_waits (hheader : HeaderBlock header) (pre rest : List Bytes) {received : Bytes} {index : Nat}
    {buffer : Bytes} (hinitial : received ++ pre.flatten <+: header)
    (hlen : (received ++ pre.flatten).length < header.length) (hs : AwaitingHeaders received (s.atIndex index))
    (hnext : ∀ t, AwaitingHeaders (received ++ pre.flatten) (t.atIndex (index + pre.length)) → SameClient s t →
      wp (feed (httpsTlsCallback request) rest (index + pre.length) (lastRead buffer pre))
        (fun _ => Consumed Done) (fun _ => Consumed Done) t) :
    wp (feed (httpsTlsCallback request) (pre ++ rest) index buffer) (fun _ => Consumed Done)
      (fun _ => Consumed Done) s := by
  induction pre generalizing received index buffer s with
  | nil => exact hnext s (by simpa using hs) (SameClient.refl s)
  | cons fragment pre ih =>
      have hassoc : received ++ (fragment :: pre).flatten = received ++ fragment ++ pre.flatten := by
        simp
      have hcount : index + (fragment :: pre).length = index + 1 + pre.length := by
        rw [List.length_cons]
        omega
      rw [hassoc] at hinitial hlen hnext
      rw [hcount] at hnext
      have hpending : find crlfcrlf (cstr (received ++ fragment)) = none :=
        hheader.incomplete ((List.prefix_append _ _).trans hinitial)
          (by rw [List.length_append] at hlen; omega)
      have hnever : ∀ {i : Nat}, find crlfcrlf (cstr (received ++ fragment)) ≠ some i := fun hfind => by
        rw [hpending] at hfind
        cases hfind
      simp only [List.cons_append, feed, wp_bind]
      refine wp_httpsTlsCallback_headers hs (fun _ => ?_) (fun _ t ht hst => ?_) ?_ ?_ ?_
      · exact wp_error_of_called fun t ht => .inl ht.overflowed
      · exact ih hinitial hlen (ht.later _) fun u hu htu => hnext u hu (hst.trans htu)
      · exact fun _ i hfind => absurd hfind hnever
      · exact fun _ i _ hfind => absurd hfind hnever
      · exact fun _ i _ _ hfind => absurd hfind hnever

-- The read that completes the headers, with `content` behind them.
theorem feed_completes_consumed (h : Consumes request size body I Done) (hheader : HeaderBlock header)
    (hlength : headerLength header = some (body.length : Int)) (hbody : body ≠ []) {received fragment : Bytes}
    {index : Nat} (buffer : Bytes) (rest : List Bytes) (hrest : ∀ f ∈ rest, f ≠ [])
    (hreceived : received ++ fragment = header ++ content) (hwhole : content ++ rest.flatten = body)
    (hcopied : ((store buffer 0 fragment).drop header.length).take content.length = content)
    (hs : AwaitingHeaders received (s.atIndex index)) (hsize : s.responseBuffer.length = size) (hI : I [] s.app) :
    wp (feed (httpsTlsCallback request) (fragment :: rest) index buffer) (fun _ => Consumed Done)
      (fun _ => Consumed Done) s := by
  have hsmall : body.length < 2 ^ 32 := by
    have hlt := headerLength_le hlength
    omega
  have hfound := hheader.complete content
  have hfour := hheader.length
  have htake : (header ++ content).take (header.length - 4) = header.take (header.length - 4) :=
    List.take_append_of_le_length (by omega)
  have hbytes : (header ++ content).length - (header.length - 4 + 4) = content.length := by
    rw [List.length_append]
    omega
  have hstart : header.length - 4 + 4 = header.length := by omega
  simp only [feed, wp_bind]
  refine wp_httpsTlsCallback_headers hs (fun _ => ?_) (fun _ t ht _ => ?_) ?_ ?_ ?_
  · exact wp_error_of_called fun t ht => .inl ht.overflowed
  · have hpending := ht.pending
    rw [hreceived, hfound] at hpending
    cases hpending
  · intro _ i hfind hreject
    rw [hreceived, hfound, Option.some.injEq] at hfind
    subst hfind
    rw [hreceived, htake, hheader.accepted_length, hlength] at hreject
    cases hreject
  · intro _ i _ hfind hlong hshort
    rw [hreceived, hfound, Option.some.injEq] at hfind
    subst hfind
    rw [hreceived, List.length_append] at hlong hshort
    have hcut := congrArg List.length hcopied
    rw [List.length_take, List.length_drop] at hcut
    omega
  · intro _ i contentLength copied hfind _ haccept hcontent hlen t ht hst _
    rw [hreceived, hfound, Option.some.injEq] at hfind
    subst hfind
    rw [hreceived, htake, hheader.accepted_length, hlength, Option.map_some, Option.some.injEq,
      toSize_natCast _ hsmall] at haccept
    rw [hreceived, hbytes, hstart, hcopied] at hcontent
    rw [hreceived, hbytes] at ht
    subst haccept hcontent
    have hfirst : I [] t.app := by rwa [hst.app]
    have ht : InBody body.length ([] ++ copied).length copied t := ht
    refine httpsProcessBody_consumed h hsmall ht (hst.bufferLen.trans hsize) hfirst hwhole
      (fun u hu hlen hI hmore => ?_) (fun _ hdone => .inr hdone) (fun _ _ hdone => .inr hdone)
    refine feed_consumed h hsmall rest hrest hwhole ?_ (Nat.succ_ne_zero index) _ hu hlen hI
    by_cases hnil : copied = []
    · rw [hnil]
      exact List.length_pos_iff.mpr hbody
    · exact hmore hnil

end Feed

-- The read that completes the headers leaves the bytes behind them where they are looked for.
def KeepsBody (stale header body : Bytes) (reads : List ReadResult) : Prop :=
  ∃ pre fragment rest, fragments reads = pre ++ fragment :: rest ∧ pre.flatten.length < header.length ∧
    header.length ≤ (pre.flatten ++ fragment).length ∧
    ((lastRead stale (pre ++ [fragment])).drop header.length).take
        ((pre.flatten ++ fragment).length - header.length) =
      body.take ((pre.flatten ++ fragment).length - header.length)

-- It does if there is no read before it.
theorem keepsBody_of_first {stale header body fragment : Bytes} {rest : List Bytes} {reads : List ReadResult}
    (hreads : fragments reads = fragment :: rest) (hresponse : (fragments reads).flatten = header ++ body)
    (hheader : header ≠ []) (hfragment : header.length ≤ fragment.length) : KeepsBody stale header body reads := by
  refine ⟨[], fragment, rest, hreads, List.length_pos_iff.mpr hheader, hfragment, ?_⟩
  rw [hreads, List.flatten_cons] at hresponse
  have hlength := congrArg List.length hresponse
  rw [List.length_append, List.length_append] at hlength
  have hstart : fragment = header ++ body.take (fragment.length - header.length) := by
    have htake := congrArg (List.take fragment.length) hresponse
    rw [List.take_left, List.take_append, List.take_of_length_le hfragment] at htake
    exact htake
  simp only [List.nil_append, lastRead, List.foldl_cons, List.foldl_nil, List.flatten_nil, store_zero]
  rw [List.drop_append_of_le_length hfragment, List.take_append_of_le_length (by rw [List.length_drop])]
  conv_lhs => rw [hstart]
  rw [List.drop_left]
  exact List.take_of_length_le (by rw [List.length_take, List.length_append, List.length_take]; omega)

section Response

variable {α : Type} {request : ValidRequest α} {size : Nat} {header body : Bytes} {I : Bytes → α → Prop}
  {Done : α → Prop}

theorem readResponse_consumed (h : Consumes request size body I Done) (hheader : HeaderBlock header)
    (hlength : headerLength header = some (body.length : Int)) (hbody : body ≠ []) (reads : List ReadResult)
    (stale : Nat → UInt8) (s : Conn (Client α)) (hresponse : (fragments reads).flatten = header ++ body)
    (hkeeps : KeepsBody (staleBlock stale tlsResponseBufferSize) header body reads)
    (hsize : s.client.responseBuffer.length = size) (hI : I [] s.client.app) :
    Consumed Done (readResponse request reads stale s).client := by
  obtain ⟨pre, fragment, rest, hreads, hpre, hfragment, hcopied⟩ := hkeeps
  have hrest : ∀ f ∈ rest, f ≠ [] := fun f hf => fragments_ne_nil reads f (by rw [hreads]; simp [hf])
  rw [readResponse, client_of_feed, hreads]
  rw [hreads] at hresponse
  simp only [List.flatten_append, List.flatten_cons, ← List.append_assoc] at hresponse
  have hinitial : pre.flatten <+: header := by
    refine List.prefix_of_prefix_length_le ?_ (List.prefix_append header body) (by omega)
    rw [← hresponse, List.append_assoc]
    exact List.prefix_append _ _
  generalize hn : (pre.flatten ++ fragment).length - header.length = n at hcopied
  have hfull := congrArg List.length hresponse
  simp only [List.length_append] at hfull hn hfragment
  have hboth : (pre.flatten ++ fragment).length = header.length + n := by
    rw [List.length_append]
    omega
  have hreceived : pre.flatten ++ fragment = header ++ body.take n := by
    have htake := congrArg (List.take (header.length + n)) hresponse
    rw [List.take_append_of_le_length (by omega), List.take_of_length_le (by omega)] at htake
    rw [htake, List.take_append, List.take_of_length_le (by omega), Nat.add_sub_cancel_left]
  have hwhole : body.take n ++ rest.flatten = body := by
    rw [hreceived, List.append_assoc, List.append_cancel_left_eq] at hresponse
    exact hresponse
  have hhead : (body.take n).length = n := by
    rw [List.length_take]
    omega
  refine final_of_wp (feed_waits hheader pre (fragment :: rest) hinitial hpre
    (awaiting_start s.client) fun t ht hst => ?_)
  refine feed_completes_consumed h hheader hlength hbody _ rest hrest hreceived hwhole ?_ ht
    (hst.bufferLen.trans hsize) (by rwa [hst.app])
  rw [hhead, ← hcopied]
  simp only [lastRead, List.foldl_append, List.foldl_cons, List.foldl_nil]

-- The response arrives as a whole, in reads that the client can cope with.
structure GoodResponse (replies : RequestReplies) (header body : Bytes) : Prop where
  block : HeaderBlock header
  length : headerLength header = some (body.length : Int)
  nonempty : body ≠ []
  response : (fragments replies.reads).flatten = header ++ body
  keeps : ∀ stale ∈ replies.mallocResponseBuffer,
    KeepsBody (staleBlock stale tlsResponseBufferSize) header body replies.reads
  fits : receivedWith header.length (fragments replies.reads) ≤ tlsResponseBufferSize

-- The read that completes the headers brings them all.
theorem le_receivedWith {n : Nat} (fragments : List Bytes) (h : n ≤ fragments.flatten.length) :
    n ≤ receivedWith n fragments := by
  induction fragments generalizing n with
  | nil => exact h
  | cons fragment rest ih =>
      rw [List.flatten_cons, List.length_append] at h
      simp only [receivedWith]
      split
      · assumption
      · have hrest := ih (n := n - fragment.length) (by omega)
        omega

theorem GoodResponse.header_fits {replies : RequestReplies} (h : GoodResponse replies header body) :
    header.length ≤ tlsResponseBufferSize := by
  refine (le_receivedWith _ ?_).trans h.fits
  rw [h.response, List.length_append]
  exact Nat.le_add_right _ _

-- From the request that is written to the end of the body.
theorem httpsSendRequest_consumed {request : HttpRequest α} {replies : RequestReplies} (s : Conn (Client α))
    {host path : Bytes} (hhost : request.host = some host) (hpath : request.path = some path)
    (hbuffer : ∀ buffer ∈ request.responseBuffer, buffer.length = tlsResponseBufferSize)
    (haccepted : ¬Refused request replies)
    (hwrites : writesAll replies.writes (httpGetRequestFormatString.length + host.length + path.length) = true)
    (hanswer : GoodResponse replies header body)
    (h : ∀ valid, httpsValidateRequest request = .ok valid → Consumes valid tlsResponseBufferSize body I Done)
    (hI : I [] s.client.app) :
    wp (httpsSendRequest request replies) (fun _ t => Done t.client.app) (fun _ t => Done t.client.app) s := by
  apply wp_httpsSendRequest (fun hearly => absurd (refused_of_returnsEarly hearly) haccepted)
    (fun _ hnull => absurd (.inr (.inl hnull)) haccepted)
  intro valid hvalid _ stale staleResponse hstale hmalloc
  have hconsumes := h valid hvalid
  rw [request_of_validate hvalid, Option.some.injEq] at hhost hpath
  subst hhost hpath
  have hsize : valid.responseBuffer.length = tlsResponseBufferSize :=
    hbuffer _ (by rw [request_of_validate hvalid]; rfl)
  have hlen : (httpGetRequest valid.path valid.host ++ 0 :: stale).length = valid.sentLength := by
    have hlen := length_tlsRequest valid.path valid.host stale
    unfold ValidRequest.sentLength
    omega
  have hloop := wifiTlsWriteLoop_sends replies.writes (httpGetRequest valid.path valid.host ++ 0 :: stale) s.tls
  rw [hlen, hwrites] at hloop
  simp only [wifiTlsSendRequest, wp_bind, wp_onTls, wp_ite, wp_pure]
  refine wp_mono hloop (fun written tls htls => ?_) (fun _ _ hnot => by cases hnot)
  obtain ⟨rfl, -⟩ := htls
  refine ⟨fun _ => ?_, fun hnot => absurd rfl hnot⟩
  have hstart : (s.client.start valid).responseBuffer.length = tlsResponseBufferSize := hsize
  have hread := readResponse_consumed hconsumes hanswer.block hanswer.length hanswer.nonempty replies.reads
    staleResponse ⟨tls, s.client.start valid⟩ hanswer.response (hanswer.keeps _ hmalloc) hstart hI
  have hroom : ¬Overflowed (readResponse valid replies.reads staleResponse ⟨tls, s.client.start valid⟩).client := by
    rw [readResponse_overflowed_iff hconsumes.mode hanswer.block (by rw [hanswer.length]; simp) replies.reads
      staleResponse hstart (hstart ▸ hanswer.header_fits) rfl hanswer.response, Nat.not_lt, hstart]
    exact hanswer.fits
  exact wp_of_final (P := fun t : Conn (Client α) => Done t.client.app) (hread.resolve_left hroom)

end Response

end Esp32Ota

import Esp32Ota.HttpsClient.Callback
import Esp32Ota.WifiTls.Request

-- The end of the body, as announced by the server and as delivered.
namespace Esp32Ota

open CLib Halting

-- The number of bytes announced to the body callback.
def announced : List HttpEvent → Nat
  | [] => 0
  | .body _ bytesReceived :: earlier => announced earlier + bytesReceived
  | .error _ _ :: earlier => announced earlier

-- Where the body ends in what the server sends, once that includes all headers.
def bodyEnd (received : Bytes) : Option Nat :=
  (find crlfcrlf (cstr received)).bind fun i =>
    (httpParseKeyValueInt (received.take i) (ascii "Content-Length:")).map fun contentLength =>
      i + 4 + toSize contentLength

-- Later bytes do not change where the headers and the body end.
theorem find_headers_append {received : Bytes} {i : Nat} (h : find crlfcrlf (cstr received) = some i)
    (more : Bytes) : find crlfcrlf (cstr (received ++ more)) = some i := by
  by_cases hzero : (0 : UInt8) ∈ received
  · rw [cstr_append_of_mem _ _ hzero, h]
  · rw [cstr_append _ _ hzero]
    rw [cstr_of_notMem _ hzero] at h
    exact find_append h _

theorem take_headers_append {received : Bytes} {i : Nat} (h : find crlfcrlf (cstr received) = some i)
    (more : Bytes) : (received ++ more).take i = received.take i := by
  have hbound := find_bound h
  have hlen := (cstr_isPrefix received).length_le
  exact List.take_append_of_le_length (by omega)

theorem bodyEnd_append {received : Bytes} {n : Nat} (h : bodyEnd received = some n) (more : Bytes) :
    bodyEnd (received ++ more) = some n := by
  unfold bodyEnd at *
  cases hfind : find crlfcrlf (cstr received) with
  | none => simp [hfind] at h
  | some i =>
      have hbound := find_bound hfind
      have hlen := (cstr_isPrefix received).length_le
      rw [find_headers_append hfind more]
      rw [hfind] at h
      simpa only [Option.bind_some, List.take_append_of_le_length (show i ≤ received.length by omega)]
        using h

theorem bodyEnd_of_accepted {received : Bytes} {i contentLength : Nat}
    (hfind : find crlfcrlf (cstr received) = some i)
    (haccept : acceptedLength (received.take i) = some contentLength) :
    bodyEnd received = some (i + 4 + contentLength) := by
  unfold acceptedLength at haccept
  unfold bodyEnd
  cases hscan : scanStatusLine (received.take i) with
  | none => simp [hscan] at haccept
  | some status =>
      simp only [hscan] at haccept
      split at haccept
      · rw [Option.map_eq_some_iff] at haccept
        obtain ⟨value, hparse, rfl⟩ := haccept
        simp [hfind, hparse]
      · cases haccept

section Reads

variable {α : Type} {request : ValidRequest α}

-- The packet does not fit behind what the response buffer holds.
def Overflows (received fragment : Bytes) (s : Client α) : Prop :=
  s.responseBuffer.length <
    (if received = [] then 0 else s.context.responseBufferCount) + fragment.length

-- What is left to announce: the content of the buffer in streaming mode, and
-- everything otherwise.
def Unannounced (mode : HttpResponseMode) (bodyBytes : Nat) (content : Bytes) (s : Client α) : Prop :=
  match mode with
  | .streamBody => announced s.events + content.length = bodyBytes
  | .waitForCompleteBody => announced s.events = 0 ∧ content.length = bodyBytes

-- Between two reads nothing is left in streaming mode, and something is
-- missing otherwise.
def Waiting (mode : HttpResponseMode) (contentLength bodyBytes : Nat) (content : Bytes) : Prop :=
  match mode with
  | .streamBody => content = []
  | .waitForCompleteBody => bodyBytes < contentLength

inductive Receiving (mode : HttpResponseMode) (index : Nat) (received : Bytes) (s : Client α) : Prop
  | headers (hs : AwaitingHeaders received (s.atIndex index)) (first : index = 0 ↔ received = [])
      (quiet : announced s.events = 0)
  | body (i contentLength : Nat) (content : Bytes) (later : index ≠ 0) (nonempty : received ≠ [])
      (found : find crlfcrlf (cstr received) = some i)
      (ended : bodyEnd received = some (i + 4 + contentLength)) (bound : i + 4 ≤ received.length)
      (hs : InBody contentLength (received.length - (i + 4)) content s)
      (left : Unannounced mode (received.length - (i + 4)) content s)
      (waiting : Waiting mode contentLength (received.length - (i + 4)) content)

-- The headers are accepted, and this many body bytes have been announced.
structure Delivered (contentLength bodyBytes : Nat) (s : Client α) : Prop where
  accepted : s.context.isProcessingHeaders = false
  length : s.context.contentLength = contentLength
  announced : announced s.events = bodyBytes

theorem delivered_of_called {contentLength m n bodyBytes : Nat} {buffer : Bytes} {s t : Client α}
    (hs : Delivered contentLength m s) (ht : Called (.body buffer n) s t) (hn : m + n = bodyBytes) :
    Delivered contentLength bodyBytes t := by
  refine ⟨by rw [ht.context, hs.accepted], by rw [ht.context, hs.length], ?_⟩
  rw [ht.events, announced, hs.announced, hn]

-- A callback that has delivered something has delivered all that was received.
theorem httpsProcessBody_delivers {contentLength bodyBytes : Nat} {content : Bytes} {s : Client α}
    (hs : InBody contentLength bodyBytes content s)
    (hleft : Unannounced request.responseMode bodyBytes content s) :
    wp (httpsProcessBody request) (fun continueReading t =>
        (continueReading = true → ∃ content, InBody contentLength bodyBytes content t ∧
          Unannounced request.responseMode bodyBytes content t ∧
          Waiting request.responseMode contentLength bodyBytes content) ∧
        (continueReading = false → Delivered contentLength bodyBytes t))
      (fun _ t => Delivered contentLength bodyBytes t) s := by
  have hbefore : Delivered contentLength (announced s.events) s := ⟨hs.accepted, hs.length, rfl⟩
  cases hmode : request.responseMode with
  | waitForCompleteBody =>
      rw [wp_httpsProcessBody_wait hmode hs]
      rw [hmode] at hleft
      obtain ⟨hnone, hcount⟩ := hleft
      refine ⟨fun hmissing => ⟨fun _ => ⟨content, hs, ⟨hnone, hcount⟩, ?_⟩, fun h => by cases h⟩,
        fun hcomplete => ?_⟩
      · unfold Waiting
        omega
      · have hdone : ∀ t, Called (.body s.responseBuffer content.length) s t →
            Delivered contentLength bodyBytes t := fun t ht => delivered_of_called hbefore ht (by omega)
        exact wp_mono (invokeBodyCallback_called request content.length s)
          (fun _ t ht => ⟨fun h => (by cases h), fun _ => hdone t ht⟩) (fun _ t ht => hdone t ht)
  | streamBody =>
      rw [wp_httpsProcessBody_stream hmode hs]
      rw [hmode] at hleft
      have hleft : announced s.events + content.length = bodyBytes := hleft
      refine ⟨fun hnil => ⟨fun _ => ⟨content, hs, hleft, hnil⟩, fun h => by cases h⟩, fun _ => ?_⟩
      have hdone : ∀ t, Called (.body s.responseBuffer content.length) s t →
          Delivered contentLength bodyBytes t := fun t ht => delivered_of_called hbefore ht hleft
      refine wp_mono (invokeBodyCallback_called request content.length s) ?_ (fun _ t ht => hdone t ht)
      intro cr t ht
      have ht' := hdone t ht
      refine ⟨fun _ => ⟨fun h => (by cases h), fun _ => ht'⟩, fun _ => ⟨fun _ => ?_, fun _ => ?_⟩⟩
      · have hlast : ∀ u, Called (.body t.responseBuffer 0) t u → Delivered contentLength bodyBytes u :=
          fun u hu => delivered_of_called ht' hu (Nat.add_zero _)
        exact wp_mono (invokeBodyCallback_called request 0 t)
          (fun _ u hu => ⟨fun h => (by cases h), fun _ => hlast u hu⟩) (fun _ u hu => hlast u hu)
      · refine ⟨fun _ => ⟨[], (hs.congr ht.context ht.buffer).clear, ?_, rfl⟩, fun h => by cases h⟩
        simpa only [Unannounced, List.length_nil, Nat.add_zero] using ht'.announced

-- The last read of a request, as far as the body is concerned.
inductive Ended (received fragment : Bytes) (s t : Client α) : Prop
  | dropped (overflow : Overflows received fragment s)
      (same : t.context.isProcessingHeaders = false →
        t.context = s.context ∧ announced t.events = announced s.events)
  | unaccepted (processing : t.context.isProcessingHeaders = true)
  | delivered (i contentLength : Nat) (fits : ¬Overflows received fragment s)
      (ended : bodyEnd (received ++ fragment) = some (i + 4 + contentLength))
      (bound : i + 4 ≤ (received ++ fragment).length)
      (hs : Delivered contentLength ((received ++ fragment).length - (i + 4)) t)

variable {received fragment buffer : Bytes} {index : Nat} {s : Client α}

theorem AwaitingHeaders.overflows_iff (hs : AwaitingHeaders received (s.atIndex index))
    (first : index = 0 ↔ received = []) (fragment : Bytes) :
    Overflows received fragment s ↔ s.responseBuffer.length < received.length + fragment.length := by
  unfold Overflows
  by_cases hnil : received = []
  · simp [hnil]
  · have hindex : index ≠ 0 := fun h => hnil (first.mp h)
    have hcount := hs.count
    simp only [Client.atIndex, hindex, ite_false] at hcount
    rw [if_neg hnil, hcount]

-- After the error callback the client reads no further.
theorem invokeErrorCallback_ends {P : Client α → Prop} {error : HttpErr} {info : Int} {t : Client α}
    (h : ∀ u, Called (.error error info) t u → Ended received fragment s u) :
    wp (invokeErrorCallback request error info)
      (fun _ u => (false = true → P u) ∧ (false = false → Ended received fragment s u))
      (fun _ u => Ended received fragment s u) t :=
  wp_mono (invokeErrorCallback_called request error info t)
    (fun _ u hu => ⟨fun h => (by cases h), fun _ => h u hu⟩) (fun _ u hu => h u hu)

-- The body callbacks of a read that the client keeps.
theorem httpsProcessBody_progress {i contentLength : Nat} {content : Bytes} {t : Client α}
    (hfragment : fragment ≠ []) (hfits : ¬Overflows received fragment s)
    (hfind : find crlfcrlf (cstr (received ++ fragment)) = some i)
    (hended : bodyEnd (received ++ fragment) = some (i + 4 + contentLength))
    (hbound : i + 4 ≤ (received ++ fragment).length)
    (ht : InBody contentLength ((received ++ fragment).length - (i + 4)) content t)
    (hleft : Unannounced request.responseMode ((received ++ fragment).length - (i + 4)) content t) :
    wp (httpsProcessBody request)
      (fun continueReading u =>
        (continueReading = true → ¬Overflows received fragment s ∧
          Receiving request.responseMode (index + 1) (received ++ fragment) u) ∧
        (continueReading = false → Ended received fragment s u))
      (fun _ u => Ended received fragment s u) t := by
  apply wp_mono (httpsProcessBody_delivers ht hleft)
  · intro continueReading u hpost
    obtain ⟨hcontinue, hdone⟩ := hpost
    refine ⟨fun h => ⟨hfits, ?_⟩, fun h => .delivered i contentLength hfits hended hbound (hdone h)⟩
    obtain ⟨content, hu, hleft, hwaiting⟩ := hcontinue h
    exact .body i contentLength content (Nat.succ_ne_zero _) (by simp [hfragment]) hfind hended
      hbound hu hleft hwaiting
  · intro _ u hu
    exact .delivered i contentLength hfits hended hbound hu

theorem httpsTlsCallback_progress (buffer : Bytes) (hfragment : fragment ≠ [])
    (h : Receiving request.responseMode index received s) :
    wp (httpsTlsCallback request index (store buffer 0 fragment) fragment.length)
      (fun continueReading t =>
        (continueReading = true → ¬Overflows received fragment s ∧
          Receiving request.responseMode (index + 1) (received ++ fragment) t) ∧
        (continueReading = false → Ended received fragment s t))
      (fun _ t => Ended received fragment s t) s := by
  have hlater : index + 1 = 0 ↔ received ++ fragment = [] := by simp [hfragment]
  cases h with
  | headers hs first quiet =>
      have hover := hs.overflows_iff first fragment
      apply wp_httpsTlsCallback_headers hs
      · intro hfull
        exact invokeErrorCallback_ends fun t ht => .unaccepted (by rw [ht.context, hs.processing])
      · intro hfits t ht hst
        refine ⟨fun _ => ⟨by rw [hover]; omega, ?_⟩, fun h => by cases h⟩
        exact .headers (ht.later _) hlater (by rw [hst.events, quiet])
      · intro _ i _ _ t _ hprocessing
        refine ⟨fun _ _ _ => ⟨fun h => (by cases h), fun _ => .unaccepted hprocessing⟩, fun error info _ _ => ?_⟩
        exact invokeErrorCallback_ends fun u hu => .unaccepted (by rw [hu.context, hprocessing])
      · intro _ _ _ _ _ _ _ t _ hprocessing
        exact .unaccepted hprocessing
      · intro hfits i contentLength content hfind hbound haccept _ hlen t ht hst _
        have hfits' : ¬Overflows received fragment s := by rw [hover]; omega
        have hended := bodyEnd_of_accepted hfind haccept
        have hleft : Unannounced request.responseMode ((received ++ fragment).length - (i + 4)) content t := by
          cases request.responseMode with
          | streamBody => rw [Unannounced, hst.events, quiet, Nat.zero_add, hlen]
          | waitForCompleteBody => exact ⟨by rw [hst.events, quiet], hlen⟩
        exact httpsProcessBody_progress hfragment hfits' hfind hended hbound ht hleft
  | body i contentLength content later nonempty found ended bound hs left waiting =>
      have hover : Overflows received fragment s ↔
          s.responseBuffer.length < content.length + fragment.length := by
        unfold Overflows
        rw [if_neg nonempty, hs.count]
      have hbytes : received.length - (i + 4) + fragment.length =
          (received ++ fragment).length - (i + 4) := by
        rw [List.length_append]
        omega
      have hfind := find_headers_append found fragment
      have hended := bodyEnd_append ended fragment
      have hbound : i + 4 ≤ (received ++ fragment).length := by
        rw [List.length_append]
        omega
      apply wp_httpsTlsCallback_body hs later
      · intro hfull
        refine invokeErrorCallback_ends fun t ht => .dropped (hover.mpr hfull) fun _ => ⟨ht.context, ?_⟩
        rw [ht.events, announced]
      · intro hfits t ht hst _
        rw [hbytes] at ht
        have hfits' : ¬Overflows received fragment s := by rw [hover]; omega
        have hleft : Unannounced request.responseMode ((received ++ fragment).length - (i + 4))
            (content ++ fragment) t := by
          cases hmode : request.responseMode with
          | streamBody =>
              rw [hmode, Unannounced] at left
              rw [Unannounced, hst.events, List.length_append]
              omega
          | waitForCompleteBody =>
              rw [hmode, Unannounced] at left
              refine ⟨by rw [hst.events, left.1], ?_⟩
              rw [List.length_append, left.2, hbytes]
        exact httpsProcessBody_progress hfragment hfits' hfind hended hbound ht hleft

end Reads

section Bound

variable {α : Type} {request : ValidRequest α} {received fragment : Bytes} {index : Nat}
  {s t : Client α}

-- Unless it is dropped, the read ends no later than the body.
def EndsInBody (received fragment : Bytes) (s : Client α) : Prop :=
  Overflows received fragment s ∨
    ∀ n, bodyEnd (received ++ fragment) = some n → (received ++ fragment).length ≤ n

def Within (s : Client α) : Prop :=
  s.context.isProcessingHeaders = false → announced s.events ≤ s.context.contentLength

def Exceeds (s : Client α) : Prop :=
  s.context.isProcessingHeaders = false → s.context.contentLength < announced s.events

theorem Receiving.within {mode : HttpResponseMode} (h : Receiving mode index received s)
    (hinside : ∀ n, bodyEnd received = some n → received.length ≤ n) : Within s := by
  intro _
  cases h with
  | headers _ _ quiet => rw [quiet]; exact Nat.zero_le _
  | body i contentLength content _ _ _ ended _ hs left _ =>
      have hlen := hinside _ ended
      rw [hs.length]
      cases mode with
      | streamBody =>
          rw [Unannounced] at left
          omega
      | waitForCompleteBody => rw [left.1]; exact Nat.zero_le _

theorem Ended.within (h : Ended received fragment s t) (hs : Within s)
    (hread : EndsInBody received fragment s) : Within t := by
  intro haccepted
  cases h with
  | dropped _ same =>
      obtain ⟨hcontext, hannounced⟩ := same haccepted
      rw [hcontext, hannounced]
      exact hs (by rw [← hcontext, haccepted])
  | unaccepted processing => rw [processing] at haccepted; cases haccepted
  | delivered i contentLength fits ended _ hs =>
      have hlen := hread.resolve_left fits _ ended
      rw [hs.length, hs.announced]
      omega

theorem Ended.exceeds (h : Ended received fragment s t) (hread : ¬EndsInBody received fragment s) :
    Exceeds t := by
  intro haccepted
  unfold EndsInBody at hread
  push Not at hread
  obtain ⟨hfits, n, hend, hlen⟩ := hread
  cases h with
  | dropped overflow => exact absurd overflow hfits
  | unaccepted processing => rw [processing] at haccepted; cases haccepted
  | delivered i contentLength _ ended _ hs =>
      rw [ended, Option.some.injEq] at hend
      rw [hs.length, hs.announced]
      omega

-- More has been announced than the server has promised.
def Beyond (index : Nat) (s : Client α) : Prop :=
  index ≠ 0 ∧ ∃ contentLength bodyBytes content, InBody contentLength bodyBytes content s ∧
    contentLength < announced s.events

theorem Receiving.beyond {mode : HttpResponseMode} (h : Receiving mode index received s) {n : Nat}
    (hend : bodyEnd received = some n) (hlen : n < received.length) : Beyond index s := by
  cases h with
  | headers hs =>
      rw [bodyEnd, hs.pending] at hend
      cases hend
  | body i contentLength content later _ _ ended _ hs left waiting =>
      rw [ended, Option.some.injEq] at hend
      refine ⟨later, contentLength, _, content, hs, ?_⟩
      cases mode with
      | streamBody =>
          rw [Waiting] at waiting
          rw [Unannounced, waiting, List.length_nil] at left
          omega
      | waitForCompleteBody =>
          rw [Waiting] at waiting
          omega

-- The accepted headers stay as they are, and announcements are not taken back.
structure Grown (contentLength least : Nat) (s : Client α) : Prop where
  accepted : s.context.isProcessingHeaders = false
  length : s.context.contentLength = contentLength
  announced : least ≤ announced s.events

theorem Called.grown {event : HttpEvent} {contentLength least : Nat} (h : Called event s t)
    (hs : Grown contentLength least s) : Grown contentLength least t := by
  refine ⟨by rw [h.context, hs.accepted], by rw [h.context, hs.length], ?_⟩
  have hleast := hs.announced
  rw [h.events]
  cases event <;> simp only [announced] <;> omega

theorem httpsProcessBody_grows {contentLength bodyBytes least : Nat} {content : Bytes}
    (hs : InBody contentLength bodyBytes content s) (hleast : least ≤ announced s.events) :
    wp (httpsProcessBody request) (fun continueReading t => Grown contentLength least t ∧
        (continueReading = true → ∃ content, InBody contentLength bodyBytes content t))
      (fun _ t => Grown contentLength least t) s := by
  have hgrown : Grown contentLength least s := ⟨hs.accepted, hs.length, hleast⟩
  cases hmode : request.responseMode with
  | waitForCompleteBody =>
      rw [wp_httpsProcessBody_wait hmode hs]
      refine ⟨fun _ => ⟨hgrown, fun _ => ⟨content, hs⟩⟩, fun _ => ?_⟩
      exact wp_mono (invokeBodyCallback_called request content.length s)
        (fun _ t ht => ⟨ht.grown hgrown, fun h => by cases h⟩) (fun _ t ht => ht.grown hgrown)
  | streamBody =>
      rw [wp_httpsProcessBody_stream hmode hs]
      refine ⟨fun _ => ⟨hgrown, fun _ => ⟨content, hs⟩⟩, fun _ => ?_⟩
      refine wp_mono (invokeBodyCallback_called request content.length s) ?_
        (fun _ t ht => ht.grown hgrown)
      intro cr t ht
      have ht' := ht.grown hgrown
      refine ⟨fun _ => ⟨ht', fun h => by cases h⟩, fun _ => ⟨fun _ => ?_, fun _ => ?_⟩⟩
      · exact wp_mono (invokeBodyCallback_called request 0 t)
          (fun _ u hu => ⟨hu.grown ht', fun h => by cases h⟩) (fun _ u hu => hu.grown ht')
      · exact ⟨⟨ht'.accepted, ht'.length, ht'.announced⟩,
          fun _ => ⟨[], (hs.congr ht.context ht.buffer).clear⟩⟩

theorem Grown.exceeds {contentLength least : Nat} (h : Grown contentLength least s)
    (hlt : contentLength < least) : Exceeds s := by
  intro _
  have := h.announced
  rw [h.length]
  omega

theorem Beyond.exceeds (h : Beyond index s) : Exceeds s := by
  obtain ⟨-, contentLength, bodyBytes, content, hs, hlt⟩ := h
  intro _
  rw [hs.length]
  exact hlt

theorem httpsTlsCallback_beyond (buffer : Bytes) (fragment : Fragment) (h : Beyond index s) :
    StepsTo (httpsTlsCallback request) (fun index _ _ => Beyond index) (fun _ => Exceeds)
      (fun _ _ => Exceeds) index received buffer fragment s := by
  obtain ⟨hindex, contentLength, bodyBytes, content, hs, hlt⟩ := h
  have hgrown : Grown contentLength (announced s.events) s := ⟨hs.accepted, hs.length, Nat.le_refl _⟩
  refine wp_httpsTlsCallback_body hs hindex (fun _ => ?_) (fun _ t ht hst _ => ?_)
  · exact wp_mono (invokeErrorCallback_called request _ _ s)
      (fun _ t ht => ⟨fun h => (by cases h), fun _ => (ht.grown hgrown).exceeds hlt⟩)
      (fun _ t ht => (ht.grown hgrown).exceeds hlt)
  · refine wp_mono (httpsProcessBody_grows ht (by rw [hst.events])) ?_ (fun _ u hu => hu.exceeds hlt)
    intro continueReading u hpost
    obtain ⟨hu, hcontinue⟩ := hpost
    refine ⟨fun h => ⟨Nat.succ_ne_zero _, ?_⟩, fun _ => hu.exceeds hlt⟩
    obtain ⟨content, hbody⟩ := hcontinue h
    exact ⟨contentLength, _, content, hbody, hlt.trans_le hu.announced⟩

theorem receiving_start (mode : HttpResponseMode) {s : Client α} (hs : s.events = []) :
    Receiving mode 0 [] s := by
  exact .headers (awaiting_start s) (by simp) (by rw [hs]; rfl)

theorem fragment_ne_nil (fragment : Fragment) : fragment.val ≠ [] :=
  List.ne_nil_of_length_pos fragment.property.1

theorem within_of_along {reads : List ReadResult} {stale : Bytes} {s : Conn (Client α)}
    (hs : s.client.events = [])
    (hreads : AlongReads (httpsTlsCallback request) EndsInBody reads 0 [] stale s.client) :
    wp (wifiTlsReadLoop (httpsTlsCallback request) reads 0 stale) (fun _ t => Within t.client)
      (fun _ t => Within t.client) s := by
  refine wp_mono (wp_wifiTlsReadLoop_along (P := EndsInBody)
    (I := fun index received _ s => Receiving request.responseMode index received s ∧
      ∀ n, bodyEnd received = some n → received.length ≤ n)
    (Q := fun _ => Within) (E := fun _ _ => Within) ?_ ?_ ?_ reads
    ⟨receiving_start request.responseMode hs, fun n _ => Nat.zero_le n⟩ hreads)
    (fun _ _ h => h.elim fun _ h => h.1) (fun _ _ h => h.elim fun _ h => h.1)
  · rintro index received buffer fragment s ⟨hreceiving, hinside⟩ hread
    have hs := hreceiving.within hinside
    refine wp_mono (httpsTlsCallback_progress buffer (fragment_ne_nil fragment) hreceiving) ?_
      (fun _ t ht => ht.within hs hread)
    intro continueReading t hpost
    obtain ⟨hcontinue, hdone⟩ := hpost
    refine ⟨fun h => ?_, fun h => (hdone h).within hs hread⟩
    obtain ⟨hfits, ht⟩ := hcontinue h
    exact ⟨ht, hread.resolve_left hfits⟩
  · intro index received buffer s hbetween
    obtain ⟨hreceiving, hinside⟩ := hbetween
    exact hreceiving.within hinside
  · intro index received buffer s hbetween
    obtain ⟨hreceiving, hinside⟩ := hbetween
    exact hreceiving.within hinside

theorem exceeds_of_not_along {reads : List ReadResult} {stale : Bytes} {s : Conn (Client α)}
    (hs : s.client.events = [])
    (hreads : ¬AlongReads (httpsTlsCallback request) EndsInBody reads 0 [] stale s.client) :
    wp (wifiTlsReadLoop (httpsTlsCallback request) reads 0 stale) (fun _ t => Exceeds t.client)
      (fun _ t => Exceeds t.client) s := by
  refine wp_weaken (wp_wifiTlsReadLoop_not_along (P := EndsInBody)
    (I := fun index received _ => Receiving request.responseMode index received)
    (J := fun index _ _ => Beyond index) (Q := fun _ => Exceeds) (E := fun _ _ => Exceeds)
    ?_ ?_ ?_ ?_ ?_ reads (receiving_start request.responseMode hs) hreads) fun _ h => h.elim fun _ h => h
  · intro index received buffer fragment s hreceiving _
    exact wp_mono (httpsTlsCallback_progress buffer (fragment_ne_nil fragment) hreceiving)
      (fun _ t ht => ⟨fun h => (ht.1 h).2, fun _ => trivial⟩) (fun _ _ _ => trivial)
  · intro index received buffer fragment s hreceiving hread
    refine wp_mono (httpsTlsCallback_progress buffer (fragment_ne_nil fragment) hreceiving) ?_
      (fun _ t ht => ht.exceeds hread)
    intro continueReading t hpost
    obtain ⟨hcontinue, hdone⟩ := hpost
    refine ⟨fun h => ?_, fun h => (hdone h).exceeds hread⟩
    obtain ⟨hfits, ht⟩ := hcontinue h
    have hlong : ∃ n, bodyEnd (received ++ fragment.val) = some n ∧ n < (received ++ fragment.val).length := by
      by_contra hnone
      push Not at hnone
      exact hread (.inr fun n hn => hnone n hn)
    obtain ⟨n, hend, hlen⟩ := hlong
    exact ht.beyond hend hlen
  · intro index received buffer fragment s hbeyond
    exact httpsTlsCallback_beyond buffer fragment hbeyond
  · intro index received buffer s hbeyond
    exact hbeyond.exceeds
  · intro index received buffer s hbeyond
    exact hbeyond.exceeds

-- A response whose headers were accepted: what is announced stays within the
-- content length exactly if no read that is processed goes on behind the body.
theorem announced_le_iff (request : ValidRequest α) (reads : List ReadResult) (stale : Bytes)
    (s t : Conn (Client α)) (hs : s.client.events = [])
    (ht : final (wifiTlsReadLoop (httpsTlsCallback request) reads 0 stale) s = t)
    (haccepted : t.client.context.isProcessingHeaders = false) :
    announced t.client.events ≤ t.client.context.contentLength ↔
      AlongReads (httpsTlsCallback request) EndsInBody reads 0 [] stale s.client := by
  subst ht
  constructor
  · intro hle
    by_contra hreads
    have hexceeds := final_of_wp (P := fun t : Conn (Client α) => Exceeds t.client)
      (exceeds_of_not_along hs hreads)
    have := hexceeds haccepted
    omega
  · intro hreads
    have hwithin := final_of_wp (P := fun t : Conn (Client α) => Within t.client)
      (within_of_along hs hreads)
    exact hwithin haccepted

end Bound

-- A request with a small buffer for an application that takes everything.
def exampleRequest (responseMode : HttpResponseMode) : ValidRequest Unit where
  host := ascii "www.classycode.io"
  path := ascii "/esp32/ota.txt"
  responseBuffer := List.replicate 64 0
  errorCallback := fun _ _ => pure ()
  responseMode
  bodyCallback := fun _ _ => pure .continueReceiving

def exampleClient : Conn (Client Unit) where
  tls := Tls.create
  client := ⟨⟨0, 0, 0, false⟩, List.replicate 64 0, [], ()⟩

-- Content-Length is 1, with one body byte and with two.
def oneByteResponse : Fragment :=
  ⟨ascii "HTTP/1.1 200 OK\r\nContent-Length: 1\r\n\r\na", by decide⟩

def longResponse : Fragment :=
  ⟨ascii "HTTP/1.1 200 OK\r\nContent-Length: 1\r\n\r\nab", by decide⟩

def staleBuffer : Bytes := staleBlock (fun _ => 0) tlsResponseBufferSize

theorem oneByteResponse_along : AlongReads (httpsTlsCallback (exampleRequest .streamBody)) EndsInBody
    [.data oneByteResponse] 0 [] staleBuffer exampleClient.client :=
  (announced_le_iff (exampleRequest .streamBody) [.data oneByteResponse] staleBuffer exampleClient _ rfl
    rfl (by decide +kernel)).mp (by decide +kernel)

theorem announced_not_bounded :
    ¬∀ (α : Type) (request : ValidRequest α) (reads : List ReadResult) (stale : Bytes)
      (s t : Conn (Client α)), s.client.events = [] →
      final (wifiTlsReadLoop (httpsTlsCallback request) reads 0 stale) s = t →
      t.client.context.isProcessingHeaders = false →
      announced t.client.events ≤ t.client.context.contentLength := by
  intro h
  have hlong := h Unit (exampleRequest .streamBody) [.data longResponse] staleBuffer exampleClient _
    rfl rfl (by decide +kernel)
  exact absurd hlong (by decide +kernel)

end Esp32Ota

import Esp32Ota.HttpsClient.Recorded
import Esp32Ota.HttpsClient.Wire
import Esp32Ota.WifiTls.Reads

-- The calls that one request makes, and in which order.
namespace Esp32Ota

open CLib Halting

-- Fragments of the body, each answered with the wish for more.
def AllContinued (calls : List HttpCall) : Prop :=
  ∀ call ∈ calls, ∃ n, 0 < n ∧ call = .body n (some .continueReceiving)

-- The calls that may be followed by others.
def Continued (mode : HttpResponseMode) (calls : List HttpCall) : Prop :=
  match mode with
  | .waitForCompleteBody => calls = []
  | .streamBody => AllContinued calls

-- The body counts as complete after this many bytes.
def BodyDone (mode : HttpResponseMode) (contentLength bodyBytes : Nat) : Prop :=
  match mode with
  | .waitForCompleteBody => contentLength ≤ bodyBytes
  | .streamBody => 0 < bodyBytes ∧ contentLength ≤ sizeT bodyBytes

instance (mode : HttpResponseMode) (contentLength bodyBytes : Nat) :
    Decidable (BodyDone mode contentLength bodyBytes) :=
  match mode with
  | .waitForCompleteBody => inferInstanceAs (Decidable (contentLength ≤ bodyBytes))
  | .streamBody => inferInstanceAs (Decidable (0 < bodyBytes ∧ contentLength ≤ sizeT bodyBytes))

-- The calls up to one after which nothing is called.
def Concluded (mode : HttpResponseMode) (contentLength bodyBytes : Nat) (calls : List HttpCall) : Prop :=
  match mode with
  | .waitForCompleteBody => contentLength ≤ bodyBytes ∧ ∃ answer, calls = [.body bodyBytes answer]
  | .streamBody => ∃ n earlier, 0 < n ∧ AllContinued earlier ∧
      ((∃ answer, answer ≠ some .continueReceiving ∧ calls = .body n answer :: earlier) ∨
        (0 < bodyBytes ∧ contentLength ≤ sizeT bodyBytes) ∧
          ∃ answer, calls = .body 0 answer :: .body n (some .continueReceiving) :: earlier)

-- Every callback for the body has returned.
def Answered (calls : List HttpCall) : Prop := ∀ n, .body n none ∉ calls

-- The last callback has not returned, or it was for an error.
def Unanswered (calls : List HttpCall) : Prop :=
  (∃ n, .body n none ∈ calls) ∨ ∃ error info, .error error info ∈ calls

-- Headers that the client accepts, and headers that it gives up without a word.
def AcceptedHeaders (received : Bytes) : Prop :=
  ∃ i contentLength, find crlfcrlf (cstr received) = some i ∧
    acceptedLength (received.take i) = some contentLength

def LacksLength (received : Bytes) : Prop :=
  ∃ i minor, find crlfcrlf (cstr received) = some i ∧
    scanStatusLine (received.take i) = some (1, minor, 200) ∧
    httpParseKeyValueInt (received.take i) (ascii "Content-Length:") = none

section Headers

variable {received : Bytes} {i contentLength : Nat}

theorem parsed_of_accepted {headers : Bytes} (h : acceptedLength headers = some contentLength) :
    (∃ minor, scanStatusLine headers = some (1, minor, 200)) ∧
      ∃ value, httpParseKeyValueInt headers (ascii "Content-Length:") = some value ∧
        toSize value = contentLength := by
  unfold acceptedLength at h
  cases hscan : scanStatusLine headers with
  | none => simp [hscan] at h
  | some status =>
      obtain ⟨httpVersionMajor, httpVersionMinor, httpStatusCode⟩ := status
      simp only [hscan] at h
      split at h
      · rename_i hstatus
        obtain ⟨rfl, rfl⟩ := hstatus
        exact ⟨⟨httpVersionMinor, rfl⟩, Option.map_eq_some_iff.mp h⟩
      · cases h

theorem not_lacksLength_of_accepted (hfind : find crlfcrlf (cstr received) = some i)
    (haccept : acceptedLength (received.take i) = some contentLength) : ¬LacksLength received := by
  intro hlacks
  obtain ⟨j, minor, hfound, -, hnone⟩ := hlacks
  obtain ⟨-, value, hvalue, -⟩ := parsed_of_accepted haccept
  rw [hfind, Option.some.injEq] at hfound
  subst hfound
  rw [hvalue] at hnone
  cases hnone

-- The headers are complete, and no more bytes change that they have a length, or
-- another status.
theorem not_lacksLength_append (hfind : find crlfcrlf (cstr received) = some i)
    (haccept : acceptedLength (received.take i) = some contentLength) (more : Bytes) :
    ¬LacksLength (received ++ more) :=
  not_lacksLength_of_accepted (find_headers_append hfind more)
    (by rw [take_headers_append hfind, haccept])

theorem not_lacksLength_of_status (hfind : find crlfcrlf (cstr received) = some i)
    (hstatus : ∀ minor, scanStatusLine (received.take i) ≠ some (1, minor, 200)) (more : Bytes) :
    ¬LacksLength (received ++ more) := by
  intro hlacks
  obtain ⟨j, minor, hfound, hscan, -⟩ := hlacks
  rw [find_headers_append hfind, Option.some.injEq] at hfound
  subst hfound
  rw [take_headers_append hfind] at hscan
  exact hstatus minor hscan

end Headers

section Reads

variable {α : Type} {mode : HttpResponseMode} {received : Bytes}

-- What the response buffer keeps between two reads.
def Kept (mode : HttpResponseMode) (bodyBytes : Nat) (content : Bytes) : Prop :=
  match mode with
  | .waitForCompleteBody => content.length = bodyBytes
  | .streamBody => content = []

-- What it holds when the body is processed.
def Unread (mode : HttpResponseMode) (bodyBytes : Nat) (content : Bytes) : Prop :=
  match mode with
  | .waitForCompleteBody => content.length = bodyBytes
  | .streamBody => content = [] ↔ bodyBytes = 0

inductive Pause (mode : HttpResponseMode) (index : Nat) (received : Bytes) (s : Client (Recorded α)) : Prop
  | headers (hs : AwaitingHeaders received (s.atIndex index)) (first : index = 0 ↔ received = [])
      (quiet : s.app.calls = [])
  | body (i contentLength : Nat) (content : Bytes) (later : index ≠ 0)
      (found : find crlfcrlf (cstr received) = some i)
      (accepted : acceptedLength (received.take i) = some contentLength) (bound : i + 4 ≤ received.length)
      (hs : InBody contentLength (received.length - (i + 4)) content s)
      (kept : Kept mode (received.length - (i + 4)) content)
      (missing : ¬BodyDone mode contentLength (received.length - (i + 4)))
      (continued : Continued mode s.app.calls)

-- How a request ends in one of its callbacks: with an error callback, silently
-- at headers without a content length, or with a call for the body.
inductive Outcome (mode : HttpResponseMode) (size : Nat) (received : Bytes) (s : Client (Recorded α)) : Prop
  | reported (error : HttpErr) (info : Int) (earlier : List HttpCall)
      (hcalls : s.app.calls = .error error info :: earlier) (continued : Continued mode earlier)
      (headers : earlier = [] ∨ AcceptedHeaders received)
      (cause : size < received.length ∨ ∀ more, ¬LacksLength (received ++ more))
  | unannounced (lacks : LacksLength received) (fits : received.length ≤ size) (quiet : s.app.calls = [])
  | concluded (i contentLength : Nat) (found : find crlfcrlf (cstr received) = some i)
      (accepted : acceptedLength (received.take i) = some contentLength) (bound : i + 4 ≤ received.length)
      (length : s.context.contentLength = contentLength)
      (conclusion : Concluded mode contentLength (received.length - (i + 4)) s.app.calls)

theorem AllContinued.answered {calls : List HttpCall} (h : AllContinued calls) : Answered calls := by
  intro n hn
  obtain ⟨m, -, hcall⟩ := h _ hn
  cases hcall

theorem Continued.answered {calls : List HttpCall} (h : Continued mode calls) : Answered calls := by
  cases mode with
  | waitForCompleteBody =>
      have hnil : calls = [] := h
      simp [Answered, hnil]
  | streamBody => exact AllContinued.answered h

variable {request : ValidRequest α} {i contentLength index size : Nat} {content : Bytes}
  {s : Client (Recorded α)}

-- A conclusion of the calls is an outcome of the request.
theorem Concluded.outcome {t : Client (Recorded α)} (found : find crlfcrlf (cstr received) = some i)
    (accepted : acceptedLength (received.take i) = some contentLength) (bound : i + 4 ≤ received.length)
    (hs : InBody contentLength (received.length - (i + 4)) content s) (hcontext : t.context = s.context)
    (hcalls : Concluded mode contentLength (received.length - (i + 4)) t.app.calls) :
    Outcome mode size received t :=
  .concluded i contentLength found accepted bound (by rw [hcontext, hs.length]) hcalls

theorem httpsProcessBody_wait_outcome (hmode : request.responseMode = .waitForCompleteBody)
    (found : find crlfcrlf (cstr received) = some i)
    (accepted : acceptedLength (received.take i) = some contentLength) (bound : i + 4 ≤ received.length)
    (hs : InBody contentLength (received.length - (i + 4)) content s)
    (hunread : content.length = received.length - (i + 4)) (hquiet : s.app.calls = []) (hindex : index ≠ 0) :
    wp (httpsProcessBody request.recording)
      (fun continueReading t =>
        (continueReading = true → Pause .waitForCompleteBody index received t) ∧
        (continueReading = false → Outcome .waitForCompleteBody size received t ∧ Answered t.app.calls))
      (fun _ t => Outcome .waitForCompleteBody size received t ∧ Unanswered t.app.calls) s := by
  have hrecording : request.recording.responseMode = .waitForCompleteBody := hmode
  rw [wp_httpsProcessBody_wait hrecording hs]
  refine ⟨fun hmissing => ⟨fun _ => ?_, fun h => by cases h⟩, fun hdone => ?_⟩
  · refine .body i contentLength content hindex found accepted bound hs hunread ?_ hquiet
    unfold BodyDone
    omega
  · apply wp_mono (invokeBodyCallback_records content.length s)
    · intro cr t ht
      obtain ⟨hcalled, hcalls⟩ := ht
      rw [hquiet, hunread] at hcalls
      refine ⟨fun h => (by cases h), fun _ => ⟨?_, ?_⟩⟩
      · exact Concluded.outcome found accepted bound hs hcalled.context ⟨by omega, _, hcalls⟩
      · intro n hn
        simp [hcalls] at hn
    · intro _ t ht
      obtain ⟨hcalled, hcalls⟩ := ht
      rw [hquiet, hunread] at hcalls
      refine ⟨Concluded.outcome found accepted bound hs hcalled.context ⟨by omega, _, hcalls⟩,
        .inl ⟨received.length - (i + 4), ?_⟩⟩
      rw [hcalls]
      exact List.mem_singleton_self _

theorem httpsProcessBody_stream_outcome (hmode : request.responseMode = .streamBody)
    (found : find crlfcrlf (cstr received) = some i)
    (accepted : acceptedLength (received.take i) = some contentLength) (bound : i + 4 ≤ received.length)
    (hs : InBody contentLength (received.length - (i + 4)) content s)
    (hunread : content = [] ↔ received.length - (i + 4) = 0) (hcontinued : AllContinued s.app.calls)
    (hindex : index ≠ 0) :
    wp (httpsProcessBody request.recording)
      (fun continueReading t =>
        (continueReading = true → Pause .streamBody index received t) ∧
        (continueReading = false → Outcome .streamBody size received t ∧ Answered t.app.calls))
      (fun _ t => Outcome .streamBody size received t ∧ Unanswered t.app.calls) s := by
  have hrecording : request.recording.responseMode = .streamBody := hmode
  rw [wp_httpsProcessBody_stream hrecording hs]
  refine ⟨fun hnil => ⟨fun _ => ?_, fun h => by cases h⟩, fun hne => ?_⟩
  · refine .body i contentLength content hindex found accepted bound hs hnil ?_ hcontinued
    intro hdone
    have hnone := hunread.mp hnil
    exact absurd hdone.1 (by omega)
  have hpos : 0 < content.length := List.length_pos_of_ne_nil hne
  have hbytes : 0 < received.length - (i + 4) := Nat.pos_of_ne_zero fun h => hne (hunread.mpr h)
  have hanswered := hcontinued.answered
  have hdeclined : ∀ (answer : Option HttpContinueReceiving) (t : Client (Recorded α)),
      answer ≠ some .continueReceiving → t.context = s.context →
      t.app.calls = .body content.length answer :: s.app.calls →
      Outcome .streamBody size received t := fun answer t hanswer hcontext hcalls =>
    Concluded.outcome found accepted bound hs hcontext
      ⟨content.length, s.app.calls, hpos, hcontinued, .inl ⟨answer, hanswer, hcalls⟩⟩
  apply wp_mono (invokeBodyCallback_records content.length s)
  · intro cr t ht
    obtain ⟨hcalled, hcalls⟩ := ht
    refine ⟨fun hcr => ⟨fun h => (by cases h), fun _ => ⟨?_, ?_⟩⟩, fun hcr => ⟨fun hend => ?_, fun hmore => ?_⟩⟩
    · exact hdeclined _ t (by simpa using hcr) hcalled.context hcalls
    · intro n hn
      rw [hcalls] at hn
      simp only [List.mem_cons, HttpCall.body.injEq, reduceCtorEq, and_false, false_or] at hn
      exact hanswered n hn
    · have hlast : ∀ (answer : Option HttpContinueReceiving) (u : Client (Recorded α)),
          u.context = t.context → u.app.calls = .body 0 answer :: t.app.calls →
          Outcome .streamBody size received u := by
        intro answer u hcontext hlast
        refine Concluded.outcome found accepted bound hs (hcontext.trans hcalled.context)
          ⟨content.length, s.app.calls, hpos, hcontinued, .inr ⟨⟨hbytes, hend⟩, answer, ?_⟩⟩
        rw [hlast, hcalls, hcr]
      apply wp_mono (invokeBodyCallback_records 0 t)
      · intro answer u hu
        obtain ⟨hcalledLast, hcallsLast⟩ := hu
        refine ⟨fun h => (by cases h), fun _ => ⟨hlast _ u hcalledLast.context hcallsLast, ?_⟩⟩
        intro n hn
        rw [hcallsLast, hcalls] at hn
        simp only [List.mem_cons, HttpCall.body.injEq, reduceCtorEq, and_false, false_or] at hn
        exact hanswered n hn
      · intro _ u hu
        obtain ⟨hcalledLast, hcallsLast⟩ := hu
        refine ⟨hlast _ u hcalledLast.context hcallsLast, .inl ⟨0, ?_⟩⟩
        rw [hcallsLast]
        exact List.mem_cons_self
    · refine ⟨fun _ => ?_, fun h => by cases h⟩
      refine .body i contentLength [] hindex found accepted bound (hs.congr hcalled.context hcalled.buffer).clear
        rfl ?_ ?_
      · intro hdone
        exact absurd hdone.2 (by omega)
      · intro call hcall
        rw [hcalls, List.mem_cons, hcr] at hcall
        rcases hcall with rfl | hcall
        · exact ⟨content.length, hpos, rfl⟩
        · exact hcontinued call hcall
  · intro _ t ht
    obtain ⟨hcalled, hcalls⟩ := ht
    refine ⟨hdeclined none t (by simp) hcalled.context hcalls, .inl ⟨content.length, ?_⟩⟩
    rw [hcalls]
    exact List.mem_cons_self

theorem httpsProcessBody_outcome (found : find crlfcrlf (cstr received) = some i)
    (accepted : acceptedLength (received.take i) = some contentLength) (bound : i + 4 ≤ received.length)
    (hs : InBody contentLength (received.length - (i + 4)) content s)
    (hunread : Unread request.responseMode (received.length - (i + 4)) content)
    (hcontinued : Continued request.responseMode s.app.calls) (hindex : index ≠ 0) :
    wp (httpsProcessBody request.recording)
      (fun continueReading t =>
        (continueReading = true → Pause request.responseMode index received t) ∧
        (continueReading = false → Outcome request.responseMode size received t ∧ Answered t.app.calls))
      (fun _ t => Outcome request.responseMode size received t ∧ Unanswered t.app.calls) s := by
  cases hmode : request.responseMode with
  | waitForCompleteBody =>
      rw [hmode] at hunread hcontinued
      exact httpsProcessBody_wait_outcome hmode found accepted bound hs hunread hcontinued hindex
  | streamBody =>
      rw [hmode] at hunread hcontinued
      exact httpsProcessBody_stream_outcome hmode found accepted bound hs hunread hcontinued hindex

theorem httpsProcessBody_buffer (request : ValidRequest α) (s : Client α) :
    wp (httpsProcessBody request) (fun _ t => t.responseBuffer = s.responseBuffer)
      (fun _ t => t.responseBuffer = s.responseBuffer) s := by
  have hcall : ∀ n (t : Client α), t.responseBuffer = s.responseBuffer →
      wp (invokeBodyCallback request n) (fun _ u => u.responseBuffer = s.responseBuffer)
        (fun _ u => u.responseBuffer = s.responseBuffer) t := fun n t ht =>
    wp_weaken (invokeBodyCallback_called request n t) fun _ hu => hu.buffer.trans ht
  unfold httpsProcessBody
  rw [wp_bind, wp_get]
  cases request.responseMode with
  | waitForCompleteBody =>
      simp only [wp_ite, wp_pure, wp_bind]
      exact ⟨fun _ => trivial, fun _ => hcall _ s rfl⟩
  | streamBody =>
      simp only [wp_ite, wp_pure, wp_bind, wp_modify]
      refine ⟨fun _ => wp_mono (hcall _ s rfl) (fun cr t ht => ?_) (fun _ _ ht => ht), fun _ => trivial⟩
      exact ⟨fun _ => ht, fun _ => ⟨fun _ => hcall _ t ht, fun _ => ht⟩⟩

-- The state between two reads, and the states in which reading ends: in a copy
-- from behind the TLS buffer no call has been made yet.
def Reading (mode : HttpResponseMode) (size index : Nat) (received _buffer : Bytes)
    (s : Client (Recorded α)) : Prop :=
  Pause mode index received s ∧ s.responseBuffer.length = size

def Stopped (mode : HttpResponseMode) (size : Nat) (received : Bytes) (s : Client (Recorded α)) : Prop :=
  Outcome mode size received s ∧ Answered s.app.calls

def Broken (mode : HttpResponseMode) (size : Nat) (e : Halt) (received : Bytes)
    (s : Client (Recorded α)) : Prop :=
  (Outcome mode size received s ∧ Unanswered s.app.calls ∨ e = .undefined ∧ s.app.calls = []) ∧
    (size < received.length ∨ ∀ more, ¬LacksLength (received ++ more))

theorem invokeErrorCallback_outcome {error : HttpErr} {info : Int} {buffer : Bytes}
    (hcontinued : Continued mode s.app.calls) (hheaders : s.app.calls = [] ∨ AcceptedHeaders received)
    (hcause : size < received.length ∨ ∀ more, ¬LacksLength (received ++ more)) :
    wp (invokeErrorCallback request.recording error info)
      (fun _ t => (false = true → Reading mode size index received buffer t) ∧
        (false = false → Stopped mode size received t))
      (fun e t => Broken mode size e received t) s := by
  apply wp_mono (invokeErrorCallback_records error info s)
  · intro _ t ht
    refine ⟨fun h => (by cases h), fun _ => ⟨.reported error info _ ht.2 hcontinued hheaders hcause, ?_⟩⟩
    intro n hn
    rw [ht.2] at hn
    simp only [List.mem_cons, reduceCtorEq, false_or] at hn
    exact hcontinued.answered n hn
  · intro _ t ht
    refine ⟨.inl ⟨.reported error info _ ht.2 hcontinued hheaders hcause, .inr ⟨error, info, ?_⟩⟩, hcause⟩
    rw [ht.2]
    exact List.mem_cons_self

theorem httpsTlsCallback_outcome (buffer : Bytes) (fragment : Fragment)
    (h : Reading request.responseMode size index received buffer s) :
    StepsTo (httpsTlsCallback request.recording) (Reading request.responseMode size)
      (Stopped request.responseMode size) (Broken request.responseMode size)
      index received buffer fragment s := by
  obtain ⟨hpause, hsize⟩ := h
  have hfragment := fragment_ne_nil fragment
  have hprocess : ∀ i contentLength content (t : Client (Recorded α)),
      find crlfcrlf (cstr (received ++ fragment.val)) = some i →
      acceptedLength ((received ++ fragment.val).take i) = some contentLength →
      i + 4 ≤ (received ++ fragment.val).length →
      InBody contentLength ((received ++ fragment.val).length - (i + 4)) content t →
      Unread request.responseMode ((received ++ fragment.val).length - (i + 4)) content →
      Continued request.responseMode t.app.calls → t.responseBuffer.length = size →
      wp (httpsProcessBody request.recording)
        (fun continueReading u =>
          (continueReading = true → Reading request.responseMode size (index + 1) (received ++ fragment.val)
            (store buffer 0 fragment.val) u) ∧
          (continueReading = false → Stopped request.responseMode size (received ++ fragment.val) u))
        (fun e u => Broken request.responseMode size e (received ++ fragment.val) u) t := by
    intro i contentLength content t hfind haccept hbound ht hunread hcontinued htsize
    refine wp_mono (wp_and (httpsProcessBody_outcome hfind haccept hbound ht hunread hcontinued
      (Nat.succ_ne_zero index)) (httpsProcessBody_buffer request.recording t)) ?_
      (fun _ u hu => ⟨.inl hu.1, .inr (not_lacksLength_append hfind haccept)⟩)
    intro continueReading u hu
    obtain ⟨⟨hcontinue, hdone⟩, hbuffer⟩ := hu
    exact ⟨fun h => ⟨hcontinue h, by rw [hbuffer, htsize]⟩, hdone⟩
  cases hpause with
  | headers hs first quiet =>
      have hat := atIndex_same index s
      have hquiet : ∀ t : Client (Recorded α), SameClient s t → t.app.calls = [] := fun t ht => by
        rw [ht.app, quiet]
      have hcontinued : ∀ t : Client (Recorded α), SameClient s t →
          Continued request.responseMode t.app.calls := by
        intro t ht
        rw [hquiet t ht]
        cases request.responseMode with
        | waitForCompleteBody => exact rfl
        | streamBody => exact fun call hcall => by cases hcall
      apply wp_httpsTlsCallback_headers hs
      · intro hfull
        refine invokeErrorCallback_outcome (hcontinued _ hat) (.inl (hquiet _ hat)) (.inl ?_)
        rw [List.length_append]
        omega
      · intro hfits t ht hst
        refine ⟨fun _ => ⟨.headers (ht.later _) (by simp [hfragment]) (hquiet t hst), ?_⟩,
          fun h => by cases h⟩
        rw [hst.bufferLen, hsize]
      · intro hfits i hfind hreject t hst _
        refine ⟨fun minor hscan hparse => ⟨fun h => (by cases h), fun _ => ⟨?_, ?_⟩⟩, fun error info _ hstatus => ?_⟩
        · refine .unannounced ⟨i, minor, hfind, hscan, hparse⟩ ?_ (hquiet t hst)
          rw [List.length_append]
          omega
        · simp [Answered, hquiet t hst]
        · exact invokeErrorCallback_outcome (hcontinued t hst) (.inl (hquiet t hst))
            (.inr (not_lacksLength_of_status hfind hstatus))
      · intro _ i contentLength hfind _ _ haccept t hst _
        exact ⟨.inr ⟨rfl, hquiet t hst⟩, .inr (not_lacksLength_append hfind haccept)⟩
      · intro _ i contentLength content hfind hbound haccept _ hlen t ht hst _
        refine hprocess i contentLength content t hfind haccept hbound ht ?_ (hcontinued t hst) ?_
        · cases request.responseMode with
          | waitForCompleteBody => exact hlen
          | streamBody => exact by rw [Unread, ← hlen, List.length_eq_zero_iff]
        · rw [hst.bufferLen, hsize]
  | body i contentLength content later found accepted bound hs kept missing continued =>
      have hfind := find_headers_append found fragment.val
      have haccept : acceptedLength ((received ++ fragment.val).take i) = some contentLength := by
        rw [take_headers_append found, accepted]
      have hbytes : received.length - (i + 4) + fragment.val.length =
          (received ++ fragment.val).length - (i + 4) := by
        rw [List.length_append]
        omega
      apply wp_httpsTlsCallback_body hs later
      · intro hfull
        exact invokeErrorCallback_outcome continued (.inr ⟨i, contentLength, hfind, haccept⟩)
          (.inr (not_lacksLength_append hfind haccept))
      · intro _ t ht hst _
        rw [hbytes] at ht
        refine hprocess i contentLength _ t hfind haccept (by rw [List.length_append]; omega) ht ?_
          (by rwa [hst.app]) (by rw [hst.bufferLen, hsize])
        cases hresponse : request.responseMode with
        | waitForCompleteBody =>
            rw [hresponse, Kept] at kept
            rw [Unread, List.length_append, kept, hbytes]
        | streamBody =>
            rw [Unread, ← hbytes]
            simp [hfragment]

end Reads

section Request

variable {α : Type} {request : HttpRequest α} {replies : RequestReplies} {s : Conn (Client α)}

theorem error_of_recording (h : ∃ error, httpsValidateRequest request.recording = .error error) :
    ∃ error, httpsValidateRequest request = .error error := by
  obtain ⟨error, herror⟩ := h
  rw [httpsValidateRequest_recording] at herror
  cases hvalid : httpsValidateRequest request with
  | error e => exact ⟨e, rfl⟩
  | ok valid => simp [hvalid, Except.map] at herror

theorem returnsEarly_recording (h : ReturnsEarly request.recording replies) : ReturnsEarly request replies :=
  h.imp_left error_of_recording

theorem refused_of_recording (h : Refused request.recording replies) : Refused request replies :=
  h.imp_left error_of_recording

theorem refused_recording (h : Refused request replies) : Refused request.recording replies := by
  refine h.imp_left fun herror => ?_
  obtain ⟨error, herror⟩ := herror
  exact ⟨error, by rw [httpsValidateRequest_recording, herror]; rfl⟩

theorem reading_start (mode : HttpResponseMode) (buffer : Bytes) (s : Client α) :
    Reading mode s.responseBuffer.length 0 [] buffer s.recording := by
  exact ⟨.headers (awaiting_start s.recording) (by simp) rfl, rfl⟩

-- How the reads of a recorded request come out.
abbrev RequestReturns (valid : ValidRequest α) (replies : RequestReplies) (staleResponse : Nat → UInt8)
    (s : Client α) : Int → Bytes → Client (Recorded α) → Prop :=
  LoopReturns (httpsTlsCallback valid.recording) (Reading valid.responseMode valid.responseBuffer.length)
    (Stopped valid.responseMode valid.responseBuffer.length) (fragments replies.reads) (readEnd replies.reads)
    0 [] (staleBlock staleResponse tlsResponseBufferSize) (s.start valid).recording

abbrev RequestHalts (valid : ValidRequest α) (replies : RequestReplies) (staleResponse : Nat → UInt8)
    (s : Client α) : Halt → Bytes → Client (Recorded α) → Prop :=
  LoopHalts (httpsTlsCallback valid.recording) (Reading valid.responseMode valid.responseBuffer.length)
    (Broken valid.responseMode valid.responseBuffer.length) (fragments replies.reads) (readEnd replies.reads)
    0 [] (staleBlock staleResponse tlsResponseBufferSize) (s.start valid).recording

-- The request ends before the first read, or with the reads.
theorem wp_httpsSendRequest_recording {Q : HttpErr → Conn (Client (Recorded α)) → Prop}
    {E : Halt → Conn (Client (Recorded α)) → Prop}
    (hearly : ReturnsEarly request replies → ∀ result, result ≠ .success → Q result s.recording)
    (hnull : Refused request replies → E .undefined s.recording)
    (hunwritten : ∀ valid, httpsValidateRequest request = .ok valid →
      writesAll replies.writes valid.sentLength = false →
      (∀ tls, Closed s.tls tls [] → Q .sendFailed ⟨tls, (s.client.start valid).recording⟩) ∧
      ∀ e tls, Exchanged s.tls tls [] → E e ⟨tls, (s.client.start valid).recording⟩)
    (hwritten : ∀ valid staleResponse, httpsValidateRequest request = .ok valid → ¬Refused request replies →
      writesAll replies.writes valid.sentLength = true →
      replies.mallocResponseBuffer = some staleResponse →
      (∀ result tls bytes client, Closed s.tls tls bytes →
        RequestReturns valid replies staleResponse s.client result bytes client →
        Q (if result = 0 then .success else .sendFailed) ⟨tls, client⟩) ∧
      ∀ e tls bytes client, Exchanged s.tls tls bytes →
        RequestHalts valid replies staleResponse s.client e bytes client → E e ⟨tls, client⟩) :
    wp (httpsSendRequest request.recording replies) Q E s.recording := by
  have hrecorded : ∀ {recorded}, httpsValidateRequest request.recording = .ok recorded →
      ∃ valid, httpsValidateRequest request = .ok valid ∧ recorded = valid.recording := by
    intro recorded h
    rw [httpsValidateRequest_recording] at h
    cases hvalid : httpsValidateRequest request with
    | error e => simp [hvalid, Except.map] at h
    | ok valid =>
        rw [hvalid, Except.map, Except.ok.injEq] at h
        exact ⟨valid, rfl, h.symm⟩
  apply wp_httpsSendRequest_ends
    (I := fun valid => Reading valid.responseMode valid.responseBuffer.length)
    (F := fun valid => Stopped valid.responseMode valid.responseBuffer.length)
    (H := fun valid => Broken valid.responseMode valid.responseBuffer.length)
  · intro recorded h buffer
    obtain ⟨valid, -, rfl⟩ := hrecorded h
    exact reading_start valid.responseMode buffer (s.client.start valid)
  · intro recorded h index stream buffer fragment client hreading
    obtain ⟨valid, -, rfl⟩ := hrecorded h
    exact httpsTlsCallback_outcome buffer fragment hreading
  · exact fun h => hearly (returnsEarly_recording h)
  · exact fun h => hnull (refused_of_recording h)
  · intro recorded h hwrites
    obtain ⟨valid, hvalid, rfl⟩ := hrecorded h
    exact hunwritten valid hvalid hwrites
  · intro recorded staleResponse h hrefused hwrites hresponse
    obtain ⟨valid, hvalid, rfl⟩ := hrecorded h
    exact hwritten valid staleResponse hvalid (fun h => hrefused (refused_recording h)) hwrites hresponse

-- The calls of one request, the most recent first.
def Protocol (mode : HttpResponseMode) (calls : List HttpCall) : Prop :=
  match mode with
  | .waitForCompleteBody =>
      calls = [] ∨ (∃ n answer, calls = [.body n answer]) ∨ ∃ error info, calls = [.error error info]
  | .streamBody => ∃ earlier, AllContinued earlier ∧
      (calls = earlier ∨ (∃ error info, calls = .error error info :: earlier) ∨
        (∃ n answer, 0 < n ∧ answer ≠ some .continueReceiving ∧ calls = .body n answer :: earlier) ∨
        ∃ n answer, 0 < n ∧ calls = .body 0 answer :: .body n (some .continueReceiving) :: earlier)

-- The headers that the first `bytes` of the response must have completed.
def HasHeaders (bytes : Bytes) : Prop :=
  ∃ i minor contentLength, find crlfcrlf (cstr bytes) = some i ∧
    scanStatusLine (bytes.take i) = some (1, minor, 200) ∧
    httpParseKeyValueInt (bytes.take i) (ascii "Content-Length:") = some contentLength

-- The calls are in order, and none is for a body without its headers.
structure Orderly (mode : HttpResponseMode) (bytes : Bytes) (calls : List HttpCall) : Prop where
  protocol : Protocol mode calls
  headers : (∃ n answer, .body n answer ∈ calls) → HasHeaders bytes

theorem AcceptedHeaders.hasHeaders {bytes : Bytes} (h : AcceptedHeaders bytes) : HasHeaders bytes := by
  obtain ⟨i, contentLength, hfind, haccept⟩ := h
  obtain ⟨⟨minor, hstatus⟩, value, hvalue, -⟩ := parsed_of_accepted haccept
  exact ⟨i, minor, value, hfind, hstatus, hvalue⟩

theorem Continued.protocol {mode : HttpResponseMode} {calls : List HttpCall} (h : Continued mode calls) :
    Protocol mode calls := by
  cases mode with
  | waitForCompleteBody => exact .inl h
  | streamBody => exact ⟨calls, h, .inl rfl⟩

theorem orderly_nil (mode : HttpResponseMode) (bytes : Bytes) : Orderly mode bytes [] := by
  refine ⟨Continued.protocol ?_, fun h => ?_⟩
  · cases mode with
    | waitForCompleteBody => exact rfl
    | streamBody => exact fun call hcall => by cases hcall
  · obtain ⟨n, answer, h⟩ := h
    cases h

variable {mode : HttpResponseMode} {size index : Nat} {bytes : Bytes} {t : Client (Recorded α)}

theorem Pause.orderly (h : Pause mode index bytes t) : Orderly mode bytes t.app.calls := by
  cases h with
  | headers _ _ quiet =>
      rw [quiet]
      exact orderly_nil mode bytes
  | body i contentLength _ _ found accepted _ _ _ _ continued =>
      exact ⟨continued.protocol, fun _ => AcceptedHeaders.hasHeaders ⟨i, contentLength, found, accepted⟩⟩

theorem Outcome.orderly (h : Outcome mode size bytes t) : Orderly mode bytes t.app.calls := by
  cases h with
  | reported error info earlier hcalls continued headers =>
      rw [hcalls]
      refine ⟨?_, fun hbody => ?_⟩
      · cases mode with
        | waitForCompleteBody =>
            have hnil : earlier = [] := continued
            exact .inr (.inr ⟨error, info, by rw [hnil]⟩)
        | streamBody => exact ⟨earlier, continued, .inr (.inl ⟨error, info, rfl⟩)⟩
      · refine (headers.resolve_left fun hnil => ?_).hasHeaders
        obtain ⟨n, answer, hmem⟩ := hbody
        simp [hnil] at hmem
  | unannounced _ _ quiet =>
      rw [quiet]
      exact orderly_nil mode bytes
  | concluded i contentLength found accepted _ _ conclusion =>
      refine ⟨?_, fun _ => AcceptedHeaders.hasHeaders ⟨i, contentLength, found, accepted⟩⟩
      cases mode with
      | waitForCompleteBody =>
          obtain ⟨-, answer, hcalls⟩ := conclusion
          exact .inr (.inl ⟨_, answer, hcalls⟩)
      | streamBody =>
          obtain ⟨n, earlier, hn, hearlier, hends⟩ := conclusion
          refine ⟨earlier, hearlier, .inr (.inr ?_)⟩
          rcases hends with ⟨answer, hanswer, hcalls⟩ | ⟨-, answer, hcalls⟩
          · exact .inl ⟨n, answer, hn, hanswer, hcalls⟩
          · exact .inr ⟨n, answer, hn, hcalls⟩

-- A request from any state, with the record of its callbacks.
def recordedRun (request : HttpRequest α) (replies : RequestReplies) (s : Conn (Client α)) :
    Conn (Client (Recorded α)) :=
  final (httpsSendRequest request.recording replies) s.recording

-- The calls that a request makes on its way, for all that it reads.
theorem calls_orderly (request : HttpRequest α) (replies : RequestReplies) (s : Conn (Client α)) :
    (recordedRun request replies s).erase = final (httpsSendRequest request replies) s ∧
      ∃ bytes, received (recordedRun request replies s).tls.trace = received s.tls.trace ++ bytes ∧
        Orderly request.responseMode bytes (recordedRun request replies s).client.app.calls := by
  refine ⟨(httpsSendRequest_erase request replies s.recording).final_eq.symm, ?_⟩
  have hmode : ∀ valid, httpsValidateRequest request = .ok valid →
      valid.responseMode = request.responseMode := by
    intro valid hvalid
    rw [request_of_validate hvalid]
  refine final_of_wp (P := fun t : Conn (Client (Recorded α)) => ∃ bytes,
    received t.tls.trace = received s.tls.trace ++ bytes ∧
      Orderly request.responseMode bytes t.client.app.calls) ?_
  have hquiet : ∀ (tls : Tls) (client : Client (Recorded α)), received tls.trace = received s.tls.trace →
      client.app.calls = [] → ∃ bytes, received tls.trace = received s.tls.trace ++ bytes ∧
        Orderly request.responseMode bytes client.app.calls := by
    intro tls client htls hcalls
    exact ⟨[], by rw [htls, List.append_nil], by rw [hcalls]; exact orderly_nil _ _⟩
  apply wp_httpsSendRequest_recording
  · exact fun _ _ _ => hquiet _ _ rfl rfl
  · exact fun _ => hquiet _ _ rfl rfl
  · intro valid _ _
    refine ⟨fun tls htls => hquiet _ _ ?_ rfl, fun e tls htls => hquiet _ _ ?_ rfl⟩
    · rw [htls.received, List.append_nil]
    · rw [htls.received, List.append_nil]
  · intro valid staleResponse hvalid _ _ _
    rw [← hmode valid hvalid]
    constructor
    · intro result tls bytes client hclosed hreturns
      refine ⟨bytes, hclosed.received, ?_⟩
      cases hreturns with
      | stopped _ _ _ _ _ _ done => exact done.1.orderly
      | ended _ _ _ _ _ pausing => exact pausing.1.orderly
    · intro e tls bytes client hexchanged hhalts
      refine ⟨bytes, hexchanged.received, ?_⟩
      cases hhalts with
      | blocked _ _ _ _ _ _ pausing => exact pausing.1.orderly
      | halted _ _ _ _ _ halt =>
          rcases halt.1 with ⟨houtcome, -⟩ | ⟨-, hcalls⟩
          · exact houtcome.orderly
          · rw [hcalls]
            exact orderly_nil _ _

end Request

end Esp32Ota

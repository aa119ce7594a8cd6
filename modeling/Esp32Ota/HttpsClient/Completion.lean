import Esp32Ota.HttpsClient.Fragmentation
import Esp32Ota.HttpsClient.Protocol

-- When the client knows that a response is complete.
namespace Esp32Ota

open CLib Halting

-- The call for the whole body, or the one of length 0.
def HttpCall.isCompletion (mode : HttpResponseMode) (call : HttpCall) : Bool :=
  match mode, call with
  | .waitForCompleteBody, .body _ _ => true
  | .streamBody, .body bytesReceived _ => bytesReceived == 0
  | _, .error _ _ => false

def completions (mode : HttpResponseMode) (calls : List HttpCall) : Nat :=
  calls.countP (HttpCall.isCompletion mode)

-- Every callback has returned, none was for an error, and those before the
-- completion have asked for more.
structure Undisturbed (mode : HttpResponseMode) (calls : List HttpCall) : Prop where
  answered : Answered calls
  noErrors : ∀ error info, .error error info ∉ calls
  continued : ∀ n answer, .body n answer ∈ calls → HttpCall.isCompletion mode (.body n answer) = false →
    answer = some .continueReceiving

-- The search of the code finds a length which counts as reached when all of the
-- body is there, and not before.
def EndDetected (mode : HttpResponseMode) (header : Bytes) (bodyBytes : Nat) (fs : List Bytes) : Prop :=
  ∃ contentLength, headerLength header = some contentLength ∧
    BodyDone mode (toSize contentLength) bodyBytes ∧
    ∀ k < fs.length, header.length ≤ (fs.take k).flatten.length →
      ¬BodyDone mode (toSize contentLength) ((fs.take k).flatten.length - header.length)

section Calls

theorem AllContinued.completions {calls : List HttpCall} (h : AllContinued calls) :
    completions .streamBody calls = 0 := by
  refine List.countP_eq_zero.mpr fun call hcall => ?_
  obtain ⟨n, hn, rfl⟩ := h call hcall
  have hne : n ≠ 0 := by omega
  simp [HttpCall.isCompletion, hne]

theorem undisturbed_nil (mode : HttpResponseMode) : Undisturbed mode [] :=
  ⟨fun _ h => (by cases h), fun _ _ h => (by cases h), fun _ _ h => (by cases h)⟩

theorem Undisturbed.not_unanswered {mode : HttpResponseMode} {calls : List HttpCall}
    (h : Undisturbed mode calls) : ¬Unanswered calls := by
  rintro (⟨n, hn⟩ | ⟨error, info, hmem⟩)
  · exact h.answered n hn
  · exact h.noErrors error info hmem

theorem Concluded.completed {mode : HttpResponseMode} {contentLength bodyBytes : Nat} {calls : List HttpCall}
    (h : Concluded mode contentLength bodyBytes calls) (hcalls : Undisturbed mode calls) :
    BodyDone mode contentLength bodyBytes ∧ completions mode calls = 1 := by
  cases mode with
  | waitForCompleteBody =>
      obtain ⟨hdone, answer, rfl⟩ := h
      exact ⟨hdone, rfl⟩
  | streamBody =>
      obtain ⟨n, earlier, hn, hearlier, ⟨answer, hdeclined, rfl⟩ | ⟨hdone, answer, rfl⟩⟩ := h
      · have hne : n ≠ 0 := by omega
        exact absurd (hcalls.continued n answer List.mem_cons_self (by simp [HttpCall.isCompletion, hne]))
          hdeclined
      · have hne : n ≠ 0 := by omega
        have hnone := hearlier.completions
        unfold completions at hnone ⊢
        exact ⟨hdone, by simp [HttpCall.isCompletion, hne, hnone]⟩

end Calls

section Header

variable {α : Type} {header body received : Bytes} {mode : HttpResponseMode} {index size : Nat}
  {s : Client (Recorded α)}

theorem Pause.missing (h : Pause mode index received s) (hheader : HeaderBlock header)
    (hinitial : received <+: header ++ body) (hcomplete : header.length ≤ received.length) :
    ∃ contentLength, headerLength header = some contentLength ∧
      ¬BodyDone mode (toSize contentLength) (received.length - header.length) := by
  cases h with
  | headers hs _ _ => exact absurd (hheader.pending hinitial hs.pending) (Nat.not_lt.mpr hcomplete)
  | body i contentLength _ _ found accepted _ _ _ missing _ =>
      have hfour := hheader.length
      obtain ⟨rfl, -, htake⟩ := hheader.found hinitial found
      rw [htake, hheader.accepted_length] at accepted
      obtain ⟨value, hvalue, rfl⟩ := Option.map_eq_some_iff.mp accepted
      have hstart : header.length - 4 + 4 = header.length := by omega
      rw [hstart] at missing
      exact ⟨value, hvalue, missing⟩

theorem Outcome.completed (h : Outcome mode size received s) (hheader : HeaderBlock header)
    (hinitial : received <+: header ++ body) (hcalls : Undisturbed mode s.app.calls) :
    headerLength header = none ∧ completions mode s.app.calls = 0 ∨
      ∃ contentLength, headerLength header = some contentLength ∧ header.length ≤ received.length ∧
        BodyDone mode (toSize contentLength) (received.length - header.length) ∧
        completions mode s.app.calls = 1 := by
  cases h with
  | reported error info _ hreported =>
      refine absurd ?_ (hcalls.noErrors error info)
      rw [hreported]
      exact List.mem_cons_self
  | unannounced lacks _ quiet =>
      obtain ⟨i, _, hfind, -, hnone⟩ := lacks
      obtain ⟨rfl, -, htake⟩ := hheader.found hinitial hfind
      rw [htake] at hnone
      exact .inl ⟨hnone, by rw [quiet]; rfl⟩
  | concluded i contentLength found accepted _ _ conclusion =>
      have hfour := hheader.length
      obtain ⟨rfl, hle, htake⟩ := hheader.found hinitial found
      rw [htake, hheader.accepted_length] at accepted
      obtain ⟨value, hvalue, rfl⟩ := Option.map_eq_some_iff.mp accepted
      have hstart : header.length - 4 + 4 = header.length := by omega
      rw [hstart] at conclusion
      obtain ⟨hdone, hone⟩ := conclusion.completed hcalls
      exact .inr ⟨value, hvalue, hle, hdone, hone⟩

end Header

section Response

variable {α : Type} {request : ValidRequest α} {header body : Bytes} {fs : List Bytes}
  {mode : HttpResponseMode} {size index n : Nat} {s : Client (Recorded α)}

theorem take_prefix_response (hresponse : fs.flatten = header ++ body) (k : Nat) :
    (fs.take k).flatten <+: header ++ body := by
  rw [← hresponse]
  exact (List.take_prefix k fs).flatten

-- Where the client asks for more behind the last byte, it has not seen the end.
theorem Pause.not_detected (h : Pause mode index (header ++ body) s) (hheader : HeaderBlock header) :
    ¬EndDetected mode header body.length fs := by
  intro hdetected
  obtain ⟨contentLength, hlength, hdone, -⟩ := hdetected
  obtain ⟨value, hvalue, hmissing⟩ := h.missing hheader (List.prefix_refl (header ++ body)) (by simp)
  rw [hlength, Option.some.injEq] at hvalue
  rw [List.length_append, Nat.add_sub_cancel_left, ← hvalue] at hmissing
  exact hmissing hdone

theorem Pause.incomplete (h : Pause mode index (header ++ body) s) : completions mode s.app.calls = 0 := by
  have hcontinued : Continued mode s.app.calls := by
    cases h with
    | headers _ _ quiet =>
        rw [quiet]
        cases mode with
        | waitForCompleteBody => exact rfl
        | streamBody => exact fun call hcall => by cases hcall
    | body _ _ _ _ _ _ _ _ _ _ continued => exact continued
  cases mode with
  | waitForCompleteBody =>
      have hnil : s.app.calls = [] := hcontinued
      rw [hnil]
      rfl
  | streamBody => exact hcontinued.completions

-- Where it stops, it stops at the last byte if and only if that is the end it sees.
theorem Outcome.completes_iff (h : Outcome mode size (fs.take n).flatten s) (hheader : HeaderBlock header)
    (hresponse : fs.flatten = header ++ body) (hne : ∀ f ∈ fs, f ≠ []) (hbound : n ≤ fs.length)
    (hpaused : PausesBefore (Reading (α := α) mode size) [] fs n) (hcalls : Undisturbed mode s.app.calls) :
    ((fs.take n).flatten = header ++ body ∧ completions mode s.app.calls = 1) ↔
      EndDetected mode header body.length fs := by
  have hcompleted := h.completed hheader (take_prefix_response hresponse n) hcalls
  have hlength : (header ++ body).length - header.length = body.length := by
    rw [List.length_append, Nat.add_sub_cancel_left]
  constructor
  · intro hend
    obtain ⟨hall, hone⟩ := hend
    have hlast : n = fs.length := by
      refine Nat.le_antisymm hbound (not_lt.mp fun hlt => ?_)
      have hshort := length_take_flatten_lt hne hlt
      rw [hall, hresponse] at hshort
      exact absurd hshort (lt_irrefl _)
    rcases hcompleted with ⟨-, hnone⟩ | ⟨contentLength, hvalue, -, hdone, -⟩
    · omega
    rw [hall, hlength] at hdone
    refine ⟨contentLength, hvalue, hdone, fun k hk hcomplete => ?_⟩
    obtain ⟨_, _, _, hreading⟩ := hpaused k (hlast ▸ hk)
    obtain ⟨value, hsome, hmissing⟩ :=
      hreading.1.missing hheader (take_prefix_response hresponse k) hcomplete
    rw [hvalue, Option.some.injEq] at hsome
    rw [hsome]
    exact hmissing
  · intro hdetected
    obtain ⟨contentLength, hvalue, -, hbefore⟩ := hdetected
    rcases hcompleted with ⟨hnone, -⟩ | ⟨value, hsome, hcomplete, hdone, hone⟩
    · rw [hvalue] at hnone
      cases hnone
    rw [hvalue, Option.some.injEq] at hsome
    have hlast : n = fs.length := by
      refine Nat.le_antisymm hbound (not_lt.mp fun hlt => ?_)
      exact hbefore n hlt hcomplete (hsome ▸ hdone)
    exact ⟨by rw [hlast, List.take_length, hresponse], hone⟩

-- The reads of a response, with the record of its callbacks.
def responseLoop (request : ValidRequest α) (reads : List ReadResult) (stale : Bytes) :
    ConnM (Client (Recorded α)) Int :=
  wifiTlsReadLoop (httpsTlsCallback request.recording) reads 0 stale

-- All of the response is read, the application is told once that it is complete,
-- and no further read is made.
def CompletesAtEnd (request : ValidRequest α) (response : Bytes) (reads : List ReadResult) (stale : Bytes)
    (s : Conn (Client α)) : Prop :=
  ∃ t, responseLoop request reads stale s.recording = .ok 0 t ∧
    received t.tls.trace = received s.tls.trace ++ response ∧
    completions request.responseMode t.client.app.calls = 1

theorem completesAtEnd_iff (request : ValidRequest α) {header body : Bytes} (hheader : HeaderBlock header)
    (reads : List ReadResult) (hresponse : (fragments reads).flatten = header ++ body) (stale : Bytes)
    (s : Conn (Client α)) (hdefined : ∀ t, responseLoop request reads stale s.recording ≠ .error .undefined t)
    (hcalls : Undisturbed request.responseMode
      (final (responseLoop request reads stale) s.recording).client.app.calls) :
    CompletesAtEnd request (header ++ body) reads stale s ↔
      EndDetected request.responseMode header body.length (fragments reads) := by
  have hcallback : ∀ index stream buffer fragment (t : Client (Recorded α)),
      Reading request.responseMode s.client.responseBuffer.length index stream buffer t →
      StepsTo (httpsTlsCallback request.recording)
        (Reading request.responseMode s.client.responseBuffer.length)
        (Stopped request.responseMode s.client.responseBuffer.length)
        (Broken request.responseMode s.client.responseBuffer.length) index stream buffer fragment t :=
    fun index stream buffer fragment t h => httpsTlsCallback_outcome buffer fragment h
  have hloop := wp_wifiTlsReadLoop_ends (s := s.recording) hcallback reads
    (reading_start request.responseMode stale s.client)
  unfold CompletesAtEnd
  unfold final at hcalls
  cases hrun : responseLoop request reads stale s.recording with
  | ok result t =>
      rw [hrun] at hcalls
      obtain ⟨bytes, hclosed, hreturns⟩ := wp_ok hloop hrun
      have hreceived : received t.tls.trace = received s.tls.trace ++ bytes := hclosed.received
      cases hreturns with
      | stopped n _ bound hresult processed paused done _ =>
          rw [List.nil_append, processed] at done
          rw [← done.1.completes_iff hheader hresponse (fragments_ne_nil reads) bound paused hcalls]
          constructor
          · intro hend
            obtain ⟨u, hu, hall, hone⟩ := hend
            cases hu
            rw [hreceived, processed] at hall
            exact ⟨List.append_cancel_left hall, hone⟩
          · intro hend
            obtain ⟨hall, hone⟩ := hend
            exact ⟨t, by rw [hresult], by rw [hreceived, processed, hall], hone⟩
      | ended _ _ _ processed _ pausing _ =>
          rw [List.nil_append, processed, hresponse] at pausing
          refine iff_of_false (fun hend => ?_) (pausing.1.not_detected hheader)
          obtain ⟨u, hu, -, hone⟩ := hend
          cases hu
          rw [pausing.1.incomplete] at hone
          cases hone
  | error e t =>
      rw [hrun] at hcalls
      refine iff_of_false (fun hend => ?_) ?_
      · obtain ⟨u, hu, -⟩ := hend
        cases hu
      obtain ⟨bytes, -, hhalts⟩ := wp_error hloop hrun
      cases hhalts with
      | halted _ _ _ _ _ halt _ =>
          rcases halt.1 with ⟨-, hunanswered⟩ | ⟨rfl, -⟩
          · exact absurd hunanswered hcalls.not_unanswered
          · exact absurd hrun (hdefined t)
      | blocked _ _ _ _ processed _ pausing _ =>
          rw [List.nil_append, processed, hresponse] at pausing
          exact pausing.1.not_detected hheader

-- With the length of the body in its field, only an empty body that is streamed
-- is not seen to end.
theorem endDetected_of_field (hne : ∀ f ∈ fs, f ≠ []) (hresponse : fs.flatten = header ++ body)
    (hfield : headerLength header = some (body.length : Int)) (hsize : body.length < 2 ^ 32) :
    EndDetected mode header body.length fs ↔ (mode = .waitForCompleteBody ∨ 0 < body.length) := by
  have hvalue : toSize (body.length : Int) = body.length := toSize_natCast _ hsize
  constructor
  · intro hdetected
    obtain ⟨_, -, hdone, -⟩ := hdetected
    cases mode with
    | waitForCompleteBody => exact .inl rfl
    | streamBody => exact .inr hdone.1
  · intro hmode
    refine ⟨body.length, hfield, ?_, fun k hk hcomplete hdone => ?_⟩
    · rw [hvalue]
      cases mode with
      | waitForCompleteBody => exact le_refl body.length
      | streamBody =>
          refine ⟨hmode.resolve_left (by simp), ?_⟩
          rw [sizeT, Nat.mod_eq_of_lt hsize]
    · have hshort := length_take_flatten_lt hne hk
      rw [hresponse, List.length_append] at hshort
      rw [hvalue] at hdone
      cases mode with
      | waitForCompleteBody =>
          unfold BodyDone at hdone
          omega
      | streamBody =>
          obtain ⟨-, hdone⟩ := hdone
          have hmod := Nat.mod_le ((fs.take k).flatten.length - header.length) (2 ^ 32)
          unfold sizeT at hdone
          omega

end Response

theorem oneByte_completes : CompletesAtEnd (exampleRequest .streamBody)
    (statusLine ++ lengthField ++ [97]) [.data oneByteResponse] staleBuffer exampleClient := by
  obtain ⟨result, t, hrun, hcalls⟩ := exists_ok_of_wp
    (x := responseLoop (exampleRequest .streamBody) [.data oneByteResponse] staleBuffer)
    (s := exampleClient.recording)
    (Q := fun _ t => t.client.app.calls =
      [.body 0 (some .continueReceiving), .body 1 (some .continueReceiving)]) (by decide +kernel)
  refine (completesAtEnd_iff (exampleRequest .streamBody) exampleHeader [.data oneByteResponse] (by decide)
    staleBuffer exampleClient (fun u hu => ?_) ?_).mpr ?_
  · rw [hrun] at hu
    cases hu
  · rw [final, hrun, hcalls]
    refine ⟨by simp [Answered], by simp, fun n answer hmem _ => ?_⟩
    simp only [List.mem_cons, HttpCall.body.injEq, List.not_mem_nil, or_false] at hmem
    rcases hmem with ⟨-, hanswer⟩ | ⟨-, hanswer⟩ <;> exact hanswer
  · exact (endDetected_of_field (fragments_ne_nil [.data oneByteResponse]) (by decide) (by decide +kernel)
      (by decide)).mpr (.inr (by decide))

-- A streamed response with an empty body, on a connection that stays open.
def emptyField : Bytes := ascii "Content-Length: 0\r\n\r\n"

def emptyResponse : Fragment := ⟨statusLine ++ emptyField, by decide⟩

theorem emptyHeader : HeaderBlock (statusLine ++ emptyField) :=
  ⟨by decide, by decide, 49, ascii " OK\r\nContent-Length: 0\r\n\r\n", by decide, by simp [ascii, isDigit],
    by decide⟩

theorem emptyBody_not_completed :
    ¬∀ (α : Type) (request : ValidRequest α) (header body : Bytes) (reads : List ReadResult) (stale : Bytes)
      (s : Conn (Client α)), HeaderBlock header → headerLength header = some (body.length : Int) →
      (fragments reads).flatten = header ++ body →
      (∀ t, responseLoop request reads stale s.recording ≠ .error .undefined t) →
      Undisturbed request.responseMode
        (final (responseLoop request reads stale) s.recording).client.app.calls →
      CompletesAtEnd request (header ++ body) reads stale s := by
  intro h
  have hblocks : responseLoop (exampleRequest .streamBody) [.data emptyResponse] staleBuffer
      exampleClient.recording = .error .blocked _ := rfl
  have hquiet : (final (responseLoop (exampleRequest .streamBody) [.data emptyResponse] staleBuffer)
      exampleClient.recording).client.app.calls = [] := by decide +kernel
  obtain ⟨t, hrun, -⟩ := h Unit (exampleRequest .streamBody) (statusLine ++ emptyField) []
    [.data emptyResponse] staleBuffer exampleClient emptyHeader (by decide +kernel) (by decide)
    (fun t ht => by cases hblocks.symm.trans ht) (by rw [hquiet]; exact undisturbed_nil _)
  cases hblocks.symm.trans hrun

end Esp32Ota

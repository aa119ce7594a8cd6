import Esp32Ota.HttpsClient.Related
import Esp32Ota.HttpsClient.Application

-- Requests that keep a record of their callbacks and of what these answer.
namespace Esp32Ota

open CLib Halting

-- A callback has no answer if it does not return.
inductive HttpCall
  | body (bytesReceived : Nat) (answer : Option HttpContinueReceiving)
  | error (error : HttpErr) (additionalInfo : Int)
  deriving DecidableEq, Repr

-- An application and the calls made to it, the most recent first.
structure Recorded (α : Type) where
  app : α
  calls : List HttpCall

section Recording

variable {α : Type}

def recordBody (callback : BodyCallback α) : BodyCallback (Recorded α) :=
  fun responseBuffer bytesReceived s =>
    match callback responseBuffer bytesReceived s.app with
    | .ok cr app => .ok cr ⟨app, .body bytesReceived (some cr) :: s.calls⟩
    | .error e app => .error e ⟨app, .body bytesReceived none :: s.calls⟩

def recordError (callback : ErrorCallback α) : ErrorCallback (Recorded α) :=
  fun error additionalInfo s =>
    match callback error additionalInfo s.app with
    | .ok _ app => .ok () ⟨app, .error error additionalInfo :: s.calls⟩
    | .error e app => .error e ⟨app, .error error additionalInfo :: s.calls⟩

def HttpRequest.recording (request : HttpRequest α) : HttpRequest (Recorded α) :=
  { request with
    errorCallback := request.errorCallback.map recordError
    bodyCallback := request.bodyCallback.map recordBody }

def ValidRequest.recording (request : ValidRequest α) : ValidRequest (Recorded α) :=
  { request with
    errorCallback := recordError request.errorCallback
    bodyCallback := recordBody request.bodyCallback }

def Client.recording (s : Client α) : Client (Recorded α) := { s with app := ⟨s.app, []⟩ }

def Conn.recording (s : Conn (Client α)) : Conn (Client (Recorded α)) :=
  { s with client := s.client.recording }

theorem httpsValidateRequest_recording (request : HttpRequest α) :
    httpsValidateRequest request.recording =
      (httpsValidateRequest request).map ValidRequest.recording := by
  obtain ⟨verb, host, path, responseBuffer, errorCallback, responseMode, bodyCallback⟩ := request
  cases host <;> cases path <;> cases responseBuffer <;> cases errorCallback <;> cases bodyCallback <;>
    simp only [httpsValidateRequest, HttpRequest.recording, Option.map, Except.map]
  rename_i path _ _ _
  by_cases hpath : path = []
  · simp only [hpath, ite_true]
  · by_cases hverb : verb = HTTP_GET
    · simp only [hpath, hverb, ite_false, ne_eq, not_true_eq_false, ValidRequest.recording]
    · simp only [hpath, hverb, ite_false, ne_eq, not_false_eq_true, ite_true]

variable {request : ValidRequest α} {s : Client (Recorded α)}

theorem invokeBodyCallback_records (n : Nat) (s : Client (Recorded α)) :
    wp (invokeBodyCallback request.recording n)
      (fun cr t => Called (.body s.responseBuffer n) s t ∧
        t.app.calls = .body n (some cr) :: s.app.calls)
      (fun _ t => Called (.body s.responseBuffer n) s t ∧
        t.app.calls = .body n none :: s.app.calls) s := by
  rw [wp_invokeBodyCallback]
  simp only [ValidRequest.recording, wp, recordBody]
  cases request.bodyCallback s.responseBuffer n s.app.app with
  | ok cr app => exact ⟨⟨rfl, rfl, rfl⟩, rfl⟩
  | error e app => exact ⟨⟨rfl, rfl, rfl⟩, rfl⟩

theorem invokeErrorCallback_records (error : HttpErr) (info : Int) (s : Client (Recorded α)) :
    wp (invokeErrorCallback request.recording error info)
      (fun _ t => Called (.error error info) s t ∧ t.app.calls = .error error info :: s.app.calls)
      (fun _ t => Called (.error error info) s t ∧ t.app.calls = .error error info :: s.app.calls) s := by
  rw [wp_invokeErrorCallback]
  simp only [ValidRequest.recording, wp, recordError]
  cases request.errorCallback error info s.app.app with
  | ok _ app => exact ⟨⟨rfl, rfl, rfl⟩, rfl⟩
  | error e app => exact ⟨⟨rfl, rfl, rfl⟩, rfl⟩

end Recording

section Erasure

variable {α : Type}

-- The request without its record.
def Client.erase (s : Client (Recorded α)) : Client α := { s with app := s.app.app }

def Conn.erase (s : Conn (Client (Recorded α))) : Conn (Client α) := { s with client := s.client.erase }

variable {request : ValidRequest α}

theorem relatesEvents_eq : RelatesEvents Eq := ⟨rfl, fun event _ _ h => by rw [h]⟩

theorem client_related_erase {s : Client (Recorded α)} {u : Client α} :
    s.Related Eq (fun s u => u = s.app) u ↔ u = s.erase := by
  constructor
  · intro h
    obtain ⟨context, responseBuffer, events, app⟩ := u
    obtain ⟨rfl, rfl, rfl, rfl⟩ := h
    rfl
  · intro h
    subst h
    exact ⟨rfl, rfl, rfl, rfl⟩

theorem conn_related_erase {s : Conn (Client (Recorded α))} {u : Conn (Client α)} :
    s.Related (Client.Related Eq fun s u => u = s.app) u ↔ u = s.erase := by
  constructor
  · intro h
    obtain ⟨tls, client⟩ := u
    obtain ⟨rfl, hclient⟩ := h
    exact congrArg (Conn.mk s.tls) (client_related_erase.mp hclient)
  · intro h
    subst h
    exact ⟨rfl, client_related_erase.mpr rfl⟩

theorem recording_related (request : ValidRequest α) :
    request.recording.Related (fun s u => u = s.app) request := by
  refine ⟨rfl, rfl, rfl, rfl, fun error info s u hsu => ?_, fun responseBuffer n s u hsu => ?_⟩
  · subst hsu
    simp only [Simulates, wp, ValidRequest.recording, recordError]
    cases h : request.errorCallback error info s.app with
    | ok _ app => exact ⟨app, rfl, rfl⟩
    | error e app => exact ⟨app, rfl, rfl⟩
  · subst hsu
    simp only [Simulates, wp, ValidRequest.recording, recordBody]
    cases h : request.bodyCallback responseBuffer n s.app with
    | ok cr app => exact ⟨app, rfl, rfl⟩
    | error e app => exact ⟨app, rfl, rfl⟩

theorem feed_erase (fs : List Bytes) (index : Nat) (buffer : Bytes) (s : Client (Recorded α)) :
    Maps Client.erase (feed (httpsTlsCallback request.recording) fs index buffer)
      (feed (httpsTlsCallback request) fs index buffer) s := by
  apply maps_of_simulates
  simp only [← client_related_erase]
  exact feed_related (fun index tlsBuffer len _ _ hsu =>
    httpsTlsCallback_related relatesEvents_eq (recording_related request) index tlsBuffer len hsu) fs index
    buffer (client_related_erase.mpr rfl)

-- The record has no effect: without it, a request does what it does with it.
theorem httpsSendRequest_erase (request : HttpRequest α) (replies : RequestReplies)
    (s : Conn (Client (Recorded α))) :
    Maps Conn.erase (httpsSendRequest request.recording replies) (httpsSendRequest request replies) s := by
  have hvalidated : Validated (fun s u => u = s.app) (httpsValidateRequest request.recording)
      (httpsValidateRequest request) := by
    rw [httpsValidateRequest_recording]
    cases httpsValidateRequest request with
    | error result => exact .refused result
    | ok valid => exact .accepted (recording_related valid)
  apply maps_of_simulates
  simp only [← conn_related_erase]
  exact httpsSendRequest_related relatesEvents_eq hvalidated replies (conn_related_erase.mpr rfl)

end Erasure

end Esp32Ota

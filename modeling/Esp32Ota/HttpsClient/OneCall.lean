import Esp32Ota.HttpsClient.Wire

-- A request that waits for the complete body makes at most one callback.
namespace Esp32Ota

open CLib Halting

-- The documents handed to the application, the most recent first.
def documents : List HttpEvent → List Bytes
  | [] => []
  | .body responseBuffer _ :: events => responseBuffer :: documents events
  | .error _ _ :: events => documents events

section OneCall

variable {α : Type} {request : ValidRequest α} {s t : Client α} {Stop : Client α → Prop}
  {Err : Halt → Client α → Prop}

-- Neither the application nor the record of its callbacks has changed.
structure Uncalled (s t : Client α) : Prop where
  events : t.events = s.events
  app : t.app = s.app

-- `Stop` or `Err` holds where reading ends, be it without a callback or behind the first one.
structure CallsOnce (request : ValidRequest α) (s : Client α) (Stop : Client α → Prop)
    (Err : Halt → Client α → Prop) : Prop where
  stop : ∀ t, Uncalled s t → Stop t
  halt : ∀ e t, Uncalled s t → Err e t
  body : ∀ n t, Uncalled s t → wp (invokeBodyCallback request n) (fun _ => Stop) Err t
  error : ∀ error info t, Uncalled s t →
    wp (invokeErrorCallback request error info) (fun _ => Stop) Err t

-- Reading goes on without a callback only.
def AfterRead (s : Client α) (Stop : Client α → Prop) : Bool → Client α → Prop
  | true, t => Uncalled s t
  | false, t => Stop t

theorem httpsProcessHeaders_once (h : CallsOnce request s Stop Err) (tls : Bytes) (ht : Uncalled s t) :
    wp (httpsProcessHeaders request tls) (fun answer => AfterRead s Stop (answer.getD true)) Err t := by
  have herror : ∀ error info u, Uncalled s u → wp (invokeErrorCallback request error info)
      (fun _ => AfterRead s Stop false) Err u := fun error info u hu => h.error error info u hu
  unfold httpsProcessHeaders
  rw [wp_bind, wp_get]
  cases strstr t.responseBuffer crlfcrlf with
  | none => exact ht
  | some endOfHeader =>
      simp only [wp_bind, wp_set]
      have hcut : Uncalled s { t with responseBuffer := store t.responseBuffer endOfHeader [0] } :=
        ⟨ht.events, ht.app⟩
      cases scanStatusLine (cstr (store t.responseBuffer endOfHeader [0])) with
      | none => exact (wp_bind _ _ _ _ _).mpr (herror _ _ _ hcut)
      | some status =>
          simp only [wp_bind, wp_ite, wp_pure]
          refine ⟨fun _ => herror _ _ _ hcut, fun _ => ⟨fun _ => herror _ _ _ hcut, fun _ => ?_⟩⟩
          cases httpParseKeyValueInt (store t.responseBuffer endOfHeader [0]) (ascii "Content-Length:") with
          | none => exact h.stop _ hcut
          | some contentLength =>
              simp only [wp_bind, wp_ite, wp_throw, wp_set, wp_pure]
              exact ⟨fun _ => h.halt _ _ hcut, fun _ => ⟨hcut.events, hcut.app⟩⟩

theorem httpsProcessBody_once (hmode : request.responseMode = .waitForCompleteBody)
    (h : CallsOnce request s Stop Err) (ht : Uncalled s t) :
    wp (httpsProcessBody request) (AfterRead s Stop) Err t := by
  simp only [httpsProcessBody, hmode, wp_bind, wp_get, wp_ite, wp_pure]
  exact ⟨fun _ => ht, fun _ => h.body _ t ht⟩

-- The read that makes the callback is the last one.
theorem httpsTlsCallback_once (hmode : request.responseMode = .waitForCompleteBody)
    (h : CallsOnce request s Stop Err) (index : Nat) (tls : Bytes) (len : Nat) (ht : Uncalled s t) :
    wp (httpsTlsCallback request index tls len) (AfterRead s Stop) Err t := by
  rw [wp_httpsTlsCallback_start]
  have hat := atIndex_same index t
  have hu : Uncalled s (t.atIndex index) := ⟨hat.events.trans ht.events, hat.app.trans ht.app⟩
  generalize t.atIndex index = u at hu
  simp only [httpsTlsCallback, wp_bind, wp_ite, wp_get, wp_set, wp_pure, Nat.one_ne_zero, false_implies,
    true_and, not_false_eq_true, true_implies]
  refine ⟨fun _ => h.error _ _ u hu, fun _ => ⟨fun _ => ?_, fun _ => ?_⟩⟩
  · refine wp_mono (httpsProcessHeaders_once h tls ⟨hu.events, hu.app⟩) ?_ (fun _ _ hv => hv)
    intro answer v hv
    cases answer with
    | none => exact httpsProcessBody_once hmode h hv
    | some go => exact hv
  · exact httpsProcessBody_once hmode h ⟨hu.events, hu.app⟩

theorem feed_once (hmode : request.responseMode = .waitForCompleteBody) (h : CallsOnce request s Stop Err)
    (fs : List Bytes) (index : Nat) (buffer : Bytes) (ht : Uncalled s t) :
    wp (feed (httpsTlsCallback request) fs index buffer) (fun _ => Stop) Err t := by
  induction fs generalizing index buffer t with
  | nil => exact h.stop t ht
  | cons fragment fs ih =>
      rw [feed, wp_bind]
      refine wp_mono (httpsTlsCallback_once hmode h index _ _ ht) (fun continueReading u hu => ?_) (fun _ _ hu => hu)
      cases continueReading with
      | false => exact hu
      | true => exact ih (index + 1) _ hu

-- A request is refused before anything happens, or ends with its only callback.
theorem httpsSendRequest_once {request : HttpRequest α} {s : Conn (Client α)} (replies : RequestReplies)
    (hmode : request.responseMode = .waitForCompleteBody)
    (h : ∀ valid, httpsValidateRequest request = .ok valid → CallsOnce valid (s.client.start valid) Stop Err) :
    wp (httpsSendRequest request replies) (fun _ t => t = s ∨ Stop t.client)
      (fun e t => t = s ∨ Err e t.client) s := by
  have hwait : ∀ valid, httpsValidateRequest request = .ok valid →
      valid.responseMode = .waitForCompleteBody := by
    intro valid hvalid
    rw [← hmode, request_of_validate hvalid]
  have hstart : ∀ t : Client α, Uncalled t t := fun _ => ⟨rfl, rfl⟩
  refine wp_httpsSendRequest_ends (I := fun valid _ _ _ => Uncalled (s.client.start valid))
    (F := fun _ _ => Stop) (H := fun _ e _ => Err e) (fun _ _ _ => hstart _) ?_ (fun _ _ _ => .inl rfl)
    (fun _ => .inl rfl) ?_ ?_
  · intro valid hvalid index stream buffer fragment client hclient
    refine wp_mono (httpsTlsCallback_once (hwait valid hvalid) (h valid hvalid) index _ _ hclient) ?_
      (fun _ _ ht => ht)
    intro go t ht
    cases go with
    | false => exact ⟨fun h => (by cases h), fun _ => ht⟩
    | true => exact ⟨fun _ => ht, fun h => by cases h⟩
  · intro valid hvalid _
    exact ⟨fun _ _ => .inr ((h valid hvalid).stop _ (hstart _)),
      fun e _ _ => .inr ((h valid hvalid).halt e _ (hstart _))⟩
  · intro valid staleResponse hvalid _ _ _
    constructor
    · intro result tls bytes client _ hreturns
      cases hreturns with
      | stopped _ _ _ _ _ _ done => exact .inr done
      | ended _ _ _ _ _ pausing => exact .inr ((h valid hvalid).stop _ pausing)
    · intro e tls bytes client _ hhalts
      cases hhalts with
      | halted _ _ _ _ _ halt => exact .inr halt
      | blocked _ _ _ _ _ _ pausing => exact .inr ((h valid hvalid).halt e _ pausing)

end OneCall

end Esp32Ota

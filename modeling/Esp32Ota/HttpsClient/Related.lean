import Esp32Ota.Lib.Simulation
import Esp32Ota.HttpsClient
import Esp32Ota.WifiTls.Request

-- Requests on behalf of two applications that are kept in relation by the callbacks.
namespace Esp32Ota

open CLib Halting

section Relations

variable {α β σ τ : Type}

-- A relation between two records of callbacks.
structure RelatesEvents (E : List HttpEvent → List HttpEvent → Prop) : Prop where
  nil : E [] []
  cons : ∀ event before before', E before before' → E (event :: before) (event :: before')

structure Client.Related (E : List HttpEvent → List HttpEvent → Prop) (A : α → β → Prop) (s : Client α)
    (u : Client β) : Prop where
  context : u.context = s.context
  responseBuffer : u.responseBuffer = s.responseBuffer
  events : E s.events u.events
  app : A s.app u.app

structure Conn.Related (C : σ → τ → Prop) (s : Conn σ) (u : Conn τ) : Prop where
  tls : u.tls = s.tls
  client : C s.client u.client

-- The same request, with callbacks that keep the applications in relation.
structure ValidRequest.Related (A : α → β → Prop) (request : ValidRequest α) (other : ValidRequest β) :
    Prop where
  host : other.host = request.host
  path : other.path = request.path
  responseBuffer : other.responseBuffer = request.responseBuffer
  responseMode : other.responseMode = request.responseMode
  errorCallback : ∀ error info s u, A s u →
    Simulates A (request.errorCallback error info) (other.errorCallback error info) s u
  bodyCallback : ∀ responseBuffer n s u, A s u →
    Simulates A (request.bodyCallback responseBuffer n) (other.bodyCallback responseBuffer n) s u

-- Two requests that are refused for the same reason, or accepted.
inductive Validated (A : α → β → Prop) :
    Except HttpErr (ValidRequest α) → Except HttpErr (ValidRequest β) → Prop
  | refused (error : HttpErr) : Validated A (.error error) (.error error)
  | accepted {request : ValidRequest α} {other : ValidRequest β} (h : request.Related A other) :
      Validated A (.ok request) (.ok other)

end Relations

section Callback

variable {α β : Type} {E : List HttpEvent → List HttpEvent → Prop} {A : α → β → Prop}
  {request : ValidRequest α} {other : ValidRequest β} {s : Client α} {u : Client β}

theorem onApp_related {γ : Type} {x : EStateM Halt α γ} {y : EStateM Halt β γ}
    (hsu : s.Related E A u) (h : Simulates A x y s.app u.app) :
    Simulates (Client.Related E A) (onApp x) (onApp y) s u :=
  simulates_zoom h fun _ _ happ => ⟨hsu.context, hsu.responseBuffer, hsu.events, happ⟩

theorem invokeErrorCallback_related (hE : RelatesEvents E) (h : request.Related A other)
    (error : HttpErr) (info : Int) (hsu : s.Related E A u) :
    Simulates (Client.Related E A) (invokeErrorCallback request error info)
      (invokeErrorCallback other error info) s u := by
  refine simulates_bind (simulates_modify ?_) fun _ t v htv => ?_
  · exact ⟨hsu.context, hsu.responseBuffer, hE.cons _ _ _ hsu.events, hsu.app⟩
  · exact onApp_related htv (h.errorCallback error info _ _ htv.app)

theorem invokeBodyCallback_related (hE : RelatesEvents E) (h : request.Related A other) (n : Nat)
    (hsu : s.Related E A u) :
    Simulates (Client.Related E A) (invokeBodyCallback request n) (invokeBodyCallback other n) s u := by
  apply simulates_get
  rw [hsu.responseBuffer]
  refine simulates_bind (simulates_set ?_) fun _ t v htv => ?_
  · exact ⟨hsu.context, rfl, hE.cons _ _ _ hsu.events, hsu.app⟩
  · exact onApp_related htv (h.bodyCallback _ n _ _ htv.app)

theorem httpsProcessHeaders_related (hE : RelatesEvents E) (h : request.Related A other)
    (tlsBuffer : Bytes) (hsu : s.Related E A u) :
    Simulates (Client.Related E A) (httpsProcessHeaders request tlsBuffer)
      (httpsProcessHeaders other tlsBuffer) s u := by
  have hreport : ∀ error info (t : Client α) (v : Client β), t.Related E A v →
      Simulates (Client.Related E A)
        (do invokeErrorCallback request error info; return some false)
        (do invokeErrorCallback other error info; return some false) t v :=
    fun error info t v htv =>
      simulates_bind (invokeErrorCallback_related hE h error info htv) fun _ _ _ hR => simulates_pure hR _
  apply simulates_get
  rw [hsu.responseBuffer, hsu.context]
  cases strstr s.responseBuffer crlfcrlf with
  | none => exact simulates_pure hsu _
  | some endOfHeader =>
      refine simulates_bind (simulates_set ⟨rfl, rfl, hsu.events, hsu.app⟩) fun _ t v htv => ?_
      cases scanStatusLine (cstr (store s.responseBuffer endOfHeader [0])) with
      | none => exact hreport _ _ t v htv
      | some status =>
          obtain ⟨httpVersionMajor, httpVersionMinor, httpStatusCode⟩ := status
          refine simulates_ite (fun _ => hreport _ _ t v htv) fun _ => ?_
          refine simulates_ite (fun _ => hreport _ _ t v htv) fun _ => ?_
          cases httpParseKeyValueInt (store s.responseBuffer endOfHeader [0]) (ascii "Content-Length:") with
          | none => exact simulates_pure htv _
          | some contentLength =>
              refine simulates_ite (fun _ => simulates_throw htv _) fun _ => ?_
              exact simulates_bind (simulates_set ⟨rfl, rfl, hsu.events, hsu.app⟩)
                fun _ _ _ hR => simulates_pure hR _

theorem httpsProcessBody_related (hE : RelatesEvents E) (h : request.Related A other)
    (hsu : s.Related E A u) :
    Simulates (Client.Related E A) (httpsProcessBody request) (httpsProcessBody other) s u := by
  apply simulates_get
  rw [hsu.context, h.responseMode]
  cases request.responseMode with
  | waitForCompleteBody =>
      refine simulates_ite (fun _ => simulates_pure hsu _) fun _ => ?_
      exact simulates_bind (invokeBodyCallback_related hE h _ hsu) fun _ _ _ hR => simulates_pure hR _
  | streamBody =>
      refine simulates_ite (fun _ => ?_) fun _ => simulates_pure hsu _
      refine simulates_bind (invokeBodyCallback_related hE h _ hsu) fun cr t v htv => ?_
      refine simulates_ite (fun _ => simulates_pure htv _) fun _ => ?_
      refine simulates_ite (fun _ => ?_) fun _ => ?_
      · exact simulates_bind (invokeBodyCallback_related hE h 0 htv) fun _ _ _ hR => simulates_pure hR _
      · refine simulates_bind (simulates_modify ?_) fun _ _ _ hR => simulates_pure hR _
        exact ⟨by rw [htv.context], htv.responseBuffer, htv.events, htv.app⟩

theorem httpsTlsCallback_related (hE : RelatesEvents E) (h : request.Related A other) (index : Nat)
    (tlsBuffer : Bytes) (len : Nat) (hsu : s.Related E A u) :
    Simulates (Client.Related E A) (httpsTlsCallback request index tlsBuffer len)
      (httpsTlsCallback other index tlsBuffer len) s u := by
  have hrest : ∀ (t : Client α) (v : Client β), t.Related E A v → Simulates (Client.Related E A)
      (httpsTlsCallback request 1 tlsBuffer len) (httpsTlsCallback other 1 tlsBuffer len) t v := by
    intro t v htv
    apply simulates_get
    rw [htv.context, htv.responseBuffer]
    refine simulates_ite (fun _ => ?_) fun _ => ?_
    · exact simulates_bind (invokeErrorCallback_related hE h _ _ htv) fun _ _ _ hR => simulates_pure hR _
    refine simulates_bind (simulates_set ⟨rfl, rfl, htv.events, htv.app⟩) fun _ t v htv => ?_
    refine simulates_ite (fun _ => ?_) fun _ => httpsProcessBody_related hE h htv
    refine simulates_bind (httpsProcessHeaders_related hE h tlsBuffer htv) fun answer t v htv => ?_
    cases answer with
    | none => exact httpsProcessBody_related hE h htv
    | some continueReading => exact simulates_pure htv _
  by_cases hindex : index = 0
  · have hreset : ∀ (γ : Type) (r : ValidRequest γ), httpsTlsCallback r index tlsBuffer len =
        (do modify Client.reset; httpsTlsCallback r 1 tlsBuffer len) := by
      intro γ r
      simp only [httpsTlsCallback, hindex, ite_true, Nat.one_ne_zero, ite_false]
    rw [hreset, hreset]
    refine simulates_bind (simulates_modify ?_) fun _ t v htv => hrest t v htv
    exact ⟨rfl, by simp only [Client.reset, hsu.responseBuffer], hsu.events, hsu.app⟩
  · have hlater : ∀ (γ : Type) (r : ValidRequest γ), httpsTlsCallback r index tlsBuffer len =
        httpsTlsCallback r 1 tlsBuffer len := by
      intro γ r
      simp only [httpsTlsCallback, hindex, Nat.one_ne_zero, ite_false]
    rw [hlater, hlater]
    exact hrest s u hsu

end Callback

section Request

variable {α β : Type} {E : List HttpEvent → List HttpEvent → Prop} {A : α → β → Prop}
  {s : Conn (Client α)} {u : Conn (Client β)}

-- The TLS context is the same on both sides.
theorem onTls_related {σ τ γ : Type} {C : σ → τ → Prop} {s : Conn σ} {u : Conn τ} (x : TlsM γ)
    (hsu : s.Related C u) : Simulates (Conn.Related C) (onTls x) (onTls x) s u := by
  refine simulates_zoom (C := Eq) ?_ fun _ _ htls => ⟨htls.symm, hsu.client⟩
  rw [hsu.tls]
  exact simulates_self s.tls

theorem onClient_related {σ τ γ : Type} {C : σ → τ → Prop} {s : Conn σ} {u : Conn τ}
    {x : EStateM Halt σ γ} {y : EStateM Halt τ γ} (hsu : s.Related C u)
    (h : Simulates C x y s.client u.client) : Simulates (Conn.Related C) (onClient x) (onClient y) s u :=
  simulates_zoom h fun _ _ hclient => ⟨hsu.tls, hclient⟩

theorem feed_related {σ τ : Type} {C : σ → τ → Prop} {s : σ} {u : τ}
    {callback : Nat → Bytes → Nat → EStateM Halt σ Bool} {other : Nat → Bytes → Nat → EStateM Halt τ Bool}
    (h : ∀ index tlsBuffer len s u, C s u →
      Simulates C (callback index tlsBuffer len) (other index tlsBuffer len) s u)
    (fs : List Bytes) (index : Nat) (buffer : Bytes) (hsu : C s u) :
    Simulates C (feed callback fs index buffer) (feed other fs index buffer) s u := by
  induction fs generalizing index buffer s u with
  | nil => exact simulates_pure hsu _
  | cons fragment fs ih =>
      refine simulates_bind (h _ _ _ _ _ hsu) fun continueReading t v htv => ?_
      exact simulates_ite (fun _ => ih (index + 1) _ htv) fun _ => simulates_pure htv _

theorem wifiTlsReadLoop_related {σ τ : Type} {C : σ → τ → Prop} {s : Conn σ} {u : Conn τ}
    {callback : Nat → Bytes → Nat → EStateM Halt σ Bool} {other : Nat → Bytes → Nat → EStateM Halt τ Bool}
    (h : ∀ index tlsBuffer len s u, C s u →
      Simulates C (callback index tlsBuffer len) (other index tlsBuffer len) s u)
    (reads : List ReadResult) (index : Nat) (responseBuffer : Bytes) (hsu : s.Related C u) :
    Simulates (Conn.Related C) (wifiTlsReadLoop callback reads index responseBuffer)
      (wifiTlsReadLoop other reads index responseBuffer) s u := by
  induction reads generalizing index responseBuffer s u with
  | nil => exact simulates_bind (onTls_related _ hsu) fun _ _ _ hR => simulates_throw hR _
  | cons read reads ih =>
      refine simulates_bind (onTls_related _ hsu) fun _ t v htv => ?_
      cases read with
      | eof => exact simulates_bind (onTls_related _ htv) fun _ _ _ hR => simulates_pure hR _
      | error _ => exact simulates_bind (onTls_related _ htv) fun _ _ _ hR => simulates_pure hR _
      | wantRead => exact ih index responseBuffer htv
      | wantWrite => exact ih index responseBuffer htv
      | data fragment =>
          refine simulates_bind (onTls_related _ htv) fun _ t v htv => ?_
          refine simulates_bind (onClient_related htv (h _ _ _ _ _ htv.client))
            fun continueReading t v htv => ?_
          refine simulates_ite (fun _ => ?_) fun _ => ih (index + 1) _ htv
          exact simulates_bind (onTls_related _ htv) fun _ _ _ hR => simulates_pure hR _

theorem httpsCreateContextForRequest_related {s : Client α} {u : Client β} {request : ValidRequest α}
    {other : ValidRequest β} (h : request.Related A other) (replies : RequestReplies)
    (hsu : s.Related E A u) :
    Simulates (Client.Related E A) (httpsCreateContextForRequest request replies)
      (httpsCreateContextForRequest other replies) s u := by
  unfold httpsCreateContextForRequest
  rw [h.host, h.path]
  cases replies.mallocContext with
  | false => exact simulates_throw hsu _
  | true =>
      cases replies.mallocRequestBuffer with
      | none => exact simulates_pure hsu _
      | some _ => cases replies.mallocResponseBuffer <;> exact simulates_pure hsu _

theorem httpsSendRequest_related {request : HttpRequest α} {other : HttpRequest β} (hE : RelatesEvents E)
    (h : Validated A (httpsValidateRequest request) (httpsValidateRequest other)) (replies : RequestReplies)
    (hsu : s.Related (Client.Related E A) u) :
    Simulates (Conn.Related (Client.Related E A)) (httpsSendRequest request replies)
      (httpsSendRequest other replies) s u := by
  unfold httpsSendRequest
  generalize httpsValidateRequest request = validated at h ⊢
  generalize httpsValidateRequest other = validated' at h ⊢
  cases h with
  | refused error => exact simulates_pure hsu _
  | accepted h =>
      refine simulates_bind (onClient_related hsu
        (httpsCreateContextForRequest_related h replies hsu.client)) fun created t v htv => ?_
      cases created with
      | error result => exact simulates_pure htv _
      | ok buffers =>
          obtain ⟨tlsRequestBuffer, tlsResponseBuffer⟩ := buffers
          refine simulates_bind (onClient_related htv (simulates_modify ?_)) fun _ t v htv => ?_
          · exact ⟨rfl, h.responseBuffer, hE.nil, htv.client.app⟩
          refine simulates_bind (x := wifiTlsSendRequest _ _ _ _ _) ?_ fun tlsResult t v htv => ?_
          · refine simulates_bind (onTls_related _ htv) fun written t v htv => ?_
            refine simulates_ite (fun _ => ?_) fun _ => simulates_pure htv _
            exact wifiTlsReadLoop_related (fun index tlsBuffer len _ _ hsu =>
              httpsTlsCallback_related hE h index tlsBuffer len hsu) _ _ _ htv
          · exact simulates_ite (fun _ => simulates_pure htv _) fun _ => simulates_pure htv _

end Request

end Esp32Ota

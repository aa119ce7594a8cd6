import Esp32Ota.Lib.Footprint
import Esp32Ota.HttpsClient

-- `https_send_request` with the blocks that it allocates: the buffers are behind pointers, and
-- every block is freed on every way out.
namespace Esp32Ota

open CLib Halting

-- The pointers of `http_request_context_t`, and the pointer to it.
structure HttpContext where
  httpContext : Pointer
  tlsRequestBuffer : Pointer
  tlsResponseBuffer : Pointer

-- Ten fields of four bytes.
def sizeofHttpRequestContext : Nat := 40

section Definitions

variable {σ α : Type}

def httpsDestroyContext (context : HttpContext) : HeapM σ Unit := do
  free context.tlsRequestBuffer
  free context.tlsResponseBuffer
  free context.httpContext

def requestLen (request : ValidRequest α) : Nat :=
  httpGetRequestFormatString.length + request.host.length + request.path.length

-- The two buffers of a context that has been allocated.
def httpsCreateBuffers (request : ValidRequest α) (replies : RequestReplies) (ctx : Pointer) :
    HeapM σ (Except HttpErr HttpContext) := do
  let tlsRequestBuffer ← malloc replies.mallocRequestBuffer (requestLen request)
  if tlsRequestBuffer.isNone then
    httpsDestroyContext ⟨ctx, none, none⟩
    return .error .outOfMemory
  memcpy tlsRequestBuffer 0 (httpGetRequest request.path request.host ++ [0])
  let tlsResponseBuffer ← malloc replies.mallocResponseBuffer tlsResponseBufferSize
  if tlsResponseBuffer.isNone then
    httpsDestroyContext ⟨ctx, tlsRequestBuffer, none⟩
    return .error .outOfMemory
  return .ok ⟨ctx, tlsRequestBuffer, tlsResponseBuffer⟩

-- The context is written to before its pointer is compared with NULL.
def httpsCreateContextForRequestAt (request : ValidRequest α) (replies : RequestReplies) :
    HeapM σ (Except HttpErr HttpContext) := do
  let ctx ← malloc (if replies.mallocContext then some fun _ => 0 else none) sizeofHttpRequestContext
  memcpy ctx 0 (List.replicate sizeofHttpRequestContext 0)
  httpsCreateBuffers request replies ctx

-- `mbedtls_ssl_read` writes to the buffer, and the callback finds the whole of it.
def wifiTlsReadLoopAt (callback : Nat → Bytes → Nat → EStateM Halt σ Bool) (responseBuffer : Pointer) :
    List ReadResult → Nat → HeapM (Conn σ) Int
  | [], _ => do
    onState (onTls (tlsLog .sslRead))
    throw .blocked
  | read :: reads, callbackIndex => do
    onState (onTls (tlsLog .sslRead))
    match read with
    | .eof =>
      onState (onTls wifiTlsDisconnect)
      return 0
    | .data fragment =>
      onState (onTls (tlsLog (.received fragment.val)))
      memcpy responseBuffer 0 fragment.val
      let bytes ← readBytes responseBuffer tlsResponseBufferSize
      let continueReading ← onState (onClient (callback callbackIndex bytes fragment.val.length))
      if !continueReading then
        onState (onTls wifiTlsDisconnect)
        return 0
      wifiTlsReadLoopAt callback responseBuffer reads (callbackIndex + 1)
    | .wantRead => wifiTlsReadLoopAt callback responseBuffer reads callbackIndex
    | .wantWrite => wifiTlsReadLoopAt callback responseBuffer reads callbackIndex
    | .error _ =>
      onState (onTls wifiTlsDisconnect)
      return -1

def wifiTlsSendRequestAt (requestBuffer : Pointer) (requestBufferSize : Nat) (responseBuffer : Pointer)
    (callback : Nat → Bytes → Nat → EStateM Halt σ Bool) (writes : List Int) (reads : List ReadResult) :
    HeapM (Conn σ) Int := do
  let request ← readBytes requestBuffer requestBufferSize
  if ← onState (onTls (wifiTlsWriteLoop writes request)) then
    wifiTlsReadLoopAt callback responseBuffer reads 0
  else
    return -1

def httpsSendRequestAt (request : HttpRequest α) (replies : RequestReplies) :
    HeapM (Conn (Client α)) HttpErr := do
  match httpsValidateRequest request with
  | .error result => return result
  | .ok request =>
    match ← httpsCreateContextForRequestAt request replies with
    | .error result => return result
    | .ok context =>
      onState (onClient (modify fun s => { s with
        context := ⟨0, 0, 0, false⟩
        responseBuffer := request.responseBuffer
        events := [] }))
      let tlsResult ← wifiTlsSendRequestAt context.tlsRequestBuffer (requestLen request) context.tlsResponseBuffer
        (httpsTlsCallback request) replies.writes replies.reads
      httpsDestroyContext context
      if tlsResult = 0 then
        return .success
      return .sendFailed

end Definitions

-- A program on the heap does to the state what the other one does, and frees what it allocates.
abbrev RefinesOnHeap {σ α : Type} (base : Heap) (x : HeapM σ α) (y : EStateM Halt σ α) (s : OnHeap σ) (u : σ) : Prop :=
  Refines (fun a b t v => a = b ∧ Owns base v [] t) (fun t v => t.state = v) x y s u

section Request

variable {σ α : Type} {base : Heap}

-- The text with its NUL takes three bytes less than the buffer has.
theorem length_httpGetRequest (request : ValidRequest α) :
    (httpGetRequest request.path request.host).length + 4 = requestLen request := by
  have hparts : (ascii "GET ").length + (ascii " HTTP/1.1\r\nHost: ").length + (ascii "\r\n\r\n").length + 4 =
      httpGetRequestFormatString.length := by decide
  simp only [httpGetRequest, requestLen, List.length_append]
  omega

-- The two contexts of a request, or the same failure.
inductive Created (base : Heap) (request : ValidRequest α) (state : σ) :
    Except HttpErr HttpContext → Except HttpErr (Bytes × Bytes) → OnHeap σ → Prop
  | failed {t : OnHeap σ} (error : HttpErr) (h : Owns base state [] t) :
      Created base request state (.error error) (.error error) t
  | created {t : OnHeap σ} {ctx i j : Nat} {tlsRequestBuffer tlsResponseBuffer context : Bytes}
      (hrequest : tlsRequestBuffer.length = requestLen request)
      (hresponse : tlsResponseBuffer.length = tlsResponseBufferSize)
      (h : Owns base state [(j, tlsResponseBuffer), (i, tlsRequestBuffer), (ctx, context)] t) :
      Created base request state (.ok ⟨some ctx, some i, some j⟩) (.ok (tlsRequestBuffer, tlsResponseBuffer)) t

theorem httpsDestroyContext_frees {state : σ} {s : OnHeap σ} {ctx request response : Nat}
    {tlsRequestBuffer tlsResponseBuffer context : Bytes}
    (h : Owns base state [(response, tlsResponseBuffer), (request, tlsRequestBuffer), (ctx, context)] s) :
    wp (httpsDestroyContext ⟨some ctx, some request, some response⟩) (fun _ t => Owns base state [] t)
      (fun _ _ => False) s := by
  simp only [httpsDestroyContext, wp_bind]
  apply wp_free (h.perm (List.Perm.swap _ _ _))
  intro t ht
  apply wp_free ht
  exact fun t ht => wp_free ht fun t ht => ht

-- A context with its request buffer, and without the other one.
theorem httpsDestroyContext_frees_request {state : σ} {s : OnHeap σ} {ctx request : Nat}
    {tlsRequestBuffer context : Bytes} (h : Owns base state [(request, tlsRequestBuffer), (ctx, context)] s) :
    wp (httpsDestroyContext ⟨some ctx, some request, none⟩) (fun _ t => Owns base state [] t)
      (fun _ _ => False) s := by
  simp only [httpsDestroyContext, wp_bind]
  apply wp_free h
  intro t ht
  rw [wp_free_null]
  exact wp_free ht fun t ht => ht

-- What the two buffers contain, with enough memory for both.
def createdBuffers (request : ValidRequest α) (replies : RequestReplies) : Except HttpErr (Bytes × Bytes) :=
  match replies.mallocRequestBuffer, replies.mallocResponseBuffer with
  | some staleRequest, some staleResponse => .ok
    (store (staleBlock staleRequest (requestLen request)) 0 (httpGetRequest request.path request.host ++ [0]),
      staleBlock staleResponse tlsResponseBufferSize)
  | _, _ => .error .outOfMemory

theorem httpsCreateBuffers_creates (request : ValidRequest α) (replies : RequestReplies) {state : σ}
    {s : OnHeap σ} {context : Bytes} {ctx : Nat} (h : Owns base state [(ctx, context)] s) :
    wp (httpsCreateBuffers request replies (some ctx))
      (fun a t => Created base request state a (createdBuffers request replies) t) (fun _ _ => False) s := by
  have hfits : ∀ stale, 0 + (httpGetRequest request.path request.host ++ [0]).length ≤
      (staleBlock stale (requestLen request)).length := by
    intro stale
    rw [List.length_append, List.length_singleton, length_staleBlock]
    have hlength := length_httpGetRequest request
    omega
  unfold httpsCreateBuffers createdBuffers
  rw [wp_bind]
  apply wp_malloc h
  · intro hnull
    simp only [hnull, Option.isNone_none, ite_true, wp_bind, httpsDestroyContext, wp_free_null, wp_pure]
    exact wp_free h fun t ht => .failed _ ht
  · intro stale i t hstale ht
    simp only [hstale, Option.isNone_some, Bool.false_eq_true, ite_false, wp_bind]
    refine wp_memcpy ht (hfits stale) fun t ht => ?_
    apply wp_malloc ht
    · intro hnull
      simp only [hnull, Option.isNone_none, ite_true, wp_bind, wp_pure]
      exact wp_mono (httpsDestroyContext_frees_request ht) (fun _ t ht => .failed _ ht) (fun _ _ hfalse => hfalse)
    · intro staleResponse j t hresponse ht
      simp only [hresponse, Option.isNone_some, Bool.false_eq_true, ite_false, wp_pure]
      exact .created ((length_store _ _ _ (hfits stale)).trans (length_staleBlock ..)) (length_staleBlock ..) ht

theorem httpsCreateContextForRequest_refined (request : ValidRequest α) (replies : RequestReplies)
    {s : OnHeap (Conn (Client α))} {u : Conn (Client α)} (h : Owns base u [] s) :
    Refines (fun a b t v => v = u ∧ Created base request u a b t) (fun t v => t.state = v)
      (httpsCreateContextForRequestAt request replies) (onClient (httpsCreateContextForRequest request replies))
      s u := by
  unfold httpsCreateContextForRequestAt
  cases hctx : replies.mallocContext with
  | false =>
      refine refines_of_error (e := .undefined) (v := u) ?_ ?_
      · simp only [onClient, zoom, httpsCreateContextForRequest, hctx]
        rfl
      · rw [wp_bind]
        apply wp_malloc h
        · exact fun _ => ⟨rfl, h.1⟩
        · exact fun _ _ _ hsome => by cases hsome
  | true =>
      refine refines_of_ok (v := u) (b := createdBuffers request replies) ?_ ?_
      · simp only [onClient, zoom, httpsCreateContextForRequest, hctx, createdBuffers]
        cases replies.mallocRequestBuffer <;> cases replies.mallocResponseBuffer <;> rfl
      · rw [wp_bind]
        apply wp_malloc h
        · exact fun hnull => by cases hnull
        · intro stale ctx t _ ht
          rw [wp_bind]
          apply wp_memcpy ht
          · rw [List.length_replicate, length_staleBlock, Nat.zero_add]
          · exact fun t ht => wp_mono (httpsCreateBuffers_creates request replies ht)
              (fun _ _ hcreated => ⟨rfl, hcreated⟩)
              (fun _ _ hfalse => hfalse)

section ReadLoop

variable {blocks : List (Nat × Bytes)} {response : Nat} {callback : Nat → Bytes → Nat → EStateM Halt σ Bool}

-- The loop ends with the response buffer still in place.
abbrev LoopEnds (base : Heap) (response : Nat) (blocks : List (Nat × Bytes)) (a b : Int) (t : OnHeap (Conn σ))
    (v : Conn σ) : Prop :=
  a = b ∧ ∃ buffer, Owns base v ((response, buffer) :: blocks) t

-- By induction on the reads: the buffer behind the pointer is the buffer that the other loop hands on.
theorem wifiTlsReadLoop_refined (reads : List ReadResult) (callbackIndex : Nat) {buffer : Bytes}
    (hlength : buffer.length = tlsResponseBufferSize) {s : OnHeap (Conn σ)} {u : Conn σ}
    (h : Owns base u ((response, buffer) :: blocks) s) :
    Refines (LoopEnds base response blocks) (fun t v => t.state = v)
      (wifiTlsReadLoopAt callback (some response) reads callbackIndex)
      (wifiTlsReadLoop callback reads callbackIndex buffer) s u := by
  have hends : ∀ {t : OnHeap (Conn σ)} {v : Conn σ} {bytes : Bytes} (n : Int),
      Owns base v ((response, bytes) :: blocks) t →
      Refines (ε := Halt) (LoopEnds base response blocks) (fun t v => t.state = v)
        (do onState (onTls wifiTlsDisconnect); return n) (do onTls wifiTlsDisconnect; return n) t v :=
    fun n ht => refines_bind (onState_refined _ ht) fun _ _ _ _ hv => refines_pure ⟨rfl, _, hv.2⟩
  induction reads generalizing callbackIndex buffer s u with
  | nil =>
      refine refines_bind (onState_refined _ h) fun _ _ t v ht => ?_
      exact refines_throw (S := LoopEnds base response blocks) ht.2.1 _
  | cons read reads ih =>
      refine refines_bind (onState_refined _ h) fun _ _ t v ht => ?_
      obtain ⟨-, ht⟩ := ht
      cases read with
      | eof => exact hends 0 ht
      | data fragment =>
          refine refines_bind (onState_refined _ ht) fun _ _ t v ht => ?_
          obtain ⟨-, ht⟩ := ht
          have hfits : 0 + fragment.val.length ≤ buffer.length := by
            rw [Nat.zero_add, hlength]
            exact fragment.property.2
          have hstored : (store buffer 0 fragment.val).length = tlsResponseBufferSize :=
            (length_store buffer 0 fragment.val hfits).trans hlength
          refine refines_left (wp_memcpy ht hfits fun t ht => ?_)
          refine refines_left (wp_readBytes ht hstored.ge ?_)
          rw [List.take_of_length_le hstored.le]
          refine refines_bind (onState_refined _ ht) fun continueReading _ t v ht => ?_
          obtain ⟨rfl, ht⟩ := ht
          exact refines_ite (fun _ => hends 0 ht) fun _ => ih _ hstored ht
      | wantRead => exact ih callbackIndex hlength ht
      | wantWrite => exact ih callbackIndex hlength ht
      | error code => exact hends (-1) ht

theorem wifiTlsSendRequest_refined (writes : List Int) (reads : List ReadResult) {i requestBufferSize : Nat}
    {requestBuffer responseBuffer : Bytes} (hrequest : requestBuffer.length = requestBufferSize)
    (hresponse : responseBuffer.length = tlsResponseBufferSize) {s : OnHeap (Conn σ)} {u : Conn σ}
    (h : Owns base u ((response, responseBuffer) :: (i, requestBuffer) :: blocks) s) :
    Refines (LoopEnds base response ((i, requestBuffer) :: blocks)) (fun t v => t.state = v)
      (wifiTlsSendRequestAt (some i) requestBufferSize (some response) callback writes reads)
      (wifiTlsSendRequest requestBuffer responseBuffer callback writes reads) s u := by
  refine refines_left (wp_readBytes (h.perm (List.Perm.swap _ _ _)) hrequest.ge ?_)
  rw [List.take_of_length_le hrequest.le]
  refine refines_bind (onState_refined _ h) fun written _ t v ht => ?_
  obtain ⟨rfl, ht⟩ := ht
  exact refines_ite (fun _ => wifiTlsReadLoop_refined reads 0 hresponse ht) fun _ => refines_pure ⟨rfl, _, ht⟩

end ReadLoop

-- The request is sent from its block, and the answers are read into theirs. Nothing is left
-- behind, and nothing is freed twice.
theorem httpsSendRequest_refined (request : HttpRequest α) (replies : RequestReplies)
    {s : OnHeap (Conn (Client α))} {u : Conn (Client α)} (h : Owns base u [] s) :
    RefinesOnHeap base (httpsSendRequestAt request replies) (httpsSendRequest request replies) s u := by
  unfold httpsSendRequestAt httpsSendRequest
  cases httpsValidateRequest request with
  | error result => exact refines_pure ⟨rfl, h⟩
  | ok request =>
      refine refines_bind (httpsCreateContextForRequest_refined request replies h) fun a b t v ht => ?_
      obtain ⟨rfl, hcreated⟩ := ht
      cases hcreated with
      | failed error ht => exact refines_pure ⟨rfl, ht⟩
      | created hrequest hresponse ht =>
          refine refines_bind (onState_refined _ ht) fun _ _ t v ht => ?_
          obtain ⟨-, ht⟩ := ht
          refine refines_bind (wifiTlsSendRequest_refined _ _ hrequest hresponse ht) fun tlsResult _ t v ht => ?_
          obtain ⟨rfl, _, ht⟩ := ht
          refine refines_left (wp_mono (httpsDestroyContext_frees ht) (fun _ t ht => ?_) fun _ _ hfalse => hfalse)
          exact refines_ite (fun _ => refines_pure ⟨rfl, ht⟩) fun _ => refines_pure ⟨rfl, ht⟩

end Request

end Esp32Ota

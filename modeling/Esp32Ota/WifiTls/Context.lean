import Esp32Ota.Lib.Footprint
import Esp32Ota.WifiTls

-- The life of a TLS context on the heap, from `wifi_tls_create_context` to `wifi_tls_free_context`.
namespace Esp32Ota

open CLib Halting

-- `wifi_tls_init_struct_t`; a missing string is `none`.
structure WifiTlsInit where
  serverHostName : Option Bytes
  serverPort : Option Bytes
  serverRootCaPublicKeyPem : Option Bytes
  peerPublicKeyPem : Option Bytes

-- Parameters that `wifi_tls_create_context` accepts, with the port as it reads it.
structure ValidTlsInit where
  serverHostName : Bytes
  serverPort : Int
  serverRootCaPublicKeyPem : Bytes
  peerPublicKeyPem : Bytes
  hport : 1 ≤ serverPort ∧ serverPort ≤ 65535

-- The pointer to a `wifi_tls_context_t` and the fields that its creation sets.
structure WifiTlsContext where
  context : Pointer
  serverHostName : Pointer
  serverRootCaPublicKeyPem : Pointer
  peerPublicKeyPem : Pointer
  serverPort : Int

-- The answers to the four calls of `malloc`.
structure CreateReplies where
  mallocContext : Malloc
  mallocHostName : Malloc
  mallocRootCa : Malloc
  mallocPeer : Malloc

def wifiTlsValidateParams (params : WifiTlsInit) : Option ValidTlsInit :=
  match params.serverPort, params.serverHostName, params.serverRootCaPublicKeyPem, params.peerPublicKeyPem with
  | some port, some host, some rootCa, some peer =>
    if h : 1 ≤ atoi (cstr port) ∧ atoi (cstr port) ≤ 65535 then
      some ⟨host, atoi (cstr port), rootCa, peer, h⟩
    else none
  | _, _, _, _ => none

section Definitions

variable {σ : Type}

-- The size of the structure depends on mbedTLS.
def wifiTlsCreateContext (sizeofContext : Nat) (params : WifiTlsInit) (replies : CreateReplies) :
    HeapM σ (Option WifiTlsContext) := do
  match wifiTlsValidateParams params with
  | none => return none
  | some params =>
    let ctx ← malloc replies.mallocContext sizeofContext
    if ctx.isNone then
      return none
    memcpy ctx 0 (List.replicate sizeofContext 0)
    let serverHostName ← malloc replies.mallocHostName ((cstr params.serverHostName).length + 1)
    if serverHostName.isNone then
      free ctx
      return none
    memcpy serverHostName 0 (cstr params.serverHostName ++ [0])
    let serverRootCa ← malloc replies.mallocRootCa ((cstr params.serverRootCaPublicKeyPem).length + 1)
    if serverRootCa.isNone then
      free serverHostName
      free ctx
      return none
    memcpy serverRootCa 0 (cstr params.serverRootCaPublicKeyPem ++ [0])
    let peer ← malloc replies.mallocPeer ((cstr params.peerPublicKeyPem).length + 1)
    if peer.isNone then
      free serverRootCa
      free serverHostName
      free ctx
      return none
    memcpy peer 0 (cstr params.peerPublicKeyPem ++ [0])
    return some ⟨ctx, serverHostName, serverRootCa, peer, params.serverPort⟩

def wifiTlsFreeContext (sizeofContext : Nat) (ctx : WifiTlsContext) : HeapM σ Unit := do
  free ctx.peerPublicKeyPem
  free ctx.serverRootCaPublicKeyPem
  free ctx.serverHostName
  memcpy ctx.context 0 (List.replicate sizeofContext 0)
  free ctx.context

end Definitions

section Lifetime

variable {σ : Type} {base : Heap} {state : σ} {sizeofContext : Nat}

def CreateReplies.Enough (replies : CreateReplies) : Prop :=
  replies.mallocContext.isSome ∧ replies.mallocHostName.isSome ∧ replies.mallocRootCa.isSome ∧
    replies.mallocPeer.isSome

-- The blocks of a context, the most recent one first.
def contextBlocks (sizeofContext : Nat) (params : ValidTlsInit) (ctx host rootCa peer : Nat) : List (Nat × Bytes) :=
  [(peer, cstr params.peerPublicKeyPem ++ [0]), (rootCa, cstr params.serverRootCaPublicKeyPem ++ [0]),
    (host, cstr params.serverHostName ++ [0]), (ctx, List.replicate sizeofContext 0)]

-- What the creation of a context answers, with the blocks that it leaves behind.
inductive ContextMade (base : Heap) (state : σ) (sizeofContext : Nat) (params : WifiTlsInit)
    (replies : CreateReplies) : Option WifiTlsContext → OnHeap σ → Prop
  | refused {t : OnHeap σ} (hparams : wifiTlsValidateParams params = none) (h : Owns base state [] t) :
      ContextMade base state sizeofContext params replies none t
  | outOfMemory {t : OnHeap σ} (hmemory : ¬replies.Enough) (h : Owns base state [] t) :
      ContextMade base state sizeofContext params replies none t
  | made {t : OnHeap σ} {ctx host rootCa peer : Nat} (valid : ValidTlsInit)
      (hparams : wifiTlsValidateParams params = some valid) (hmemory : replies.Enough)
      (h : Owns base state (contextBlocks sizeofContext valid ctx host rootCa peer) t) :
      ContextMade base state sizeofContext params replies
        (some ⟨some ctx, some host, some rootCa, some peer, valid.serverPort⟩) t

-- A block of its own for a copy of the string.
theorem wp_copyString {blocks : List (Nat × Bytes)} {s : OnHeap σ} {reply : Malloc} {text : Bytes} {α : Type}
    {Q : α → OnHeap σ → Prop} {E : Halt → OnHeap σ → Prop} {cleanup : HeapM σ α} {rest : Pointer → HeapM σ α}
    (h : Owns base state blocks s) (hnull : reply = none → wp cleanup Q E s)
    (hcopy : ∀ i t, reply.isSome → Owns base state ((i, text ++ [0]) :: blocks) t → wp (rest (some i)) Q E t) :
    wp (do
      let p ← malloc reply (text.length + 1)
      if p.isNone then
        cleanup
      else
        memcpy p 0 (text ++ [0])
        rest p) Q E s := by
  rw [wp_bind]
  refine wp_malloc h (fun hnone => ?_) fun stale i t hsome ht => ?_
  · simpa only [Option.isNone_none, ite_true] using hnull hnone
  · have hlength : (staleBlock stale (text.length + 1)).length = (text ++ [0]).length := by
      rw [length_staleBlock, List.length_append, List.length_singleton]
    simp only [Option.isNone_some, Bool.false_eq_true, ite_false, wp_bind]
    refine wp_memcpy ht (by rw [hlength, Nat.zero_add]) fun t ht => ?_
    rw [store_all hlength.symm] at ht
    exact hcopy i t (by rw [hsome]; rfl) ht

theorem wifiTlsCreateContext_makes (params : WifiTlsInit) (replies : CreateReplies) {s : OnHeap σ}
    (h : Owns base state [] s) :
    wp (wifiTlsCreateContext sizeofContext params replies) (ContextMade base state sizeofContext params replies)
      (fun _ _ => False) s := by
  unfold wifiTlsCreateContext
  cases hparams : wifiTlsValidateParams params with
  | none => exact .refused hparams h
  | some valid =>
      rw [wp_bind]
      refine wp_malloc h (fun hctx => ?_) fun stale ctx t hctx ht => ?_
      · exact .outOfMemory (fun henough => by simp [CreateReplies.Enough, hctx] at henough) h
      have hlength : (List.replicate sizeofContext (0 : UInt8)).length = (staleBlock stale sizeofContext).length := by
        rw [List.length_replicate, length_staleBlock]
      simp only [Option.isNone_some, Bool.false_eq_true, ite_false]
      rw [wp_bind]
      refine wp_memcpy ht (by rw [hlength, Nat.zero_add]) fun t ht => ?_
      rw [store_all hlength] at ht
      refine wp_copyString ht (fun hhost => ?_) fun host t hhost ht => ?_
      · rw [wp_bind]
        exact wp_free ht fun t ht => .outOfMemory (fun henough => by simp [CreateReplies.Enough, hhost] at henough) ht
      refine wp_copyString ht (fun hrootCa => ?_) fun rootCa t hrootCa ht => ?_
      · simp only [wp_bind]
        refine wp_free ht fun t ht => wp_free ht fun t ht => ?_
        exact .outOfMemory (fun henough => by simp [CreateReplies.Enough, hrootCa] at henough) ht
      refine wp_copyString ht (fun hpeer => ?_) fun peer t hpeer ht => ?_
      · simp only [wp_bind]
        refine wp_free ht fun t ht => wp_free ht fun t ht => wp_free ht fun t ht => ?_
        exact .outOfMemory (fun henough => by simp [CreateReplies.Enough, hpeer] at henough) ht
      exact .made valid hparams ⟨by rw [hctx]; rfl, hhost, hrootCa, hpeer⟩ ht

theorem wifiTlsFreeContext_frees {valid : ValidTlsInit} {ctx host rootCa peer : Nat} {s : OnHeap σ}
    (h : Owns base state (contextBlocks sizeofContext valid ctx host rootCa peer) s) :
    wp (wifiTlsFreeContext sizeofContext ⟨some ctx, some host, some rootCa, some peer, valid.serverPort⟩)
      (fun _ t => Owns base state [] t) (fun _ _ => False) s := by
  simp only [wifiTlsFreeContext, wp_bind]
  refine wp_free h fun t ht => wp_free ht fun t ht => wp_free ht fun t ht => ?_
  exact wp_memcpy ht (by simp) fun t ht => wp_free ht fun t ht => ht

-- Whatever the parameters are and wherever the memory runs out, no block is left behind without
-- a context, and with one the four blocks that freeing it takes back.
theorem context_lifetime (sizeofContext : Nat) (params : WifiTlsInit) (replies : CreateReplies) (s : OnHeap σ) :
    wp (wifiTlsCreateContext sizeofContext params replies)
      (fun context t => ContextMade s.heap s.state sizeofContext params replies context t ∧
        ∀ c, context = some c → wp (wifiTlsFreeContext sizeofContext c)
          (fun _ u => u.state = s.state ∧ s.heap.Same u.heap) (fun _ _ => False) t)
      (fun _ _ => False) s := by
  refine wp_mono (wifiTlsCreateContext_makes params replies (owns_self s)) (fun context t hmade => ⟨hmade, ?_⟩)
    (fun _ _ hfalse => hfalse)
  intro c hc
  cases hmade with
  | refused _ _ => cases hc
  | outOfMemory _ _ => cases hc
  | made valid _ _ h =>
      cases hc
      exact wp_mono (wifiTlsFreeContext_frees h) (fun _ u hu => ⟨hu.1, Heap.adds_nil_iff.mp hu.2⟩)
        (fun _ _ hfalse => hfalse)

end Lifetime

end Esp32Ota

import Esp32Ota.HttpsClient.Memory
import Esp32Ota.IapHttps
import Esp32Ota.WifiTls.Memory

-- Update checks and downloads with the memory of the TLS context and of the requests.
namespace Esp32Ota

open CLib Halting

def iapHttpsCheckForUpdateAt (tlsContext : WifiTlsContext) (script : Script) : CallingM (Client App) Unit := do
  let tlsResult ← wifiTlsConnectAt tlsContext script.connect
  if tlsResult = 0 then
    let s ← get
    let _ ← onMemory (httpsSendRequestAt (httpMetadataRequest s.memory.state.client.app) script.request)

def iapHttpsDownloadImageAt (tlsContext : WifiTlsContext) (platform : Nat → FirmwareReplies) (script : Script) :
    CallingM (Client App) Unit := do
  let _ ← wifiTlsConnectAt tlsContext script.connect
  onMemory (onState (onClient (onApp (modify fun s => { s with hasIapSession := false }))))
  let s ← get
  let _ ← onMemory (httpsSendRequestAt (httpFirmwareDataRequest platform s.memory.state.client.app) script.request)

def UpdaterStep.runAt (tlsContext : WifiTlsContext) : UpdaterStep → CallingM (Client App) Unit
  | .checkForUpdate script => iapHttpsCheckForUpdateAt tlsContext script
  | .downloadImage platform script => iapHttpsDownloadImageAt tlsContext platform script

section Steps

variable {params : ValidTlsInit} {base : Heap} {tlsContext : WifiTlsContext} {s : Calling (Client App)} {u : Updater}

-- A program on the heap that refines another one does so next to the calls.
theorem onMemory_follows {α : Type} {x : HeapM Updater α} {y : UpdaterM α} (h : Resting params base s u)
    (hx : RefinesOnHeap base x y s.memory u) : FollowsTls params base (onMemory x) y s u := by
  refine refines_zoom_left hx (fun a b t v ht => ?_) (fun t v ht => ⟨ht, h.given⟩)
  obtain ⟨rfl, ht⟩ := ht
  exact ⟨rfl, ⟨ht.1, h.given⟩, Heap.adds_nil_iff.mp ht.2⟩

-- The request is made from the state of the module on either side.
theorem sendRequest_follows (request : App → HttpRequest App) (replies : RequestReplies) (h : Resting params base s u) :
    Refines (fun _ _ => Resting params base) (PeerCalled params)
      (do
        let s ← get
        let _ ← onMemory (httpsSendRequestAt (request s.memory.state.client.app) replies))
      (do
        let s ← get
        let _ ← httpsSendRequest (request s.client.app) replies) s u := by
  refine refines_bind (S := fun a b t v => a.memory.state = b ∧ Resting params base t v) ⟨u, u, rfl, h.state, h⟩
    fun a b t v ht => ?_
  obtain ⟨rfl, ht⟩ := ht
  refine refines_bind (onMemory_follows ht (httpsSendRequest_refined _ replies ht.owns)) fun _ _ t v ht => ?_
  exact refines_pure ht.2

theorem iapHttpsCheckForUpdate_follows (hctx : InPlace params tlsContext base) (script : Script)
    (h : Resting params base s u) :
    Refines (fun _ _ => Resting params base) (PeerCalled params) (iapHttpsCheckForUpdateAt tlsContext script)
      (iapHttpsCheckForUpdate script) s u := by
  refine refines_bind (wifiTlsConnect_follows hctx script.connect h) fun tlsResult _ t v ht => ?_
  obtain ⟨rfl, ht⟩ := ht
  exact refines_ite (fun _ => sendRequest_follows httpMetadataRequest script.request ht) fun _ => refines_pure ht

theorem iapHttpsDownloadImage_follows (hctx : InPlace params tlsContext base) (platform : Nat → FirmwareReplies)
    (script : Script) (h : Resting params base s u) :
    Refines (fun _ _ => Resting params base) (PeerCalled params) (iapHttpsDownloadImageAt tlsContext platform script)
      (iapHttpsDownloadImage platform script) s u := by
  refine refines_bind (wifiTlsConnect_follows hctx script.connect h) fun _ _ t v ht => ?_
  refine refines_bind (onMemory_follows ht.2 (onState_refined _ ht.2.owns)) fun _ _ t v ht => ?_
  exact sendRequest_follows (httpFirmwareDataRequest platform) script.request ht.2

theorem UpdaterStep.run_follows (hctx : InPlace params tlsContext base) (step : UpdaterStep)
    (h : Resting params base s u) :
    Refines (fun _ _ => Resting params base) (PeerCalled params) (step.runAt tlsContext) step.run s u := by
  cases step with
  | checkForUpdate script => exact iapHttpsCheckForUpdate_follows hctx script h
  | downloadImage platform script => exact iapHttpsDownloadImage_follows hctx platform script h

end Steps

theorem inPlace_of_owns {σ : Type} {base : Heap} {state : σ} {sizeofContext ctx host rootCa peer : Nat}
    {valid : ValidTlsInit} {t : OnHeap σ}
    (h : Owns base state (contextBlocks sizeofContext valid ctx host rootCa peer) t) :
    InPlace valid ⟨some ctx, some host, some rootCa, some peer, valid.serverPort⟩ t.heap where
  serverHostName := h.2.owned _ _ (by simp [contextBlocks])
  serverRootCa := h.2.owned _ _ (by simp [contextBlocks])
  peer := h.2.owned _ _ (by simp [contextBlocks])
  serverPort := rfl

-- With a context that has been created, checks and downloads in any number do what they do
-- without a heap. The heap is then the one that the creation has left, and mbedTLS has been given
-- the strings of the parameters only.
theorem updater_keeps_memory (sizeofContext : Nat) (params : WifiTlsInit) (replies : CreateReplies)
    (steps : List UpdaterStep) (s : OnHeap Updater) :
    wp (wifiTlsCreateContext sizeofContext params replies)
      (fun context t => ∀ tlsContext, context = some tlsContext →
        ∃ valid, wifiTlsValidateParams params = some valid ∧
          Refines (fun _ _ => Resting valid t.heap) (PeerCalled valid) (run (UpdaterStep.runAt tlsContext) steps)
            (run UpdaterStep.run steps) ⟨t, []⟩ s.state)
      (fun _ _ => False) s := by
  refine wp_mono (wifiTlsCreateContext_makes params replies (owns_self s)) (fun context t hmade => ?_)
    (fun _ _ hfalse => hfalse)
  intro tlsContext hcontext
  cases hmade with
  | refused _ _ => cases hcontext
  | outOfMemory _ _ => cases hcontext
  | made valid hparams _ h =>
      cases hcontext
      refine ⟨valid, hparams, refines_run (fun step _ _ hrest => ?_) steps ?_⟩
      · exact step.run_follows (inPlace_of_owns h) hrest
      · exact ⟨⟨h.1, fun _ hcall => (List.not_mem_nil hcall).elim⟩, fun _ => rfl⟩

end Esp32Ota

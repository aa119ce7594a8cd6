import Esp32Ota.Lib.Print
import Esp32Ota.WifiTls.Context

-- `wifi_tls_connect` with the memory that it reads and allocates: the strings are behind the
-- pointers of the context, and the public keys in buffers of their own.
namespace Esp32Ota

open CLib Halting

-- The calls of mbedTLS that are given a string of the context.
inductive PeerCall
  | rootCaParse (pem : Bytes)
  | peerParse (pem : Bytes)
  | setHostname (hostname : Bytes)
  | netConnect (host port : Bytes)
  deriving DecidableEq, Repr

-- The memory and the connection, next to these calls, the most recent first.
structure Calling (σ : Type) where
  memory : OnHeap (Conn σ)
  calls : List PeerCall

abbrev CallingM (σ : Type) := EStateM Halt (Calling σ)

section Definitions

variable {σ τ α : Type}

def onMemory (x : HeapM (Conn σ) α) : CallingM σ α := zoom Calling.memory (fun memory s => { s with memory }) x

def onContext (x : TlsM α) : CallingM σ α := onMemory (onState (onTls x))

def peerCall (call : PeerCall) : CallingM σ Unit := modify fun s => { s with calls := call :: s.calls }

-- The encoding ends at the end of the buffer.
def mbedtlsPkWritePubkeyDerAt (key : PubkeyDer) (buf : Pointer) : HeapM τ Int := do
  match key with
  | .written der _ =>
    memcpy buf (bufSize - der.length) der
    return der.length
  | .failed code _ => return code

def memcmpAt (p q : Pointer) (len : Int) : HeapM τ Bool := do
  let a ← readBytes p (toSize len)
  let b ← readBytes q (toSize len)
  return decide (a = b)

-- It reads the last `len` bytes of the buffer; a negative length prints nothing.
def wifiTlsDumpHexBufferAt (buf : Pointer) (len : Int) : HeapM τ Unit := do
  if 0 < len then
    let _ ← readBytesAt buf (bufSize - len.toNat) len.toNat

-- Keys that differ are printed.
def wifiTlsFinishPinningAt (same : Bool) (certExpectedPubKey : Pointer) (lenExpected : Int)
    (certActualPubKey : Pointer) (lenActual : Int) : HeapM τ Int := do
  if !same then
    wifiTlsDumpHexBufferAt certExpectedPubKey lenExpected
    wifiTlsDumpHexBufferAt certActualPubKey lenActual
  free certExpectedPubKey
  free certActualPubKey
  return if same then 0 else -1

def wifiTlsCompareKeysAt (replies : PinningReplies) (certExpectedPubKey certActualPubKey : Pointer) :
    HeapM τ Int := do
  let lenExpected ← mbedtlsPkWritePubkeyDerAt replies.expected certExpectedPubKey
  let lenActual ← mbedtlsPkWritePubkeyDerAt replies.actual certActualPubKey
  let same ← if lenExpected = lenActual then memcmpAt certExpectedPubKey certActualPubKey lenActual else pure false
  wifiTlsFinishPinningAt same certExpectedPubKey lenExpected certActualPubKey lenActual

def wifiTlsCertPinningAt (replies : PinningReplies) : HeapM τ Int := do
  if !replies.peerCert then
    return -1
  let certExpectedPubKey ← calloc replies.callocExpected bufSize
  let certActualPubKey ← calloc replies.callocActual bufSize
  if certExpectedPubKey.isNone || certActualPubKey.isNone then
    if certExpectedPubKey.isSome then
      free certExpectedPubKey
    if certActualPubKey.isSome then
      free certActualPubKey
    return -1
  wifiTlsCompareKeysAt replies certExpectedPubKey certActualPubKey

def wifiTlsInitContextAt (ctx : WifiTlsContext) (replies : ConnectReplies) : CallingM σ Int := do
  if (← get).memory.state.tls.isValid then
    return 0
  onContext (modify fun s => { s with handshakeOver := false })
  if replies.ctrDrbgSeed ≠ 0 then
    onContext wifiTlsResetContext
    return -1
  peerCall (.rootCaParse (← onMemory (readString ctx.serverRootCaPublicKeyPem)))
  if replies.rootCaParse ≠ 0 then
    onContext wifiTlsResetContext
    return -1
  peerCall (.peerParse (← onMemory (readString ctx.peerPublicKeyPem)))
  if replies.peerParse ≠ 0 then
    onContext wifiTlsResetContext
    return -1
  peerCall (.setHostname (← onMemory (readString ctx.serverHostName)))
  if replies.sslSetup ≠ 0 then
    onContext wifiTlsResetContext
    return -1
  onContext (modify fun s => { s with isValid := true })
  return 0

-- The size of `portBuf`.
def portBufSize : Nat := 16

-- The text of the port with its NUL has to fit.
def sprintfPort (serverPort : Int) : CallingM σ Bytes :=
  if (formatInt serverPort).length < portBufSize then return formatInt serverPort else throw .undefined

def wifiTlsStartSessionAt (ctx : WifiTlsContext) (replies : ConnectReplies) : CallingM σ Int := do
  let initContextResult ← wifiTlsInitContextAt ctx replies
  if initContextResult ≠ 0 then
    return initContextResult
  onContext (modify fun s => { s with serverFd := none })
  let portBuf ← sprintfPort ctx.serverPort
  peerCall (.netConnect (← onMemory (readString ctx.serverHostName)) portBuf)
  if replies.netConnect ≠ 0 then
    onContext wifiTlsResetContext
    return -1
  onContext mbedtlsNetConnect
  let handshakeResult ← onContext (wifiTlsHandshake replies.handshake)
  if handshakeResult ≠ 0 then
    onContext wifiTlsDisconnect
    return -1
  onContext (tlsLog (.verifyResult replies.verifyResult))
  if replies.verifyResult ≠ 0 then
    onContext wifiTlsDisconnect
    return -1
  let pinningResult ← onMemory (wifiTlsCertPinningAt replies.pinning)
  onContext (tlsLog (.pinning pinningResult))
  if pinningResult ≠ 0 then
    onContext wifiTlsDisconnect
    return -1
  return 0

def wifiTlsConnectAt (ctx : WifiTlsContext) (replies : ConnectReplies) : CallingM σ Int := do
  let result ← wifiTlsStartSessionAt ctx replies
  onContext (tlsLog (.connectReturned result))
  return result

end Definitions

section Pinning

variable {τ : Type} {base : Heap} {state : τ}

theorem mbedtlsPkWritePubkeyDerAt_writes (key : PubkeyDer) {blocks : List (Nat × Bytes)} {i : Nat} {buf : Bytes}
    {s : OnHeap τ} (hbuf : buf.length = bufSize) (h : Owns base state ((i, buf) :: blocks) s) :
    wp (mbedtlsPkWritePubkeyDerAt key (some i))
      (fun len t => len = (mbedtlsPkWritePubkeyDer key buf).1 ∧
        Owns base state ((i, (mbedtlsPkWritePubkeyDer key buf).2) :: blocks) t)
      (fun _ _ => False) s := by
  unfold mbedtlsPkWritePubkeyDerAt mbedtlsPkWritePubkeyDer
  cases key with
  | written der hlen =>
      rw [wp_bind]
      refine wp_memcpy h (by omega) fun t ht => ⟨rfl, ?_⟩
      rw [hbuf]
      exact ht
  | failed code _ => exact ⟨rfl, h⟩

-- What the writing of a key answers, and that it stays in the buffer.
theorem pubkeyDer_bounds (key : PubkeyDer) {buf : Bytes} (hbuf : buf.length = bufSize) :
    (mbedtlsPkWritePubkeyDer key buf).1 ≤ bufSize ∧ (mbedtlsPkWritePubkeyDer key buf).2.length = bufSize := by
  cases key with
  | written der hlen =>
      refine ⟨by simpa only [mbedtlsPkWritePubkeyDer, Int.ofNat_le] using hlen.2, ?_⟩
      simp only [mbedtlsPkWritePubkeyDer]
      rw [length_store _ _ _ (by omega), hbuf]
  | failed code hcode =>
      refine ⟨?_, hbuf⟩
      simp only [mbedtlsPkWritePubkeyDer]
      unfold bufSize
      omega

theorem memcmpAt_compares {a b : Bytes} {i j : Nat} {s : OnHeap τ} (len : Int) (ha : a.length = bufSize)
    (hb : b.length = bufSize) (h : Owns base state [(j, b), (i, a)] s) :
    wp (memcmpAt (some i) (some j) len)
      (fun same t => memcmp a b len = some same ∧ Owns base state [(j, b), (i, a)] t)
      (fun e t => memcmp a b len = none ∧ e = .undefined ∧ t.state = state) s := by
  unfold memcmpAt memcmp
  rw [ha, hb, Nat.min_self]
  by_cases hlen : toSize len ≤ bufSize
  · rw [if_pos hlen, wp_bind]
    refine wp_readBytes (h.perm (List.Perm.swap _ _ _)) (by omega) ?_
    rw [wp_bind]
    exact wp_readBytes h (by omega) ⟨rfl, h⟩
  · have hshort : ¬toSize len ≤ a.length := by omega
    rw [if_neg hlen]
    simp only [readBytes, wp_bind, wp_get, Heap.read, (h.perm (List.Perm.swap _ _ _)).2.head, if_neg hshort, wp_throw]
    exact ⟨trivial, trivial, h.1⟩

theorem wifiTlsDumpHexBufferAt_reads {blocks : List (Nat × Bytes)} {i : Nat} {buf : Bytes} {len : Int}
    {Q : Unit → OnHeap τ → Prop} {E : Halt → OnHeap τ → Prop} {s : OnHeap τ} (hbuf : buf.length = bufSize)
    (hlen : len ≤ bufSize) (h : Owns base state ((i, buf) :: blocks) s) (hread : Q ⟨⟩ s) :
    wp (wifiTlsDumpHexBufferAt (some i) len) Q E s := by
  unfold wifiTlsDumpHexBufferAt
  rw [wp_ite]
  refine ⟨fun hpos => ?_, fun _ => hread⟩
  rw [wp_bind]
  exact wp_readBytesAt h (by omega) hread

theorem wifiTlsFinishPinningAt_frees (same : Bool) {i j : Nat} {a b : Bytes} {lenExpected lenActual : Int}
    {s : OnHeap τ} (ha : a.length = bufSize) (hb : b.length = bufSize) (hlenExpected : lenExpected ≤ bufSize)
    (hlenActual : lenActual ≤ bufSize) (h : Owns base state [(j, b), (i, a)] s) :
    wp (wifiTlsFinishPinningAt same (some i) lenExpected (some j) lenActual)
      (fun result t => result = (if same then 0 else -1) ∧ Owns base state [] t) (fun _ _ => False) s := by
  have hfreed : wp (do
      free (some i)
      free (some j)
      return if same then (0 : Int) else -1)
      (fun result t => result = (if same then 0 else -1) ∧ Owns base state [] t) (fun _ _ => False) s := by
    simp only [wp_bind]
    exact wp_free (h.perm (List.Perm.swap _ _ _)) fun t ht => wp_free ht fun t ht => ⟨rfl, ht⟩
  unfold wifiTlsFinishPinningAt
  cases same with
  | true => exact hfreed
  | false =>
      simp only [Bool.not_false, ite_true]
      rw [wp_bind]
      refine wifiTlsDumpHexBufferAt_reads ha hlenExpected (h.perm (List.Perm.swap _ _ _)) ?_
      rw [wp_bind]
      exact wifiTlsDumpHexBufferAt_reads hb hlenActual h hfreed

-- The buffers hold what the keys are compared by, and both are freed.
theorem wifiTlsCompareKeysAt_compares {replies : PinningReplies} (hcert : replies.peerCert = true)
    (hexpected : replies.callocExpected = true) (hactual : replies.callocActual = true) {i j : Nat} {s : OnHeap τ}
    (h : Owns base state [(j, List.replicate bufSize 0), (i, List.replicate bufSize 0)] s) :
    wp (wifiTlsCompareKeysAt replies (some i) (some j))
      (fun result t => wifiTlsCertPinning replies = some result ∧ Owns base state [] t)
      (fun e t => wifiTlsCertPinning replies = none ∧ e = .undefined ∧ t.state = state) s := by
  have hcleared : (List.replicate bufSize (0 : UInt8)).length = bufSize := List.length_replicate
  obtain ⟨hlenExpected, hbufExpected⟩ := pubkeyDer_bounds replies.expected hcleared
  obtain ⟨hlenActual, hbufActual⟩ := pubkeyDer_bounds replies.actual hcleared
  simp only [wifiTlsCertPinning, hcert, hexpected, hactual, Bool.not_true, Bool.or_self, Bool.false_eq_true, ite_false]
  generalize hencoded : mbedtlsPkWritePubkeyDer replies.expected (List.replicate bufSize 0) = expected at *
  generalize hencoded' : mbedtlsPkWritePubkeyDer replies.actual (List.replicate bufSize 0) = actual at *
  unfold wifiTlsCompareKeysAt
  rw [wp_bind]
  refine wp_mono (mbedtlsPkWritePubkeyDerAt_writes replies.expected hcleared (h.perm (List.Perm.swap _ _ _)))
    (fun lenExpected t ht => ?_) (fun _ _ hfalse => hfalse.elim)
  rw [hencoded] at ht
  obtain ⟨rfl, ht⟩ := ht
  rw [wp_bind]
  refine wp_mono (mbedtlsPkWritePubkeyDerAt_writes replies.actual hcleared (ht.perm (List.Perm.swap _ _ _)))
    (fun lenActual t ht => ?_) (fun _ _ hfalse => hfalse.elim)
  rw [hencoded'] at ht
  obtain ⟨rfl, ht⟩ := ht
  by_cases hlen : expected.1 = actual.1
  · simp only [if_pos hlen]
    rw [wp_bind]
    refine wp_mono (memcmpAt_compares actual.1 hbufExpected hbufActual ht) (fun same t hsame => ?_)
      (fun e t hsame => ?_)
    · obtain ⟨hsame, ht⟩ := hsame
      rw [hsame]
      refine wp_mono (wifiTlsFinishPinningAt_frees same hbufExpected hbufActual hlenExpected hlenActual ht)
        (fun result t hresult => ⟨?_, hresult.2⟩) (fun _ _ hfalse => hfalse.elim)
      rw [hresult.1]
      rfl
    · obtain ⟨hsame, he, ht⟩ := hsame
      rw [hsame]
      exact ⟨rfl, he, ht⟩
  · simp only [if_neg hlen, pure_bind]
    refine wp_mono (wifiTlsFinishPinningAt_frees false hbufExpected hbufActual hlenExpected hlenActual ht)
      (fun result t hresult => ⟨?_, hresult.2⟩) (fun _ _ hfalse => hfalse.elim)
    rw [hresult.1]
    rfl

theorem wifiTlsCertPinningAt_pins (replies : PinningReplies) {s : OnHeap τ} (h : Owns base state [] s) :
    wp (wifiTlsCertPinningAt replies)
      (fun result t => wifiTlsCertPinning replies = some result ∧ Owns base state [] t)
      (fun e t => wifiTlsCertPinning replies = none ∧ e = .undefined ∧ t.state = state) s := by
  unfold wifiTlsCertPinningAt
  cases hcert : replies.peerCert with
  | false => exact ⟨by simp only [wifiTlsCertPinning, hcert, Bool.not_false, ite_true], h⟩
  | true =>
      simp only [Bool.not_true, Bool.false_eq_true, ite_false]
      rw [wp_bind]
      refine wp_calloc h (fun hexpected => ?_) fun i t hexpected ht => ?_
      · have hfails : wifiTlsCertPinning replies = some (-1) := by
          simp only [wifiTlsCertPinning, hcert, hexpected, Bool.not_true, Bool.not_false, Bool.true_or,
            Bool.false_eq_true, ite_true, ite_false]
        rw [wp_bind]
        refine wp_calloc h (fun _ => ⟨hfails, h⟩) fun j t _ ht => ?_
        simp only [Option.isNone_none, Bool.true_or, ite_true, Option.isSome_none, Bool.false_eq_true, ite_false,
          Option.isSome_some]
        rw [wp_bind]
        exact wp_free ht fun t ht => ⟨hfails, ht⟩
      · rw [wp_bind]
        refine wp_calloc ht (fun hactual => ?_) fun j t hactual ht => ?_
        · have hfails : wifiTlsCertPinning replies = some (-1) := by
            simp only [wifiTlsCertPinning, hcert, hexpected, hactual, Bool.not_true, Bool.not_false, Bool.or_true,
              Bool.false_eq_true, ite_true, ite_false]
          simp only [Option.isNone_none, Bool.or_true, ite_true, Option.isSome_none, Bool.false_eq_true, ite_false,
            Option.isSome_some, wp_bind]
          exact wp_free ht fun t ht => ⟨hfails, ht⟩
        · simp only [Option.isNone_some, Bool.or_self, Bool.false_eq_true, ite_false]
          exact wifiTlsCompareKeysAt_compares hcert hexpected hactual ht

end Pinning

section Session

variable {σ α : Type}

-- The strings of the context are behind its pointers.
structure InPlace (params : ValidTlsInit) (ctx : WifiTlsContext) (heap : Heap) : Prop where
  serverHostName : heap.deref ctx.serverHostName = some (cstr params.serverHostName ++ [0])
  serverRootCa : heap.deref ctx.serverRootCaPublicKeyPem = some (cstr params.serverRootCaPublicKeyPem ++ [0])
  peer : heap.deref ctx.peerPublicKeyPem = some (cstr params.peerPublicKeyPem ++ [0])
  serverPort : ctx.serverPort = params.serverPort

-- The strings that mbedTLS is given for the parameters.
def ValidTlsInit.Gives (params : ValidTlsInit) : PeerCall → Prop
  | .rootCaParse pem => pem = cstr params.serverRootCaPublicKeyPem
  | .peerParse pem => pem = cstr params.peerPublicKeyPem
  | .setHostname hostname => hostname = cstr params.serverHostName
  | .netConnect host port => host = cstr params.serverHostName ∧ port = formatInt params.serverPort

-- The connection is the other one, and mbedTLS has been given nothing else.
structure PeerCalled (params : ValidTlsInit) (t : Calling σ) (v : Conn σ) : Prop where
  state : t.memory.state = v
  given : ∀ call ∈ t.calls, params.Gives call

-- In addition all memory is as it was.
structure Resting (params : ValidTlsInit) (base : Heap) (t : Calling σ) (v : Conn σ) : Prop
    extends PeerCalled params t v where
  heap : base.Same t.memory.heap

abbrev FollowsTls (params : ValidTlsInit) (base : Heap) (x : CallingM σ α) (y : ConnM σ α) (s : Calling σ)
    (u : Conn σ) : Prop :=
  Refines (fun a b t v => a = b ∧ Resting params base t v) (PeerCalled params) x y s u

theorem Resting.owns {params : ValidTlsInit} {base : Heap} {t : Calling σ} {v : Conn σ} (h : Resting params base t v) :
    Owns base v [] t.memory := ⟨h.state, Heap.adds_nil_iff.mpr h.heap⟩

theorem length_formatInt_port (params : ValidTlsInit) : (formatInt params.serverPort).length < portBufSize := by
  have hport := params.hport
  have hle : (formatNat params.serverPort.natAbs).length ≤ 5 := length_formatNat_le (by decide) (by omega)
  unfold formatInt portBufSize
  rw [if_neg (by omega)]
  omega

theorem onTls_bind {β : Type} (x : TlsM α) (k : α → TlsM β) :
    (onTls (x >>= k) : ConnM σ β) = onTls x >>= fun a => onTls (k a) := by
  funext u
  simp only [onTls, zoom, bind, EStateM.bind]
  cases x u.tls <;> rfl

theorem onTls_ite (c : Prop) [Decidable c] (x y : TlsM α) :
    (onTls (if c then x else y) : ConnM σ α) = if c then onTls x else onTls y := apply_ite onTls c x y

section Refinement

variable {params : ValidTlsInit} {base : Heap} {ctx : WifiTlsContext} {s : Calling σ} {u : Conn σ}

-- Steps of the connection alone.
theorem onContext_follows (x : TlsM α) (h : Resting params base s u) :
    FollowsTls params base (onContext x) (onTls x) s u := by
  refine refines_zoom_left (onState_refined (onTls x) h.owns) (fun a b t v ht => ?_) (fun t v ht => ?_)
  · obtain ⟨rfl, ht⟩ := ht
    exact ⟨rfl, ⟨ht.1, h.given⟩, Heap.adds_nil_iff.mp ht.2⟩
  · exact ⟨ht, h.given⟩

-- Both sides make the same steps of the connection, then go on.
theorem onContext_then {β : Type} {x : TlsM α} {k : α → CallingM σ β} {l : α → TlsM β} (h : Resting params base s u)
    (hk : ∀ a t v, Resting params base t v → FollowsTls params base (k a) (onTls (l a)) t v) :
    FollowsTls params base (onContext x >>= k) (onTls (x >>= l)) s u := by
  rw [onTls_bind]
  refine refines_bind (onContext_follows x h) fun a b t v ht => ?_
  obtain ⟨rfl, ht⟩ := ht
  exact hk a t v ht

theorem onContext_return {x : TlsM Unit} (a : α) (h : Resting params base s u) :
    FollowsTls params base (onContext x >>= fun _ => pure a) (onTls (x >>= fun _ => pure a)) s u :=
  onContext_then h fun _ _ _ ht => refines_pure ⟨rfl, ht⟩

-- mbedTLS is given a string of the context.
theorem peerCall_string {p : Pointer} {text : Bytes} {call : Bytes → PeerCall} {k : CallingM σ α} {y : ConnM σ α}
    (hstring : base.deref p = some (cstr text ++ [0])) (hgives : params.Gives (call (cstr text)))
    (h : Resting params base s u) (hk : ∀ t, Resting params base t u → FollowsTls params base k y t u) :
    FollowsTls params base (do
      let text ← onMemory (readString p)
      peerCall (call text)
      k) y s u := by
  have hcopied : cstr (cstr text ++ [0]) = cstr text := by
    simpa only [List.append_nil] using cstr_copied text []
  refine refines_left ?_
  rw [onMemory, wp_zoom]
  refine wp_readString h.owns hstring (List.mem_append_right _ List.mem_cons_self) ?_
  rw [hcopied]
  refine hk _ ⟨⟨h.state, fun c hc => ?_⟩, h.heap⟩
  rcases List.mem_cons.mp hc with rfl | hc
  · exact hgives
  · exact h.given c hc

theorem wifiTlsInitContext_follows (hctx : InPlace params ctx base) (replies : ConnectReplies)
    (h : Resting params base s u) :
    FollowsTls params base (wifiTlsInitContextAt ctx replies) (onTls (wifiTlsInitContext replies)) s u := by
  unfold wifiTlsInitContextAt wifiTlsInitContext
  rw [onTls_bind]
  refine refines_bind (S := fun a b t v => a.memory.state.tls = b ∧ Resting params base t v)
    ⟨u.tls, u, rfl, congrArg Conn.tls h.state, h⟩ fun a b t v ht => ?_
  obtain ⟨rfl, ht⟩ := ht
  rw [onTls_ite]
  refine refines_ite (fun _ => refines_pure ⟨rfl, ht⟩) fun _ => ?_
  refine onContext_then ht fun _ t v ht => ?_
  rw [onTls_ite]
  refine refines_ite (fun _ => onContext_return _ ht) fun _ => ?_
  refine peerCall_string hctx.serverRootCa rfl ht fun t ht => ?_
  rw [onTls_ite]
  refine refines_ite (fun _ => onContext_return _ ht) fun _ => ?_
  refine peerCall_string hctx.peer rfl ht fun t ht => ?_
  rw [onTls_ite]
  refine refines_ite (fun _ => onContext_return _ ht) fun _ => ?_
  refine peerCall_string hctx.serverHostName rfl ht fun t ht => ?_
  rw [onTls_ite]
  exact refines_ite (fun _ => onContext_return _ ht) fun _ => onContext_return _ ht

theorem sprintfPort_then (hctx : InPlace params ctx base) {k : Bytes → CallingM σ α} {y : ConnM σ α}
    (hk : FollowsTls params base (k (formatInt params.serverPort)) y s u) :
    FollowsTls params base (sprintfPort ctx.serverPort >>= k) y s u := by
  have hfits := length_formatInt_port params
  rw [hctx.serverPort, sprintfPort, if_pos hfits]
  exact refines_left hk

-- The pinning answers what the keys say, or halts as the comparison does.
theorem certPinning_then {β : Type} (replies : PinningReplies) {k : Int → CallingM σ β} {l : Int → TlsM β}
    (h : Resting params base s u)
    (hk : ∀ a t, Resting params base t u → FollowsTls params base (k a) (onTls (l a)) t u) :
    FollowsTls params base (onMemory (wifiTlsCertPinningAt replies) >>= k)
      (onTls (match wifiTlsCertPinning replies with
        | none => throw .undefined
        | some pinningResult => l pinningResult)) s u := by
  have hpins := wifiTlsCertPinningAt_pins replies h.owns
  unfold FollowsTls Refines
  rw [wp_bind, onMemory, wp_zoom]
  refine wp_mono hpins (fun a t ht => ?_) (fun e t ht => ?_)
  · obtain ⟨hresult, ht⟩ := ht
    rw [hresult]
    exact hk a _ ⟨⟨ht.1, h.given⟩, Heap.adds_nil_iff.mp ht.2⟩
  · obtain ⟨hresult, rfl, ht⟩ := ht
    rw [hresult]
    exact ⟨u, rfl, ht, h.given⟩

theorem wifiTlsStartSession_follows (hctx : InPlace params ctx base) (replies : ConnectReplies)
    (h : Resting params base s u) :
    FollowsTls params base (wifiTlsStartSessionAt ctx replies) (onTls (wifiTlsStartSession replies)) s u := by
  unfold wifiTlsStartSessionAt wifiTlsStartSession
  rw [onTls_bind]
  refine refines_bind (wifiTlsInitContext_follows hctx replies h) fun initContextResult _ t v ht => ?_
  obtain ⟨rfl, ht⟩ := ht
  rw [onTls_ite]
  refine refines_ite (fun _ => refines_pure ⟨rfl, ht⟩) fun _ => ?_
  refine onContext_then ht fun _ t v ht => sprintfPort_then hctx ?_
  refine peerCall_string hctx.serverHostName ⟨rfl, rfl⟩ ht fun t ht => ?_
  rw [onTls_ite]
  refine refines_ite (fun _ => onContext_return _ ht) fun _ => ?_
  refine onContext_then ht fun _ t v ht => onContext_then ht fun handshakeResult t v ht => ?_
  rw [onTls_ite]
  refine refines_ite (fun _ => onContext_return _ ht) fun _ => ?_
  refine onContext_then ht fun _ t v ht => ?_
  rw [onTls_ite]
  refine refines_ite (fun _ => onContext_return _ ht) fun _ => ?_
  refine certPinning_then replies.pinning ht fun pinningResult t ht => onContext_then ht fun _ t v ht => ?_
  rw [onTls_ite]
  exact refines_ite (fun _ => onContext_return _ ht) fun _ => refines_pure ⟨rfl, ht⟩

theorem wifiTlsConnect_follows (hctx : InPlace params ctx base) (replies : ConnectReplies)
    (h : Resting params base s u) :
    FollowsTls params base (wifiTlsConnectAt ctx replies) (onTls (wifiTlsConnect replies)) s u := by
  unfold wifiTlsConnectAt wifiTlsConnect
  rw [onTls_bind]
  refine refines_bind (wifiTlsStartSession_follows hctx replies h) fun result _ t v ht => ?_
  obtain ⟨rfl, ht⟩ := ht
  exact onContext_return _ ht

end Refinement

end Session

end Esp32Ota

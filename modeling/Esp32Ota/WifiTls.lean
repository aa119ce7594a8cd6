import Esp32Ota.Lib.Halting
import Esp32Ota.Lib.CLib

-- wifi_tls.c: the TLS context, certificate pinning and the request loop.
namespace Esp32Ota

open CLib Halting

def MBEDTLS_ERR_SSL_WANT_READ : Int := -0x6900

def MBEDTLS_ERR_SSL_WANT_WRITE : Int := -0x6880

-- Every socket that `mbedtls_net_connect` opens has a number of its own.
abbrev Socket := Nat

-- The calls into mbedTLS that matter for the peer, with their results, and the
-- connects that returned. A read or write is there as soon as it is called.
inductive TlsEvent
  | netConnect (socket : Socket)
  | handshakeOver (socket : Option Socket)
  | verifyResult (flags : Nat)
  | pinning (result : Int)
  | connectReturned (result : Int)
  | reset
  | sslWrite
  | sent (bytes : Bytes)
  | sslRead
  | received (bytes : Bytes)
  deriving DecidableEq, Repr

-- `wifi_tls_context_t`, as far as it changes: `handshakeOver` is the state of
-- `ssl`, and a descriptor of -1 is `none`. The most recent event comes first.
structure Tls where
  isValid : Bool
  handshakeOver : Bool
  serverFd : Option Socket
  openSockets : List Socket
  nextSocket : Socket
  trace : List TlsEvent

-- `wifi_tls_create_context` clears the structure; descriptor 0 is not one of ours.
def Tls.create : Tls := ⟨false, false, some 0, [], 1, []⟩

abbrev TlsM := EStateM Halt Tls

-- The size of the buffers for the public keys.
def bufSize : Nat := 512

-- What `mbedtls_pk_write_pubkey_der` makes of a key.
inductive PubkeyDer
  | written (der : Bytes) (hlen : 0 < der.length ∧ der.length ≤ bufSize)
  | failed (code : Int) (hcode : -2 ^ 31 ≤ code ∧ code < 0)
  deriving DecidableEq

structure PinningReplies where
  peerCert : Bool
  callocExpected : Bool
  callocActual : Bool
  expected : PubkeyDer
  actual : PubkeyDer

-- The answers to one `wifi_tls_connect`; the list is that of the successive
-- `mbedtls_ssl_handshake` calls.
structure ConnectReplies where
  ctrDrbgSeed : Int
  rootCaParse : Int
  peerParse : Int
  sslSetup : Int
  netConnect : Int
  handshake : List Int
  verifyResult : Nat
  pinning : PinningReplies

def tlsLog (event : TlsEvent) : TlsM Unit :=
  modify fun s => { s with trace := event :: s.trace }

-- The encoding ends at the end of the buffer.
def mbedtlsPkWritePubkeyDer (key : PubkeyDer) (buf : Bytes) : Int × Bytes :=
  match key with
  | .written der _ => (der.length, store buf (buf.length - der.length) der)
  | .failed code _ => (code, buf)

-- The length is converted to `size_t`, and the buffers must be that long.
def memcmp (a b : Bytes) (len : Int) : Option Bool :=
  if toSize len ≤ min a.length b.length then
    some (decide (a.take (toSize len) = b.take (toSize len)))
  else none

-- No result where C leaves the comparison undefined.
def wifiTlsCertPinning (replies : PinningReplies) : Option Int :=
  if !replies.peerCert then some (-1)
  else if !replies.callocExpected || !replies.callocActual then some (-1)
  else
    let (lenExpected, certExpectedPubKey) :=
      mbedtlsPkWritePubkeyDer replies.expected (List.replicate bufSize 0)
    let (lenActual, certActualPubKey) :=
      mbedtlsPkWritePubkeyDer replies.actual (List.replicate bufSize 0)
    if lenExpected = lenActual then
      (memcmp certExpectedPubKey certActualPubKey lenActual).map fun same => if same then 0 else -1
    else some (-1)

def wifiTlsResetContext : TlsM Unit := do
  modify fun s => { s with isValid := false, handshakeOver := false }
  tlsLog .reset

def wifiTlsInitContext (replies : ConnectReplies) : TlsM Int := do
  if (← get).isValid then
    return 0
  modify fun s => { s with handshakeOver := false }
  if replies.ctrDrbgSeed ≠ 0 then
    wifiTlsResetContext
    return -1
  if replies.rootCaParse ≠ 0 then
    wifiTlsResetContext
    return -1
  if replies.peerParse ≠ 0 then
    wifiTlsResetContext
    return -1
  if replies.sslSetup ≠ 0 then
    wifiTlsResetContext
    return -1
  modify fun s => { s with isValid := true }
  return 0

def mbedtlsNetConnect : TlsM Unit := do
  modify fun s => { s with
    serverFd := some s.nextSocket
    openSockets := s.nextSocket :: s.openSockets
    nextSocket := s.nextSocket + 1 }
  tlsLog (.netConnect ((← get).nextSocket - 1))

def mbedtlsNetFree : TlsM Unit :=
  modify fun s => { s with
    serverFd := none
    openSockets := s.openSockets.filter fun socket => s.serverFd ≠ some socket }

def wifiTlsDisconnect : TlsM Unit := do
  mbedtlsNetFree
  wifiTlsResetContext

-- A handshake that is over is not repeated: the call returns 0 at once.
def wifiTlsHandshake : List Int → TlsM Int
  | [] => do
    if (← get).handshakeOver then
      return 0
    throw .blocked
  | handshakeResult :: handshakeResults => do
    if (← get).handshakeOver then
      return 0
    if handshakeResult = 0 then
      modify fun s => { s with handshakeOver := true }
      tlsLog (.handshakeOver (← get).serverFd)
      return 0
    if handshakeResult = MBEDTLS_ERR_SSL_WANT_READ ∨ handshakeResult = MBEDTLS_ERR_SSL_WANT_WRITE then
      wifiTlsHandshake handshakeResults
    else
      return -1

-- The body of `wifi_tls_connect`, without the record of its result.
def wifiTlsStartSession (replies : ConnectReplies) : TlsM Int := do
  let initContextResult ← wifiTlsInitContext replies
  if initContextResult ≠ 0 then
    return initContextResult
  modify fun s => { s with serverFd := none }
  if replies.netConnect ≠ 0 then
    wifiTlsResetContext
    return -1
  mbedtlsNetConnect
  let handshakeResult ← wifiTlsHandshake replies.handshake
  if handshakeResult ≠ 0 then
    wifiTlsDisconnect
    return -1
  tlsLog (.verifyResult replies.verifyResult)
  if replies.verifyResult ≠ 0 then
    wifiTlsDisconnect
    return -1
  match wifiTlsCertPinning replies.pinning with
  | none => throw .undefined
  | some pinningResult =>
    tlsLog (.pinning pinningResult)
    if pinningResult ≠ 0 then
      wifiTlsDisconnect
      return -1
    return 0

def wifiTlsConnect (replies : ConnectReplies) : TlsM Int := do
  let result ← wifiTlsStartSession replies
  tlsLog (.connectReturned result)
  return result

-- The TLS context next to the state of the client that its callback works on.
structure Conn (σ : Type) where
  tls : Tls
  client : σ

abbrev ConnM (σ : Type) := EStateM Halt (Conn σ)

section Request

variable {σ α : Type}

def onTls (x : TlsM α) : ConnM σ α := zoom Conn.tls (fun tls s => { s with tls }) x

def onClient (x : EStateM Halt σ α) : ConnM σ α :=
  zoom Conn.client (fun client s => { s with client }) x

-- `tls_response_buffer_size`, the most that one read returns.
def tlsResponseBufferSize : Nat := 4096

abbrev Fragment := { bytes : Bytes // 0 < bytes.length ∧ bytes.length ≤ tlsResponseBufferSize }

inductive ReadResult
  | eof
  | data (fragment : Fragment)
  | wantRead
  | wantWrite
  | error (code : Int)

-- The answer is whether the whole request has been written.
def wifiTlsWriteLoop : List Int → Bytes → TlsM Bool
  | [], request => do
    if request.length = 0 then
      return true
    tlsLog .sslWrite
    throw .blocked
  | ret :: rets, request => do
    if request.length = 0 then
      return true
    tlsLog .sslWrite
    if ret > 0 then
      if ret > request.length then
        throw .undefined
      tlsLog (.sent (request.take ret.toNat))
      wifiTlsWriteLoop rets (request.drop ret.toNat)
    else if ret = MBEDTLS_ERR_SSL_WANT_READ ∨ ret = MBEDTLS_ERR_SSL_WANT_WRITE then
      wifiTlsWriteLoop rets request
    else
      wifiTlsDisconnect
      return false

-- `responseBuffer` keeps behind a read what earlier reads have left there.
def wifiTlsReadLoop (callback : Nat → Bytes → Nat → EStateM Halt σ Bool) :
    List ReadResult → Nat → Bytes → ConnM σ Int
  | [], _, _ => do
    onTls (tlsLog .sslRead)
    throw .blocked
  | read :: reads, callbackIndex, responseBuffer => do
    onTls (tlsLog .sslRead)
    match read with
    | .eof =>
      onTls wifiTlsDisconnect
      return 0
    | .data fragment =>
      onTls (tlsLog (.received fragment.val))
      let responseBuffer := store responseBuffer 0 fragment.val
      let continueReading ← onClient (callback callbackIndex responseBuffer fragment.val.length)
      if !continueReading then
        onTls wifiTlsDisconnect
        return 0
      wifiTlsReadLoop callback reads (callbackIndex + 1) responseBuffer
    | .wantRead => wifiTlsReadLoop callback reads callbackIndex responseBuffer
    | .wantWrite => wifiTlsReadLoop callback reads callbackIndex responseBuffer
    | .error _ =>
      onTls wifiTlsDisconnect
      return -1

def wifiTlsSendRequest (request responseBuffer : Bytes)
    (callback : Nat → Bytes → Nat → EStateM Halt σ Bool) (writes : List Int)
    (reads : List ReadResult) : ConnM σ Int := do
  if ← onTls (wifiTlsWriteLoop writes request) then
    wifiTlsReadLoop callback reads 0 responseBuffer
  else
    return -1

end Request

end Esp32Ota

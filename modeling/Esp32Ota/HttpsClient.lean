import Esp32Ota.WifiTls

-- https_client.c: HTTPS requests on a TLS context.
namespace Esp32Ota

open CLib Halting

inductive HttpErr
  | success
  | invalidArgs
  | outOfMemory
  | notImplemented
  | bufferTooSmall
  | sendFailed
  | invalidStatusLine
  | versionNotSupported
  | non200StatusCode
  deriving DecidableEq, Repr

def HTTP_GET : Nat := 0

inductive HttpResponseMode
  | waitForCompleteBody
  | streamBody
  deriving DecidableEq, Repr

inductive HttpContinueReceiving
  | continueReceiving
  | stopReceiving
  deriving DecidableEq, Repr

-- The callbacks work on the state of the application, and the body callback
-- sees the response buffer.
abbrev ErrorCallback (α : Type) := HttpErr → Int → EStateM Halt α Unit

abbrev BodyCallback (α : Type) := Bytes → Nat → EStateM Halt α HttpContinueReceiving

-- `http_request_t`; a missing pointer is `none`.
structure HttpRequest (α : Type) where
  verb : Nat
  host : Option Bytes
  path : Option Bytes
  responseBuffer : Option Bytes
  errorCallback : Option (ErrorCallback α)
  responseMode : HttpResponseMode
  bodyCallback : Option (BodyCallback α)

-- A request that `https_validate_request` has accepted.
structure ValidRequest (α : Type) where
  host : Bytes
  path : Bytes
  responseBuffer : Bytes
  errorCallback : ErrorCallback α
  responseMode : HttpResponseMode
  bodyCallback : BodyCallback α

-- The counters of `http_request_context_t`.
structure HttpRequestContext where
  responseBufferCount : Nat
  responseBodyTotalCount : Nat
  contentLength : Nat
  isProcessingHeaders : Bool

-- The callbacks made, each with the response buffer it finds.
inductive HttpEvent
  | body (responseBuffer : Bytes) (bytesReceived : Nat)
  | error (error : HttpErr) (additionalInfo : Int)
  deriving DecidableEq, Repr

-- The context and the response buffer of the latest request, and its
-- callbacks, the most recent first.
structure Client (α : Type) where
  context : HttpRequestContext
  responseBuffer : Bytes
  events : List HttpEvent
  app : α

abbrev ClientM (α : Type) := EStateM Halt (Client α)

-- Arithmetic on `size_t`.
def sizeT (n : Nat) : Nat := n % 2 ^ 32

def crlfcrlf : Bytes := ascii "\r\n\r\n"

-- The three numbers of `sscanf(text, "HTTP/%d.%d %d ", ...)`.
def scanStatusLine (text : Bytes) : Option (Int × Int × Int) :=
  if (ascii "HTTP/").isPrefixOf text then
    match strtol (text.drop 5) with
    | some (httpVersionMajor, 46 :: rest) =>
      match strtol rest with
      | some (httpVersionMinor, rest) =>
        match strtol rest with
        | some (httpStatusCode, _) => some (httpVersionMajor, httpVersionMinor, httpStatusCode)
        | none => none
      | none => none
    | _ => none
  else none

def httpParseKeyValueInt (buffer key : Bytes) : Option Int :=
  (strstr buffer key).map fun locKey => atoi ((cstr buffer).drop (locKey + key.length))

-- At most `strLen - 1` bytes, up to the end of the string or line.
def httpParseKeyValueString (buffer key : Bytes) (strLen : Nat) : Option Bytes :=
  (strstr buffer key).map fun locKey =>
    (((cstr buffer).drop (locKey + key.length)).take (strLen - 1)).takeWhile
      fun c => c ≠ 13 ∧ c ≠ 10

section Callback

variable {α : Type}

def onApp {β : Type} (x : EStateM Halt α β) : ClientM α β :=
  zoom Client.app (fun app s => { s with app }) x

def invokeErrorCallback (request : ValidRequest α) (error : HttpErr) (additionalInfo : Int) :
    ClientM α Unit := do
  modify fun s => { s with events := .error error additionalInfo :: s.events }
  onApp (request.errorCallback error additionalInfo)

def invokeBodyCallback (request : ValidRequest α) (bytesReceived : Nat) :
    ClientM α HttpContinueReceiving := do
  let s ← get
  set { s with events := .body s.responseBuffer bytesReceived :: s.events }
  onApp (request.bodyCallback s.responseBuffer bytesReceived)

-- The header part of `https_tls_callback`. An answer ends the callback; without
-- one the message body part follows.
def httpsProcessHeaders (request : ValidRequest α) (tlsBuffer : Bytes) :
    ClientM α (Option Bool) := do
  let s ← get
  match strstr s.responseBuffer crlfcrlf with
  | none => return some true
  | some endOfHeader =>
    let nofHeaderBytes := endOfHeader + 4
    let headers := store s.responseBuffer endOfHeader [0]
    set { s with responseBuffer := headers }
    match scanStatusLine (cstr headers) with
    | none =>
      invokeErrorCallback request .invalidStatusLine 0
      return some false
    | some (httpVersionMajor, _, httpStatusCode) =>
      if httpVersionMajor ≠ 1 then
        invokeErrorCallback request .versionNotSupported 0
        return some false
      if httpStatusCode ≠ 200 then
        invokeErrorCallback request .non200StatusCode httpStatusCode
        return some false
      match httpParseKeyValueInt headers (ascii "Content-Length:") with
      | none => return some false
      | some contentLength =>
        let count := s.context.responseBufferCount - nofHeaderBytes
        -- The body bytes are looked up in the buffer of the last TLS read.
        if count > 0 ∧ nofHeaderBytes + count > tlsBuffer.length then
          throw .undefined
        let copied := store headers 0 ((tlsBuffer.drop nofHeaderBytes).take count)
        set { s with
          responseBuffer := store copied count [0]
          context := {
            responseBufferCount := count
            responseBodyTotalCount := sizeT count
            contentLength := toSize contentLength
            isProcessingHeaders := false } }
        return none

def httpsProcessBody (request : ValidRequest α) : ClientM α Bool := do
  let context := (← get).context
  match request.responseMode with
  | .waitForCompleteBody =>
    if context.responseBufferCount < context.contentLength then
      return true
    let _ ← invokeBodyCallback request context.responseBufferCount
    return false
  | .streamBody =>
    if context.responseBufferCount > 0 then
      let cr ← invokeBodyCallback request context.responseBufferCount
      if cr ≠ .continueReceiving then
        return false
      if context.responseBodyTotalCount ≥ context.contentLength then
        let _ ← invokeBodyCallback request 0
        return false
      modify fun s => { s with context.responseBufferCount := 0 }
      return true
    else
      return true

-- What the first packet does to the state.
def Client.reset (s : Client α) : Client α :=
  { s with
    context := ⟨0, 0, 0, true⟩
    responseBuffer := List.replicate s.responseBuffer.length 0 }

def httpsTlsCallback (request : ValidRequest α) (index : Nat) (tlsBuffer : Bytes) (len : Nat) :
    ClientM α Bool := do
  if index = 0 then
    modify Client.reset
  let s ← get
  if s.context.responseBufferCount + len > s.responseBuffer.length then
    invokeErrorCallback request .bufferTooSmall 0
    return false
  set { s with
    responseBuffer := store s.responseBuffer s.context.responseBufferCount (tlsBuffer.take len)
    context := { s.context with
      responseBufferCount := s.context.responseBufferCount + len
      responseBodyTotalCount := sizeT (s.context.responseBodyTotalCount + len) } }
  if s.context.isProcessingHeaders then
    match ← httpsProcessHeaders request tlsBuffer with
    | some continueReading => return continueReading
    | none => httpsProcessBody request
  else
    httpsProcessBody request

end Callback

section Request

variable {α : Type}

def httpsValidateRequest (request : HttpRequest α) : Except HttpErr (ValidRequest α) :=
  match request.host, request.path, request.responseBuffer, request.errorCallback,
    request.bodyCallback with
  | some host, some path, some responseBuffer, some errorCallback, some bodyCallback =>
    if path = [] then .error .invalidArgs
    else if request.verb ≠ HTTP_GET then .error .notImplemented
    else .ok ⟨host, path, responseBuffer, errorCallback, request.responseMode, bodyCallback⟩
  | _, _, _, _, _ => .error .invalidArgs

def httpGetRequestFormatString : Bytes := ascii "GET %s HTTP/1.1\r\nHost: %s\r\n\r\n"

-- What `sprintf` makes of the format string.
def httpGetRequest (path host : Bytes) : Bytes :=
  ascii "GET " ++ path ++ ascii " HTTP/1.1\r\nHost: " ++ host ++ ascii "\r\n\r\n"

-- The answers to the calls that one `https_send_request` makes.
structure RequestReplies where
  mallocContext : Bool
  mallocRequestBuffer : Malloc
  mallocResponseBuffer : Malloc
  writes : List Int
  reads : List ReadResult

-- The request and response buffers of the new context. The context is used
-- before its pointer is compared with NULL.
def httpsCreateContextForRequest (request : ValidRequest α) (replies : RequestReplies) :
    ClientM α (Except HttpErr (Bytes × Bytes)) := do
  if !replies.mallocContext then
    throw .undefined
  let requestLen := httpGetRequestFormatString.length + request.host.length + request.path.length
  match replies.mallocRequestBuffer, replies.mallocResponseBuffer with
  | some staleRequest, some staleResponse =>
    let tlsRequestBuffer := store (staleBlock staleRequest requestLen) 0
      (httpGetRequest request.path request.host ++ [0])
    return .ok (tlsRequestBuffer, staleBlock staleResponse tlsResponseBufferSize)
  | _, _ => return .error .outOfMemory

def httpsSendRequest (request : HttpRequest α) (replies : RequestReplies) :
    ConnM (Client α) HttpErr := do
  match httpsValidateRequest request with
  | .error result => return result
  | .ok request =>
    match ← onClient (httpsCreateContextForRequest request replies) with
    | .error result => return result
    | .ok (tlsRequestBuffer, tlsResponseBuffer) =>
      onClient (modify fun s => { s with
        context := ⟨0, 0, 0, false⟩
        responseBuffer := request.responseBuffer
        events := [] })
      let tlsResult ← wifiTlsSendRequest tlsRequestBuffer tlsResponseBuffer
        (httpsTlsCallback request) replies.writes replies.reads
      if tlsResult = 0 then
        return .success
      return .sendFailed

end Request

end Esp32Ota

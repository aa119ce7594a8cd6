import Esp32Ota.HttpsClient
import Esp32Ota.Iap

-- iap_https.c: update checks, downloads and the installation of an image.
namespace Esp32Ota

open CLib Halting

-- `iap_https_config_t`; the two paths are arrays of 256 characters.
structure IapHttpsConfig where
  currentSoftwareVersion : Int
  serverHostName : Bytes
  serverMetadataPath : Bytes
  serverFirmwarePath : Bytes
  pollingIntervalS : Nat
  autoReboot : Bool

-- The static data of the module, on the device it runs on. The two buffers are
-- those of the requests, and `fwupDownloadImage` is a bit of the event group.
-- `nofCallbacks` counts the callbacks for firmware data, to tell their answers apart.
structure App where
  device : Device
  config : IapHttpsConfig
  metadataBuffer : Option Bytes
  firmwareBuffer : Option Bytes
  fwupDownloadImage : Bool
  hasIapSession : Bool
  hasNewFirmware : Bool
  totalNofBytesReceived : Int
  nofCallbacks : Nat

abbrev AppM := EStateM Halt App

def onDevice {α : Type} (x : DeviceM α) : AppM α :=
  zoom App.device (fun device s => { s with device }) x

-- The answers to the ESP-IDF calls of one `iap_https_firmware_body_callback`.
structure FirmwareReplies where
  begin : BeginReplies
  abortOpen : EspErr
  beginAgain : BeginReplies
  write : Nat → EspErr
  abort : EspErr
  commit : CommitReplies

-- The callback starts the session unless it has one.
def iapHttpsStartSession (replies : FirmwareReplies) : AppM Bool := do
  if (← get).hasIapSession then
    return true
  let first ← onDevice (iapBegin replies.begin)
  let result ←
    if first = .sessionAlreadyOpen then do
      let _ ← onDevice (iapAbort replies.abortOpen)
      onDevice (iapBegin replies.beginAgain)
    else pure first
  if result ≠ .ok then
    return false
  modify fun s => { s with totalNofBytesReceived := 0, hasIapSession := true }
  return true

-- The length is converted to `uint16_t`.
def iapHttpsWriteData (replies : FirmwareReplies) (responseBuffer : Bytes) (bytesReceived : Nat) :
    AppM HttpContinueReceiving := do
  let result ← onDevice (iapWrite (responseBuffer.take (uint16 bytesReceived)) replies.write)
  modify fun s => { s with
    totalNofBytesReceived := toInt32 (s.totalNofBytesReceived + bytesReceived) }
  if result ≠ .ok then
    let _ ← onDevice (iapAbort replies.abort)
    return .stopReceiving
  return .continueReceiving

-- The result of the commit is only logged.
def iapHttpsFinishSession (replies : FirmwareReplies) : AppM HttpContinueReceiving := do
  modify fun s => { s with hasIapSession := false }
  if (← get).totalNofBytesReceived > 0 then
    let _ ← onDevice (iapCommit replies.commit)
    modify fun s => { s with hasNewFirmware := true }
    if (← get).config.autoReboot then
      onDevice (log .espRestart)
      throw .restart
    return .stopReceiving
  else
    let _ ← onDevice (iapAbort replies.abort)
    return .stopReceiving

def iapHttpsFirmwareBodyCallback (replies : FirmwareReplies) (responseBuffer : Bytes)
    (bytesReceived : Nat) : AppM HttpContinueReceiving := do
  if ← iapHttpsStartSession replies then
    if bytesReceived > 0 then
      iapHttpsWriteData replies responseBuffer bytesReceived
    else
      iapHttpsFinishSession replies
  else
    return .stopReceiving

-- `strncpy` to the path pads with zeros.
def strncpy (src : Bytes) (size : Nat) : Bytes :=
  src.take size ++ List.replicate (size - src.length) 0

-- The interval is optional.
def iapHttpsSetPollingInterval (responseBuffer : Bytes) : AppM Unit :=
  match httpParseKeyValueInt responseBuffer (ascii "INTERVAL=") with
  | some intervalSeconds =>
    modify fun s => { s with config.pollingIntervalS := toSize intervalSeconds }
  | none => pure ()

def iapHttpsMetadataBodyCallback (responseBuffer : Bytes) (_bytesReceived : Nat) :
    AppM HttpContinueReceiving := do
  iapHttpsSetPollingInterval responseBuffer
  match httpParseKeyValueInt responseBuffer (ascii "VERSION="),
    httpParseKeyValueString responseBuffer (ascii "FILE=") 256 with
  | some version, some fileName =>
    modify fun s => { s with config.serverFirmwarePath := strncpy fileName 256 }
    if version = (← get).config.currentSoftwareVersion then
      return .stopReceiving
    modify fun s => { s with fwupDownloadImage := true }
    return .stopReceiving
  | _, _ => return .stopReceiving

-- It only writes to the log.
def iapHttpsErrorCallback (_error : HttpErr) (_additionalInfo : Int) : AppM Unit := pure ()

-- `platform k` has the answers for the k-th callback with firmware data.
def firmwareBodyCallback (platform : Nat → FirmwareReplies) (responseBuffer : Bytes)
    (bytesReceived : Nat) : AppM HttpContinueReceiving := do
  let s ← get
  set { s with nofCallbacks := s.nofCallbacks + 1 }
  iapHttpsFirmwareBodyCallback (platform s.nofCallbacks) responseBuffer bytesReceived

def httpMetadataRequest (s : App) : HttpRequest App where
  verb := HTTP_GET
  host := some s.config.serverHostName
  path := some (cstr s.config.serverMetadataPath)
  responseBuffer := s.metadataBuffer
  errorCallback := some iapHttpsErrorCallback
  responseMode := .waitForCompleteBody
  bodyCallback := some iapHttpsMetadataBodyCallback

def httpFirmwareDataRequest (platform : Nat → FirmwareReplies) (s : App) : HttpRequest App where
  verb := HTTP_GET
  host := some s.config.serverHostName
  path := some (cstr s.config.serverFirmwarePath)
  responseBuffer := s.firmwareBuffer
  errorCallback := some iapHttpsErrorCallback
  responseMode := .streamBody
  bodyCallback := some (firmwareBodyCallback platform)

abbrev Updater := Conn (Client App)

abbrev UpdaterM := EStateM Halt Updater

-- The answers to the network and allocation calls of one check or download.
structure Script where
  connect : ConnectReplies
  request : RequestReplies

def iapHttpsCheckForUpdate (script : Script) : UpdaterM Unit := do
  let tlsResult ← onTls (wifiTlsConnect script.connect)
  if tlsResult = 0 then
    let s ← get
    let _ ← httpsSendRequest (httpMetadataRequest s.client.app) script.request

-- The download goes on after a failed connect.
def iapHttpsDownloadImage (platform : Nat → FirmwareReplies) (script : Script) : UpdaterM Unit := do
  let _ ← onTls (wifiTlsConnect script.connect)
  onClient (onApp (modify fun s => { s with hasIapSession := false }))
  let s ← get
  let _ ← httpsSendRequest (httpFirmwareDataRequest platform s.client.app) script.request

inductive UpdaterStep
  | checkForUpdate (script : Script)
  | downloadImage (platform : Nat → FirmwareReplies) (script : Script)

def UpdaterStep.run : UpdaterStep → UpdaterM Unit
  | .checkForUpdate script => iapHttpsCheckForUpdate script
  | .downloadImage platform script => iapHttpsDownloadImage platform script

def iapHttpsUpdateInProgress (s : App) : Bool := s.hasIapSession

def iapHttpsNewFirmwareInstalled (s : App) : Bool := s.hasNewFirmware

-- The state in which the updater task starts.
def iapHttpsInit (partition : Partition) (config : IapHttpsConfig) (metadataBuffer firmwareBuffer : Malloc) :
    Updater where
  tls := Tls.create
  client := {
    context := ⟨0, 0, 0, false⟩
    responseBuffer := []
    events := []
    app := {
      device := final iapInit (Device.boot partition)
      config
      metadataBuffer := metadataBuffer.map fun stale => staleBlock stale 512
      firmwareBuffer := firmwareBuffer.map fun stale => staleBlock stale 4096
      fwupDownloadImage := false
      hasIapSession := false
      hasNewFirmware := false
      totalNofBytesReceived := 0
      nofCallbacks := 0 } }

end Esp32Ota

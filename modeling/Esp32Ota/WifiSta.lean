import Esp32Ota.Iap

-- wifi_sta.c: the Wi-Fi station, its event handler and the connected flag.
namespace Esp32Ota

open CLib Halting

def ESP_ERR_INVALID_ARG : EspErr := 0x102

-- The part of `wifi_config_t` that the module sets; the first two are arrays.
structure WifiStaConfig where
  ssid : Bytes
  password : Bytes
  bssidSet : Bool
  deriving DecidableEq, Repr

-- The calls into the driver, with the results of those that have one.
inductive StaCall
  | tcpipAdapterInit
  | wifiInit (result : EspErr)
  | setStorage (result : EspErr)
  | setMode (result : EspErr)
  | setConfig (config : WifiStaConfig) (result : EspErr)
  | start (result : EspErr)
  | connect (result : EspErr)
  deriving DecidableEq, Repr

-- The static data of the module and its driver. A missing event group is `none`, and
-- `some c` has the connected flag `c`. The most recent call comes first.
structure Station where
  config : WifiStaConfig
  eventGroup : Option Bool
  calls : List StaCall

abbrev StationM := EStateM Halt Station

-- `wifi_config_t` has arrays of 32 and 64 bytes.
def Station.boot : Station := ⟨⟨List.replicate 32 0, List.replicate 64 0, false⟩, none, []⟩

-- The answers to the calls of one `wifi_sta_init`.
structure StationReplies where
  wifiInit : EspErr
  setStorage : EspErr
  setMode : EspErr
  setConfig : EspErr
  eventGroupCreate : Bool
  start : EspErr

-- The answer is the result of the call.
def staCall (call : StaCall) (result : EspErr) : StationM EspErr := do
  modify fun s => { s with calls := call :: s.calls }
  return result

-- `wifi_sta_init` up to the start of the driver.
def wifiStaConfigure (networkSsid networkPassword : Bytes) (replies : StationReplies) : StationM EspErr := do
  let s ← get
  if (cstr networkSsid).length ≥ s.config.ssid.length then
    return ESP_ERR_INVALID_ARG
  if (cstr networkPassword).length ≥ s.config.password.length then
    return ESP_ERR_INVALID_ARG
  let _ ← staCall .tcpipAdapterInit ESP_OK
  let initResult ← staCall (.wifiInit replies.wifiInit) replies.wifiInit
  if initResult ≠ ESP_OK then
    return initResult
  let storageResult ← staCall (.setStorage replies.setStorage) replies.setStorage
  if storageResult ≠ ESP_OK then
    return storageResult
  let setModeResult ← staCall (.setMode replies.setMode) replies.setMode
  if setModeResult ≠ ESP_OK then
    return setModeResult
  match strcpy s.config.ssid networkSsid, strcpy s.config.password networkPassword with
  | some ssid, some password =>
    let config := ⟨ssid, password, false⟩
    modify fun s => { s with config }
    let setConfigResult ← staCall (.setConfig config replies.setConfig) replies.setConfig
    if setConfigResult ≠ ESP_OK then
      return setConfigResult
    modify fun s => { s with eventGroup := if replies.eventGroupCreate then some false else none }
    return ESP_OK
  | _, _ => throw .undefined

def wifiStaInit (networkSsid networkPassword : Bytes) (replies : StationReplies) : StationM EspErr := do
  let result ← wifiStaConfigure networkSsid networkPassword replies
  if result ≠ ESP_OK then
    return result
  staCall (.start replies.start) replies.start

-- A missing event group must not be used.
def wifiStaIsConnected : StationM Bool := do
  match (← get).eventGroup with
  | some connected => return connected
  | none => throw .undefined

-- `xEventGroupSetBits` and `xEventGroupClearBits` on the connected flag.
def setConnectedFlag (connected : Bool) : StationM Unit := do
  match (← get).eventGroup with
  | some _ => modify fun s => { s with eventGroup := some connected }
  | none => throw .undefined

-- The events that the handler tells apart.
inductive SystemEvent
  | staStart
  | staGotIp
  | staConnected
  | staDisconnected
  | other (eventId : Nat)
  deriving DecidableEq, Repr

-- The operation that the event handler comes to next, `waiting` between two events.
inductive HandlerPoint
  | waiting
  | isConnected (c : Bool)
  | setConnected (c : Bool)
  | wifiConnect
  deriving DecidableEq, Repr

-- Where `wifi_sta_handle_event` starts with an event. The others are not for it.
def wifiStaHandleEvent : SystemEvent → HandlerPoint
  | .staStart => .wifiConnect
  | .staGotIp => .isConnected true
  | .staConnected => .waiting
  | .staDisconnected => .isConnected false
  | .other _ => .waiting

-- What follows a call of `wifi_sta_set_connected`: a lost connection is opened again.
def afterSetConnected (c : Bool) : HandlerPoint := if c then .waiting else .wifiConnect

-- The next operation of the handler. `wifi_sta_set_connected` looks at the flag before it
-- changes it.
def wifiStaHandlerStep (connect : EspErr) : HandlerPoint → StationM HandlerPoint
  | .waiting => return .waiting
  | .isConnected c => do
    if (← wifiStaIsConnected) = c then
      return afterSetConnected c
    return .setConnected c
  | .setConnected c => do
    setConnectedFlag c
    return afterSetConnected c
  | .wifiConnect => do
    let _ ← staCall (.connect connect) connect
    return .waiting

end Esp32Ota

import Esp32Ota.WifiSta
import Esp32Ota.IapHttps.Served

-- main.c: the application, with the tasks that it starts.
namespace Esp32Ota

open CLib Halting

-- The values of main.h.
structure Settings where
  softwareVersion : Int
  wifiNetworkSsid : Bytes
  wifiNetworkPassword : Bytes
  otaServerHostName : Bytes
  otaServerMetadataPath : Bytes
  otaPollingIntervalS : Nat
  otaAutoReboot : Bool

def Settings.mainH : Settings where
  softwareVersion := 1
  wifiNetworkSsid := ascii "CC-GUEST"
  wifiNetworkPassword := ascii "xxxxxxxxxx"
  otaServerHostName := ascii "www.classycode.io"
  otaServerMetadataPath := ascii "/esp32/ota.txt"
  otaPollingIntervalS := 5
  otaAutoReboot := true

-- What `init_ota` puts into `ota_config`.
def otaConfig (settings : Settings) : IapHttpsConfig where
  currentSoftwareVersion := settings.softwareVersion
  serverHostName := settings.otaServerHostName
  serverMetadataPath := strncpy settings.otaServerMetadataPath 256
  serverFirmwarePath := List.replicate 256 0
  pollingIntervalS := settings.otaPollingIntervalS
  autoReboot := settings.otaAutoReboot

-- What the application meets while it starts.
structure Boot where
  settings : Settings
  station : StationReplies
  partition : Partition
  metadataBuffer : Malloc
  firmwareBuffer : Malloc
  timer : TimerReplies

-- What `iap_https_init` makes.
def Boot.system (boot : Boot) : System :=
  System.start boot.partition (otaConfig boot.settings) boot.metadataBuffer boot.firmwareBuffer boot.timer

-- The operation that `app_main` comes to next. Its loop counts the flashes of the LED.
inductive MainPoint
  | initWifi
  | startWifi
  | initOta
  | checkNow
  | checkNowSets
  | isConnected
  | updateInProgress (nofFlashes : Nat)
  | flash (nofFlashes : Nat)
  deriving DecidableEq, Repr

-- The station, the points of the event task and of the main task, and the updater module as
-- soon as there is one. The events taken and the rounds of flashes, the most recent first.
structure Esp32 where
  station : Station
  handler : HandlerPoint
  main : MainPoint
  updater : Option System
  events : List SystemEvent
  flashes : List Nat

abbrev Esp32M := EStateM Halt Esp32

def Esp32.powerOn : Esp32 := ⟨Station.boot, .waiting, .initWifi, none, [], []⟩

def onStation {α : Type} (x : StationM α) : Esp32M α :=
  zoom Esp32.station (fun station s => { s with station }) x

-- Nothing of the updater runs before `iap_https_init`.
def onUpdater (x : SystemM Unit) : Esp32M Unit := fun s =>
  match s.updater with
  | none => .ok ⟨⟩ s
  | some updater =>
    match x updater with
    | .ok _ updater => .ok ⟨⟩ { s with updater := some updater }
    | .error e updater => .error e { s with updater := some updater }

def Station.started (s : Station) : Bool := s.calls.contains (.start ESP_OK)

def Esp32.connected (s : Esp32) : Bool := s.station.eventGroup = some true

-- The check bit of the updater, for `iap_https_trigger_processing`.
def Esp32.checkRequested (s : Esp32) : Bool := s.updater.any System.fwupCheckForUpdate

-- What `iap_https_update_in_progress` answers. A download that runs has a session or not.
def Esp32.updateInProgress (s : Esp32) (hasSession : Bool) : Bool :=
  match s.updater with
  | none => false
  | some updater =>
    if updater.point = .downloadImage then hasSession
    else iapHttpsUpdateInProgress updater.updater.client.app

-- The next operation of `app_main`. The result of `wifi_sta_init` is ignored.
def appMain (boot : Boot) (hasSession : Bool) : Esp32M Unit := do
  let s ← get
  match s.main with
  | .initWifi =>
    let result ← onStation
      (wifiStaConfigure boot.settings.wifiNetworkSsid boot.settings.wifiNetworkPassword boot.station)
    modify fun s => { s with main := if result = ESP_OK then .startWifi else .initOta }
  | .startWifi =>
    let _ ← onStation (staCall (.start boot.station.start) boot.station.start)
    modify fun s => { s with main := .initOta }
  | .initOta => set { s with updater := some boot.system, main := .checkNow }
  | .checkNow =>
    onUpdater iapHttpsTriggerProcessing
    modify fun t => { t with main := if s.checkRequested then .isConnected else .checkNowSets }
  | .checkNowSets =>
    onUpdater iapHttpsTriggerSet
    modify fun s => { s with main := .isConnected }
  | .isConnected =>
    let connected ← onStation wifiStaIsConnected
    modify fun s => { s with main := .updateInProgress (if connected then 2 else 1) }
  | .updateInProgress nofFlashes =>
    set { s with main := .flash (if s.updateInProgress hasSession then nofFlashes + 2 else nofFlashes) }
  | .flash nofFlashes => set { s with flashes := nofFlashes :: s.flashes, main := .isConnected }

-- The driver sends no event before it has started, and the event task takes one at a time.
def appEventHandler (event : SystemEvent) : Esp32M Unit :=
  modify fun s =>
    if s.station.started ∧ s.handler = .waiting then
      { s with handler := wifiStaHandleEvent event, events := event :: s.events }
    else s

def handlerGoesOn (connect : EspErr) : Esp32M Unit := do
  let s ← get
  let handler ← onStation (wifiStaHandlerStep connect s.handler)
  modify fun s => { s with handler }

-- `replies` says how the rest of the world answers, but not whether the station is connected.
def updaterTask (replies : TaskReplies) : Esp32M Unit := do
  let s ← get
  if s.updater.any (fun updater => updater.point.waitsForWifi) then
    let _ ← onStation wifiStaIsConnected
  onUpdater (iapHttpsTask { replies with wifiConnected := s.connected })

inductive Esp32Step
  | main (hasSession : Bool)
  | event (event : SystemEvent)
  | handler (connect : EspErr)
  | task (replies : TaskReplies)
  | timerExpires
  | undeletedTimerExpires

def Esp32Step.run (boot : Boot) : Esp32Step → Esp32M Unit
  | .main hasSession => appMain boot hasSession
  | .event e => appEventHandler e
  | .handler connect => handlerGoesOn connect
  | .task replies => updaterTask replies
  | .timerExpires => onUpdater Esp32Ota.timerExpires
  | .undeletedTimerExpires => onUpdater Esp32Ota.undeletedTimerExpires

end Esp32Ota

import Esp32Ota.IapHttps.Metadata

-- The task of iap_https.c between its timer and the callers of `iap_https_check_now`.
-- Every operation on the event group or the timer is a step of its own.
namespace Esp32Ota

open CLib Halting

def CONFIG_FREERTOS_HZ : Nat := 100

-- Both factors are a 32-bit `TickType_t`.
def pdMsToTicks (ms : Nat) : Nat := sizeT (ms * CONFIG_FREERTOS_HZ) / 1000

-- A one-shot timer.
structure Timer where
  period : Nat
  armed : Bool
  deriving DecidableEq, Repr

-- A missing timer is `none`. A timer that could not be deleted may still expire.
structure Timers where
  checkForUpdatesTimer : Option Timer
  undeleted : Nat
  deriving DecidableEq, Repr

-- Whether the timer calls of one `iap_https_prepare_timer` succeed.
structure TimerReplies where
  create : Bool
  changePeriod : Bool
  reset : Bool
  delete : Bool

section PrepareTimer

variable (replies : TimerReplies) (pollingIntervalS : Nat)

-- The answer is whether there is a timer to start.
def iapHttpsNeedTimer (timers : Timers) : Timers × Bool :=
  if pollingIntervalS > 0 then
    match timers.checkForUpdatesTimer with
    | some _ => (timers, true)
    | none =>
      if replies.create then ({ timers with checkForUpdatesTimer := some ⟨1000, false⟩ }, true)
      else (timers, false)
  else
    match timers.checkForUpdatesTimer with
    | some timer =>
      if replies.delete || !timer.armed then ({ timers with checkForUpdatesTimer := none }, false)
      else (⟨none, timers.undeleted + 1⟩, false)
    | none => (timers, false)

-- A change of the period starts the timer.
def iapHttpsChangePeriod (timers : Timers) : Timers :=
  let timerMillisec := sizeT (1000 * pollingIntervalS)
  if replies.changePeriod then
    { timers with checkForUpdatesTimer :=
        timers.checkForUpdatesTimer.map fun _ => ⟨pdMsToTicks timerMillisec, true⟩ }
  else timers

def iapHttpsResetTimer (timers : Timers) : Timers :=
  if replies.reset then
    { timers with checkForUpdatesTimer := timers.checkForUpdatesTimer.map fun timer =>
        { timer with armed := true } }
  else timers

def iapHttpsPrepareTimer (timers : Timers) : Timers :=
  match iapHttpsNeedTimer replies pollingIntervalS timers with
  | (timers, true) => iapHttpsResetTimer replies (iapHttpsChangePeriod replies pollingIntervalS timers)
  | (timers, false) => timers

end PrepareTimer

-- The bits that `xEventGroupWaitBits` returns.
structure EventBits where
  fwupCheckForUpdate : Bool
  fwupDownloadImage : Bool
  deriving DecidableEq, Repr

-- The operation that the task comes to next. A check or a download is held up where
-- it waits for the server for good.
inductive TaskPoint
  | waitForWifi
  | delay
  | waitForBits
  | waitForWifiAgain (bits : EventBits)
  | downloadImage
  | downloadHeldUp
  | clearDownloadImage
  | checkForUpdate
  | checkHeldUp
  | prepareTimer
  | changePeriod
  | resetTimer
  | clearCheckForUpdate
  deriving DecidableEq, Repr

inductive TaskEvent
  | checkStarted
  | checkNowReturned
  deriving DecidableEq, Repr

-- The module with its task. `callers` have found the bit clear and are about to set it.
-- The documents of all checks and the events of the run are kept, the most recent first.
structure System where
  updater : Updater
  fwupCheckForUpdate : Bool
  timers : Timers
  callers : Nat
  point : TaskPoint
  documents : List Bytes
  history : List TaskEvent

abbrev SystemM := EStateM Halt System

-- What the next operation of the task meets: the network, the server and the timer service.
structure TaskReplies where
  wifiConnected : Bool
  script : Script
  platform : Nat → FirmwareReplies
  timer : TimerReplies

def System.bits (s : System) : EventBits :=
  ⟨s.fwupCheckForUpdate, s.updater.client.app.fwupDownloadImage⟩

-- The other tasks go on while a call of this one does not return.
def callUpdater (x : UpdaterM Unit) (next heldUp : TaskPoint) : SystemM Unit := fun s =>
  match x s.updater with
  | .ok _ updater => .ok ⟨⟩ { s with updater, point := next }
  | .error .blocked updater => .ok ⟨⟩ { s with updater, point := heldUp }
  | .error e updater => .error e { s with updater }

-- The documents are those of the callbacks that the check makes.
def callCheckForUpdate (script : Script) : SystemM Unit := do
  let s ← get
  let updater := { s.updater with client.events := [] }
  set { s with
    updater
    documents := documents (final (iapHttpsCheckForUpdate script) updater).client.events ++ s.documents }
  callUpdater (iapHttpsCheckForUpdate script) .prepareTimer .checkHeldUp

-- The next operation of `iap_https_task`.
def iapHttpsTask (replies : TaskReplies) : SystemM Unit := do
  let s ← get
  match s.point with
  | .waitForWifi => if replies.wifiConnected then set { s with point := .delay }
  | .delay => set { s with point := .waitForBits }
  | .waitForBits =>
    if s.bits.fwupCheckForUpdate || s.bits.fwupDownloadImage then
      set { s with point := .waitForWifiAgain s.bits }
  | .waitForWifiAgain bits =>
    if replies.wifiConnected then
      if bits.fwupDownloadImage then
        set { s with point := .downloadImage }
      else if bits.fwupCheckForUpdate then
        set { s with point := .checkForUpdate, history := .checkStarted :: s.history }
      else
        set { s with point := .waitForBits }
  | .downloadImage =>
    callUpdater (iapHttpsDownloadImage replies.platform replies.script) .clearDownloadImage .downloadHeldUp
  | .clearDownloadImage =>
    set { s with updater.client.app.fwupDownloadImage := false, point := .waitForBits }
  | .checkForUpdate => callCheckForUpdate replies.script
  | .prepareTimer =>
    let (timers, starts) := iapHttpsNeedTimer replies.timer s.updater.client.app.config.pollingIntervalS s.timers
    set { s with timers, point := if starts then .changePeriod else .clearCheckForUpdate }
  | .changePeriod =>
    set { s with
      timers := iapHttpsChangePeriod replies.timer s.updater.client.app.config.pollingIntervalS s.timers
      point := .resetTimer }
  | .resetTimer =>
    set { s with timers := iapHttpsResetTimer replies.timer s.timers, point := .clearCheckForUpdate }
  | .clearCheckForUpdate => set { s with fwupCheckForUpdate := false, point := .waitForBits }
  | .downloadHeldUp | .checkHeldUp => pure ()

def iapHttpsPeriodicCheckTimerCallback : SystemM Unit :=
  modify fun s => { s with fwupCheckForUpdate := true }

-- A timer expires once, and an unarmed one does not.
def timerExpires : SystemM Unit := do
  let s ← get
  match s.timers.checkForUpdatesTimer with
  | some ⟨period, true⟩ =>
    set { s with timers.checkForUpdatesTimer := some ⟨period, false⟩ }
    iapHttpsPeriodicCheckTimerCallback
  | _ => pure ()

def undeletedTimerExpires : SystemM Unit := do
  let s ← get
  if 0 < s.timers.undeleted then
    set { s with timers.undeleted := s.timers.undeleted - 1 }
    iapHttpsPeriodicCheckTimerCallback

-- `iap_https_check_now` returns if the bit is set.
def iapHttpsTriggerProcessing : SystemM Unit := do
  let s ← get
  if s.fwupCheckForUpdate then
    set { s with history := .checkNowReturned :: s.history }
  else
    set { s with callers := s.callers + 1 }

-- Otherwise it sets it, and returns.
def iapHttpsTriggerSet : SystemM Unit := do
  let s ← get
  if 0 < s.callers then
    set { s with
      fwupCheckForUpdate := true
      callers := s.callers - 1
      history := .checkNowReturned :: s.history }

inductive SystemStep
  | task (replies : TaskReplies)
  | timerExpires
  | undeletedTimerExpires
  | checkNow
  | checkNowSets

def SystemStep.run : SystemStep → SystemM Unit
  | .task replies => iapHttpsTask replies
  | .timerExpires => Esp32Ota.timerExpires
  | .undeletedTimerExpires => Esp32Ota.undeletedTimerExpires
  | .checkNow => iapHttpsTriggerProcessing
  | .checkNowSets => iapHttpsTriggerSet

-- `iap_https_init` prepares the timer before it creates the task.
def System.start (partition : Partition) (config : IapHttpsConfig) (metadataBuffer firmwareBuffer : Malloc)
    (replies : TimerReplies) : System where
  updater := iapHttpsInit partition config metadataBuffer firmwareBuffer
  fwupCheckForUpdate := false
  timers := iapHttpsPrepareTimer replies config.pollingIntervalS ⟨none, 0⟩
  callers := 0
  point := .waitForWifi
  documents := []
  history := []

section Task

variable {s : System} {Q : PUnit → System → Prop} {E : Halt → System → Prop}

theorem wp_callUpdater (x : UpdaterM Unit) (next heldUp : TaskPoint) :
    wp (callUpdater x next heldUp) Q E s ↔
      wp x (fun _ updater => Q ⟨⟩ { s with updater, point := next })
        (fun e updater => (e = .blocked → Q ⟨⟩ { s with updater, point := heldUp }) ∧
          (e ≠ .blocked → E e { s with updater })) s.updater := by
  unfold wp callUpdater
  cases x s.updater with
  | ok _ updater => rfl
  | error e updater => cases e <;> simp

-- The moves of the task that change nothing but its place.
inductive Goes (s : System) : TaskPoint → Prop
  | stays : Goes s s.point
  | connected (h : s.point = .waitForWifi) : Goes s .delay
  | delayed (h : s.point = .delay) : Goes s .waitForBits
  | wakes (h : s.point = .waitForBits) : Goes s (.waitForWifiAgain s.bits)
  | download {bits : EventBits} (h : s.point = .waitForWifiAgain bits) (hbit : bits.fwupDownloadImage = true) :
      Goes s .downloadImage
  | sleeps {bits : EventBits} (h : s.point = .waitForWifiAgain bits) : Goes s .waitForBits

-- The operation at each place of the task.
theorem wp_iapHttpsTask_calls (replies : TaskReplies) (hgoes : ∀ point, Goes s point → Q ⟨⟩ { s with point })
    (hstart : ∀ bits, s.point = .waitForWifiAgain bits → bits.fwupDownloadImage = false →
      Q ⟨⟩ { s with point := .checkForUpdate, history := .checkStarted :: s.history })
    (hcheck : s.point = .checkForUpdate → wp (callCheckForUpdate replies.script) Q E s)
    (hdownload : s.point = .downloadImage →
      wp (callUpdater (iapHttpsDownloadImage replies.platform replies.script) .clearDownloadImage .downloadHeldUp)
        Q E s)
    (hclearDownload : s.point = .clearDownloadImage →
      Q ⟨⟩ { s with updater.client.app.fwupDownloadImage := false, point := .waitForBits })
    (hprepare : s.point = .prepareTimer → ∀ timers starts,
      iapHttpsNeedTimer replies.timer s.updater.client.app.config.pollingIntervalS s.timers = (timers, starts) →
      Q ⟨⟩ { s with timers, point := if starts then .changePeriod else .clearCheckForUpdate })
    (hchange : s.point = .changePeriod → Q ⟨⟩ { s with
      timers := iapHttpsChangePeriod replies.timer s.updater.client.app.config.pollingIntervalS s.timers
      point := .resetTimer })
    (hreset : s.point = .resetTimer → Q ⟨⟩ { s with
      timers := iapHttpsResetTimer replies.timer s.timers, point := .clearCheckForUpdate })
    (hclear : s.point = .clearCheckForUpdate →
      Q ⟨⟩ { s with fwupCheckForUpdate := false, point := .waitForBits }) :
    wp (iapHttpsTask replies) Q E s := by
  have hstays : Q ⟨⟩ s := hgoes s.point .stays
  unfold iapHttpsTask
  rw [wp_bind, wp_get]
  cases hpoint : s.point with
  | waitForWifi =>
      simp only [wp_ite, wp_set, wp_pure]
      exact ⟨fun _ => hgoes _ (.connected hpoint), fun _ => hstays⟩
  | delay => exact hgoes _ (.delayed hpoint)
  | waitForBits =>
      simp only [wp_ite, wp_set, wp_pure]
      exact ⟨fun _ => hgoes _ (.wakes hpoint), fun _ => hstays⟩
  | waitForWifiAgain bits =>
      simp only [wp_ite, wp_set, wp_pure]
      refine ⟨fun _ => ⟨fun hbit => hgoes _ (.download hpoint hbit), fun hbit => ⟨fun _ => ?_, fun _ => ?_⟩⟩,
        fun _ => hstays⟩
      · exact hstart bits hpoint (by simpa using hbit)
      · exact hgoes _ (.sleeps hpoint)
  | downloadImage => exact hdownload hpoint
  | downloadHeldUp => exact hstays
  | clearDownloadImage => exact hclearDownload hpoint
  | checkForUpdate => exact hcheck hpoint
  | checkHeldUp => exact hstays
  | prepareTimer => exact hprepare hpoint _ _ rfl
  | changePeriod => exact hchange hpoint
  | resetTimer => exact hreset hpoint
  | clearCheckForUpdate => exact hclear hpoint

-- What the task can do in one step.
theorem wp_iapHttpsTask (replies : TaskReplies) (hgoes : ∀ point, Goes s point → Q ⟨⟩ { s with point })
    (hstart : ∀ bits, s.point = .waitForWifiAgain bits → bits.fwupDownloadImage = false →
      Q ⟨⟩ { s with point := .checkForUpdate, history := .checkStarted :: s.history })
    (hcheck : s.point = .checkForUpdate → ∀ updater,
      (s.updater.client.app.fwupDownloadImage = false → Checked s.updater.client.app updater.client) →
      (∀ point, point = .prepareTimer ∨ point = .checkHeldUp →
        Q ⟨⟩ { s with updater, documents := documents updater.client.events ++ s.documents, point }) ∧
      ∀ e, E e { s with updater, documents := documents updater.client.events ++ s.documents })
    (hdownload : s.point = .downloadImage → ∀ updater,
      SameOrders s.updater.client.app updater.client.app →
      (∀ point, point = .clearDownloadImage ∨ point = .downloadHeldUp → Q ⟨⟩ { s with updater, point }) ∧
      ∀ e, E e { s with updater })
    (hclearDownload : s.point = .clearDownloadImage →
      Q ⟨⟩ { s with updater.client.app.fwupDownloadImage := false, point := .waitForBits })
    (hprepare : s.point = .prepareTimer → ∀ timers starts,
      iapHttpsNeedTimer replies.timer s.updater.client.app.config.pollingIntervalS s.timers = (timers, starts) →
      Q ⟨⟩ { s with timers, point := if starts then .changePeriod else .clearCheckForUpdate })
    (hchange : s.point = .changePeriod → Q ⟨⟩ { s with
      timers := iapHttpsChangePeriod replies.timer s.updater.client.app.config.pollingIntervalS s.timers
      point := .resetTimer })
    (hreset : s.point = .resetTimer → Q ⟨⟩ { s with
      timers := iapHttpsResetTimer replies.timer s.timers, point := .clearCheckForUpdate })
    (hclear : s.point = .clearCheckForUpdate →
      Q ⟨⟩ { s with fwupCheckForUpdate := false, point := .waitForBits }) :
    wp (iapHttpsTask replies) Q E s := by
  refine wp_iapHttpsTask_calls replies hgoes hstart (fun hpoint => ?_) (fun hpoint => ?_) hclearDownload hprepare
    hchange hreset hclear
  · simp only [callCheckForUpdate, wp_bind, wp_get, wp_set, wp_callUpdater]
    have hrun : wp (iapHttpsCheckForUpdate replies.script) (fun _ t =>
        s.updater.client.app.fwupDownloadImage = false → Checked s.updater.client.app t.client)
        (fun _ t => s.updater.client.app.fwupDownloadImage = false → Checked s.updater.client.app t.client)
        { s.updater with client.events := [] } := by
      cases hbit : s.updater.client.app.fwupDownloadImage with
      | true => exact wp_of_forall (fun _ _ h => by cases h) (fun _ _ h => by cases h)
      | false =>
          exact wp_mono (iapHttpsCheckForUpdate_checks replies.script hbit) (fun _ _ h _ => h)
            (fun _ _ h _ => h)
    refine wp_final (wp_mono hrun (fun _ updater h hfinal => ?_) (fun e updater h hfinal => ?_))
    · rw [hfinal]
      exact (hcheck hpoint updater h).1 _ (.inl rfl)
    · rw [hfinal]
      exact ⟨fun _ => (hcheck hpoint updater h).1 _ (.inr rfl), fun _ => (hcheck hpoint updater h).2 e⟩
  · rw [wp_callUpdater]
    apply wp_mono (iapHttpsDownloadImage_orders replies.platform replies.script s.updater)
    · exact fun _ updater h => (hdownload hpoint updater h).1 _ (.inl rfl)
    · exact fun e updater h => ⟨fun _ => (hdownload hpoint updater h).1 _ (.inr rfl),
        fun _ => (hdownload hpoint updater h).2 e⟩

end Task

-- The server is out of reach, and every timer call succeeds.
def exampleTask : SystemStep :=
  .task ⟨true, exampleScript { exampleConnect with ctrDrbgSeed := -1 } [],
    fun _ => exampleFirmwareReplies ⟨ESP_OK, ESP_OK, ESP_OK⟩, ⟨true, true, true, true⟩⟩

end Esp32Ota

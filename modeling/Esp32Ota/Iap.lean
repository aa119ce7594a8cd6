import Esp32Ota.Lib.Halting
import Esp32Ota.Lib.Heap

-- iap.c: the programming session, its page buffer and the OTA partitions.
namespace Esp32Ota

open CLib

abbrev EspErr := Int

def ESP_OK : EspErr := 0

structure Partition where
  label : String
  address : UInt32
  deriving DecidableEq, Repr

inductive IapErr
  | ok
  | fail
  | alreadyInitialized
  | notInitialized
  | sessionAlreadyOpen
  | outOfMemory
  | noSession
  | partitionNotFound
  | writeFailed
  deriving DecidableEq, Repr

def IAP_PAGE_SIZE : Nat := 4096

def uint16 (n : Nat) : Nat := n % 2 ^ 16

-- `iap_internal_state_t`; the two bits of `module_state_flags` are
-- `initialized` and `sessionOpen`.
structure IapInternalState where
  initialized : Bool
  sessionOpen : Bool
  partitionToProgram : Option Partition
  otaHandle : Nat
  curFlashAddress : UInt32
  pageBuffer : Pointer
  pageBufferIx : Nat

-- The calls into ESP-IDF with their results, and the commits that returned.
inductive Event
  | otaBegin (partition : Partition) (result : EspErr) (handle : Nat)
  | otaWrite (handle : Nat) (payload : Bytes) (result : EspErr)
  | otaEnd (handle : Nat) (commit : Bool) (result : EspErr)
  | otaSetBootPartition (partition : Option Partition) (result : EspErr)
  | iapCommit (result : IapErr)
  | espRestart
  deriving DecidableEq, Repr

-- The most recent event comes first in `trace`.
structure Device where
  iapState : IapInternalState
  heap : Heap
  bootPartition : Partition
  runningPartition : Partition
  trace : List Event

-- The device after power-up: static data is zero, and the running partition
-- is the configured one.
def Device.boot (partition : Partition) : Device where
  iapState := ⟨false, false, none, 0, 0, none, 0⟩
  heap := Heap.empty
  bootPartition := partition
  runningPartition := partition
  trace := []

abbrev DeviceM := EStateM Halt Device

structure BeginReplies where
  malloc : Malloc
  partitionFindFirst : String → Option Partition
  otaBegin : EspErr
  otaHandle : Nat

structure CommitReplies where
  otaWrite : EspErr
  otaEnd : EspErr
  otaSetBootPartition : EspErr

def log (event : Event) : DeviceM Unit :=
  modify fun s => { s with trace := event :: s.trace }

def freePageBuffer : DeviceM Unit := do
  let s ← get
  match s.heap.free s.iapState.pageBuffer with
  | some heap => set { s with heap }
  | none => throw .undefined

def iapInit : DeviceM IapErr := do
  if (← get).iapState.initialized then
    return .alreadyInitialized
  modify fun s => { s with
    iapState.initialized := true
    iapState.sessionOpen := false }
  return .ok

-- Each branch that applies overrides the one before.
def iapFindNextBootPartition (partitionFindFirst : String → Option Partition)
    (currentBootPartition : Partition) : Option Partition :=
  let next := none
  let next := if currentBootPartition.label = "factory" then partitionFindFirst "ota_0" else next
  let next := if currentBootPartition.label = "ota_0" then partitionFindFirst "ota_1" else next
  if currentBootPartition.label = "ota_1" then partitionFindFirst "ota_0" else next

def iapBegin (replies : BeginReplies) : DeviceM IapErr := do
  let s ← get
  if !s.iapState.initialized then
    return .notInitialized
  if s.iapState.sessionOpen then
    return .sessionAlreadyOpen
  match replies.malloc with
  | none =>
    modify fun s => { s with iapState.pageBufferIx := 0, iapState.pageBuffer := none }
    return .outOfMemory
  | some stale =>
    let (block, heap) := s.heap.alloc (staleBlock stale IAP_PAGE_SIZE)
    modify fun s => { s with
      heap
      iapState.pageBufferIx := 0
      iapState.pageBuffer := some block
      iapState.partitionToProgram :=
        iapFindNextBootPartition replies.partitionFindFirst s.bootPartition }
    match iapFindNextBootPartition replies.partitionFindFirst s.bootPartition with
    | none =>
      freePageBuffer
      return .partitionNotFound
    | some partition =>
      modify fun s => { s with iapState.curFlashAddress := partition.address }
      log (.otaBegin partition replies.otaBegin replies.otaHandle)
      if replies.otaBegin ≠ ESP_OK then
        freePageBuffer
        return .fail
      modify fun s => { s with
        iapState.otaHandle := replies.otaHandle
        iapState.sessionOpen := true }
      return .ok

def iapWritePageBuffer (otaWrite : EspErr) : DeviceM IapErr := do
  let s ← get
  if s.iapState.pageBufferIx = 0 then
    return .ok
  match s.heap.read s.iapState.pageBuffer s.iapState.pageBufferIx with
  | none => throw .undefined
  | some payload =>
    log (.otaWrite s.iapState.otaHandle payload otaWrite)
    if otaWrite ≠ ESP_OK then
      return .writeFailed
    modify fun s => { s with
      iapState.curFlashAddress := s.iapState.curFlashAddress + UInt32.ofNat s.iapState.pageBufferIx
      iapState.pageBufferIx := 0 }
    return .ok

def copyToPageBuffer (bytes : Bytes) : DeviceM Unit := do
  let s ← get
  match s.heap.write s.iapState.pageBuffer s.iapState.pageBufferIx bytes with
  | none => throw .undefined
  | some heap =>
    set { s with
      heap
      iapState.pageBufferIx := uint16 (s.iapState.pageBufferIx + bytes.length) }

-- `otaWrite k` answers the k-th `esp_ota_write` of the call. The fuel bounds
-- the iterations; `iapWrite` provides more than the loop can make.
def iapWriteLoop (otaWrite : Nat → EspErr) : (fuel k : Nat) → Bytes → DeviceM IapErr
  | 0, _, _ => throw .blocked
  | fuel + 1, k, bytes => do
    if bytes.length = 0 then
      return .ok
    let s ← get
    let spaceRemaining := uint16 (IAP_PAGE_SIZE + 2 ^ 16 - s.iapState.pageBufferIx)
    let nofBytesToCopy := min spaceRemaining bytes.length
    copyToPageBuffer (bytes.take nofBytesToCopy)
    if (← get).iapState.pageBufferIx = IAP_PAGE_SIZE then
      let result ← iapWritePageBuffer (otaWrite k)
      if result ≠ .ok then
        return .writeFailed
      iapWriteLoop otaWrite fuel (k + 1) (bytes.drop nofBytesToCopy)
    else
      iapWriteLoop otaWrite fuel k (bytes.drop nofBytesToCopy)

-- `bytes` stands for both arguments, so its length is a `uint16_t`.
def iapWrite (bytes : Bytes) (otaWrite : Nat → EspErr) : DeviceM IapErr := do
  let s ← get
  if !s.iapState.initialized then
    return .notInitialized
  if !s.iapState.sessionOpen then
    return .noSession
  iapWriteLoop otaWrite (bytes.length + 2) 0 bytes

def iapFinish (commit : Bool) (otaEnd otaSetBootPartition : EspErr) : DeviceM IapErr := do
  let s ← get
  if !s.iapState.initialized then
    return .notInitialized
  if !s.iapState.sessionOpen then
    return .noSession
  freePageBuffer
  modify fun s => { s with
    iapState.pageBuffer := none
    iapState.pageBufferIx := 0
    iapState.curFlashAddress := 0 }
  log (.otaEnd s.iapState.otaHandle commit otaEnd)
  if commit then
    if otaEnd ≠ ESP_OK then
      return .fail
    log (.otaSetBootPartition s.iapState.partitionToProgram otaSetBootPartition)
    if otaSetBootPartition ≠ ESP_OK then
      return .fail
    modify fun s => { s with
      bootPartition := s.iapState.partitionToProgram.getD s.bootPartition }
  modify fun s => { s with
    iapState.otaHandle := 0
    iapState.partitionToProgram := none
    iapState.sessionOpen := false }
  return .ok

-- The result of the last page write is replaced by that of `iapFinish`.
def iapCommit (replies : CommitReplies) : DeviceM IapErr := do
  let _ ← iapWritePageBuffer replies.otaWrite
  let result ← iapFinish true replies.otaEnd replies.otaSetBootPartition
  log (.iapCommit result)
  return result

def iapAbort (otaEnd : EspErr) : DeviceM IapErr :=
  iapFinish false otaEnd ESP_OK

end Esp32Ota

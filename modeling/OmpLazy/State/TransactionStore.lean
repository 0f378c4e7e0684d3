import OmpLazy.Foundation.Action
import OmpLazy.State.EventStore
import OmpLazy.State.StateTransition
import Mathlib.Logic.Function.Basic

namespace OmpLazy.State

open OmpLazy.Foundation EventStore

inductive CrashPoint where
  | beforeEvent
  | afterEvent
  | afterRun
  | afterIndex
  deriving DecidableEq, Repr

inductive TransactionErrorCode where
  | transition (code : TransitionErrorCode)
  | lockTimeout
  | deadlineExpired
  | stateDiverged
  | stateRootEscaped
  | stateRootUnreadable
  | idempotencyConflict
  deriving DecidableEq, Repr

/-- The exceptions that leave `commit` and `repairState`. -/
inductive Thrown where
  | decode (error : StateDecodeError)
  | eventStore (code : EventStoreErrorCode)
  | atomicFile
  | fileExists
  | invalidUuid
  | unreadableReceipts
  | crashed (point : CrashPoint)
  deriving DecidableEq, Repr

/-- The files of a state root, and the receipt ledgers as `readReceiptAuthority` reads them. -/
structure Disk where
  activeIndex : Option Bytes
  events : List EventFile
  runs : Uuid → Option Bytes
  receipts : AnyRun → Except Thrown ReceiptAuthority

namespace Disk

def appendEvent (disk : Disk) (event : EventObject) : Disk :=
  { disk with events := disk.events ++ [eventFile event] }

def writeRun (disk : Disk) (run : AnyRun) : Disk :=
  { disk with runs := Function.update disk.runs run.runId (some (stringify (encodeRun run))) }

def writeIndex (disk : Disk) (index : ActiveIndex) : Disk :=
  { disk with activeIndex := some (stringify (encodeActiveIndex index)) }

/-- The three writes of `commit`, in its order. -/
def publish (disk : Disk) (event : EventObject) (prepared : PreparedTransition) : Disk :=
  ((disk.appendEvent event).writeRun prepared.run).writeIndex prepared.index

end Disk

/-- A deadline by the number of checks that it still passes; `none` is one that never expires. -/
abbrev Deadline := Option ℕ

structure Session where
  disk : Disk
  deadline : Deadline

abbrev Store := Action Thrown Session

namespace Store

/-- `deadline.isValid()`; time passes from one check to the next. -/
def isValid : Store Bool := do
  let session ← get
  match session.deadline with
  | none => return true
  | some 0 => return false
  | some (n + 1) => do
    set { session with deadline := some n }
    return true

def assertDeadline : Store Unit := do
  if !(← isValid) then throw .atomicFile

def crash (crashAt : Option CrashPoint) (point : CrashPoint) : Store Unit :=
  if crashAt = some point then throw (.crashed point) else pure ()

/-- `atomicReplace`: the deadline is checked before the temporary file and before the rename. -/
def atomicReplace (write : Disk → Disk) : Store Unit := do
  assertDeadline
  assertDeadline
  modify fun session ↦ { session with disk := write session.disk }

def append (event : EventObject) : Store Unit := do
  if event.value.sequence < 1 then throw (.eventStore .eventSequenceGap)
  assertDeadline
  assertDeadline
  if eventName event.value ∈ (← get).disk.events.map (·.name) then throw .fileExists
  modify fun session ↦ { session with disk := session.disk.appendEvent event }

/-- Between two attempts the deadline is checked, and the time that remains. -/
def tryAcquire (free : Bool) : ℕ → Store Bool
  | 0 => do
    if ← isValid then return free
    return false
  | waits + 1 => do
    if ← isValid then
      if ← isValid then tryAcquire free waits
      else return false
    else return false

end Store

section Reading

variable (root : StateRoot) (disk : Disk)

def readIndex : Except Thrown ActiveIndex :=
  match disk.activeIndex with
  | none => .ok ⟨.v1, 0, []⟩
  | some bytes => (decodeActiveIndex bytes).mapError .decode

def readRun (runId : Uuid) : Except Thrown (Option AnyRun) :=
  if Text.isUuid runId then
    match disk.runs runId with
    | none => .ok none
    | some bytes => ((decodeRun root bytes).map some).mapError .decode
  else .ok none

def readEvents : Except Thrown (List PersistedStateEvent) := (readAll disk.events).mapError .eventStore

def receiptBound (kind : MutationKind) : Bool :=
  kind ∈ [.criterionSettled, .taskEvidenceAccepted, .workflowTerminal]

def readAuthority (event : PersistedStateEvent) (current : Option AnyRun) :
    Except Thrown (Option ReceiptAuthority) :=
  match current with
  | some run => if receiptBound event.mutation.kind then (disk.receipts run).map some else .ok none
  | none => .ok none

end Reading

/-- What is left of an event without `eventId`, `sequence` and `at`. -/
def eventSemantics (object : Json) : Json := object.without ["eventId", "sequence", "at"]

/-- What `commit` decides from the files, before it writes. -/
inductive Decision where
  | refused (code : TransactionErrorCode)
  | replayed (run : AnyRun) (index : ActiveIndex)
  | accepted (event : EventObject) (prepared : PreparedTransition)
  deriving DecidableEq

def highestSequence (events : List PersistedStateEvent) : ℕ :=
  (events.getLast?.map (·.sequence)).getD 0

def decideCommit (root : StateRoot) (disk : Disk) (event : EventObject) : Except Thrown Decision := do
  let index ← readIndex disk
  let events ← readEvents disk
  match events.find? (·.eventId = event.value.eventId) with
  | some replay =>
    if eventSemantics (encodeEvent replay) ≠ eventSemantics event.object then
      return .refused .idempotencyConflict
    else
      match ← readRun root disk event.value.runId with
      | none => return .refused .stateDiverged
      | some run => return .replayed run index
  | none =>
    if highestSequence events ≠ index.revision then return .refused .stateDiverged
    else
      let current ← readRun root disk event.value.runId
      let persisted := persistedEventForIndex index event
      let authority ← readAuthority disk persisted.value current
      match prepareTransition index current persisted.value authority with
      | .error code => return .refused (.transition code)
      | .ok prepared => return .accepted persisted prepared

inductive CommitStatus where
  | committed
  | replayed
  deriving DecidableEq, Repr

structure Committed where
  status : CommitStatus
  run : AnyRun
  index : ActiveIndex
  deriving DecidableEq

abbrev TransactionResult := Except TransactionErrorCode Committed

/-- What a call meets: whether a guard finds the root escaped, how many attempts the lock takes and
whether it is free in the end. -/
structure CallOptions where
  escape : Option TransactionErrorCode
  waits : ℕ
  free : Bool

/-- A call of `commit` may also crash. -/
structure CommitOptions extends CallOptions where
  crash : Option CrashPoint

open Store

def publishIndex (crashAt : Option CrashPoint) (prepared : PreparedTransition) :
    Store TransactionResult := do
  if !(← isValid) then return .error .deadlineExpired
  atomicReplace (·.writeIndex prepared.index)
  crash crashAt .afterIndex
  return .ok ⟨.committed, prepared.run, prepared.index⟩

def publishRun (crashAt : Option CrashPoint) (prepared : PreparedTransition) :
    Store TransactionResult := do
  if !(← isValid) then return .error .deadlineExpired
  atomicReplace (·.writeRun prepared.run)
  crash crashAt .afterRun
  publishIndex crashAt prepared

/-- The part of `commit` that writes: the event, then the snapshot, then the index. -/
def publish (crashAt : Option CrashPoint) (event : EventObject) (prepared : PreparedTransition) :
    Store TransactionResult := do
  crash crashAt .beforeEvent
  if !(← isValid) then return .error .deadlineExpired
  append event
  crash crashAt .afterEvent
  publishRun crashAt prepared

def commit (root : StateRoot) (options : CommitOptions) (event : EventObject) :
    Store TransactionResult := do
  if !(← isValid) then return .error .deadlineExpired
  if !Text.isUuid event.value.runId then throw .invalidUuid
  if let some code := options.escape then return .error code
  if !(← tryAcquire options.free options.waits) then
    return .error (if ← isValid then .lockTimeout else .deadlineExpired)
  match decideCommit root (← get).disk event with
  | .error error => throw error
  | .ok (.refused code) => return .error code
  | .ok (.replayed run index) => return .ok ⟨.replayed, run, index⟩
  | .ok (.accepted persisted prepared) => publish options.crash persisted prepared

end OmpLazy.State

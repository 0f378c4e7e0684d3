import OmpLazy.State.MigrationLedgers

/-! What the runtime reads from a lifecycle record. -/

namespace OmpLazy.State

open OmpLazy.Foundation OmpLazy.Foundation.Schema OmpLazy.Foundation.Text OmpLazy.Contracts OmpLazy.Gates

inductive FormatVersion where
  | v1
  | v2
  deriving DecidableEq, Repr

def FormatVersion.number : FormatVersion → ℕ
  | .v1 => 1
  | .v2 => 2

def IndexVersion.number : IndexVersion → ℕ
  | .v1 => 1
  | .v2 _ => 2

def taskLedgerNumber : TaskLedgerVersion → ℕ
  | .v1 => 1
  | .v2 .. => 2

structure DirectiveActivationRecord where
  sessionId : String
  workflow : Json
  runId : Option String
  activatedAt : String
  deriving DecidableEq, Repr

structure ContinuationCounter where
  sessionId : String
  runId : String
  turnId : Int
  count : Int
  deriving DecidableEq, Repr

inductive RecordKind where
  | activeIndex
  | run
  | event
  | taskFacts
  | acceptance
  | wal
  | rejections
  | team
  | activation
  | counter
  | provenance
  deriving DecidableEq, Repr

/-- What a reader returns. -/
inductive LifecycleRecord where
  | activeIndex (index : ActiveIndex)
  | run (run : AnyRun)
  | event (event : PersistedStateEvent)
  | taskFacts (ledger : PersistedTaskLedger)
  | acceptance (ledger : AcceptanceLedger WorkerAcceptanceEvent)
  | acceptanceV2 (ledger : AcceptanceLedger AcceptanceEntryV2)
  | wal (events : List WorkerAcceptanceEvent)
  | walV2 (events : List AcceptanceEntryV2)
  | rejections (ledger : Contracts.RejectionLedger Contracts.RejectionEntry)
  | rejectionsV2 (ledger : Contracts.RejectionLedger RejectionEntryV2)
  | team (state : Option Workflows.TeamState)
  | activation (record : DirectiveActivationRecord)
  | counter (counter : ContinuationCounter)
  deriving DecidableEq

def recordKind (path : String) : Option RecordKind :=
  if endsWith ".wal.jsonl" path then some .wal
  else if path = "active.json" then some .activeIndex
  else if startsWith "runs/" path then some .run
  else if startsWith "events/" path then some .event
  else if startsWith "task-facts/" path then some .taskFacts
  else if startsWith "worker-acceptance/" path then some .acceptance
  else if startsWith "worker-rejections/" path then some .rejections
  else if startsWith "teams/" path then some .team
  else if startsWith "directive-activations/" path then some .activation
  else if startsWith "continuation-counters/" path then some .counter
  else if startsWith "model-chain-provenance/" path then some .provenance
  else none

def asString : Json → Option String
  | .string s => some s
  | _ => none

def asNumber : Json → Option Int
  | .number n => some n
  | _ => none

/-- Whether a value is an object of this version. -/
def hasVersion (version : FormatVersion) (json : Json) : Bool :=
  json.get? "schemaVersion" = some (.nat version.number)

/-- Members of the wrong type have defaults. -/
def readDirectiveActivation (sessionId : String) (value : Json) : Option DirectiveActivationRecord :=
  if hasVersion .v1 value || hasVersion .v2 value then
    some {
      sessionId := ((value.get? "sessionId").bind asString).getD sessionId
      workflow := match value.get? "workflow" with
        | none | some .null => .string "ultrawork"
        | some workflow => workflow
      runId := (value.get? "runId").bind asString
      activatedAt := ((value.get? "activatedAt").bind asString).getD "" }
  else none

def readContinuationCounter (value : Json) : Option ContinuationCounter := do
  let sessionId ← (value.get? "sessionId").bind asString
  let runId ← (value.get? "runId").bind asString
  let turnId ← (value.get? "turnId").bind asNumber
  let count ← (value.get? "count").bind asNumber
  if hasVersion .v2 value && 0 ≤ count then some ⟨sessionId, runId, turnId, count⟩ else none

def maxWalBytes : ℕ := 4 * 1024 * 1024

def maxWalEntries : ℕ := 1000

section Format

variable {Contents : Type} (format : WalFormat Contents)

def readAcceptanceWal (bytes : Contents) : Option (List Json) :=
  if maxWalBytes < format.byteLength bytes then none
  else if maxWalEntries < (format.lines bytes).length then none
  else (format.lines bytes).mapM format.parse

variable (root : StateRoot) (isAbsolute : String → Bool)

/-- The reader of a kind on a value that it parsed, where the value has this version. A record of the
provenance of a model has no reader. -/
def readJson (version : FormatVersion) (path : String) (json : Json) : RecordKind → Option LifecycleRecord
  | .activeIndex => do
    let index ← (decodeActiveIndex (some json)).toOption
    if index.version.number = version.number then some (.activeIndex index) else none
  | .run => do
    let run ← (decodeRun root (some json)).toOption
    if run.version.number = version.number then some (.run run) else none
  | .event => do
    let event ← (decodeStateEvent (some json)).toOption
    if event.version.number = version.number then some (.event event) else none
  | .taskFacts => do
    let ledger ← readTaskLedger json
    if taskLedgerNumber ledger.version = version.number then some (.taskFacts ledger) else none
  | .acceptance =>
    match version with
    | .v1 => (acceptanceLedgerSchema json).map .acceptance
    | .v2 => (acceptanceLedgerV2Schema json).map .acceptanceV2
  | .rejections =>
    match version with
    | .v1 => (rejectionLedgerSchema json).map .rejections
    | .v2 => (rejectionLedgerV2Schema json).map .rejectionsV2
  | .team =>
    if hasVersion version json then (Workflows.readTeam isAbsolute json).map .team else none
  | .activation =>
    if hasVersion version json then
      (readDirectiveActivation (((between "directive-activations/" ".json" path).map
        String.ofList).getD "") json).map .activation
    else none
  | .counter =>
    if hasVersion version json then (readContinuationCounter json).map .counter else none
  | .wal | .provenance => none

/-- The log of the acceptances, whose lines are all read in the version of its ledger. -/
def readWal (version : FormatVersion) (bytes : Contents) : Option LifecycleRecord := do
  let entries ← readAcceptanceWal format bytes
  match version with
  | .v1 => (entries.mapM acceptanceEventSchema).map .wal
  | .v2 => (entries.mapM acceptanceEventV2Schema).map .walV2

/-- The runtime reader of a file, for one version of its records. -/
def readRecord (version : FormatVersion) (path : String) (bytes : Contents) : Option LifecycleRecord := do
  let kind ← recordKind path
  if kind = .wal then readWal format version bytes
  else (format.parse bytes).bind fun json ↦ readJson root isAbsolute version path json kind

end Format

end OmpLazy.State

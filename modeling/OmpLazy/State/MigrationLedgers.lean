import OmpLazy.Contracts.WorkerAcceptanceLedger
import OmpLazy.Foundation.Keys
import OmpLazy.Gates.TaskLedgerCodec
import OmpLazy.State.MigrationRecords
import OmpLazy.Workflows.TeammodeDomain

namespace OmpLazy.State

open OmpLazy.Foundation OmpLazy.Foundation.Schema OmpLazy.Contracts OmpLazy.Gates

/-- The texts of files, with what a log needs of them: the text of its lines and its length in bytes. -/
structure WalFormat (Contents : Type) extends TextFormat Contents where
  unlines : List Contents → Contents
  byteLength : Contents → ℕ

namespace Migration

/-! The identities in a ledger of task facts. -/

def reservations (entries : List Gates.TaskLedgerEntry) : List (ToolCallId × List TaskRequest) :=
  entries.foldl (fun found entry ↦
    match entry.fact with
    | .taskReserved toolCallId _ requests => setEntry toolCallId requests found
    | _ => found) []

def identityBindings (entries : List Gates.TaskLedgerEntry) :
    List (ToolCallId × List RuntimeIdentityBinding) :=
  entries.foldl (fun found entry ↦
    match entry.fact with
    | .taskIdentitiesBound toolCallId bindings => setEntry toolCallId bindings found
    | _ => found) []

/-- The identity that a binding of a tool call gives; none for an agent that is not a worker. -/
def bindingIdentity (runId : Uuid) (toolCallId : ToolCallId) (requests : List TaskRequest)
    (binding : RuntimeIdentityBinding) : Option (Option TaskIdentity) := do
  let request ← requests.reverse.find? (·.itemIndex = binding.itemIndex)
  let requestedName := request.requestedName.getD ""
  let taskId :=
    if requestedName = "" then toolCallId ++ ":" ++ toString binding.itemIndex else requestedName
  return (workerRoleSchema (.string (request.agentType.getD ""))).map fun role ↦
    ⟨runId, taskId, role, binding.actualAgentId⟩

def callIdentities (runId : Uuid) (reserved : List (ToolCallId × List TaskRequest)) :
    ToolCallId × List RuntimeIdentityBinding → Option (List TaskIdentity)
  | (toolCallId, values) => do
    let requests ← getEntry toolCallId reserved
    let identities ← values.mapM (bindingIdentity runId toolCallId requests)
    return identities.filterMap id

def taskIdentities (value : Json) : Option (List TaskIdentity) := do
  let ledger ← taskLedgerSchema value
  let identities ← (identityBindings ledger.entries).mapM
    (callIdentities ledger.runId (reservations ledger.entries))
  return identities.flatten

/-! The ledgers of a run. -/

def identityFor (identities : List TaskIdentity) (runId agentId : String) (role : Option WorkerRole) :
    Option TaskIdentity :=
  match identities.filter fun identity ↦ identity.runId = runId && identity.agentId = agentId &&
      (role.isNone || role = some identity.role) with
  | [identity] => some identity
  | _ => none

def TaskIdentity.scope (identity : TaskIdentity) : SemanticScope := ⟨identity.taskId, identity.role, 1⟩

def scopedAcceptance (identities : List TaskIdentity) (event : WorkerAcceptanceEvent) :
    Option AcceptanceEntryV2 :=
  (identityFor identities event.runId event.actualAgentId (some event.workerRole)).map fun identity ↦
    ⟨event, TaskIdentity.scope identity⟩

def scopedRejection (identities : List TaskIdentity) (entry : Contracts.RejectionEntry) :
    Option RejectionEntryV2 :=
  (identityFor identities entry.runId entry.actualAgentId none).map fun identity ↦
    ⟨entry, TaskIdentity.scope identity⟩

def withCount (count : ℕ) (entry : RejectionEntryV2) : RejectionEntryV2 :=
  { entry with entry :=
    { entry.entry with
      count := count
      status := if count = 3 then .needsParentDecision else .retryAllowed } }

/-- The map of the entries by their keys, with one more: what has its key is counted with it. -/
def mergeRejection (merged : List (String × RejectionEntryV2)) (entry : RejectionEntryV2) :
    List (String × RejectionEntryV2) :=
  let prior := getEntry (rejectionKey entry) merged
  let count := min 3 ((prior.map (·.entry.count)).getD 0 + entry.entry.count)
  setEntry (rejectionKey entry) (withCount count entry) merged

def mergeRejections (entries : List RejectionEntryV2) : List RejectionEntryV2 :=
  (entries.foldl mergeRejection []).map (·.2)

section Format

variable {Contents : Type} (format : WalFormat Contents)

def migrateAcceptance (value : Json) (identities : List TaskIdentity) :
    MigrationRecordResult Contents :=
  if (acceptanceLedgerV2Schema value).isSome then .current (format.stringify value)
  else if schemaVersion value ≠ some 1 then .invalid
  else
    match acceptanceLedgerSchema value with
    | none => .invalid
    | some ledger =>
      match ledger.entries.mapM (scopedAcceptance identities) with
      | none => .invalid
      | some entries => .migrated (format.stringify ((value.set "schemaVersion" (.nat 2)).set "entries"
          (.array (entries.map encodeAcceptanceEntryV2))))

def migrateRejections (value : Json) (identities : List TaskIdentity) :
    MigrationRecordResult Contents :=
  if (rejectionLedgerV2Schema value).isSome then .current (format.stringify value)
  else if schemaVersion value ≠ some 1 then .invalid
  else
    match rejectionLedgerSchema value with
    | none => .invalid
    | some ledger =>
      match ledger.entries.mapM (scopedRejection identities) with
      | none => .invalid
      | some converted => .migrated (format.stringify ((value.set "schemaVersion" (.nat 2)).set
          "entries" (.array ((mergeRejections converted).map encodeRejectionEntryV2))))

/-- A line of a log: in the second version as it is, in the first with its scope. -/
def migrateWalEntry (identities : List TaskIdentity) (entry : Json) : Option Json :=
  if entry.get? "schemaVersion" = some (.nat 2) then
    if (acceptanceEventV2Schema entry).isSome then some entry else none
  else do
    let event ← acceptanceEventSchema entry
    let entryV2 ← scopedAcceptance identities event
    return encodeAcceptanceEventV2 entryV2

def migrateWal (bytes : Contents) (identities : List TaskIdentity) : MigrationRecordResult Contents :=
  match (format.lines bytes).mapM (parseRecord format.toTextFormat) with
  | none => .invalid
  | some entries =>
    match entries.mapM (migrateWalEntry identities) with
    | none => .invalid
    | some migrated =>
      let bytes := format.unlines (migrated.map format.stringify)
      if entries.all fun entry ↦ entry.get? "schemaVersion" = some (.nat 2) then .current bytes
      else .migrated bytes

/-- The rules of the ledgers as the repository has them. -/
def ledgerRules (isAbsolute : String → Bool) : LedgerRules Contents where
  taskIdentities := taskIdentities
  isTaskLedger value := (taskLedgerSchema value).isSome
  isTeamState value := (Workflows.teamStateSchema isAbsolute value).isSome
  isTombstone value := (Workflows.tombstoneSchema 1 value).isSome
  migrateAcceptance := migrateAcceptance format
  migrateRejections := migrateRejections format
  migrateWal := migrateWal format

end Format

end Migration

end OmpLazy.State

import OmpLazy.Contracts.WorkerAcceptanceLedger
import OmpLazy.Gates.TaskLedgerView

namespace OmpLazy.Contracts

open OmpLazy.Foundation OmpLazy.Foundation.Schema OmpLazy.Gates
open OmpLazy.State (Uuid)

/-- The rejections of a worker are counted by this scope. -/
structure RejectionScope where
  runId : Uuid
  attempt : ℕ
  runRevision : ℕ
  ownerEpoch : ℕ
  taskGeneration : ℕ
  actualAgentId : AgentId
  semantic : SemanticScope
  deriving DecidableEq, Repr

inductive RuntimeRejectionLedger where
  | v1 (ledger : RejectionLedger RejectionEntry)
  | v2 (ledger : RejectionLedger RejectionEntryV2)
  deriving DecidableEq, Repr

/-- `[runId, attempt].join("\u0000")`. -/
def legacyRejectionKey (runId : Uuid) (attempt : ℕ) : String := runId ++ "\x00" ++ toString attempt

/-- The entry that a scope would have. -/
def RejectionScope.entry (scope : RejectionScope) (count : ℕ) (status : State.RejectionStatus) :
    RejectionEntryV2 :=
  ⟨⟨scope.runId, scope.attempt, scope.runRevision, scope.ownerEpoch, scope.taskGeneration,
    scope.actualAgentId, count, status⟩, scope.semantic⟩

def RejectionScope.key (scope : RejectionScope) : String := rejectionKey (scope.entry 0 .retryAllowed)

/-- A ledger of rejections from its file, or a fresh one of the version that the run has. -/
def readRejections (runId : Uuid) (run : Option State.AnyRun) : Option Json → Option RuntimeRejectionLedger
  | some json => ((rejectionLedgerV2Schema json).map .v2).or ((rejectionLedgerSchema json).map .v1)
  | none =>
    match run.map State.AnyRun.version with
    | some (.v2 ..) => some (.v2 ⟨runId, []⟩)
    | _ => some (.v1 ⟨runId, []⟩)

def rejectionCount (scope : RejectionScope) : RuntimeRejectionLedger → ℕ
  | .v1 ledger => ((ledger.entries.find? fun entry ↦ legacyRejectionKey entry.runId entry.attempt =
      legacyRejectionKey scope.runId scope.attempt).map (·.count)).getD 0
  | .v2 ledger => ((ledger.entries.find? (rejectionKey · = scope.key)).map (·.entry.count)).getD 0

def semanticAttempt : WorkerRole → ℕ
  | .low => 1
  | .medium => 2
  | .high => 3

/-- `requestedName ?? toolCallId:itemIndex`. -/
def dispatchTaskId (identity : RuntimeIdentityRecord) : String :=
  identity.requestedName.getD (identity.toolCallId ++ ":" ++ toString identity.itemIndex)

/-- The scope in which the rejections of an agent of the current generation are counted, if it is a worker. -/
def rejectionScope (scope : TaskRunScope) (agentId : AgentId) : Option RejectionScope := do
  let generation := scope.taskGeneration
  let identity ← (scope.runtimeIdentities generation).find? (·.actualAgentId = agentId)
  if generation = 0 then none
  let role ← identity.agentType.bind fun agentType ↦ workerRoleSchema (.string agentType)
  return { runId := scope.run.runId
           attempt := scope.run.progressRevision
           runRevision := scope.run.revision
           ownerEpoch := scope.run.owner.epoch
           taskGeneration := generation
           actualAgentId := identity.actualAgentId
           semantic := ⟨dispatchTaskId identity, role, semanticAttempt role⟩ }

end OmpLazy.Contracts

import OmpLazy.Gates.TaskLedgerCodec

namespace OmpLazy.Gates

open OmpLazy.Contracts
open OmpLazy.State (AnyRun)
open OmpLazy.State.ReceiptAuthority (findLast)

/-- A run and the ledger of its tasks, as one transaction sees them. -/
structure TaskRunScope where
  run : AnyRun
  ledger : PersistedTaskLedger
  deriving DecidableEq, Repr

structure TaskReservationFact where
  toolCallId : ToolCallId
  itemCount : ℕ
  requests : List TaskRequest
  deriving DecidableEq, Repr

structure TaskIdentityFact where
  toolCallId : ToolCallId
  bindings : List RuntimeIdentityBinding
  deriving DecidableEq, Repr

structure TaskAuthorizationFact where
  toolCallId : ToolCallId
  control : TaskControl
  taskGeneration : ℕ
  inputKey : String
  targets : List String
  deriving DecidableEq, Repr

structure TaskReceiptFact where
  toolCallId : ToolCallId
  receipt : TaskReceipt
  deriving DecidableEq, Repr

namespace TaskFact

def reservation : TaskFact → Option TaskReservationFact
  | .taskReserved toolCallId itemCount requests => some ⟨toolCallId, itemCount, requests⟩
  | _ => none

def identities : TaskFact → Option TaskIdentityFact
  | .taskIdentitiesBound toolCallId bindings => some ⟨toolCallId, bindings⟩
  | _ => none

def authorization : TaskFact → Option TaskAuthorizationFact
  | .taskControlAuthorized toolCallId control taskGeneration inputKey targets =>
    some ⟨toolCallId, control, taskGeneration, inputKey, targets⟩
  | _ => none

def receipt : TaskFact → Option TaskReceiptFact
  | .taskReceiptObserved toolCallId receipt => some ⟨toolCallId, receipt⟩
  | _ => none

end TaskFact

def TaskReservationFact.fact (reservation : TaskReservationFact) : TaskFact :=
  .taskReserved reservation.toolCallId reservation.itemCount reservation.requests

structure RuntimeIdentityRecord where
  toolCallId : ToolCallId
  itemIndex : ℕ
  requestedName : Option String
  agentType : Option String
  actualAgentId : AgentId
  actualJobId : Option JobId
  deriving DecidableEq, Repr

namespace TaskRunScope

def ownedBy (scope : TaskRunScope) (entry : TaskLedgerEntry) : Bool :=
  entry.ownerSessionId = scope.run.owner.sessionId && entry.ownerEpoch = scope.run.owner.epoch

def currentOwnerEntries (scope : TaskRunScope) : List TaskLedgerEntry :=
  scope.ledger.entries.filter scope.ownedBy

def taskFacts (scope : TaskRunScope) : List TaskFact := scope.currentOwnerEntries.map (·.fact)

/-- The facts that open a generation of tasks. -/
def opening (fact : TaskFact) : Bool := fact.kind = .taskReserved || fact.kind = .taskIdentitiesBound

def opensGeneration (entry : TaskLedgerEntry) : Bool := opening entry.fact

def taskGeneration (scope : TaskRunScope) : ℕ :=
  ((findLast opensGeneration scope.currentOwnerEntries).map (·.sequence)).getD 0

def taskReservations (scope : TaskRunScope) : List TaskReservationFact :=
  scope.taskFacts.filterMap TaskFact.reservation

def taskReservation (scope : TaskRunScope) (toolCallId : ToolCallId) : Option TaskReservationFact :=
  scope.taskReservations.find? (·.toolCallId = toolCallId)

def taskIdentityFacts (scope : TaskRunScope) : List TaskIdentityFact :=
  scope.taskFacts.filterMap TaskFact.identities

def taskAuthorization (scope : TaskRunScope) (toolCallId : ToolCallId) : Option TaskAuthorizationFact :=
  (scope.taskFacts.filterMap TaskFact.authorization).find? (·.toolCallId = toolCallId)

def taskReceipts (scope : TaskRunScope) : List TaskReceiptFact :=
  scope.taskFacts.filterMap TaskFact.receipt

/-- The identities that were bound by the fact which opened the generation. -/
def identityEntry (scope : TaskRunScope) (generation : ℕ) : Option TaskIdentityFact :=
  (scope.currentOwnerEntries.find? fun entry ↦
    entry.sequence = generation && entry.fact.kind = .taskIdentitiesBound).bind (·.fact.identities)

/-- The jobs of the receipts that were authorized in a generation. -/
def returnedJobs (scope : TaskRunScope) (generation : ℕ) : List JobId :=
  scope.taskReceipts.filterMap fun fact ↦
    match fact.receipt with
    | .job jobId _ =>
      if (scope.taskAuthorization fact.toolCallId).map (·.taskGeneration) = some generation then some jobId
      else none
    | _ => none

def runtimeIdentities (scope : TaskRunScope) (generation : ℕ) : List RuntimeIdentityRecord :=
  match scope.identityEntry generation with
  | none => []
  | some identity =>
    match findLast (·.toolCallId = identity.toolCallId) scope.taskReservations with
    | none => []
    | some reservation => identity.bindings.filterMap fun binding ↦
      reservation.requests[binding.itemIndex]?.map fun request ↦
        { toolCallId := identity.toolCallId
          itemIndex := binding.itemIndex
          requestedName := request.requestedName
          agentType := request.agentType
          actualAgentId := binding.actualAgentId
          actualJobId := binding.actualJobId.or
            ((scope.returnedJobs generation).find? (· = binding.actualAgentId)) }

end TaskRunScope

end OmpLazy.Gates

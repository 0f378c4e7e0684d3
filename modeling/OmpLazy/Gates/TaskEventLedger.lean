import OmpLazy.Gates.TaskSidecarStore

namespace OmpLazy.Gates

open OmpLazy.Foundation OmpLazy.Contracts
open OmpLazy.State (Uuid encodeStrings)

inductive ReserveStatus where
  | reserved
  | replayed
  | limit
  | factConflict
  deriving DecidableEq, Repr

inductive BindingStatus where
  | pending
  | blocked
  | factConflict
  | missingReservation
  deriving DecidableEq, Repr

inductive AuthorizationStatus where
  | authorized
  | unowned
  | noGeneration
  deriving DecidableEq, Repr

inductive HubWaitAuthorizationStatus where
  | authorized
  | unownedAgent
  | unownedJob
  | noGeneration
  deriving DecidableEq, Repr

inductive ReceiptWriteStatus where
  | recorded
  | uncorrelated
  | staleGeneration
  | identityMappingIncomplete
  | receiptMissing
  deriving DecidableEq, Repr

structure ControlAuthorization where
  toolCallId : ToolCallId
  control : TaskControl
  inputKey : String
  targets : List String
  deriving DecidableEq, Repr

structure HubWaitAuthorization where
  toolCallId : ToolCallId
  inputKey : String
  jobTargets : List String
  agentTargets : List String
  deriving DecidableEq, Repr

inductive JobType where
  | bash
  | task
  deriving DecidableEq, Repr

structure TaskJobSnapshot where
  id : JobId
  type : JobType
  status : JobStatus
  deriving DecidableEq, Repr

inductive CancelStatus where
  | cancelled
  | notFound
  | alreadyCompleted
  deriving DecidableEq, Repr

structure TaskCancelReceipt where
  id : JobId
  status : CancelStatus
  deriving DecidableEq, Repr

structure TaskIrcReceipt where
  toAgent : AgentId
  outcome : IrcOutcome
  deriving DecidableEq, Repr

namespace TaskRunScope

/-- The agents of a generation. -/
def ownedAgents (scope : TaskRunScope) (generation : ℕ) : List String :=
  (scope.runtimeIdentities generation).map (·.actualAgentId)

/-- The jobs of a generation, as far as they are known. -/
def ownedJobs (scope : TaskRunScope) (generation : ℕ) : List String :=
  (scope.runtimeIdentities generation).filterMap (·.actualJobId)

def reserve (scope : TaskRunScope) (reservation : TaskReservationFact) (maxFanOut : ℕ) :
    TaskLedgerDecision ReserveStatus :=
  match scope.taskReservation reservation.toolCallId with
  | some existing =>
    .returned (if encodeFact existing.fact = encodeFact reservation.fact then .replayed else .factConflict)
  | none =>
    let total := (scope.taskReservations.map (·.itemCount)).sum + reservation.itemCount
    if Schema.maxSafeInteger < total ∨ maxFanOut < total then .returned .limit
    else .append [reservation.fact.built] .reserved

def bindingsMatch (itemCount : ℕ) (bindings : List RuntimeIdentityBinding) : Bool :=
  bindings.length = itemCount && bindings.map (·.itemIndex) = List.range bindings.length &&
    (bindings.map (·.actualAgentId)).Nodup

def bindingStatus (asyncAvailable : Bool) : BindingStatus := if asyncAvailable then .pending else .blocked

def bind (scope : TaskRunScope) (toolCallId : ToolCallId) (bindings : List RuntimeIdentityBinding)
    (asyncAvailable : Bool) : TaskLedgerDecision BindingStatus :=
  match scope.taskReservation toolCallId with
  | none => .returned .missingReservation
  | some reservation =>
    if !bindingsMatch reservation.itemCount bindings then .returned .factConflict
    else
      let fact : TaskFact := .taskIdentitiesBound toolCallId bindings
      match scope.taskIdentityFacts.find? (·.toolCallId = toolCallId) with
      | some existing => .returned (
          if encodeFact (.taskIdentitiesBound existing.toolCallId existing.bindings) = encodeFact fact then
            bindingStatus asyncAvailable
          else .factConflict)
      | none =>
        let generation := scope.ledger.ledgerRevision + 1
        let blocked : TaskFact :=
          .asyncCapabilityObserved toolCallId generation .blocked "async_unavailable_or_inline"
        .append (fact.built :: if asyncAvailable then [] else [blocked.built])
          (bindingStatus asyncAvailable)

/-- The targets that a control may have. -/
def ownedTargets (scope : TaskRunScope) (generation : ℕ) : TaskControl → List String
  | .ircSend | .ircTarget => scope.ownedAgents generation
  | .jobSnapshot | .jobCancel => scope.ownedJobs generation

/-- `{ kind, ...authorization, taskGeneration }`. -/
def authorizationFact (authorization : ControlAuthorization) (generation : ℕ) : BuiltFact where
  fact := .taskControlAuthorized authorization.toolCallId authorization.control generation
    authorization.inputKey authorization.targets
  json := .object
    [("kind", .string (factKindText .taskControlAuthorized)),
      ("toolCallId", .string authorization.toolCallId),
      ("control", .string authorization.control.text),
      ("inputKey", .string authorization.inputKey),
      ("targets", encodeTargets authorization.targets),
      ("taskGeneration", .nat generation)]

def authorize (scope : TaskRunScope) (authorization : ControlAuthorization) :
    TaskLedgerDecision AuthorizationStatus :=
  let generation := scope.taskGeneration
  if generation = 0 then .returned .noGeneration
  else if ¬ authorization.targets ⊆ scope.ownedTargets generation authorization.control then
    .returned .unowned
  else .append [authorizationFact authorization generation] .authorized

def authorizeHubWait (scope : TaskRunScope) (authorization : HubWaitAuthorization) :
    TaskLedgerDecision HubWaitAuthorizationStatus :=
  let generation := scope.taskGeneration
  if generation = 0 then .returned .noGeneration
  else if ¬ authorization.jobTargets ⊆ scope.ownedJobs generation then .returned .unownedJob
  else if ¬ authorization.agentTargets ⊆ scope.ownedAgents generation then .returned .unownedAgent
  else
    let fact : TaskFact := .taskControlAuthorized authorization.toolCallId .jobSnapshot generation
      authorization.inputKey authorization.jobTargets
    .append [fact.built] .authorized

/-! The receipt writer. -/

/-- The authorization that a result belongs to, or why it belongs to none. -/
def matchingAuthorization (scope : TaskRunScope) (toolCallId : ToolCallId) (inputKey : String)
    (control : TaskControl) : Except ReceiptWriteStatus TaskAuthorizationFact :=
  match scope.taskAuthorization toolCallId with
  | none => .error .uncorrelated
  | some authorization =>
    if authorization.control ≠ control ∨ authorization.inputKey ≠ inputKey then .error .uncorrelated
    else if authorization.taskGeneration ≠ scope.taskGeneration then .error .staleGeneration
    else .ok authorization

/-- The jobs are those of the expected agents, each once. -/
def snapshotComplete (expected returned : List String) : Bool :=
  !expected.isEmpty && returned.Nodup && returned.length = expected.dedup.length && expected ⊆ returned

def capabilityFact (toolCallId : ToolCallId) (generation : ℕ) (status : CapabilityStatus)
    (reason : String) : BuiltFact :=
  TaskFact.built (.asyncCapabilityObserved toolCallId generation status reason)

def recordJobSnapshot (scope : TaskRunScope) (toolCallId : ToolCallId) (inputKey : String)
    (jobs : List TaskJobSnapshot) : TaskLedgerDecision ReceiptWriteStatus :=
  match scope.matchingAuthorization toolCallId inputKey .jobSnapshot with
  | .error status => .returned status
  | .ok authorization =>
    let generation := authorization.taskGeneration
    let taskJobs := jobs.filter (·.type = .task)
    if snapshotComplete (scope.ownedAgents generation) (taskJobs.map (·.id)) then
      .append (taskJobs.map (fun job ↦ TaskFact.built
          (.taskReceiptObserved toolCallId (.job job.id job.status))) ++
        [capabilityFact toolCallId generation .proven "matching_job_snapshot"]) .recorded
    else
      .append [capabilityFact toolCallId generation .blocked "identity_mapping_incomplete"]
        .identityMappingIncomplete

def recordCancellation (scope : TaskRunScope) (toolCallId : ToolCallId) (inputKey : String)
    (cancelled : List TaskCancelReceipt) : TaskLedgerDecision ReceiptWriteStatus :=
  match scope.matchingAuthorization toolCallId inputKey .jobCancel with
  | .error status => .returned status
  | .ok authorization =>
    match authorization.targets.mapM fun target ↦
        cancelled.find? fun receipt ↦ receipt.id = target && receipt.status = .cancelled with
    | none => .returned .receiptMissing
    | some receipts => .append (receipts.map fun receipt ↦
        TaskFact.built (.taskReceiptObserved toolCallId (.jobCancel receipt.id))) .recorded

def recordIrcReceipts (scope : TaskRunScope) (toolCallId : ToolCallId) (inputKey : String)
    (receipts : List TaskIrcReceipt) : TaskLedgerDecision ReceiptWriteStatus :=
  match scope.matchingAuthorization toolCallId inputKey .ircSend with
  | .error status => .returned status
  | .ok authorization =>
    let matching := receipts.filter (·.toAgent ∈ authorization.targets)
    if matching.length ≠ authorization.targets.dedup.length ∨ receipts.length ≠ matching.length then
      .returned .receiptMissing
    else .append (matching.map fun receipt ↦
      TaskFact.built (.taskReceiptObserved toolCallId (.irc receipt.toAgent receipt.outcome))) .recorded

end TaskRunScope

/-- The calls that transact on the ledger. -/
inductive GateCall where
  | reserve (reservation : TaskReservationFact) (maxFanOut : ℕ)
  | bind (toolCallId : ToolCallId) (bindings : List RuntimeIdentityBinding) (asyncAvailable : Bool)
  | authorize (authorization : ControlAuthorization)
  | authorizeHubWait (authorization : HubWaitAuthorization)
  | recordJobSnapshot (toolCallId : ToolCallId) (inputKey : String) (jobs : List TaskJobSnapshot)
  | recordCancellation (toolCallId : ToolCallId) (inputKey : String) (cancelled : List TaskCancelReceipt)
  | recordIrcReceipts (toolCallId : ToolCallId) (inputKey : String) (receipts : List TaskIrcReceipt)
  deriving DecidableEq, Repr

inductive GateStatus where
  | reserve (status : ReserveStatus)
  | bind (status : BindingStatus)
  | authorize (status : AuthorizationStatus)
  | authorizeHubWait (status : HubWaitAuthorizationStatus)
  | record (status : ReceiptWriteStatus)
  deriving DecidableEq, Repr

def TaskLedgerDecision.map {α β : Type} (f : α → β) : TaskLedgerDecision α → TaskLedgerDecision β
  | .returned value => .returned (f value)
  | .append facts value => .append facts (f value)

def GateCall.decide (scope : TaskRunScope) : GateCall → TaskLedgerDecision GateStatus
  | .reserve reservation maxFanOut => (scope.reserve reservation maxFanOut).map .reserve
  | .bind toolCallId bindings asyncAvailable =>
    (scope.bind toolCallId bindings asyncAvailable).map .bind
  | .authorize authorization => (scope.authorize authorization).map .authorize
  | .authorizeHubWait authorization => (scope.authorizeHubWait authorization).map .authorizeHubWait
  | .recordJobSnapshot toolCallId inputKey jobs =>
    (scope.recordJobSnapshot toolCallId inputKey jobs).map .record
  | .recordCancellation toolCallId inputKey cancelled =>
    (scope.recordCancellation toolCallId inputKey cancelled).map .record
  | .recordIrcReceipts toolCallId inputKey receipts =>
    (scope.recordIrcReceipts toolCallId inputKey receipts).map .record

/-- The statuses of a call that was granted. -/
def GateStatus.granted : GateStatus → Bool
  | .reserve status => status = .reserved || status = .replayed
  | .bind status => status = .pending || status = .blocked
  | .authorize status => status = .authorized
  | .authorizeHubWait status => status = .authorized
  | .record status => status = .recorded || status = .identityMappingIncomplete

/-- A call of a session, with what it returns and the files it leaves; nothing when it throws. -/
def TaskStore.call (store : TaskStore) (acquired : Bool) (sessionId : String) (call : GateCall) :
    Option (TaskLedgerTransaction GateStatus × (Uuid → Option Json)) :=
  store.transact acquired sessionId fun scope ↦ call.decide scope

/-- The files after a call. -/
def TaskStore.after (store : TaskStore) (acquired : Bool) (sessionId : String) (call : GateCall) :
    Uuid → Option Json :=
  (store.call acquired sessionId call).elim store.ledgers (·.2)

end OmpLazy.Gates

import OmpLazy.Foundation.Schema

namespace OmpLazy.State

/-- `z.uuid()` is checked by the schemas; the brand itself carries no data. -/
abbrev Uuid := String

structure CanonicalRoot where
  canonicalPath : String
  displayPath : String
  deriving DecidableEq, Repr

inductive WorkflowKind where
  | startWork
  | ulwLoop
  deriving DecidableEq, Repr

inductive IndexStatusHint where
  | active
  | paused
  | stuck
  | blocked
  deriving DecidableEq, Repr

structure ActiveIndexEntry where
  workflow : WorkflowKind
  sessionId : String
  runId : Uuid
  ownerEpoch : ℕ
  runRevision : ℕ
  transactionRevision : ℕ
  statusHint : IndexStatusHint
  deriving DecidableEq, Repr

inductive IndexVersion where
  | v1
  | v2 (migrationRevision : ℕ)
  deriving DecidableEq, Repr

structure ActiveIndex where
  version : IndexVersion
  revision : ℕ
  entries : List ActiveIndexEntry
  deriving DecidableEq, Repr

inductive RunVersion where
  | v1
  | v2 (packetHash expectedHead : Option String)
  deriving DecidableEq, Repr

/-- The statuses of a start-work payload, which include every status of a ULW payload. -/
inductive RunStatus where
  | active
  | paused
  | blocked
  | needsUserDecision
  | reviewBlocked
  | stuck
  | completed
  | cancelled
  | failed
  | abandoned
  deriving DecidableEq, Repr

inductive UlwLoopStatus where
  | active
  | paused
  | stuck
  | completed
  | cancelled
  | failed
  | blocked
  | needsUserDecision
  | reviewBlocked
  deriving DecidableEq, Repr

def UlwLoopStatus.toRunStatus : UlwLoopStatus → RunStatus
  | .active => .active
  | .paused => .paused
  | .stuck => .stuck
  | .completed => .completed
  | .cancelled => .cancelled
  | .failed => .failed
  | .blocked => .blocked
  | .needsUserDecision => .needsUserDecision
  | .reviewBlocked => .reviewBlocked

structure Plan where
  planId : Uuid
  canonicalPath : String
  displayPath : String
  allowedRoot : String
  allowedRootDisplay : String
  taskFingerprint : String
  taskIds : List String
  deriving DecidableEq, Repr

structure StartWorkPayload where
  status : RunStatus
  plan : Plan
  deriving DecidableEq, Repr

inductive CriterionStatus where
  | pending
  | pass
  | fail
  | blocked
  deriving DecidableEq, Repr

structure Criterion where
  id : String
  scenario : Option String
  observable : Option String
  evidenceLogicalId : Option String
  status : CriterionStatus
  identicalFailureFingerprint : Option String
  identicalFailureCount : ℕ
  evidenceRef : Option String
  captureRevision : Option ℕ
  captureCommit : Option String
  deriving DecidableEq, Repr

inductive GoalStatus where
  | pending
  | inProgress
  | complete
  | failed
  | blocked
  | needsUserDecision
  | reviewBlocked
  deriving DecidableEq, Repr

structure Goal where
  id : String
  status : GoalStatus
  cycleCount : ℕ
  criteria : List Criterion
  deriving DecidableEq, Repr

def Goal.criterionIds (goal : Goal) : List String := goal.criteria.map (·.id)

structure UlwLoopPayload where
  objective : Option String
  annotationText : Option String
  status : UlwLoopStatus
  activeGoalId : Option String
  goals : List Goal
  deriving DecidableEq, Repr

def UlwLoopPayload.goalIds (payload : UlwLoopPayload) : List String := payload.goals.map (·.id)

def UlwLoopPayload.criterionIds (payload : UlwLoopPayload) : List String :=
  payload.goals.flatMap (·.criterionIds)

def UlwLoopPayload.inProgress (payload : UlwLoopPayload) : List Goal :=
  payload.goals.filter (·.status = .inProgress)

/-- A run's payload; its tag is the payload's `kind` and the run's `workflow`, which the source's
types tie together. -/
inductive Payload where
  | startWork (payload : StartWorkPayload)
  | ulwLoop (payload : UlwLoopPayload)
  deriving DecidableEq, Repr

def Payload.workflow : Payload → WorkflowKind
  | .startWork _ => .startWork
  | .ulwLoop _ => .ulwLoop

def Payload.status : Payload → RunStatus
  | .startWork payload => payload.status
  | .ulwLoop payload => payload.status.toRunStatus

/-- `{ ...payload, status }`, the status as each workflow has it. -/
def Payload.withStatus (start : RunStatus) (ulw : UlwLoopStatus) : Payload → Payload
  | .startWork payload => .startWork { payload with status := start }
  | .ulwLoop payload => .ulwLoop { payload with status := ulw }

structure Owner where
  sessionId : String
  epoch : ℕ
  deriving DecidableEq, Repr

structure Continuation where
  lastProcessedLeafId : Option String
  progressRevisionSeen : ℕ
  noProgressAttempts : ℕ
  stuck : Bool
  deriving DecidableEq, Repr

structure AnyRun where
  version : RunVersion
  runId : Uuid
  revision : ℕ
  transactionRevision : ℕ
  owner : Owner
  progressRevision : ℕ
  continuation : Continuation
  createdAt : String
  updatedAt : String
  payload : Payload
  deriving DecidableEq, Repr

namespace AnyRun

def workflow (run : AnyRun) : WorkflowKind := run.payload.workflow

def status (run : AnyRun) : RunStatus := run.payload.status

end AnyRun

inductive Control where
  | pause
  | resume
  | cancel
  deriving DecidableEq, Repr

inductive TerminalStatus where
  | completed
  | failed
  deriving DecidableEq, Repr

structure SteeredCriterion where
  id : String
  scenario : String
  observable : String
  evidenceLogicalId : String
  deriving DecidableEq, Repr

/-- The body of a `criterion_settled` mutation. -/
structure Settlement where
  goalId : String
  criterionId : String
  acceptanceId : Option String
  evidenceRef : String
  captureRevision : ℕ
  captureCommit : String
  deriving DecidableEq, Repr

inductive StateMutation where
  | runCreated (run : AnyRun)
  | workflowControlled (control : Control)
  | ownerAdopted (sessionId : String)
  | planReconciled (taskIds : List String) (remainingTaskIds : Option (List String))
      (taskFingerprint : String)
  | workflowSteered (criteria : List SteeredCriterion) (annotationText : Option String)
  | criterionSettled (settlement : Settlement)
  | taskEvidenceAccepted (taskId acceptanceId : String)
  | workflowTerminal (status : TerminalStatus) (acceptanceIds : Option (List String))
      (taskId : Option String)
  | continuationAttempted (leafId : String) (progressRevision : ℕ)
  | continuationStuck (leafId : String)
  | goalCycleStarted (goalId : String)
  | criterionFailureRecorded (goalId criterionId fingerprint : String)
  deriving DecidableEq, Repr

inductive MutationKind where
  | runCreated
  | workflowControlled
  | ownerAdopted
  | planReconciled
  | workflowSteered
  | criterionSettled
  | taskEvidenceAccepted
  | workflowTerminal
  | continuationAttempted
  | continuationStuck
  | goalCycleStarted
  | criterionFailureRecorded
  deriving DecidableEq, Repr

def StateMutation.kind : StateMutation → MutationKind
  | .runCreated .. => .runCreated
  | .workflowControlled .. => .workflowControlled
  | .ownerAdopted .. => .ownerAdopted
  | .planReconciled .. => .planReconciled
  | .workflowSteered .. => .workflowSteered
  | .criterionSettled .. => .criterionSettled
  | .taskEvidenceAccepted .. => .taskEvidenceAccepted
  | .workflowTerminal .. => .workflowTerminal
  | .continuationAttempted .. => .continuationAttempted
  | .continuationStuck .. => .continuationStuck
  | .goalCycleStarted .. => .goalCycleStarted
  | .criterionFailureRecorded .. => .criterionFailureRecorded

structure Expected where
  indexRevision : ℕ
  runRevision : Option ℕ
  ownerSessionId : Option String
  ownerEpoch : Option ℕ
  deriving DecidableEq, Repr

/-- What a version 2 event adds: two members of `expected` and the legacy mark. -/
inductive EventVersion where
  | v1
  | v2 (expectedHead : Option String) (taskGeneration : Option ℕ) (legacyHeadUnbound : Bool)
  deriving DecidableEq, Repr

structure PersistedStateEvent where
  version : EventVersion
  eventId : Uuid
  sequence : ℕ
  runId : Uuid
  workflow : WorkflowKind
  kind : MutationKind
  expected : Expected
  mutation : StateMutation
  atTime : String
  deriving DecidableEq, Repr

namespace PersistedStateEvent

/-- `event.schemaVersion === 2 && event.legacyHeadUnbound`. -/
def legacyUnbound (event : PersistedStateEvent) : Bool :=
  match event.version with
  | .v1 => false
  | .v2 _ _ legacyHeadUnbound => legacyHeadUnbound

end PersistedStateEvent

end OmpLazy.State

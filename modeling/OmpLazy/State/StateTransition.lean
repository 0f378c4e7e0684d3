import OmpLazy.State.RuntimeProgress
import OmpLazy.Workflows.WorkflowControl

namespace OmpLazy.State

open OmpLazy.Workflows

inductive TransitionErrorCode where
  | indexRevisionConflict
  | runRevisionConflict
  | ownerConflict
  | epochConflict
  | staleRevision
  | ownerMismatch
  | ownerEpochMismatch
  | staleHead
  | taskScopeMismatch
  | invalidMutation
  deriving DecidableEq, Repr

structure PreparedTransition where
  run : AnyRun
  index : ActiveIndex
  deriving DecidableEq, Repr

/-- A steered criterion as it enters the active goal. -/
def SteeredCriterion.pending (criterion : SteeredCriterion) : Criterion where
  id := criterion.id
  scenario := some criterion.scenario
  observable := some criterion.observable
  evidenceLogicalId := some criterion.evidenceLogicalId
  status := .pending
  identicalFailureFingerprint := none
  identicalFailureCount := 0
  evidenceRef := none
  captureRevision := none
  captureCommit := none

def steeredGoal (criteria : List SteeredCriterion) (goal : Goal) : Goal :=
  { goal with criteria := goal.criteria ++ criteria.map SteeredCriterion.pending }

def steeredGoals (activeGoalId : String) (criteria : List SteeredCriterion) (goals : List Goal) :
    List Goal :=
  updateGoal activeGoalId (steeredGoal criteria) goals

def steerRun (run : AnyRun) (criteria : List SteeredCriterion) (annotationText : Option String) :
    Option AnyRun :=
  match run.payload with
  | .startWork _ => none
  | .ulwLoop payload =>
    match payload.activeGoalId with
    | none => none
    | some activeGoalId =>
      if criteria.any (·.id ∈ payload.criterionIds) then none
      else some { run with
        revision := run.revision + 1
        payload := .ulwLoop { payload with
          annotationText := annotationText.or payload.annotationText
          goals := steeredGoals activeGoalId criteria payload.goals } }

/-- The cases of `controlRun` by mutation. -/
def controlMutation (run : AnyRun) (event : PersistedStateEvent)
    (authority : Option ReceiptAuthority) : Option AnyRun :=
  match event.mutation with
  | .runCreated _ => none
  | .workflowControlled control =>
    let kind : ControlKind :=
      match control with
      | .pause => .pause
      | .resume => .resume
      | .cancel => .cancel
    (reduceWorkflowControl run ⟨kind, run.owner.sessionId, run.owner.epoch⟩).toOption
  | .ownerAdopted sessionId =>
    (reduceWorkflowControl run ⟨.adopt, sessionId, run.owner.epoch⟩).toOption
  | .planReconciled taskIds remainingTaskIds taskFingerprint =>
    match run.payload with
    | .ulwLoop _ => none
    | .startWork _ =>
      (reduceWorkflowControl run ⟨.reconcilePlan
        ⟨taskIds, remainingTaskIds.getD taskIds, taskFingerprint⟩, run.owner.sessionId,
          run.owner.epoch⟩).toOption
  | .workflowSteered criteria annotationText => steerRun run criteria annotationText
  | .criterionSettled _ | .taskEvidenceAccepted .. | .workflowTerminal .. |
    .continuationAttempted .. | .continuationStuck _ => reduceRuntimeProgress run event authority
  | .goalCycleStarted goalId =>
    match run.payload with
    | .startWork _ => none
    | .ulwLoop payload => (startGoalCycle run payload goalId).toOption
  | .criterionFailureRecorded goalId criterionId fingerprint =>
    match run.payload with
    | .startWork _ => none
    | .ulwLoop payload => (recordCriterionFailure run payload goalId criterionId fingerprint).toOption

def controlRun (run : AnyRun) (event : PersistedStateEvent) (authority : Option ReceiptAuthority) :
    Option AnyRun :=
  if event.legacyUnbound ∧
      (event.mutation.kind = .goalCycleStarted ∨ event.mutation.kind = .criterionFailureRecorded) then
    some run
  else controlMutation run event authority

def statusHint (run : AnyRun) : Option IndexStatusHint :=
  match run.status with
  | .active => some .active
  | .paused => some .paused
  | .stuck => some .stuck
  | .blocked | .needsUserDecision | .reviewBlocked => some .blocked
  | .completed | .cancelled | .failed | .abandoned => none

def indexEntry (run : AnyRun) (sequence : ℕ) (hint : IndexStatusHint) : ActiveIndexEntry where
  workflow := run.workflow
  sessionId := run.owner.sessionId
  runId := run.runId
  ownerEpoch := run.owner.epoch
  runRevision := run.revision
  transactionRevision := sequence
  statusHint := hint

def deriveIndex (index : ActiveIndex) (run : AnyRun) (sequence : ℕ) : ActiveIndex where
  version := index.version
  revision := sequence
  entries := index.entries.filter (·.runId ≠ run.runId) ++
    ((statusHint run).map (indexEntry run sequence)).toList

/-- The events whose task generation must be bound. -/
def taskScoped (kind : MutationKind) : Bool :=
  kind ∈ [.planReconciled, .workflowSteered, .criterionSettled, .taskEvidenceAccepted,
    .workflowTerminal, .goalCycleStarted, .criterionFailureRecorded]

/-- A conflict has one code for a version 2 event and another for a version 1 event. -/
def EventVersion.code (version : EventVersion) (code legacy : TransitionErrorCode) :
    TransitionErrorCode :=
  match version with
  | .v1 => legacy
  | .v2 .. => code

/-- `expectedHead` when a version 2 event binds one that the run does not have. -/
def headConflicts (current : AnyRun) (version : EventVersion) : Bool :=
  match version with
  | .v2 (some expectedHead) _ _ =>
    match current.version with
    | .v1 => true
    | .v2 _ head => head ≠ some expectedHead
  | _ => false

def scopeConflicts (event : PersistedStateEvent) : Bool :=
  match event.version with
  | .v1 => false
  | .v2 _ taskGeneration _ => taskScoped event.kind != taskGeneration.isSome

/-- The run before it is stamped with the event's sequence. -/
def nextRun (current : Option AnyRun) (event : PersistedStateEvent)
    (authority : Option ReceiptAuthority) : Except TransitionErrorCode (Option AnyRun) :=
  match event.mutation with
  | .runCreated run =>
    if current.isSome ∨ event.expected.runRevision.isSome then .error .runRevisionConflict
    else if event.expected.ownerSessionId.isSome ∨ event.expected.ownerEpoch.isSome then
      .error .ownerConflict
    else .ok (some run)
  | _ =>
    match current with
    | none => .error .runRevisionConflict
    | some current =>
      if some current.revision ≠ event.expected.runRevision then
        .error (event.version.code .staleRevision .runRevisionConflict)
      else if some current.owner.sessionId ≠ event.expected.ownerSessionId then
        .error (event.version.code .ownerMismatch .ownerConflict)
      else if some current.owner.epoch ≠ event.expected.ownerEpoch then
        .error (event.version.code .ownerEpochMismatch .epochConflict)
      else if headConflicts current event.version then .error .staleHead
      else if scopeConflicts event then .error .taskScopeMismatch
      else .ok (controlRun current event authority)

/-- The run as it is published, stamped with the event's sequence. -/
def AnyRun.stamped (run : AnyRun) (sequence : ℕ) : AnyRun := { run with transactionRevision := sequence }

def prepareTransition (index : ActiveIndex) (current : Option AnyRun) (event : PersistedStateEvent)
    (authority : Option ReceiptAuthority) : Except TransitionErrorCode PreparedTransition :=
  if event.expected.indexRevision ≠ index.revision then
    .error (event.version.code .staleRevision .indexRevisionConflict)
  else if event.sequence ≠ index.revision + 1 then .error .invalidMutation
  else
    match nextRun current event authority with
    | .error code => .error code
    | .ok none => .error .invalidMutation
    | .ok (some next) =>
      if next.runId ≠ event.runId ∨ next.workflow ≠ event.workflow then .error .invalidMutation
      else
        let published := next.stamped event.sequence
        .ok ⟨published, deriveIndex index published event.sequence⟩

end OmpLazy.State

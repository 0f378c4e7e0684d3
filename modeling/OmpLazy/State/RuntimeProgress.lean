import OmpLazy.State.ReceiptAuthority
import OmpLazy.Workflows.UlwLoopContract

namespace OmpLazy.State

open ReceiptAuthority OmpLazy.Workflows

inductive StoppedStatus where
  | failed
  | stuck
  deriving DecidableEq, Repr

def StoppedStatus.run : StoppedStatus → RunStatus
  | .failed => .failed
  | .stuck => .stuck

def StoppedStatus.ulw : StoppedStatus → UlwLoopStatus
  | .failed => .failed
  | .stuck => .stuck

def setRunStatus (run : AnyRun) (status : StoppedStatus) : AnyRun :=
  { run with
    revision := run.revision + 1
    payload := run.payload.withStatus status.run status.ulw }

def settledCriterion (settlement : Settlement) (item : Criterion) : Criterion :=
  { item with
    status := .pass
    evidenceRef := some settlement.evidenceRef
    captureRevision := some settlement.captureRevision
    captureCommit := some settlement.captureCommit }

def Goal.allPass (goal : Goal) : Bool := goal.criteria.all (·.status = .pass)

def settledGoal (settlement : Settlement) (candidate : Goal) : Goal :=
  let criteria := updateCriterion settlement.criterionId (settledCriterion settlement) candidate.criteria
  { candidate with
    status := if criteria.all (·.status = .pass) then .complete else candidate.status
    criteria }

def settledGoals (settlement : Settlement) (goals : List Goal) : List Goal :=
  updateGoal settlement.goalId (settledGoal settlement) goals

def settledPayload (settlement : Settlement) (payload : UlwLoopPayload) : UlwLoopPayload :=
  let goals := settledGoals settlement payload.goals
  let completed := goals.all (·.allPass)
  { payload with
    activeGoalId := if completed then none else payload.activeGoalId
    status := if completed then .completed else payload.status
    goals }

def PersistedStateEvent.taskGeneration (event : PersistedStateEvent) : Option ℕ :=
  match event.version with
  | .v1 => none
  | .v2 _ taskGeneration _ => taskGeneration

/-- The acceptance that a settlement names, as the event's generation and captures bind it. -/
def settlementAccepted (run : AnyRun) (event : PersistedStateEvent) (settlement : Settlement)
    (authority : ReceiptAuthority) : Bool :=
  match settlement.acceptanceId, currentAcceptance run authority settlement.criterionId with
  | some acceptanceId, some accepted =>
    accepted.idempotencyKey = acceptanceId &&
      some accepted.taskGeneration = event.taskGeneration &&
      accepted.runRevision = settlement.captureRevision &&
      accepted.captureCommit = settlement.captureCommit
  | _, _ => false

/-- The goal and the criterion that a settlement names, the criterion not passed yet. -/
def settlementPending (payload : UlwLoopPayload) (settlement : Settlement) : Bool :=
  match payload.goals.find? (·.id = settlement.goalId) with
  | none => false
  | some goal =>
    match goal.criteria.find? (·.id = settlement.criterionId) with
    | none => false
    | some criterion => criterion.status ≠ .pass

def settleCriterion (run : AnyRun) (event : PersistedStateEvent) (settlement : Settlement)
    (authority : Option ReceiptAuthority) : Option AnyRun :=
  match run.payload with
  | .startWork _ => none
  | .ulwLoop payload =>
    if event.legacyUnbound then some run
    else
      match event.version, authority with
      | .v2 .., some authority =>
        if settlementAccepted run event settlement authority && settlementPending payload settlement then
          some { run with
            revision := run.revision + 1
            progressRevision := run.progressRevision + 1
            payload := .ulwLoop (settledPayload settlement payload) }
        else none
      | _, _ => none

/-- The versions and authorities that bind a receipt: a version 2 event with its head. -/
def receiptBinding (event : PersistedStateEvent) (authority : Option ReceiptAuthority) :
    Option ReceiptAuthority :=
  match event.version with
  | .v2 _ _ false => authority
  | _ => none

def acceptTaskEvidence (run : AnyRun) (event : PersistedStateEvent) (taskId acceptanceId : String)
    (authority : Option ReceiptAuthority) : Option AnyRun :=
  match run.payload with
  | .ulwLoop _ => none
  | .startWork _ => do
    let authority ← receiptBinding event authority
    let accepted ← currentAcceptance run authority taskId
    if accepted.idempotencyKey = acceptanceId ∧ some accepted.taskGeneration = event.taskGeneration then
      some { run with
        revision := run.revision + 1
        progressRevision := run.progressRevision + 1 }
    else none

def terminalRun (run : AnyRun) (event : PersistedStateEvent) (status : TerminalStatus)
    (acceptanceIds : Option (List String)) (taskId : Option String)
    (authority : Option ReceiptAuthority) : Option AnyRun := do
  let authority ← receiptBinding event authority
  if event.taskGeneration ≠ some authority.taskGeneration then none
  else
    match status with
    | .failed =>
      if taskId = none ∨ exhaustedTaskId run authority ≠ taskId then none
      else some (setRunStatus run .failed)
    | .completed =>
      match run.payload with
      | .ulwLoop _ => none
      | .startWork payload =>
        let expectedIds := startCompletionAcceptanceIds run payload.plan authority
        if expectedIds = none ∨ expectedIds ≠ acceptanceIds then none
        else some { run with
          revision := run.revision + 1
          progressRevision := run.progressRevision + 1
          payload := .startWork { payload with status := .completed } }

def attemptContinuation (run : AnyRun) (leafId : String) (progressRevision : ℕ) : Option AnyRun :=
  if run.continuation.lastProcessedLeafId = some leafId ∨ progressRevision ≠ run.progressRevision then none
  else
    let progressChanged := run.continuation.progressRevisionSeen ≠ run.progressRevision
    some { run with
      revision := run.revision + 1
      continuation :=
        { lastProcessedLeafId := some leafId
          progressRevisionSeen := run.progressRevision
          noProgressAttempts :=
            if progressChanged then 1 else run.continuation.noProgressAttempts + 1
          stuck := false } }

def stopContinuation (run : AnyRun) (leafId : String) : Option AnyRun :=
  if run.continuation.lastProcessedLeafId = some leafId ∨
      run.continuation.progressRevisionSeen ≠ run.progressRevision ∨
      run.continuation.noProgressAttempts < 2 then none
  else
    let stopped := setRunStatus run .stuck
    some { stopped with
      continuation := { stopped.continuation with
        lastProcessedLeafId := some leafId
        stuck := true } }

def reduceRuntimeProgress (run : AnyRun) (event : PersistedStateEvent)
    (authority : Option ReceiptAuthority) : Option AnyRun :=
  match event.mutation with
  | .criterionSettled settlement => settleCriterion run event settlement authority
  | .taskEvidenceAccepted taskId acceptanceId =>
    acceptTaskEvidence run event taskId acceptanceId authority
  | .workflowTerminal status acceptanceIds taskId =>
    terminalRun run event status acceptanceIds taskId authority
  | .continuationAttempted leafId progressRevision => attemptContinuation run leafId progressRevision
  | .continuationStuck leafId => stopContinuation run leafId
  | _ => none

end OmpLazy.State

import OmpLazy.State.ActiveIndex
import OmpLazy.State.ReceiptAuthority
import OmpLazy.Workflows.StartWorkContract
import OmpLazy.Workflows.UlwLoopContract

namespace OmpLazy.Continuation

open OmpLazy.State OmpLazy.Workflows ReceiptAuthority

structure PlanObservation where
  runId : Uuid
  snapshot : PlanSnapshot
  deriving DecidableEq, Repr

inductive ContinuationDecision where
  | quiet
  | continued (run : AnyRun) (additionalContext : String) (mutation : StateMutation)
  | stuck (run : AnyRun) (mutation : StateMutation)
  | settled (run : AnyRun) (mutation : StateMutation) (taskGeneration : ℕ)
  deriving DecidableEq, Repr

structure RunAuthority where
  runId : Uuid
  authority : ReceiptAuthority
  deriving DecidableEq, Repr

structure ContinuationSnapshot where
  index : ActiveIndex
  runs : List AnyRun
  plans : List PlanObservation
  authorities : List RunAuthority
  deriving DecidableEq, Repr

def authorityFor (snapshot : ContinuationSnapshot) (run : AnyRun) : ReceiptAuthority :=
  ((snapshot.authorities.find? (·.runId = run.runId)).map (·.authority)).getD .empty

def hasReachedNoProgressBound (run : AnyRun) : Bool :=
  run.continuation.progressRevisionSeen = run.progressRevision && 2 ≤ run.continuation.noProgressAttempts

def hintMatches (entry : ActiveIndexEntry) (run : AnyRun) : Bool :=
  match run.status with
  | .active => entry.statusHint = .active
  | .paused => entry.statusHint = .paused
  | .stuck => entry.statusHint = .stuck
  | .blocked | .needsUserDecision | .reviewBlocked => entry.statusHint = .blocked
  | .completed | .cancelled | .failed | .abandoned => false

inductive ResolvedWorkflow where
  | absent
  | conflict
  | found (run : AnyRun)
  deriving DecidableEq, Repr

/-- Of the snapshot only the index and the runs are read. -/
def resolveWorkflow (index : ActiveIndex) (runs : List AnyRun) (workflow : WorkflowKind)
    (sessionId : String) : ResolvedWorkflow :=
  match index.entries.find? fun candidate ↦
    candidate.workflow = workflow ∧ candidate.sessionId = sessionId with
  | none => .absent
  | some entry =>
    match runs.find? (·.runId = entry.runId) with
    | none => .conflict
    | some run =>
      if run.workflow ≠ entry.workflow ∨ run.owner.sessionId ≠ entry.sessionId ∨
          run.owner.epoch ≠ entry.ownerEpoch ∨ run.revision ≠ entry.runRevision ∨
          run.transactionRevision ≠ entry.transactionRevision ∨ !hintMatches entry run then .conflict
      else .found run

def startWorkContinuationContext (nextTaskId : String) : String :=
  "Continue the authoritative start-work run. Next pending task: " ++ nextTaskId ++
    ". Re-read its contained plan and execute this task under the workflow contract."

def ulwLoopContinuationContext (goalId : String) (criterionId : Option String) : String :=
  let criterionSuffix :=
    match criterionId with
    | none => ""
    | some criterionId => " Next pending criterion: " ++ criterionId ++ "."
  "Continue the authoritative ULW loop run. Active goal: " ++ goalId ++ "." ++ criterionSuffix ++
    " Re-read its persisted goal and criteria under the workflow contract."

section Deciding

variable (leafId : String) (run : AnyRun) (authority : ReceiptAuthority)

/-- The last step of both workflows. -/
def attemptOrStop (additionalContext : String) : ContinuationDecision :=
  if hasReachedNoProgressBound run then .stuck run (.continuationStuck leafId)
  else .continued run additionalContext (.continuationAttempted leafId run.progressRevision)

def completionDecision (payload : StartWorkPayload) (eligibility : Except StartWorkRefusal String) :
    Option ContinuationDecision :=
  if eligibility = .error .complete then
    (startCompletionAcceptanceIds run payload.plan authority).map fun acceptanceIds ↦
      .settled run (.workflowTerminal .completed (some acceptanceIds) none) authority.taskGeneration
  else none

def exhaustionDecision : Option ContinuationDecision :=
  (exhaustedTaskId run authority).map fun taskId ↦
    .settled run (.workflowTerminal .failed none (some taskId)) authority.taskGeneration

def nextTaskDecision (nextTaskId : String) : ContinuationDecision :=
  match currentAcceptance run authority nextTaskId with
  | some accepted =>
    .settled run (.taskEvidenceAccepted nextTaskId accepted.idempotencyKey) authority.taskGeneration
  | none => attemptOrStop leafId run (startWorkContinuationContext nextTaskId)

/-- The branch of a start-work run whose plan was observed; none when it falls through to the loop. -/
def startWorkDecision (payload : StartWorkPayload) (observed : PlanSnapshot) :
    Option ContinuationDecision :=
  let eligibility := evaluateStartWorkContinuation payload observed
  completionDecision run authority payload eligibility <|> exhaustionDecision run authority <|>
    eligibility.toOption.map (nextTaskDecision leafId run authority)

def pendingSettlement (goal : Goal) (criterion : Criterion) : Option Settlement :=
  (currentAcceptance run authority criterion.id).map fun accepted ↦
    { goalId := goal.id
      criterionId := criterion.id
      acceptanceId := some accepted.idempotencyKey
      evidenceRef := accepted.receiptPath
      captureRevision := accepted.runRevision
      captureCommit := accepted.captureCommit }

def goalDecision (activeGoal : Goal) : ContinuationDecision :=
  let pendingCriterion := activeGoal.criteria.find? (·.status ≠ .pass)
  match pendingCriterion.bind (pendingSettlement run authority activeGoal) with
  | some settlement => .settled run (.criterionSettled settlement) authority.taskGeneration
  | none =>
    attemptOrStop leafId run (ulwLoopContinuationContext activeGoal.id (pendingCriterion.map (·.id)))

def activeGoalDecision (payload : UlwLoopPayload) : ContinuationDecision :=
  match evaluateUlwContinuation payload with
  | .error _ => .quiet
  | .ok goalId =>
    match payload.goals.find? (·.id = goalId) with
    | none => .quiet
    | some activeGoal =>
      if activeGoal.status = .pending ∨ activeGoal.status = .inProgress then
        goalDecision leafId run authority activeGoal
      else .quiet

def ulwLoopDecision (payload : UlwLoopPayload) : ContinuationDecision :=
  (exhaustionDecision run authority).getD (activeGoalDecision leafId run authority payload)

end Deciding

/-- The branch of the loop. -/
def decideLoop (leafId : String) (snapshot : ContinuationSnapshot) : ResolvedWorkflow →
    ContinuationDecision
  | .found run =>
    match run.payload with
    | .startWork _ => .quiet
    | .ulwLoop payload =>
      if run.continuation.lastProcessedLeafId = some leafId then .quiet
      else ulwLoopDecision leafId run (authorityFor snapshot run) payload
  | _ => .quiet

def decideContinuation (sessionId leafId : String) (snapshot : ContinuationSnapshot) :
    ContinuationDecision :=
  if snapshot.index.validateActiveIndex ≠ .ok () then .quiet
  else
    let start := resolveWorkflow snapshot.index snapshot.runs .startWork sessionId
    let loop := resolveWorkflow snapshot.index snapshot.runs .ulwLoop sessionId
    if start = .conflict ∨ loop = .conflict then .quiet
    else
      match start with
      | .found run =>
        match run.payload with
        | .ulwLoop _ => .quiet
        | .startWork payload =>
          if run.continuation.lastProcessedLeafId = some leafId then .quiet
          else
            let observed := snapshot.plans.find? (·.runId = run.runId)
            (observed.bind fun observed ↦
              startWorkDecision leafId run (authorityFor snapshot run) payload observed.snapshot).getD
                (decideLoop leafId snapshot loop)
      | _ => decideLoop leafId snapshot loop

end OmpLazy.Continuation

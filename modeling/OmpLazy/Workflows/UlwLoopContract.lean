import OmpLazy.State.Domain

namespace OmpLazy.Workflows

open OmpLazy.State

inductive GoalCycleError where
  | cycleLimit
  | goalMissing
  deriving DecidableEq, Repr

inductive CriterionFailureError where
  | identicalFailureLimit
  | goalMissing
  | criterionMissing
  deriving DecidableEq, Repr

inductive UlwRefusal where
  | notActive
  | unmetCriteria
  | noActiveGoal
  | budgetExhausted
  deriving DecidableEq, Repr

/-- The goal that a loop works on. -/
def evaluateUlwContinuation (payload : UlwLoopPayload) : Except UlwRefusal String :=
  let allCriteriaPass := payload.goals.all fun goal ↦ goal.criteria.all (·.status = .pass)
  if payload.status = .completed ∧ !allCriteriaPass then .error .unmetCriteria
  else if payload.status ≠ .active then .error .notActive
  else
    match payload.goals.find? (some ·.id = payload.activeGoalId) with
    | none => .error .noActiveGoal
    | some goal =>
      if 5 ≤ goal.cycleCount ∨ goal.criteria.any (3 ≤ ·.identicalFailureCount) then
        .error .budgetExhausted
      else .ok goal.id

/-- Every goal with an id is rewritten, and the others stay: `goals.map(...)`. -/
def updateGoal (goalId : String) (update : Goal → Goal) (goals : List Goal) : List Goal :=
  goals.map fun goal ↦ if goal.id = goalId then update goal else goal

def updateCriterion (criterionId : String) (update : Criterion → Criterion)
    (criteria : List Criterion) : List Criterion :=
  criteria.map fun criterion ↦ if criterion.id = criterionId then update criterion else criterion

def cycledGoal (goal : Goal) : Goal := { goal with cycleCount := goal.cycleCount + 1 }

def startGoalCycle (run : AnyRun) (payload : UlwLoopPayload) (goalId : String) :
    Except GoalCycleError AnyRun :=
  match payload.goals.find? (·.id = goalId) with
  | none => .error .goalMissing
  | some goal =>
    if 5 ≤ goal.cycleCount then .error .cycleLimit
    else .ok { run with
      revision := run.revision + 1
      payload := .ulwLoop { payload with goals := updateGoal goalId cycledGoal payload.goals } }

def failedCriterion (fingerprint : String) (repeated : Bool) (candidate : Criterion) : Criterion :=
  { candidate with
    status := .fail
    identicalFailureFingerprint := some fingerprint
    identicalFailureCount := if repeated then candidate.identicalFailureCount + 1 else 1 }

/-- Every goal with the id gets the criteria of the first one. -/
def failedGoals (goalId criterionId fingerprint : String) (repeated : Bool) (goal : Goal)
    (goals : List Goal) : List Goal :=
  updateGoal goalId (fun candidate ↦ { candidate with
    criteria := updateCriterion criterionId (failedCriterion fingerprint repeated) goal.criteria }) goals

def recordCriterionFailure (run : AnyRun) (payload : UlwLoopPayload)
    (goalId criterionId fingerprint : String) : Except CriterionFailureError AnyRun :=
  match payload.goals.find? (·.id = goalId) with
  | none => .error .goalMissing
  | some goal =>
    match goal.criteria.find? (·.id = criterionId) with
    | none => .error .criterionMissing
    | some criterion =>
      let repeated := criterion.identicalFailureFingerprint = some fingerprint
      if repeated ∧ 3 ≤ criterion.identicalFailureCount then .error .identicalFailureLimit
      else .ok { run with
        revision := run.revision + 1
        payload := .ulwLoop { payload with
          goals := failedGoals goalId criterionId fingerprint repeated goal payload.goals } }

end OmpLazy.Workflows

import OmpLazy.Workflows.WorkflowControl

namespace OmpLazy.Workflows

open OmpLazy.State

inductive StartWorkRefusal where
  | notActive
  | planIdentityMismatch
  | complete
  deriving DecidableEq, Repr

/-- The next task of the observed plan, which must be the plan of the run. -/
def evaluateStartWorkContinuation (payload : StartWorkPayload) (observed : PlanSnapshot) :
    Except StartWorkRefusal String :=
  if payload.status ≠ .active then .error .notActive
  else if payload.plan.taskFingerprint ≠ observed.fingerprint ∨
      payload.plan.taskIds ≠ observed.taskIds then .error .planIdentityMismatch
  else
    match observed.remainingTaskIds with
    | [] => .error .complete
    | nextTaskId :: _ => .ok nextTaskId

end OmpLazy.Workflows

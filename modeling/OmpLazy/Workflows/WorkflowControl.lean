import OmpLazy.State.Domain

namespace OmpLazy.Workflows

open OmpLazy.State

structure PlanSnapshot where
  taskIds : List String
  remainingTaskIds : List String
  fingerprint : String
  deriving DecidableEq, Repr

inductive ControlKind where
  | pause
  | resume
  | cancel
  | adopt
  | reconcilePlan (plan : PlanSnapshot)
  deriving DecidableEq, Repr

structure ControlCommand where
  kind : ControlKind
  sessionId : String
  expectedEpoch : ℕ
  deriving DecidableEq, Repr

inductive ControlError where
  | ownerMismatch
  | epochMismatch
  | terminal
  | invalidTransition
  deriving DecidableEq, Repr

def precheck (run : AnyRun) (command : ControlCommand) : Except ControlError Unit :=
  if command.kind ≠ .adopt ∧ run.owner.sessionId ≠ command.sessionId then .error .ownerMismatch
  else if run.owner.epoch = command.expectedEpoch then .ok ()
  else .error .epochMismatch

def resetContinuation (run : AnyRun) : Continuation :=
  { run.continuation with
    noProgressAttempts := 0
    progressRevisionSeen := run.progressRevision
    stuck := false }

def terminal (status : RunStatus) : Bool :=
  status ∈ [.completed, .cancelled, .failed, .abandoned]

def adoptable (status : RunStatus) : Bool :=
  status ∈ [.paused, .stuck, .blocked, .needsUserDecision, .reviewBlocked]

/-- What `reduceStart` and `reduceUlw` do alike. -/
def reduceShared (run : AnyRun) (command : ControlCommand) : Except ControlError AnyRun :=
  match command.kind with
  | .pause =>
    if run.status = .active then .ok { run with
      revision := run.revision + 1
      payload := run.payload.withStatus .paused .paused }
    else .error .invalidTransition
  | .cancel =>
    if terminal run.status then .error .terminal
    else .ok { run with
      revision := run.revision + 1
      payload := run.payload.withStatus .cancelled .cancelled }
  | .resume =>
    if terminal run.status then .error .terminal
    else if run.status ≠ .paused ∧ run.status ≠ .stuck then .error .invalidTransition
    else .ok { run with
      revision := run.revision + 1
      continuation := resetContinuation run
      payload := run.payload.withStatus .active .active }
  | .adopt =>
    if terminal run.status then .error .terminal
    else if !adoptable run.status then .error .invalidTransition
    else .ok { run with
      revision := run.revision + 1
      owner := ⟨command.sessionId, run.owner.epoch + 1⟩
      continuation := resetContinuation run
      payload := run.payload.withStatus .active .active }
  | .reconcilePlan _ => .error .invalidTransition

def reduceStart (run : AnyRun) (payload : StartWorkPayload) (command : ControlCommand) :
    Except ControlError AnyRun :=
  match command.kind with
  | .reconcilePlan plan =>
    if terminal payload.status then .error .terminal
    else .ok { run with
      revision := run.revision + 1
      payload := .startWork { payload with
        status := .active
        plan := { payload.plan with
          taskIds := plan.taskIds
          taskFingerprint := plan.fingerprint } } }
  | _ => reduceShared run command

def reduceUlw (run : AnyRun) (command : ControlCommand) : Except ControlError AnyRun :=
  reduceShared run command

def reduceWorkflowControl (run : AnyRun) (command : ControlCommand) : Except ControlError AnyRun := do
  precheck run command
  match run.payload with
  | .startWork payload => reduceStart run payload command
  | .ulwLoop _ => reduceUlw run command

theorem precheck_own {run : AnyRun} {command : ControlCommand}
    (hsession : command.kind = .adopt ∨ command.sessionId = run.owner.sessionId)
    (hepoch : command.expectedEpoch = run.owner.epoch) : precheck run command = .ok () := by
  rw [precheck, if_neg, if_pos hepoch.symm]
  rintro ⟨hkind, hne⟩
  exact hsession.elim hkind fun h ↦ hne h.symm

/-- Apart from a reconciliation, both workflows reduce a command alike. -/
theorem reduceWorkflowControl_shared {run : AnyRun} {command : ControlCommand}
    (hsession : command.kind = .adopt ∨ command.sessionId = run.owner.sessionId)
    (hepoch : command.expectedEpoch = run.owner.epoch)
    (hkind : ∀ plan, command.kind ≠ .reconcilePlan plan) :
    reduceWorkflowControl run command = reduceShared run command := by
  rw [reduceWorkflowControl, precheck_own hsession hepoch]
  cases run.payload with
  | startWork payload =>
    change reduceStart run payload command = _
    unfold reduceStart
    split
    · exact absurd ‹_› (hkind _)
    · rfl
  | ulwLoop payload => rfl

end OmpLazy.Workflows

import Mathlib.Data.Rat.Defs
import OmpLazy.Continuation.ContinuationBudget
import OmpLazy.Continuation.DurableContinuation

namespace OmpLazy.Continuation

open OmpLazy.Foundation OmpLazy.State Action

/-- `/^[0-9A-Za-z][0-9A-Za-z._-]{0,63}$/`. -/
def isValidLifecycleId (id : String) : Bool :=
  match id.toList with
  | [] => false
  | first :: rest => isAlphanumeric first && rest.length ≤ 63 &&
      rest.all fun c ↦ isAlphanumeric c || c ∈ ['.', '_', '-']
where
  isAlphanumeric (c : Char) : Bool := Text.isDigit c || ('a' ≤ c && c ≤ 'z') || ('A' ≤ c && c ≤ 'Z')

def steeringReminder : String :=
  "You are in an active run. Continue executing the current task without waiting for further user input."

def appendSteeringReminder (additionalContext : String) : String :=
  additionalContext ++ "\n\n" ++ steeringReminder

/-- The percentage is none when it is undefined or not finite. -/
structure SessionStopInput where
  contextPercent : Option ℚ
  contextSessionId : String
  diagnosticTurnId : ℤ
  leafId : Option String
  sessionId : String
  stopHookActive : Bool
  deriving DecidableEq, Repr

/-- The files of the coordinator and the continuation counters, by session. -/
structure StopSession where
  session : Session
  counters : String → Option Bytes

abbrev StopAction := Action Thrown StopSession

def onStore {α : Type} (action : Store α) : StopAction α := do
  let s ← get
  let (outcome, session) := exec action s.session
  set { s with session }
  match outcome with
  | .ok value => return value
  | .error error => throw error

def fenceValid : StopAction Bool := onStore Store.isValid

/-- The first entry of the session. -/
def resolveActiveRunId (disk : Disk) (sessionId : String) : Except Thrown (Option Uuid) := do
  let index ← readIndex disk
  return (index.entries.find? (·.sessionId = sessionId)).map (·.runId)

/-- A counter that is written for an edge: whose continuation it is, and the run that it is charged to. -/
structure Charge where
  run : Uuid
  charged : String
  deriving DecidableEq, Repr

/-- What an edge leaves behind; a charge is emitted unless time runs out or the suppression fails. -/
inductive StopOutcome where
  | silent
  | charged (charge : Charge)
  | emitted (charge : Charge) (additionalContext : String)
  deriving DecidableEq, Repr

/-- What an edge meets: its fence, its coordinator, and whether the suppression goes through. -/
structure StopEnvironment where
  deadline : Deadline
  dependencies : CoordinatorDependencies
  suppresses : Bool

def readCounter (sessionId : String) : StopAction (Option ContinuationCounter) := do
  if !isValidLifecycleId sessionId then throw .atomicFile
  return readContinuationCounter ((← get).counters sessionId)

/-- A write that succeeds. -/
def writeContinuationCounter (sessionId : String) (counter : ContinuationCounter) : StopAction Unit :=
  modify fun s ↦ { s with
    counters := Function.update s.counters sessionId (some (stringify (encodeCounter counter))) }

/-- The budget check; none unless the counter was incremented. -/
def chargeBudget (sessionId : String) (turnId : ℤ) (run : Uuid) : StopAction (Option Charge) := do
  if !(← fenceValid) then return none
  let runId ← onStore (liftExcept (resolveActiveRunId (← get).session.disk sessionId))
  if !(← fenceValid) then return none
  let effectiveRunId := runId.getD "unknown"
  let counter ← readCounter sessionId
  if !(← fenceValid) then return none
  match checkBudget counter effectiveRunId turnId with
  | .exhausted =>
    writeContinuationCounter sessionId (exhaustedCounter counter sessionId effectiveRunId turnId)
    return none
  | .allowed =>
    writeContinuationCounter sessionId (incrementCounter counter sessionId effectiveRunId turnId)
    return some ⟨run, effectiveRunId⟩

/-- The end of `handleSessionStop`, after the counter. -/
def emit (suppresses : Bool) (charge : Charge) (additionalContext : String) : StopAction StopOutcome := do
  if !(← fenceValid) then return .charged charge
  if !suppresses then return .charged charge
  if !(← fenceValid) then return .charged charge
  return .emitted charge (appendSteeringReminder additionalContext)

/-- Inputs that are refused before anything is read. -/
def SessionStopInput.refused (input : SessionStopInput) : Bool :=
  input.stopHookActive || Text.trim input.sessionId = "" || input.sessionId ≠ input.contextSessionId ||
    input.leafId.all (Text.trim · = "") || input.contextPercent.all fun percent ↦ percent < 0 || 90 ≤ percent

def SessionStopInput.request (input : SessionStopInput) : CoordinatorRequest where
  leafId := input.leafId.getD ""
  sessionId := input.sessionId

section Handling

variable (root : StateRoot) (environment : StopEnvironment) (input : SessionStopInput)

/-- `handleSessionStop` without its guards and its `catch`. -/
def continueSession : StopAction StopOutcome := do
  if !(← fenceValid) then return .silent
  match ← onStore (coordinate root environment.dependencies input.request) with
  | .continued run additionalContext _ =>
    if !(← fenceValid) then return .silent
    match ← chargeBudget input.sessionId input.diagnosticTurnId run.runId with
    | none => return .silent
    | some charge => emit environment.suppresses charge additionalContext
  | _ => return .silent

/-- An error makes the edge silent; what was written by then stays written. -/
def handleSessionStop (s : StopSession) : StopOutcome × StopSession :=
  if input.refused then (.silent, s)
  else
    match exec (continueSession root environment input) s with
    | (.ok outcome, t) => (outcome, t)
    | (.error _, t) => (.silent, t)

end Handling

end OmpLazy.Continuation

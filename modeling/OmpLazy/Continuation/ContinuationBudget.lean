import OmpLazy.State.LifecycleReaders

namespace OmpLazy.Continuation

open OmpLazy.Foundation OmpLazy.State

/-- Maximum idle continuations per session before saturation. -/
def maxIdleContinuations : ℕ := 8

/-- The reason is kept as it was read. -/
structure ContinuationCounter where
  sessionId : String
  runId : String
  turnId : ℤ
  count : ℕ
  reason : Option Json
  deriving DecidableEq

inductive BudgetCheckResult where
  | allowed
  | exhausted
  deriving DecidableEq, Repr

def budgetExhausted : Json := .string "continuation_budget_exhausted"

def encodeCounter (counter : ContinuationCounter) : Json := .object
  ([("schemaVersion", .nat 2),
    ("sessionId", .string counter.sessionId),
    ("runId", .string counter.runId),
    ("turnId", .number counter.turnId),
    ("count", .nat counter.count)] ++ Json.optional "reason" counter.reason)

/-- The counter of a session; a file that is malformed counts as absent. -/
def readContinuationCounter : Option Bytes → Option ContinuationCounter
  | some (some value) => (State.readContinuationCounter value).map fun counter ↦
    ⟨counter.sessionId, counter.runId, counter.turnId, counter.count.toNat, value.get? "reason"⟩
  | _ => none

/-- The counter of another run or turn does not count. -/
def ContinuationCounter.covers (counter : ContinuationCounter) (runId : String) (turnId : ℤ) : Bool :=
  counter.runId = runId && counter.turnId = turnId

def checkBudget (existing : Option ContinuationCounter) (currentRunId : String) (currentTurnId : ℤ) :
    BudgetCheckResult :=
  match existing with
  | none => .allowed
  | some existing =>
    if !existing.covers currentRunId currentTurnId then .allowed
    else if maxIdleContinuations ≤ existing.count then .exhausted
    else .allowed

def incrementCounter (existing : Option ContinuationCounter) (sessionId runId : String) (turnId : ℤ) :
    ContinuationCounter :=
  match existing with
  | none => ⟨sessionId, runId, turnId, 1, none⟩
  | some existing =>
    if existing.covers runId turnId then { existing with count := existing.count + 1 }
    else ⟨sessionId, runId, turnId, 1, none⟩

def exhaustedCounter (existing : Option ContinuationCounter) (sessionId runId : String) (turnId : ℤ) :
    ContinuationCounter :=
  match existing with
  | none => ⟨sessionId, runId, turnId, maxIdleContinuations, some budgetExhausted⟩
  | some existing =>
    if existing.covers runId turnId then { existing with reason := some budgetExhausted }
    else ⟨sessionId, runId, turnId, maxIdleContinuations, some budgetExhausted⟩

section Laws

variable {existing : Option ContinuationCounter} {sessionId runId : String} {turnId : ℤ}

/-- What is written is read back. -/
theorem readContinuationCounter_encoded (counter : ContinuationCounter) :
    readContinuationCounter (some (stringify (encodeCounter counter))) = some counter := by
  simp [readContinuationCounter, State.readContinuationCounter, stringify, encodeCounter, hasVersion,
    FormatVersion.number, asString, asNumber, Json.get?, Json.nat]

theorem covers_iff {counter : ContinuationCounter} :
    counter.covers runId turnId = true ↔ counter.runId = runId ∧ counter.turnId = turnId := by
  simp [ContinuationCounter.covers]

/-- How often the counter says that the run was continued in the turn. -/
def counted (existing : Option ContinuationCounter) (runId : String) (turnId : ℤ) : ℕ :=
  match existing with
  | none => 0
  | some existing => if existing.covers runId turnId then existing.count else 0

theorem checkBudget_eq_allowed :
    checkBudget existing runId turnId = .allowed ↔ counted existing runId turnId < maxIdleContinuations := by
  cases existing with
  | none => simp [checkBudget, counted, maxIdleContinuations]
  | some counter =>
    cases hcovers : counter.covers runId turnId with
    | false => simp [checkBudget, counted, hcovers, maxIdleContinuations]
    | true => simp [checkBudget, counted, hcovers]

/-- An exhausted counter keeps its count. -/
theorem exhaustedCounter_eq (h : checkBudget existing runId turnId = .exhausted) :
    ∃ counter, existing = some counter ∧ exhaustedCounter existing sessionId runId turnId =
      { counter with reason := some budgetExhausted } := by
  cases existing with
  | none => cases h
  | some counter =>
    cases hcovers : counter.covers runId turnId with
    | false => simp [checkBudget, hcovers] at h
    | true => exact ⟨counter, rfl, by simp [exhaustedCounter, hcovers]⟩

theorem incrementCounter_covers : (incrementCounter existing sessionId runId turnId).covers runId turnId := by
  unfold incrementCounter
  split
  · simp [ContinuationCounter.covers]
  · split
    · exact ‹_›
    · simp [ContinuationCounter.covers]

theorem incrementCounter_count :
    (incrementCounter existing sessionId runId turnId).count = counted existing runId turnId + 1 := by
  cases existing with
  | none => rfl
  | some counter => cases hcovers : counter.covers runId turnId <;> simp [incrementCounter, counted, hcovers]

end Laws

end OmpLazy.Continuation

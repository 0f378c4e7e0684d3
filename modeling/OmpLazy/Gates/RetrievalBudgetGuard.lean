import OmpLazy.Contracts.RetrievalBudget
import OmpLazy.Foundation.Runs
import Mathlib.Data.Finset.Card
import Mathlib.Logic.Function.Basic

namespace OmpLazy.Gates

open OmpLazy.Foundation OmpLazy.Contracts

inductive MeteredResultContent where
  | text (text : String)
  | image (data mimeType : String)
  deriving DecidableEq, Repr

inductive ObservationOutcome where
  | empty
  | status
  | delivered
  | refused (code : RetrievalRefusalCode)
  deriving DecidableEq, Repr

structure RetrievalObservation where
  toolCallId : String
  deliveredBytes : ℕ
  outcome : ObservationOutcome
  deriving DecidableEq, Repr

structure RetrievalBudgetSnapshot where
  packetHash : String
  budget : RetrievalBudget
  terminalCode : Option RetrievalRefusalCode
  observations : List RetrievalObservation
  deriving DecidableEq, Repr

/-- The tool result that stands in for the one that was refused. -/
structure RetrievalReplacement where
  text : String
  packetHash : String
  code : RetrievalRefusalCode
  deriving DecidableEq, Repr

inductive RetrievalGuardResult where
  | quiet
  | metered (budget : RetrievalBudget)
  | refused (code : RetrievalRefusalCode) (replacement : RetrievalReplacement)
  deriving DecidableEq, Repr

structure MutableRetrievalState where
  compiled : CompiledTaskPacket
  budget : RetrievalBudget
  terminalCode : Option RetrievalRefusalCode
  pendingCallIds : Finset String
  seenCallIds : Finset String
  observations : List RetrievalObservation
  deriving DecidableEq

def resultContent (content : List MeteredResultContent) : String :=
  String.join (content.map fun
    | .text text => text
    | .image data _ => data)

def refusal (state : MutableRetrievalState) (code : RetrievalRefusalCode) : RetrievalGuardResult :=
  .refused code ⟨"omp-lazy: " ++ code.text, state.compiled.packetHash, code⟩

/-- A tool result that is to be metered. -/
structure RetrievalInput where
  sessionId : String
  toolCallId : String
  statusOnly : Bool
  content : List MeteredResultContent
  deriving DecidableEq, Repr

def RetrievalInput.result (input : RetrievalInput) : RetrievalResult :=
  let delivered := resultContent input.content
  if input.statusOnly then .status else if delivered = "" then .empty else .delivered delivered

def resultOutcome : RetrievalResult → ObservationOutcome
  | .delivered _ => .delivered
  | .empty => .empty
  | .status => .status

def RetrievalInput.observation (input : RetrievalInput) (outcome : ObservationOutcome) :
    RetrievalObservation :=
  ⟨input.toolCallId, (resultContent input.content).utf8ByteSize, outcome⟩

/-- The states of the sessions. -/
structure RetrievalBudgetGuard where
  states : String → Option MutableRetrievalState

namespace RetrievalBudgetGuard

def set (guard : RetrievalBudgetGuard) (sessionId : String) (state : Option MutableRetrievalState) :
    RetrievalBudgetGuard :=
  ⟨Function.update guard.states sessionId state⟩

/-- A packet before its first call. -/
def started (compiled : CompiledTaskPacket) : MutableRetrievalState where
  compiled
  budget := createRetrievalBudget compiled.packet.tier
  terminalCode := none
  pendingCallIds := ∅
  seenCallIds := ∅
  observations := []

def activate (guard : RetrievalBudgetGuard) (sessionId : String) (compiled : CompiledTaskPacket) :
    RetrievalBudgetGuard :=
  if (guard.states sessionId).map (·.compiled.packetHash) = some compiled.packetHash then guard
  else guard.set sessionId (some (started compiled))

def clear (guard : RetrievalBudgetGuard) (sessionId : String) : RetrievalBudgetGuard :=
  guard.set sessionId none

/-- Whether a call is blocked, with the reason, and the guard that is left. -/
def authorize (guard : RetrievalBudgetGuard) (sessionId toolCallId : String) :
    Option String × RetrievalBudgetGuard :=
  match guard.states sessionId with
  | none => (none, guard)
  | some state =>
    match state.terminalCode with
    | some code => (some ("omp-lazy: " ++ code.text), guard)
    | none =>
      if toolCallId ∈ state.seenCallIds then (some "omp-lazy: duplicate_tool_call_id", guard)
      else
        let projectedCalls := state.budget.generalCalls + state.pendingCallIds.card + 1
        if state.compiled.packet.budgets.maxCalls < projectedCalls then
          (some "omp-lazy: general_call_budget_exceeded",
            guard.set sessionId (some { state with terminalCode := some .generalCallBudgetExceeded }))
        else
          (none, guard.set sessionId (some { state with
            seenCallIds := insert toolCallId state.seenCallIds
            pendingCallIds := insert toolCallId state.pendingCallIds }))

def observe (guard : RetrievalBudgetGuard) (input : RetrievalInput) :
    RetrievalGuardResult × RetrievalBudgetGuard :=
  match guard.states input.sessionId with
  | none => (.quiet, guard)
  | some state =>
    match state.terminalCode with
    | some code => (refusal state code, guard)
    | none =>
      if input.toolCallId ∉ state.pendingCallIds then (.quiet, guard)
      else
        let state := { state with pendingCallIds := state.pendingCallIds.erase input.toolCallId }
        match meterRetrievalResult state.budget input.result with
        | .error (code, _) =>
          let state := { state with
            terminalCode := some code
            observations := state.observations ++ [input.observation (.refused code)] }
          (refusal state code, guard.set input.sessionId (some state))
        | .ok budget =>
          (.metered budget, guard.set input.sessionId (some { state with
            budget
            observations := state.observations ++ [input.observation (resultOutcome input.result)] }))

def snapshot (guard : RetrievalBudgetGuard) (sessionId : String) : Option RetrievalBudgetSnapshot :=
  (guard.states sessionId).map fun state ↦
    ⟨state.compiled.packetHash, state.budget, state.terminalCode, state.observations⟩

end RetrievalBudgetGuard

inductive RetrievalCall where
  | activate (sessionId : String) (compiled : CompiledTaskPacket)
  | clear (sessionId : String)
  | authorize (sessionId toolCallId : String)
  | observe (input : RetrievalInput)
  deriving DecidableEq

inductive RetrievalAnswer where
  | done
  | authorized (reason : Option String)
  | observed (result : RetrievalGuardResult)
  deriving DecidableEq, Repr

def RetrievalCall.sessionId : RetrievalCall → String
  | .activate sessionId _ | .clear sessionId | .authorize sessionId _ => sessionId
  | .observe input => input.sessionId

def RetrievalBudgetGuard.call (guard : RetrievalBudgetGuard) :
    RetrievalCall → RetrievalAnswer × RetrievalBudgetGuard
  | .activate sessionId compiled => (.done, guard.activate sessionId compiled)
  | .clear sessionId => (.done, guard.clear sessionId)
  | .authorize sessionId toolCallId => (guard.authorize sessionId toolCallId).map .authorized id
  | .observe input => (guard.observe input).map .observed id

end OmpLazy.Gates

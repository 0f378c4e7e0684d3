import OmpLazy.Foundation.Runs
import OmpLazy.Foundation.Text
import Mathlib.Data.Finset.Basic
import Mathlib.Logic.Function.Basic

namespace OmpLazy.Activation

open OmpLazy.Foundation OmpLazy.Foundation.Text

inductive WorkflowActivationId where
  | teammode
  | startWork
  | ultrawork
  | ulwLoop
  | ulwPlan
  | ulwDeliver
  | ulwResearch
  | doctor
  | reportBug
  | contributeBugFix
  deriving DecidableEq, Repr

inductive TrustedInputSource where
  | interactive
  | rpc
  | extension
  deriving DecidableEq, Repr

inductive SuppressionReason where
  | command
  | continuation
  | skill
  | synthetic
  deriving DecidableEq, Repr

structure ActivationInput where
  sessionId : String
  source : TrustedInputSource
  text : String
  deriving DecidableEq, Repr

structure CommandRegistration where
  workflow : WorkflowActivationId
  command : String
  deriving DecidableEq, Repr

inductive ActivationDecision where
  | quiet
  | activate (workflow : WorkflowActivationId) (command : String)
  deriving DecidableEq, Repr

structure PendingToken where
  hash : String
  workflow : WorkflowActivationId
  command : String
  deriving DecidableEq, Repr

structure SuppressionToken where
  hash : String
  reason : SuppressionReason
  deriving DecidableEq, Repr

/-- What the controller remembers of the sessions. -/
structure Controller where
  pending : String → Option PendingToken
  suppressions : String → Option SuppressionToken
  commands : Finset String

/-- What the state port answers while a call waits for it; a call that throws has no answer, and a port
without the record of directives has none to give. -/
structure PortAnswers where
  isActive : Option Bool
  alreadyActivated : Option (Option Bool)
  deriving DecidableEq, Repr

/-- The session id that the schemas of the calls return. -/
def sessionKey (sessionId : String) : Option String :=
  if trim sessionId = "" then none else some (trim sessionId)

/-! The calls, over the matcher and the hash of texts. -/

section Calls

variable (matchActivation : String → Option CommandRegistration) (promptHash : String → String)

namespace Controller

def initial : Controller := ⟨fun _ ↦ none, fun _ ↦ none, ∅⟩

def recordInput (controller : Controller) (input : ActivationInput) : Controller :=
  match sessionKey input.sessionId with
  | none => controller
  | some sessionId =>
    let token :=
      if input.source = .extension then none
      else (matchActivation input.text).map fun found ↦
        ⟨promptHash input.text, found.workflow, found.command⟩
    { controller with pending := Function.update controller.pending sessionId token }

def suppressNext (controller : Controller) (sessionId text : String) (reason : SuppressionReason) :
    Controller :=
  match sessionKey sessionId with
  | none => controller
  | some sessionId => { controller with
      suppressions := Function.update controller.suppressions sessionId (some ⟨promptHash text, reason⟩) }

/-- What `consumeBeforeAgentStart` does before it waits: the token that it goes on with, if any. -/
def takeToken (controller : Controller) (sessionId prompt : String) : Option PendingToken × Controller :=
  match sessionKey sessionId with
  | none => (none, controller)
  | some sessionId =>
    let hash := promptHash prompt
    let suppression := controller.suppressions sessionId
    let controller :=
      { controller with suppressions := Function.update controller.suppressions sessionId none }
    if suppression.map (·.hash) = some hash then (none, controller)
    else
      match controller.pending sessionId with
      | none => (none, controller)
      | some token =>
        let controller := { controller with pending := Function.update controller.pending sessionId none }
        if token.hash ≠ hash ∨ sessionId ∈ controller.commands then (none, controller)
        else (some token, controller)

/-- What becomes of the token. -/
def decideToken (token : PendingToken) (answers : PortAnswers) : Option ActivationDecision := do
  if ← answers.isActive then return .quiet
  match answers.alreadyActivated with
  | none => return .activate token.workflow token.command
  | some alreadyActivated =>
    if ← alreadyActivated then return .quiet
    return .activate token.workflow token.command

/-- The decision, unless the port throws, and the controller that the call leaves. -/
def consumeBeforeAgentStart (controller : Controller) (sessionId prompt : String) (answers : PortAnswers) :
    Option ActivationDecision × Controller :=
  let (token, controller) := controller.takeToken promptHash sessionId prompt
  (token.elim (some .quiet) fun token ↦ decideToken token answers, controller)

end Controller

/-- Where a call of `runCommand` is. -/
inductive CommandStage where
  | clearing
  | operating
  deriving DecidableEq, Repr

/-- The controller, and the calls of `runCommand` that have not ended, each with its session. -/
structure ActivationSystem where
  controller : Controller
  running : ℕ → Option (String × CommandStage)

def ActivationSystem.initial : ActivationSystem := ⟨.initial, fun _ ↦ none⟩

/-- A call of `runCommand` is four events: it starts, the record of the directive is cleared or that
throws, and the operation returns or throws. -/
inductive ActivationCall where
  | recordInput (input : ActivationInput)
  | suppressNext (sessionId text : String) (reason : SuppressionReason)
  | consumeBeforeAgentStart (sessionId prompt : String) (answers : PortAnswers)
  | runCommand (call : ℕ) (sessionId : String)
  | cleared (call : ℕ)
  | clearThrew (call : ℕ)
  | ended (call : ℕ)
  deriving DecidableEq, Repr

/-- The decision that a call of `consumeBeforeAgentStart` returns goes with it. -/
abbrev ActivationLabel := ActivationCall × Option ActivationDecision

namespace ActivationSystem

/-- What the next event does, where it is possible. -/
def call (system : ActivationSystem) : ActivationCall → Option (Option ActivationDecision × ActivationSystem)
  | .recordInput input =>
    some (none, { system with controller := system.controller.recordInput matchActivation promptHash input })
  | .suppressNext sessionId text reason =>
    some (none, { system with
      controller := system.controller.suppressNext promptHash sessionId text reason })
  | .consumeBeforeAgentStart sessionId prompt answers =>
    let (decision, controller) := system.controller.consumeBeforeAgentStart promptHash sessionId prompt answers
    some (decision, { system with controller })
  | .runCommand call sessionId =>
    if (system.running call).isSome then none
    else some (none, {
      controller := { system.controller with commands := insert sessionId system.controller.commands }
      running := Function.update system.running call (some (sessionId, .clearing)) })
  | .cleared call =>
    match system.running call with
    | some (sessionId, .clearing) => some (none, { system with
        running := Function.update system.running call (some (sessionId, .operating)) })
    | _ => none
  | .clearThrew call =>
    match system.running call with
    | some (_, .clearing) => some (none, { system with running := Function.update system.running call none })
    | _ => none
  | .ended call =>
    match system.running call with
    | some (sessionId, .operating) => some (none, {
        controller := { system.controller with commands := system.controller.commands.erase sessionId }
        running := Function.update system.running call none })
    | _ => none

def Step (system : ActivationSystem) (label : ActivationLabel) (next : ActivationSystem) : Prop :=
  system.call matchActivation promptHash label.1 = some (label.2, next)

/-- A call of `runCommand` of the session has started and not ended. -/
def InProgress (system : ActivationSystem) (sessionId : String) : Prop :=
  ∃ call stage, system.running call = some (sessionId, stage)

end ActivationSystem

end Calls

end OmpLazy.Activation

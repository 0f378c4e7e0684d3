import OmpLazy.Activation.ProvenanceController
import OmpLazy.Context.InjectionReceiptWriter
import OmpLazy.State.LifecycleReaders

/-! The durable record of the directive that was injected into a session. -/

namespace OmpLazy.Activation

open OmpLazy.Foundation OmpLazy.Context
open OmpLazy.State (DirectiveActivationRecord)

def WorkflowActivationId.name : WorkflowActivationId → String
  | .teammode => "teammode"
  | .startWork => "start_work"
  | .ultrawork => "ultrawork"
  | .ulwLoop => "ulw_loop"
  | .ulwPlan => "ulw_plan"
  | .ulwDeliver => "ulw_deliver"
  | .ulwResearch => "ulw_research"
  | .doctor => "doctor"
  | .reportBug => "report_bug"
  | .contributeBugFix => "contribute_bug_fix"

/-- What `Date.toISOString` returns. -/
structure IsoTime where
  text : String
  nonempty : text ≠ ""
  deriving DecidableEq, Repr

def directiveRecord (sessionId : String) (workflow : WorkflowActivationId) (runId : Option String)
    (now : IsoTime) : DirectiveActivationRecord :=
  ⟨sessionId, .string workflow.name, runId, now.text⟩

def encodeDirectiveRecord (record : DirectiveActivationRecord) : Json :=
  .object [
    ("schemaVersion", .nat 2),
    ("sessionId", .string record.sessionId),
    ("workflow", record.workflow),
    ("runId", .nullable (record.runId.map .string)),
    ("activatedAt", .string record.activatedAt)]

namespace TransactionActivationState

def readDirectiveActivation (files : RecordFiles) (sessionId : String) : Option DirectiveActivationRecord := do
  let path ← directiveActivationPath sessionId
  let value ← files path
  State.readDirectiveActivation sessionId value

/-- The record, if any, keeps the workflow from being activated again. -/
def suppresses (record : Option DirectiveActivationRecord) (workflow : WorkflowActivationId)
    (currentRunId : Option String) : Bool :=
  match record with
  | none => false
  | some record =>
    if record.workflow ≠ .string workflow.name then false
    else if record.runId = currentRunId then true
    else currentRunId.isNone && record.runId.isSome

def isDirectiveAlreadyActivated (files : RecordFiles) (sessionId : String) (workflow : WorkflowActivationId)
    (currentRunId : Option String) : Bool :=
  suppresses (readDirectiveActivation files sessionId) workflow currentRunId

/-- A write that fails is swallowed. -/
def recordDirectiveActivation (files : RecordFiles) (sessionId : String) (workflow : WorkflowActivationId)
    (runId : Option String) (now : IsoTime) (replaced : Bool) : RecordFiles :=
  match directiveActivationPath sessionId, replaced with
  | some path, true =>
    Function.update files path (some (encodeDirectiveRecord (directiveRecord sessionId workflow runId now)))
  | _, _ => files

def clearDirectiveActivation (files : RecordFiles) (sessionId : String) (removed : Bool) : RecordFiles :=
  match directiveActivationPath sessionId, removed with
  | some path, true => Function.update files path none
  | _, _ => files

end TransactionActivationState

/-- The calls that write the file of a session, each with how the file system answers it. -/
inductive DirectiveCall where
  | recordDirectiveActivation (sessionId : String) (workflow : WorkflowActivationId) (runId : Option String)
      (now : IsoTime) (replaced : Bool)
  | clearDirectiveActivation (sessionId : String) (removed : Bool)
  | writeInjectionReceipt (input : InjectionReceiptInput) (timestamp : IsoTime) (answer : WriterAnswer)
  deriving DecidableEq, Repr

def DirectiveCall.run (files : RecordFiles) : DirectiveCall → RecordFiles
  | .recordDirectiveActivation sessionId workflow runId now replaced =>
    TransactionActivationState.recordDirectiveActivation files sessionId workflow runId now replaced
  | .clearDirectiveActivation sessionId removed =>
    TransactionActivationState.clearDirectiveActivation files sessionId removed
  | .writeInjectionReceipt input timestamp answer =>
    (Context.writeInjectionReceipt files input timestamp.text answer).2

/-- The files after the calls, where the root had none. -/
def filesAfter (calls : List DirectiveCall) : RecordFiles := calls.foldl DirectiveCall.run fun _ ↦ none

end OmpLazy.Activation

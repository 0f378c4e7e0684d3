import OmpLazy.Contracts.AcceptanceStore

/-! The acceptance of a worker's result: its checks, its answer, and the two ledgers of its run. -/

namespace OmpLazy.Contracts

open OmpLazy.Foundation OmpLazy.Foundation.Schema OmpLazy.Foundation.Text OmpLazy.Gates
open OmpLazy.State (Uuid AnyRun FormatVersion WalFormat RejectionStatus)

/-! Rejections. -/

/-- How far the write of a rejection gets, and whether the call returns. -/
inductive RejectProgress where
  | stopped
  | replaced
  | returned
  deriving DecidableEq, Repr

def encodeRejectionLedger {Entry : Type} (version : ℕ) (encode : Entry → Json) (ledger : RejectionLedger Entry) :
    Json :=
  .object [("schemaVersion", .nat version), ("runId", .string ledger.runId),
    ("entries", .array (ledger.entries.map encode))]

/-- The status of an entry that is counted up. -/
def countedStatus (count : ℕ) : RejectionStatus := if count = 3 then .needsParentDecision else .retryAllowed

/-- The count that a rejection brings a key to, and the ledger with it, unless the count is there already. -/
def rejectUnder {Entry : Type} (key : Entry → String) (count : Entry → ℕ) (scopeKey : String)
    (replacement : ℕ → RejectionStatus → Option Entry)
    (parse : RejectionLedger Entry → Option (RejectionLedger Entry)) (ledger : RejectionLedger Entry) :
    Option (ℕ × Option (RejectionLedger Entry)) :=
  let existing := ledger.entries.find? (key · = scopeKey)
  if existing.map count = some 3 then some (3, none)
  else do
    let next := (existing.map count).getD 0 + 1
    let entry ← replacement next (countedStatus next)
    let entries := match existing with
      | none => ledger.entries ++ [entry]
      | some _ => ledger.entries.map fun listed ↦ if key listed = scopeKey then entry else listed
    let updated ← parse { ledger with entries }
    return (next, some updated)

def rejectV1 (scope : RejectionScope) :
    RejectionLedger RejectionEntry → Option (ℕ × Option (RejectionLedger RejectionEntry)) :=
  rejectUnder (fun entry ↦ legacyRejectionKey entry.runId entry.attempt) (·.count)
    (legacyRejectionKey scope.runId scope.attempt)
    (fun count status ↦ rejectionEntrySchema (.object (encodeRejection (scope.entry count status).entry)))
    fun ledger ↦ rejectionLedgerSchema
      (encodeRejectionLedger 1 (fun entry ↦ .object (encodeRejection entry)) ledger)

def rejectV2 (scope : RejectionScope) :
    RejectionLedger RejectionEntryV2 → Option (ℕ × Option (RejectionLedger RejectionEntryV2)) :=
  rejectUnder rejectionKey (·.entry.count) scope.key
    (fun count status ↦ rejectionEntryV2Schema (encodeRejectionEntryV2 (scope.entry count status)))
    fun ledger ↦ rejectionLedgerV2Schema (encodeRejectionLedger 2 encodeRejectionEntryV2 ledger)

/-- What a rejection counts up to, and what it writes. -/
def rejectCounted (scope : RejectionScope) : RuntimeRejectionLedger → Option (ℕ × Option Json)
  | .v1 ledger => (rejectV1 scope ledger).map fun counted ↦
      (counted.1, counted.2.map (encodeRejectionLedger 1 fun entry ↦ .object (encodeRejection entry)))
  | .v2 ledger => (rejectV2 scope ledger).map fun counted ↦
      (counted.1, counted.2.map (encodeRejectionLedger 2 encodeRejectionEntryV2))

/-- The count that a call of `reject` returns, unless it throws, and the file that it leaves. -/
def reject (run : Option AnyRun) (file : Option Json) (scope : RejectionScope) (progress : RejectProgress) :
    Option ℕ × Option Json :=
  match (readRejections scope.runId run file).bind (rejectCounted scope) with
  | none => (none, file)
  | some (count, none) => (some count, file)
  | some (count, some updated) =>
    match progress with
    | .stopped => (none, file)
    | .replaced => (none, some updated)
    | .returned => (some count, some updated)

/-! The input and the evidence. -/

inductive AcceptanceDecision where
  | acceptAfterReview
  | retryWorker
  | cancelDispatch
  deriving DecidableEq, Repr

def AcceptanceDecision.text : AcceptanceDecision → String
  | .acceptAfterReview => "accept_after_review"
  | .retryWorker => "retry_worker"
  | .cancelDispatch => "cancel_dispatch"

structure WorkerAcceptanceInput where
  agentId : AgentId
  receiptPath : String
  parentDecision : Option AcceptanceDecision
  deriving DecidableEq, Repr

def acceptanceDecisionSchema : Schema AcceptanceDecision :=
  oneOf [.acceptAfterReview, .retryWorker, .cancelDispatch] AcceptanceDecision.text

def workerAcceptanceInputSchema : Schema WorkerAcceptanceInput :=
  strictObject ["agentId", "receiptPath", "parentDecision"] fun fields ↦ do
    let agentId ← required fields "agentId" agentIdSchema
    let receiptPath ← required fields "receiptPath" (nonempty.refine fun path ↦ utf16Length path ≤ 1024)
    let parentDecision ← Schema.optional fields "parentDecision" acceptanceDecisionSchema
    return ⟨agentId, receiptPath, parentDecision⟩

structure WorkerOutput where
  exitCode : ℤ
  truncated : Bool
  schemaOverridden : Bool
  aborted : Bool
  blocked : Bool
  deriving DecidableEq, Repr

structure EvidenceCapture where
  runId : Uuid
  attempt : ℕ
  commit : String
  deriving DecidableEq, Repr

/-- Claims that are a list, claims under a status, or the scenario that needs none. -/
inductive CleanupEvidence where
  | legacy
  | receipts
  | notApplicable (scenarioId : String)
  deriving DecidableEq, Repr

structure WorkerEvidenceReceipt where
  runId : Uuid
  attempt : ℕ
  runRevision : ℕ
  ownerEpoch : ℕ
  taskGeneration : ℕ
  workerRole : WorkerRole
  actualAgentId : AgentId
  actualJobId : Option JobId
  captureCommit : String
  output : WorkerOutput
  captures : List EvidenceCapture
  cleanup : CleanupEvidence
  deriving DecidableEq, Repr

/-- What the evidence of a result comes to, with the paths of its files. -/
structure EvidenceBundle where
  receipt : WorkerEvidenceReceipt
  receiptPath : String
  receiptHash : String
  artifactPaths : List String
  cleanupReceiptPaths : List String
  artifactHash : String
  deriving DecidableEq, Repr

structure DispatchScope where
  scope : TaskRunScope
  identity : RuntimeIdentityRecord
  generation : ℕ
  role : WorkerRole
  taskId : String
  input : WorkerAcceptanceInput
  deriving DecidableEq, Repr

def DispatchScope.run (dispatch : DispatchScope) : AnyRun := dispatch.scope.run

def DispatchScope.semantic (dispatch : DispatchScope) : SemanticScope :=
  ⟨dispatch.taskId, dispatch.role, semanticAttempt dispatch.role⟩

def DispatchScope.rejectionScope (dispatch : DispatchScope) : RejectionScope where
  runId := dispatch.run.runId
  attempt := dispatch.run.progressRevision
  runRevision := dispatch.run.revision
  ownerEpoch := dispatch.run.owner.epoch
  taskGeneration := dispatch.generation
  actualAgentId := dispatch.identity.actualAgentId
  semantic := dispatch.semantic

def receiptBindingError (dispatch : DispatchScope) (receipt : WorkerEvidenceReceipt) (head : String) :
    Option String :=
  if receipt.runId ≠ dispatch.run.runId then some "wrong_run"
  else if receipt.attempt ≠ dispatch.run.progressRevision then some "wrong_attempt"
  else if receipt.runRevision ≠ dispatch.run.revision then some "wrong_revision"
  else if receipt.ownerEpoch ≠ dispatch.run.owner.epoch then some "owner_epoch_mismatch"
  else if receipt.taskGeneration ≠ dispatch.generation then some "task_scope_mismatch"
  else if receipt.actualAgentId ≠ dispatch.identity.actualAgentId then some "wrong_agent_id"
  else if receipt.actualJobId ≠ dispatch.identity.actualJobId then some "wrong_job_id"
  else if some receipt.workerRole.text ≠ dispatch.identity.agentType then some "wrong_worker_role"
  else if receipt.captureCommit ≠ head then some "wrong_capture_commit"
  else if receipt.output.exitCode ≠ 0 then some "nonzero_output"
  else if receipt.output.truncated then some "truncated_output"
  else if receipt.output.schemaOverridden then some "schema_overridden_output"
  else if receipt.output.aborted then some "aborted_output"
  else if receipt.output.blocked then some "blocked_output"
  else if (receipt.cleanup matches .notApplicable _) ∧ dispatch.identity.actualJobId.isSome then
    some "cleanup_required"
  else if receipt.captures.any fun capture ↦ capture.runId ≠ dispatch.run.runId ||
      capture.attempt ≠ dispatch.run.progressRevision || capture.commit ≠ head then
    some "stale_artifact_metadata"
  else none

/-- The result that is put in the ledger. -/
def acceptedResult (dispatch : DispatchScope) (evidence : EvidenceBundle) : AcceptedResult where
  runId := evidence.receipt.runId
  attempt := evidence.receipt.attempt
  runRevision := evidence.receipt.runRevision
  ownerSessionId := dispatch.run.owner.sessionId
  ownerEpoch := evidence.receipt.ownerEpoch
  taskGeneration := evidence.receipt.taskGeneration
  workerRole := evidence.receipt.workerRole
  actualAgentId := evidence.receipt.actualAgentId
  actualJobId := evidence.receipt.actualJobId
  captureCommit := evidence.receipt.captureCommit
  receiptPath := evidence.receiptPath
  artifactHash := evidence.artifactHash
  artifactPaths := evidence.artifactPaths
  cleanupReceiptPaths := evidence.cleanupReceiptPaths
  cleanupStatus := match evidence.receipt.cleanup with
    | .notApplicable _ => some .notApplicable
    | _ => some .receipts
  cleanupScenarioId := match evidence.receipt.cleanup with
    | .notApplicable scenarioId => some scenarioId
    | _ => none
  parentDecision := match dispatch.input.parentDecision with
    | some .acceptAfterReview => some .acceptAfterReview
    | _ => none
  scope := dispatch.semantic

/-! A call. -/

inductive WorkerAcceptanceResult where
  | accepted (artifactHash : String)
  | replayed (artifactHash : String)
  | rejected (code : String) (rejectionCount : ℕ)
  | needsParentDecision (code : String) (rejectionCount : ℕ)
  deriving DecidableEq, Repr

/-- `{ kind: count === 3 ? "needs_parent_decision" : "rejected", code, rejectionCount: count }` -/
def rejectionResult (code : String) (count : ℕ) : WorkerAcceptanceResult :=
  if count = 3 then .needsParentDecision code count else .rejected code count

/-- A call with all that it is told: whether it gets the lock, where it is, what session it is of, the state
of the work tree and the evidence, whether it is interrupted, the record of the run, and how far its writes
get. -/
structure WorkerCall where
  input : Json
  locked : Bool
  inRepository : Bool
  resolved : Option TaskRunScope
  aborted : Bool
  git : Except String String
  evidence : Except String EvidenceBundle
  abortedLater : Bool
  finalGit : Except String String
  record : Option AnyRun
  rejecting : RejectProgress
  accepting : AcceptProgress

/-- The files of all runs. -/
structure WorkerLedgers (Contents : Type) where
  rejections : Uuid → Option Json
  acceptances : Uuid → AcceptanceFiles Contents

/-- The answer of a call, unless it throws, and the files that it leaves. -/
structure WorkerEffect (Contents : Type) where
  answer : Option WorkerAcceptanceResult
  ledgers : WorkerLedgers Contents

/-- The version of the ledgers that are made for a run. -/
def recordVersion (record : Option AnyRun) : FormatVersion :=
  match record.map AnyRun.version with
  | some (.v2 ..) => .v2
  | _ => .v1

def isTerminal (run : AnyRun) : Bool :=
  match run.payload with
  | .startWork payload => payload.status ∈ [.completed, .cancelled, .failed, .abandoned]
  | .ulwLoop payload => payload.status ∈ [.completed, .cancelled, .failed]

section Calls

variable {Contents : Type} (format : WalFormat Contents)

/-- `#reject` -/
def rejectDispatch (ledgers : WorkerLedgers Contents) (call : WorkerCall) (scope : RejectionScope) (code : String) :
    WorkerEffect Contents :=
  let counted := reject call.record (ledgers.rejections scope.runId) scope call.rejecting
  ⟨counted.1.map (rejectionResult code),
    { ledgers with rejections := Function.update ledgers.rejections scope.runId counted.2 }⟩

/-- The acceptance of a result whose evidence is in order. -/
def acceptEvidence (ledgers : WorkerLedgers Contents) (call : WorkerCall) (dispatch : DispatchScope)
    (evidence : EvidenceBundle) (priorRejections : ℕ) : WorkerEffect Contents :=
  let id := evidence.receipt.runId
  let effect := accept format (recordVersion call.record) (ledgers.acceptances id) (acceptedResult dispatch evidence)
    evidence.receiptHash call.accepting
  ⟨effect.status.map fun
      | .accepted => .accepted evidence.artifactHash
      | .replayed => .replayed evidence.artifactHash
      | .duplicateReceipt => .rejected "duplicate_receipt" priorRejections,
    { ledgers with acceptances := Function.update ledgers.acceptances id effect.files }⟩

/-- The checks of the work tree and the evidence; a result that fails one of them is counted as rejected. -/
def checkEvidence (ledgers : WorkerLedgers Contents) (call : WorkerCall) (dispatch : DispatchScope)
    (priorRejections : ℕ) : WorkerEffect Contents :=
  let rejected := rejectDispatch ledgers call dispatch.rejectionScope
  if call.aborted then rejected "interrupted"
  else
    match call.git with
    | .error code => rejected code
    | .ok head =>
      match call.evidence with
      | .error code => rejected code
      | .ok evidence =>
        match receiptBindingError dispatch evidence.receipt head with
        | some code => rejected code
        | none =>
          if call.abortedLater then rejected "interrupted"
          else
            match call.finalGit with
            | .error code => rejected code
            | .ok finalHead =>
              if finalHead ≠ head then rejected "head_changed"
              else acceptEvidence format ledgers call dispatch evidence priorRejections

/-- `#acceptDispatch` -/
def acceptDispatch (ledgers : WorkerLedgers Contents) (call : WorkerCall) (dispatch : DispatchScope) :
    WorkerEffect Contents :=
  let scope := dispatch.rejectionScope
  match (readRejections scope.runId call.record (ledgers.rejections scope.runId)).map (rejectionCount scope) with
  | none => ⟨none, ledgers⟩
  | some priorRejections =>
    if dispatch.input.parentDecision = some .retryWorker ∨ dispatch.input.parentDecision = some .cancelDispatch then
      ⟨some (rejectionResult "parent_declined_acceptance" priorRejections), ledgers⟩
    else if priorRejections = 3 ∧ dispatch.input.parentDecision ≠ some .acceptAfterReview then
      ⟨some (.needsParentDecision "retry_cap_reached" 3), ledgers⟩
    else checkEvidence format ledgers call dispatch priorRejections

/-- The worker that a call is about, or the code of what is wrong with it. -/
def WorkerCall.dispatch (call : WorkerCall) : Except String DispatchScope :=
  match workerAcceptanceInputSchema call.input with
  | none => .error "malformed_payload"
  | some input =>
    if ¬ call.locked then .error "state_conflict"
    else if ¬ call.inRepository then .error "cwd_mismatch"
    else
      match call.resolved with
      | none => .error "current_parent_required"
      | some scope =>
        if isTerminal scope.run then .error "terminal_run"
        else
          let generation := scope.taskGeneration
          match (scope.runtimeIdentities generation).find? (·.actualAgentId = input.agentId) with
          | none => .error "task_scope_mismatch"
          | some identity =>
            if generation = 0 then .error "task_scope_mismatch"
            else
              match identity.agentType.bind fun agentType ↦ workerRoleSchema (.string agentType) with
              | none => .error "unowned_worker_role"
              | some role => .ok ⟨scope, identity, generation, role, dispatchTaskId identity, input⟩

/-- `WorkerResultAcceptance.accept` -/
def WorkerCall.run (ledgers : WorkerLedgers Contents) (call : WorkerCall) : WorkerEffect Contents :=
  match call.dispatch with
  | .error code => ⟨some (.rejected code 0), ledgers⟩
  | .ok dispatch => acceptDispatch format ledgers call dispatch

end Calls

end OmpLazy.Contracts

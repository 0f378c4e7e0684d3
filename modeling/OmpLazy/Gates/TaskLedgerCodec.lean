import OmpLazy.Contracts.AgentIds
import OmpLazy.Foundation.Members
import OmpLazy.State.ReceiptLedgers

namespace OmpLazy.Gates

open OmpLazy.Foundation OmpLazy.Foundation.Schema OmpLazy.Foundation.Text OmpLazy.Contracts
open OmpLazy.State (Uuid TaskFactKind uuidSchema hashSchema positiveCounter)

structure TaskRequest where
  canonicalInputHash : Option String
  itemIndex : ℕ
  requestedName : Option String
  agentType : Option String
  deriving DecidableEq, Repr

inductive JobStatus where
  | running
  | completed
  | failed
  | cancelled
  deriving DecidableEq, Repr

inductive IrcOutcome where
  | injected
  | woken
  | revived
  | failed
  deriving DecidableEq, Repr

inductive TaskReceipt where
  | job (jobId : JobId) (status : JobStatus)
  | jobCancel (jobId : JobId)
  | irc (agentId : AgentId) (outcome : IrcOutcome)
  deriving DecidableEq, Repr

inductive TaskControl where
  | jobSnapshot
  | jobCancel
  | ircSend
  | ircTarget
  deriving DecidableEq, Repr

inductive CapabilityStatus where
  | proven
  | blocked
  deriving DecidableEq, Repr

inductive TaskFact where
  | taskReserved (toolCallId : ToolCallId) (itemCount : ℕ) (requests : List TaskRequest)
  | taskIdentitiesBound (toolCallId : ToolCallId) (bindings : List RuntimeIdentityBinding)
  | taskControlAuthorized (toolCallId : ToolCallId) (control : TaskControl) (taskGeneration : ℕ)
      (inputKey : String) (targets : List String)
  | taskReceiptObserved (toolCallId : ToolCallId) (receipt : TaskReceipt)
  | asyncCapabilityObserved (toolCallId : ToolCallId) (taskGeneration : ℕ) (status : CapabilityStatus)
      (reason : String)
  deriving DecidableEq, Repr

structure TaskLedgerEntry where
  sequence : ℕ
  ownerSessionId : String
  ownerEpoch : ℕ
  fact : TaskFact
  deriving DecidableEq, Repr

inductive Tier where
  | fast
  | standard
  | deep
  deriving DecidableEq, Repr

inductive TaskLedgerVersion where
  | v1
  | v2 (packetHash : Option String) (tier : Option Tier) (reservationId : Option String)
  deriving DecidableEq, Repr

structure PersistedTaskLedger where
  version : TaskLedgerVersion
  runId : Uuid
  ledgerRevision : ℕ
  entries : List TaskLedgerEntry
  deriving DecidableEq, Repr

/-! The texts of the enumerations. -/

def JobStatus.text : JobStatus → String
  | .running => "running"
  | .completed => "completed"
  | .failed => "failed"
  | .cancelled => "cancelled"

def IrcOutcome.text : IrcOutcome → String
  | .injected => "injected"
  | .woken => "woken"
  | .revived => "revived"
  | .failed => "failed"

def TaskControl.text : TaskControl → String
  | .jobSnapshot => "job_snapshot"
  | .jobCancel => "job_cancel"
  | .ircSend => "irc_send"
  | .ircTarget => "irc_target"

def CapabilityStatus.text : CapabilityStatus → String
  | .proven => "proven"
  | .blocked => "blocked"

def factKindText : TaskFactKind → String
  | .taskReserved => "task_reserved"
  | .taskIdentitiesBound => "task_identities_bound"
  | .taskControlAuthorized => "task_control_authorized"
  | .taskReceiptObserved => "task_receipt_observed"
  | .asyncCapabilityObserved => "async_capability_observed"

def Tier.text : Tier → String
  | .fast => "FAST"
  | .standard => "STANDARD"
  | .deep => "DEEP"

/-! The schemas. -/

def requestSchema : Schema TaskRequest :=
  strictObject ["canonicalInputHash", "itemIndex", "requestedName", "agentType"] fun fields ↦ do
    let canonicalInputHash ← Schema.optional fields "canonicalInputHash" hashSchema
    let itemIndex ← required fields "itemIndex" counter
    let requestedName ← required fields "requestedName" nonempty.nullable
    let agentType ← required fields "agentType" nonempty.nullable
    return ⟨canonicalInputHash, itemIndex, requestedName, agentType⟩

def jobReceiptSchema : Schema TaskReceipt :=
  strictObject ["kind", "jobId", "status"] fun fields ↦ do
    let () ← required fields "kind" (literal (.string "job"))
    let jobId ← required fields "jobId" jobIdSchema
    let status ← required fields "status"
      (oneOf [.running, .completed, .failed, .cancelled] JobStatus.text)
    return .job jobId status

def jobCancelReceiptSchema : Schema TaskReceipt :=
  strictObject ["kind", "jobId", "status"] fun fields ↦ do
    let () ← required fields "kind" (literal (.string "job_cancel"))
    let jobId ← required fields "jobId" jobIdSchema
    let () ← required fields "status" (literal (.string "cancelled"))
    return .jobCancel jobId

def ircReceiptSchema : Schema TaskReceipt :=
  strictObject ["kind", "agentId", "outcome"] fun fields ↦ do
    let () ← required fields "kind" (literal (.string "irc"))
    let agentId ← required fields "agentId" agentIdSchema
    let outcome ← required fields "outcome"
      (oneOf [.injected, .woken, .revived, .failed] IrcOutcome.text)
    return .irc agentId outcome

def receiptSchema : Schema TaskReceipt :=
  union jobReceiptSchema (union jobCancelReceiptSchema ircReceiptSchema)

def factKindSchema : Schema TaskFactKind :=
  oneOf [.taskReserved, .taskIdentitiesBound, .taskControlAuthorized, .taskReceiptObserved,
    .asyncCapabilityObserved] factKindText

/-- `array(schema).min(1)`. -/
def someOf {α : Type} (schema : Schema α) : Schema (List α) :=
  schema.array.refine fun items ↦ !items.isEmpty

def reservationMatches (itemCount : ℕ) (requests : List TaskRequest) : Bool :=
  itemCount = requests.length && requests.map (·.itemIndex) = List.range requests.length

def factBody (fields : List (String × Json)) : TaskFactKind → Option TaskFact
  | .taskReserved => do
    let toolCallId ← required fields "toolCallId" toolCallIdSchema
    let itemCount ← required fields "itemCount" positiveCounter
    let requests ← required fields "requests" (someOf requestSchema)
    if reservationMatches itemCount requests then some (.taskReserved toolCallId itemCount requests)
    else none
  | .taskIdentitiesBound => do
    let toolCallId ← required fields "toolCallId" toolCallIdSchema
    let bindings ← required fields "bindings" (someOf runtimeIdentityBindingSchema)
    return .taskIdentitiesBound toolCallId bindings
  | .taskControlAuthorized => do
    let toolCallId ← required fields "toolCallId" toolCallIdSchema
    let control ← required fields "control"
      (oneOf [.jobSnapshot, .jobCancel, .ircSend, .ircTarget] TaskControl.text)
    let taskGeneration ← required fields "taskGeneration" positiveCounter
    let inputKey ← required fields "inputKey" nonempty
    let targets ← required fields "targets" nonempty.array
    return .taskControlAuthorized toolCallId control taskGeneration inputKey targets
  | .taskReceiptObserved => do
    let toolCallId ← required fields "toolCallId" toolCallIdSchema
    let receipt ← required fields "receipt" receiptSchema
    return .taskReceiptObserved toolCallId receipt
  | .asyncCapabilityObserved => do
    let toolCallId ← required fields "toolCallId" toolCallIdSchema
    let taskGeneration ← required fields "taskGeneration" positiveCounter
    let status ← required fields "status" (oneOf [.proven, .blocked] CapabilityStatus.text)
    let reason ← required fields "reason" nonempty
    return .asyncCapabilityObserved toolCallId taskGeneration status reason

def factKeys : TaskFactKind → List String
  | .taskReserved => ["toolCallId", "itemCount", "requests"]
  | .taskIdentitiesBound => ["toolCallId", "bindings"]
  | .taskControlAuthorized => ["toolCallId", "control", "taskGeneration", "inputKey", "targets"]
  | .taskReceiptObserved => ["toolCallId", "receipt"]
  | .asyncCapabilityObserved => ["toolCallId", "taskGeneration", "status", "reason"]

/-- The discriminated union: `kind` selects the strict object. -/
def factSchema : Schema TaskFact := fun j ↦ do
  let kind ← (j.get? "kind").bind factKindSchema
  strictObject ("kind" :: factKeys kind) (fun fields ↦ factBody fields kind) j

def TaskFact.kind : TaskFact → TaskFactKind
  | .taskReserved .. => .taskReserved
  | .taskIdentitiesBound .. => .taskIdentitiesBound
  | .taskControlAuthorized .. => .taskControlAuthorized
  | .taskReceiptObserved .. => .taskReceiptObserved
  | .asyncCapabilityObserved .. => .asyncCapabilityObserved

def TaskFact.toolCallId : TaskFact → ToolCallId
  | .taskReserved toolCallId .. | .taskIdentitiesBound toolCallId _
  | .taskControlAuthorized toolCallId .. | .taskReceiptObserved toolCallId _
  | .asyncCapabilityObserved toolCallId .. => toolCallId

def taskFactKey (fact : TaskFact) : String :=
  let start := factKindText fact.kind ++ "\x00" ++ fact.toolCallId
  match fact with
  | .taskReceiptObserved _ (.job jobId _) => start ++ "\x00job\x00" ++ jobId
  | .taskReceiptObserved _ (.jobCancel jobId) => start ++ "\x00job_cancel\x00" ++ jobId
  | .taskReceiptObserved _ (.irc agentId _) => start ++ "\x00irc\x00" ++ agentId
  | _ => start

def taskLedgerEntrySchema : Schema TaskLedgerEntry :=
  strictObject ["sequence", "ownerSessionId", "ownerEpoch", "fact"] fun fields ↦ do
    let sequence ← required fields "sequence" positiveCounter
    let ownerSessionId ← required fields "ownerSessionId" nonempty
    let ownerEpoch ← required fields "ownerEpoch" counter
    let fact ← required fields "fact" factSchema
    return ⟨sequence, ownerSessionId, ownerEpoch, fact⟩

def entryKey (entry : TaskLedgerEntry) : String :=
  entry.ownerSessionId ++ "\x00" ++ toString entry.ownerEpoch ++ "\x00" ++ taskFactKey entry.fact

/-- The entries are numbered from 1, the revision is their number, and no key comes twice. -/
def ledgerIsOrdered (ledger : PersistedTaskLedger) : Bool :=
  ledger.ledgerRevision = ledger.entries.length &&
    ledger.entries.map (·.sequence) = List.range' 1 ledger.entries.length &&
    (ledger.entries.map entryKey).Nodup

def taskLedgerKeys : List String := ["runId", "ledgerRevision", "entries"]

def taskLedgerFields (fields : List (String × Json)) (version : TaskLedgerVersion) :
    Option PersistedTaskLedger := do
  let runId ← required fields "runId" uuidSchema
  let ledgerRevision ← required fields "ledgerRevision" counter
  let entries ← required fields "entries" taskLedgerEntrySchema.array
  return ⟨version, runId, ledgerRevision, entries⟩

def taskLedgerSchema : Schema PersistedTaskLedger := Schema.refine
  (strictObject ("schemaVersion" :: taskLedgerKeys) fun fields ↦ do
    let () ← required fields "schemaVersion" (literal (.nat 1))
    taskLedgerFields fields .v1) ledgerIsOrdered

def taskLedgerV2Schema : Schema PersistedTaskLedger := Schema.refine
  (strictObject ("schemaVersion" :: taskLedgerKeys ++ ["packetHash", "tier", "reservationId"])
    fun fields ↦ do
      let () ← required fields "schemaVersion" (literal (.nat 2))
      let packetHash ← required fields "packetHash" hashSchema.nullable
      let tier ← required fields "tier" (oneOf [.fast, .standard, .deep] Tier.text).nullable
      let reservationId ← required fields "reservationId" nonempty.nullable
      taskLedgerFields fields (.v2 packetHash tier reservationId)) ledgerIsOrdered

/-- What `readLedger` takes a file of task facts for. -/
def readTaskLedger (json : Json) : Option PersistedTaskLedger :=
  (taskLedgerV2Schema json).or (taskLedgerSchema json)

end OmpLazy.Gates

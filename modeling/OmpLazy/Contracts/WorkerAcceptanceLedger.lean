import OmpLazy.Contracts.AgentIds
import OmpLazy.Foundation.Members
import OmpLazy.State.CodecLaws
import OmpLazy.State.ReceiptAuthority

namespace OmpLazy.Contracts

open OmpLazy.Foundation OmpLazy.Foundation.Schema OmpLazy.Foundation.Text
open OmpLazy.State (Uuid RejectionStatus uuidSchema hashSchema positiveCounter counterUpTo encodeStrings
  encodeNullableString)

inductive CleanupStatus where
  | receipts
  | notApplicable
  deriving DecidableEq, Repr

inductive ParentDecision where
  | acceptAfterReview
  deriving DecidableEq, Repr

structure WorkerAcceptanceEvent where
  sequence : ℕ
  idempotencyKey : String
  runId : Uuid
  attempt : ℕ
  runRevision : ℕ
  ownerSessionId : String
  ownerEpoch : ℕ
  taskGeneration : ℕ
  workerRole : WorkerRole
  actualAgentId : AgentId
  actualJobId : Option JobId
  captureCommit : String
  receiptPath : String
  receiptHash : String
  artifactHash : String
  artifactPaths : List String
  cleanupReceiptPaths : List String
  cleanupStatus : Option CleanupStatus
  cleanupScenarioId : Option String
  parentDecision : Option ParentDecision
  deriving DecidableEq, Repr

structure RejectionEntry where
  runId : Uuid
  attempt : ℕ
  runRevision : ℕ
  ownerEpoch : ℕ
  taskGeneration : ℕ
  actualAgentId : AgentId
  count : ℕ
  status : RejectionStatus
  deriving DecidableEq, Repr

/-- The members that the second versions of the entries add. -/
structure SemanticScope where
  taskId : String
  role : WorkerRole
  semanticAttempt : ℕ
  deriving DecidableEq, Repr

structure AcceptanceEntryV2 where
  event : WorkerAcceptanceEvent
  scope : SemanticScope
  deriving DecidableEq, Repr

structure RejectionEntryV2 where
  entry : RejectionEntry
  scope : SemanticScope
  deriving DecidableEq, Repr

structure AcceptanceLedger (Entry : Type) where
  runId : Uuid
  ledgerRevision : ℕ
  entries : List Entry
  deriving DecidableEq, Repr

structure RejectionLedger (Entry : Type) where
  runId : Uuid
  entries : List Entry
  deriving DecidableEq, Repr

def CleanupStatus.text : CleanupStatus → String
  | .receipts => "receipts"
  | .notApplicable => "not_applicable"

def ParentDecision.text : ParentDecision → String
  | .acceptAfterReview => "accept_after_review"

def rejectionStatusText : RejectionStatus → String
  | .retryAllowed => "retry_allowed"
  | .needsParentDecision => "needs_parent_decision"

def commitSchema : Schema String := string.refine (isLowerHexOf 40)

def cleanupStatusSchema : Schema CleanupStatus := oneOf [.receipts, .notApplicable] CleanupStatus.text

def parentDecisionSchema : Schema ParentDecision := oneOf [.acceptAfterReview] ParentDecision.text

def rejectionStatusSchema : Schema RejectionStatus :=
  oneOf [.retryAllowed, .needsParentDecision] rejectionStatusText

/-- `z.array(nonempty).min(1)`. -/
def somePaths : Schema (List String) := nonempty.array.refine fun paths ↦ !paths.isEmpty

/-- `z.array(nonempty).max(32)`. -/
def cleanupPaths : Schema (List String) := nonempty.array.refine fun paths ↦ paths.length ≤ 32

/-! Acceptances. -/

def acceptanceKeys : List String :=
  ["sequence", "idempotencyKey", "runId", "attempt", "runRevision", "ownerSessionId", "ownerEpoch",
    "taskGeneration", "workerRole", "actualAgentId", "actualJobId", "captureCommit", "receiptPath",
    "receiptHash", "artifactHash", "artifactPaths", "cleanupReceiptPaths", "cleanupStatus",
    "cleanupScenarioId", "parentDecision"]

def acceptanceEventFields (fields : List (String × Json)) : Option WorkerAcceptanceEvent := do
  let sequence ← required fields "sequence" positiveCounter
  let idempotencyKey ← required fields "idempotencyKey" nonempty
  let runId ← required fields "runId" uuidSchema
  let attempt ← required fields "attempt" counter
  let runRevision ← required fields "runRevision" counter
  let ownerSessionId ← required fields "ownerSessionId" nonempty
  let ownerEpoch ← required fields "ownerEpoch" counter
  let taskGeneration ← required fields "taskGeneration" positiveCounter
  let workerRole ← required fields "workerRole" workerRoleSchema
  let actualAgentId ← required fields "actualAgentId" agentIdSchema
  let actualJobId ← required fields "actualJobId" jobIdSchema.nullable
  let captureCommit ← required fields "captureCommit" commitSchema
  let receiptPath ← required fields "receiptPath" nonempty
  let receiptHash ← required fields "receiptHash" hashSchema
  let artifactHash ← required fields "artifactHash" hashSchema
  let artifactPaths ← required fields "artifactPaths" somePaths
  let cleanupReceiptPaths ← required fields "cleanupReceiptPaths" cleanupPaths
  let cleanupStatus ← Schema.optional fields "cleanupStatus" cleanupStatusSchema
  let cleanupScenarioId ← Schema.optional fields "cleanupScenarioId" nonempty
  let parentDecision ← Schema.optional fields "parentDecision" parentDecisionSchema
  return ⟨sequence, idempotencyKey, runId, attempt, runRevision, ownerSessionId, ownerEpoch,
    taskGeneration, workerRole, actualAgentId, actualJobId, captureCommit, receiptPath, receiptHash,
    artifactHash, artifactPaths, cleanupReceiptPaths, cleanupStatus, cleanupScenarioId, parentDecision⟩

/-- A cleanup that does not apply names its scenario and no receipts, one with receipts has some. -/
def cleanupBinds (event : WorkerAcceptanceEvent) : Bool :=
  (event.cleanupStatus = some .notApplicable) = event.cleanupScenarioId.isSome &&
    !(event.cleanupStatus = some .notApplicable && 0 < event.cleanupReceiptPaths.length) &&
    !(event.cleanupStatus = some .receipts && event.cleanupReceiptPaths.length = 0)

def acceptanceEventSchema : Schema WorkerAcceptanceEvent :=
  (strictObject acceptanceKeys acceptanceEventFields).refine cleanupBinds

def scopeKeys : List String := ["taskId", "role", "semanticAttempt"]

def scopeFields (fields : List (String × Json)) : Option SemanticScope := do
  let taskId ← required fields "taskId" nonempty
  let role ← required fields "role" workerRoleSchema
  let semanticAttempt ← required fields "semanticAttempt" positiveCounter
  return ⟨taskId, role, semanticAttempt⟩

/-- What the entries of the second version read; `extend` keeps the refinement. -/
def acceptanceEntryV2Fields (fields : List (String × Json)) : Option AcceptanceEntryV2 := do
  let event ← acceptanceEventFields fields
  let scope ← scopeFields fields
  return ⟨event, scope⟩

def acceptanceLedgerEntryV2Schema : Schema AcceptanceEntryV2 :=
  (strictObject (acceptanceKeys ++ scopeKeys) acceptanceEntryV2Fields).refine
    fun entry ↦ cleanupBinds entry.event

def acceptanceEventV2Schema : Schema AcceptanceEntryV2 :=
  (strictObject ("schemaVersion" :: (acceptanceKeys ++ scopeKeys)) fun fields ↦ do
    let () ← required fields "schemaVersion" (literal (.nat 2))
    acceptanceEntryV2Fields fields).refine fun entry ↦ cleanupBinds entry.event

def acceptanceLedgerFields {Entry : Type} (entrySchema : Schema Entry) (fields : List (String × Json)) :
    Option (AcceptanceLedger Entry) := do
  let runId ← required fields "runId" uuidSchema
  let ledgerRevision ← required fields "ledgerRevision" counter
  let entries ← required fields "entries" entrySchema.array
  return ⟨runId, ledgerRevision, entries⟩

/-- The first version, which is not strict. -/
def acceptanceLedgerSchema : Schema (AcceptanceLedger WorkerAcceptanceEvent) :=
  looseObject fun fields ↦ do
    let () ← required fields "schemaVersion" (literal (.nat 1))
    acceptanceLedgerFields acceptanceEventSchema fields

def acceptanceLedgerKeys : List String := ["schemaVersion", "runId", "ledgerRevision", "entries"]

/-- The revision counts the entries, which are numbered from 1, belong to the run of the ledger and
have distinct keys. -/
def sequenceMatches (runId : Uuid) (ledgerRevision : ℕ) (events : List WorkerAcceptanceEvent) : Bool :=
  ledgerRevision = events.length && events.map (·.sequence) = List.range' 1 events.length &&
    events.all (·.runId = runId) && (events.map (·.idempotencyKey)).Nodup

def acceptanceLedgerV2Schema : Schema (AcceptanceLedger AcceptanceEntryV2) :=
  (strictObject acceptanceLedgerKeys fun fields ↦ do
    let () ← required fields "schemaVersion" (literal (.nat 2))
    acceptanceLedgerFields acceptanceLedgerEntryV2Schema fields).refine fun ledger ↦
      sequenceMatches ledger.runId ledger.ledgerRevision (ledger.entries.map (·.event))

/-! Rejections. -/

def rejectionKeys : List String :=
  ["runId", "attempt", "runRevision", "ownerEpoch", "taskGeneration", "actualAgentId", "count", "status"]

def rejectionFields (fields : List (String × Json)) : Option RejectionEntry := do
  let runId ← required fields "runId" uuidSchema
  let attempt ← required fields "attempt" counter
  let runRevision ← required fields "runRevision" counter
  let ownerEpoch ← required fields "ownerEpoch" counter
  let taskGeneration ← required fields "taskGeneration" positiveCounter
  let actualAgentId ← required fields "actualAgentId" agentIdSchema
  let count ← required fields "count" ((counterUpTo 3).refine (1 ≤ ·))
  let status ← required fields "status" rejectionStatusSchema
  return ⟨runId, attempt, runRevision, ownerEpoch, taskGeneration, actualAgentId, count, status⟩

def rejectionEntrySchema : Schema RejectionEntry := strictObject rejectionKeys rejectionFields

def rejectionEntryV2Schema : Schema RejectionEntryV2 :=
  strictObject (rejectionKeys ++ scopeKeys) fun fields ↦ do
    let entry ← rejectionFields fields
    let scope ← scopeFields fields
    return ⟨entry, scope⟩

def rejectionLedgerKeys : List String := ["schemaVersion", "runId", "entries"]

def rejectionLedgerFields {Entry : Type} (version : ℕ) (entrySchema : Schema Entry)
    (fields : List (String × Json)) : Option (RejectionLedger Entry) := do
  let () ← required fields "schemaVersion" (literal (.nat version))
  let runId ← required fields "runId" uuidSchema
  let entries ← required fields "entries" entrySchema.array
  return ⟨runId, entries⟩

def rejectionLedgerSchema : Schema (RejectionLedger RejectionEntry) :=
  strictObject rejectionLedgerKeys (rejectionLedgerFields 1 rejectionEntrySchema)

/-- `[runId, taskId, taskGeneration, role, semanticAttempt].join("\u0000")`. -/
def rejectionKey (entry : RejectionEntryV2) : String :=
  entry.entry.runId ++ "\x00" ++ entry.scope.taskId ++ "\x00" ++ toString entry.entry.taskGeneration ++
    "\x00" ++ entry.scope.role.text ++ "\x00" ++ toString entry.scope.semanticAttempt

def identityMatches (ledger : RejectionLedger RejectionEntryV2) : Bool :=
  ledger.entries.all (·.entry.runId = ledger.runId) && (ledger.entries.map rejectionKey).Nodup

def rejectionLedgerV2Schema : Schema (RejectionLedger RejectionEntryV2) :=
  (strictObject rejectionLedgerKeys (rejectionLedgerFields 2 rejectionEntryV2Schema)).refine
    identityMatches

/-! The texts of the entries. -/

def encodeAcceptanceEvent (event : WorkerAcceptanceEvent) : List (String × Json) :=
  ("sequence", .nat event.sequence) ::
    ("idempotencyKey", .string event.idempotencyKey) ::
    ("runId", .string event.runId) ::
    ("attempt", .nat event.attempt) ::
    ("runRevision", .nat event.runRevision) ::
    ("ownerSessionId", .string event.ownerSessionId) ::
    ("ownerEpoch", .nat event.ownerEpoch) ::
    ("taskGeneration", .nat event.taskGeneration) ::
    ("workerRole", .string event.workerRole.text) ::
    ("actualAgentId", .string event.actualAgentId) ::
    ("actualJobId", encodeNullableString event.actualJobId) ::
    ("captureCommit", .string event.captureCommit) ::
    ("receiptPath", .string event.receiptPath) ::
    ("receiptHash", .string event.receiptHash) ::
    ("artifactHash", .string event.artifactHash) ::
    ("artifactPaths", encodeStrings event.artifactPaths) ::
    ("cleanupReceiptPaths", encodeStrings event.cleanupReceiptPaths) ::
    (Json.optional "cleanupStatus" (event.cleanupStatus.map fun status ↦ .string status.text) ++
      (Json.optional "cleanupScenarioId" (event.cleanupScenarioId.map .string) ++
        Json.optional "parentDecision" (event.parentDecision.map fun choice ↦ .string choice.text)))

def encodeScope (scope : SemanticScope) : List (String × Json) :=
  [("taskId", .string scope.taskId), ("role", .string scope.role.text),
    ("semanticAttempt", .nat scope.semanticAttempt)]

def encodeAcceptanceEntryV2 (entry : AcceptanceEntryV2) : Json :=
  .object (encodeAcceptanceEvent entry.event ++ encodeScope entry.scope)

/-- `{ ...event, schemaVersion: 2, taskId, role, semanticAttempt }`. -/
def encodeAcceptanceEventV2 (entry : AcceptanceEntryV2) : Json :=
  .object (encodeAcceptanceEvent entry.event ++ ("schemaVersion", .nat 2) :: encodeScope entry.scope)

def encodeRejection (entry : RejectionEntry) : List (String × Json) :=
  [("runId", .string entry.runId), ("attempt", .nat entry.attempt),
    ("runRevision", .nat entry.runRevision), ("ownerEpoch", .nat entry.ownerEpoch),
    ("taskGeneration", .nat entry.taskGeneration), ("actualAgentId", .string entry.actualAgentId),
    ("count", .nat entry.count), ("status", .string (rejectionStatusText entry.status))]

def encodeRejectionEntryV2 (entry : RejectionEntryV2) : Json :=
  .object (encodeRejection entry.entry ++ encodeScope entry.scope)

end OmpLazy.Contracts

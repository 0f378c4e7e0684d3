import OmpLazy.Contracts.AcceptDispatch

/-! The receipt of a worker's evidence, and the receipts of what it has cleaned up. -/

namespace OmpLazy.Contracts.Evidence

open OmpLazy.Foundation OmpLazy.Foundation.Schema OmpLazy.Foundation.Text OmpLazy.State

/-- `z.string().trim().min(1).max(1_024)` -/
def boundedNonempty : Schema String := nonempty.refine fun s ↦ utf16Length s ≤ 1024

def commit : Schema String := string.refine (isLowerHexOf 40)

def uuid : Schema Uuid := uuidSchema

def positive : Schema ℕ := counter.refine fun n ↦ 0 < n

/-- `z.number().int()` -/
def integer : Schema ℤ
  | .number n => if n.natAbs ≤ maxSafeInteger then some n else none
  | _ => none

/-- `z.array(schema).min(least).max(most)` -/
def sized {α : Type} (least most : ℕ) (schema : Schema α) : Schema (List α) :=
  schema.array.refine fun values ↦ least ≤ values.length && values.length ≤ most

def captureSchema : Schema EvidenceCapture :=
  strictObject ["runId", "attempt", "commit"] fun fields ↦ do
    let runId ← required fields "runId" uuid
    let attempt ← required fields "attempt" counter
    let commit ← required fields "commit" commit
    return ⟨runId, attempt, commit⟩

structure EvidenceArtifactClaim where
  path : String
  capture : EvidenceCapture
  deriving DecidableEq, Repr

def evidenceArtifactClaimSchema : Schema EvidenceArtifactClaim :=
  strictObject ["path", "capture"] fun fields ↦ do
    let path ← required fields "path" boundedNonempty
    let capture ← required fields "capture" captureSchema
    return ⟨path, capture⟩

structure CleanupReceiptClaim where
  resourceId : String
  receiptPath : String
  deriving DecidableEq, Repr

def cleanupReceiptClaimSchema : Schema CleanupReceiptClaim :=
  strictObject ["resourceId", "receiptPath"] fun fields ↦ do
    let resourceId ← required fields "resourceId" boundedNonempty
    let receiptPath ← required fields "receiptPath" boundedNonempty
    return ⟨resourceId, receiptPath⟩

inductive ResourceKind where
  | tool
  | process
  | worktree
  | resource
  deriving DecidableEq, Repr

def ResourceKind.text : ResourceKind → String
  | .tool => "tool"
  | .process => "process"
  | .worktree => "worktree"
  | .resource => "resource"

structure ResourceEvidence where
  resourceId : String
  kind : ResourceKind
  deriving DecidableEq, Repr

def resourceEvidenceSchema : Schema ResourceEvidence :=
  strictObject ["resourceId", "kind"] fun fields ↦ do
    let resourceId ← required fields "resourceId" boundedNonempty
    let kind ← required fields "kind" (oneOf [.tool, .process, .worktree, .resource] ResourceKind.text)
    return ⟨resourceId, kind⟩

/-- A list of claims, the form of the first version, or one of two objects by their status. -/
inductive CleanupEvidence where
  | legacy (claims : List CleanupReceiptClaim)
  | receipts (claims : List CleanupReceiptClaim)
  | notApplicable (scenarioId : String)
  deriving DecidableEq, Repr

def cleanupReceiptClaims : Schema (List CleanupReceiptClaim) := sized 1 32 cleanupReceiptClaimSchema

def receiptsSchema : Schema CleanupEvidence :=
  strictObject ["status", "claims"] fun fields ↦ do
    let _ ← required fields "status" (literal (.string "receipts"))
    let claims ← required fields "claims" cleanupReceiptClaims
    return .receipts claims

def declarationSchema : Schema String :=
  strictObject ["scenarioId", "resourceKinds"] fun fields ↦ do
    let scenarioId ← required fields "scenarioId" boundedNonempty
    let _ ← required fields "resourceKinds" (literal (.array []))
    return scenarioId

def notApplicableSchema : Schema CleanupEvidence :=
  strictObject ["status", "declaration"] fun fields ↦ do
    let _ ← required fields "status" (literal (.string "not_applicable"))
    let scenarioId ← required fields "declaration" declarationSchema
    return .notApplicable scenarioId

def legacySchema : Schema CleanupEvidence := fun json ↦ (cleanupReceiptClaims json).map .legacy

def cleanupEvidenceSchema : Schema CleanupEvidence := union legacySchema (union receiptsSchema notApplicableSchema)

def cleanupClaimsForEvidence : CleanupEvidence → List CleanupReceiptClaim
  | .legacy claims => claims
  | .receipts claims => claims
  | .notApplicable _ => []

def CleanupEvidence.isNotApplicable : CleanupEvidence → Bool
  | .notApplicable _ => true
  | _ => false

def outputSchema : Schema WorkerOutput :=
  strictObject ["exitCode", "truncated", "schemaOverridden", "aborted", "blocked"] fun fields ↦ do
    let exitCode ← required fields "exitCode" integer
    let truncated ← required fields "truncated" boolean
    let schemaOverridden ← required fields "schemaOverridden" boolean
    let aborted ← required fields "aborted" boolean
    let blocked ← required fields "blocked" boolean
    return ⟨exitCode, truncated, schemaOverridden, aborted, blocked⟩

structure WorkerEvidenceReceipt where
  runId : Uuid
  attempt : ℕ
  runRevision : ℕ
  ownerEpoch : ℕ
  taskGeneration : ℕ
  workerRole : WorkerRole
  actualAgentId : AgentId
  actualJobId : Option JobId
  captureCommit : String
  output : WorkerOutput
  artifacts : List EvidenceArtifactClaim
  resources : List ResourceEvidence
  cleanup : CleanupEvidence
  deriving DecidableEq, Repr

def WorkerEvidenceReceipt.claims (receipt : WorkerEvidenceReceipt) : List CleanupReceiptClaim :=
  cleanupClaimsForEvidence receipt.cleanup

/-- No path or resource is claimed twice. -/
def distinctClaims (receipt : WorkerEvidenceReceipt) : Bool :=
  (receipt.artifacts.map (·.path)).Nodup && (receipt.resources.map (·.resourceId)).Nodup &&
    (receipt.claims.map (·.resourceId)).Nodup && (receipt.claims.map (·.receiptPath)).Nodup

/-- The claims of the second form are of as many resources as there are, and of every one of them. -/
def claimsMatchResources (receipt : WorkerEvidenceReceipt) : Bool :=
  match receipt.cleanup with
  | .receipts claims => receipt.resources.length = claims.length &&
    receipt.resources.all fun resource ↦ claims.any fun claim ↦ claim.resourceId = resource.resourceId
  | _ => true

def receiptKeys : List String :=
  ["schemaVersion", "kind", "runId", "attempt", "runRevision", "ownerEpoch", "taskGeneration", "workerRole",
    "actualAgentId", "actualJobId", "captureCommit", "output", "artifacts", "resources", "cleanup"]

def receiptFieldsSchema : Schema WorkerEvidenceReceipt :=
  strictObject receiptKeys fun fields ↦ do
    let _ ← required fields "schemaVersion" (literal (.nat 1))
    let _ ← required fields "kind" (literal (.string "omp_lazy_worker_evidence"))
    let runId ← required fields "runId" uuid
    let attempt ← required fields "attempt" counter
    let runRevision ← required fields "runRevision" counter
    let ownerEpoch ← required fields "ownerEpoch" counter
    let taskGeneration ← required fields "taskGeneration" positive
    let workerRole ← required fields "workerRole" workerRoleSchema
    let actualAgentId ← required fields "actualAgentId" agentIdSchema
    let actualJobId ← required fields "actualJobId" jobIdSchema.nullable
    let captureCommit ← required fields "captureCommit" commit
    let output ← required fields "output" outputSchema
    let artifacts ← required fields "artifacts" (sized 1 32 evidenceArtifactClaimSchema)
    let resources ← Schema.optional fields "resources" (sized 0 32 resourceEvidenceSchema)
    let cleanup ← required fields "cleanup" cleanupEvidenceSchema
    return {
      runId, attempt, runRevision, ownerEpoch, taskGeneration, workerRole, actualAgentId, actualJobId, captureCommit
      output, artifacts, cleanup
      resources := resources.getD [] }

def workerEvidenceReceiptSchema : Schema WorkerEvidenceReceipt :=
  receiptFieldsSchema.refine fun receipt ↦ distinctClaims receipt && claimsMatchResources receipt

structure CleanupReceipt where
  runId : Uuid
  attempt : ℕ
  actualAgentId : AgentId
  resourceId : String
  captureCommit : String
  deriving DecidableEq, Repr

def cleanupReceiptSchema : Schema CleanupReceipt :=
  strictObject ["schemaVersion", "kind", "runId", "attempt", "actualAgentId", "resourceId", "status",
      "captureCommit"] fun fields ↦ do
    let _ ← required fields "schemaVersion" (literal (.nat 1))
    let _ ← required fields "kind" (literal (.string "omp_lazy_cleanup"))
    let runId ← required fields "runId" uuid
    let attempt ← required fields "attempt" counter
    let actualAgentId ← required fields "actualAgentId" agentIdSchema
    let resourceId ← required fields "resourceId" boundedNonempty
    let _ ← required fields "status" (literal (.string "cleaned"))
    let captureCommit ← required fields "captureCommit" commit
    return ⟨runId, attempt, actualAgentId, resourceId, captureCommit⟩

end OmpLazy.Contracts.Evidence

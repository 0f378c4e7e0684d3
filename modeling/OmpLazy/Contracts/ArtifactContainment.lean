import OmpLazy.Contracts.EvidenceReceipt
import OmpLazy.State.Paths

/-! The evidence of a result: the files that a receipt names, as they lie in the folder of its attempt. -/

namespace OmpLazy.Contracts.Evidence

open OmpLazy.Foundation OmpLazy.Foundation.Schema OmpLazy.State

def maxReceiptBytes : ℕ := 256 * 1024

def maxArtifactBytes : ℕ := 16 * 1024 * 1024

def maxBundleBytes : ℕ := 64 * 1024 * 1024

/-- What is known of a file before it is opened. -/
structure FileStatus where
  isSymbolicLink : Bool
  isFile : Bool
  size : ℕ
  deriving DecidableEq, Repr

/-- An open file, before it is read, read, and after it is read. -/
structure OpenFile (Contents : Type) where
  isFile : Bool
  size : ℕ
  mtime : ℕ
  bytes : Contents
  sizeAfter : ℕ
  mtimeAfter : ℕ

/-- What the file system and the codecs say. The path of a receipt, an artifact or a cleanup receipt is found from the
repository; `none` is an error. -/
structure EvidenceHost (platform : PathPlatform) (Contents : Type) where
  lower : LowerCase
  canonicalRepository : List Char
  resolve : String → AbsolutePath platform
  realpath : AbsolutePath platform → Option (AbsolutePath platform)
  lstat : AbsolutePath platform → Option FileStatus
  openFile : AbsolutePath platform → Option (OpenFile Contents)
  byteLength : Contents → ℕ
  sha256 : Contents → String
  encode : String → Contents
  parse : Contents → Option Json

structure ContainedFile (platform : PathPlatform) (Contents : Type) where
  displayPath : AbsolutePath platform
  relativePath : String
  size : ℕ
  sha256 : String
  bytes : Contents

structure EvidenceBundle (platform : PathPlatform) (Contents : Type) where
  receipt : WorkerEvidenceReceipt
  receiptFile : ContainedFile platform Contents
  artifacts : List (ContainedFile platform Contents)
  cleanupReceipts : List (ContainedFile platform Contents)
  artifactHash : String

def CleanupEvidence.bound : CleanupEvidence → Contracts.CleanupEvidence
  | .legacy _ => .legacy
  | .receipts _ => .receipts
  | .notApplicable scenarioId => .notApplicable scenarioId

/-- What an acceptance looks at in a receipt. -/
def WorkerEvidenceReceipt.bound (receipt : WorkerEvidenceReceipt) : Contracts.WorkerEvidenceReceipt where
  runId := receipt.runId
  attempt := receipt.attempt
  runRevision := receipt.runRevision
  ownerEpoch := receipt.ownerEpoch
  taskGeneration := receipt.taskGeneration
  workerRole := receipt.workerRole
  actualAgentId := receipt.actualAgentId
  actualJobId := receipt.actualJobId
  captureCommit := receipt.captureCommit
  output := receipt.output
  captures := receipt.artifacts.map (·.capture)
  cleanup := receipt.cleanup.bound

/-- What an acceptance looks at in a bundle. -/
def EvidenceBundle.summary {platform : PathPlatform} {Contents : Type} (bundle : EvidenceBundle platform Contents) :
    Contracts.EvidenceBundle where
  receipt := bundle.receipt.bound
  receiptPath := bundle.receiptFile.relativePath
  receiptHash := bundle.receiptFile.sha256
  artifactPaths := bundle.artifacts.map (·.relativePath)
  cleanupReceiptPaths := bundle.cleanupReceipts.map (·.relativePath)
  artifactHash := bundle.artifactHash

namespace EvidenceHost

variable {platform : PathPlatform} {Contents : Type} (host : EvidenceHost platform Contents)

def canonical (path : AbsolutePath platform) : List Char := canonicalComparisonPath host.lower platform path.spelled

/-- `candidateReal.slice(rootReal.length + 1).replaceAll("\\", "/")` -/
def relativeTo (rootReal candidateReal : AbsolutePath platform) : String :=
  String.ofList (PathRules.withSlashes (candidateReal.spelled.drop (rootReal.spelled.length + 1)))

def containedFile (evidenceRoot : AbsolutePath platform) (advertisedPath : String) (maximumBytes : ℕ) :
    Option (ContainedFile platform Contents) :=
  let candidate := host.resolve advertisedPath
  if !isDisplayPathContained host.lower evidenceRoot candidate then none
  else do
    let rootReal ← host.realpath evidenceRoot
    if !isCanonicalPathContained host.lower platform host.canonicalRepository (host.canonical rootReal) then none
    else
      let before ← host.lstat candidate
      if before.isSymbolicLink ∨ !before.isFile ∨ before.size = 0 ∨ maximumBytes < before.size then none
      else
        let candidateReal ← host.realpath candidate
        if !isCanonicalPathContained host.lower platform (host.canonical rootReal) (host.canonical candidateReal) then none
        else
          let opened ← host.openFile candidateReal
          if !opened.isFile ∨ opened.size ≠ before.size ∨ maximumBytes < opened.size then none
          else if host.byteLength opened.bytes ≠ opened.size ∨ opened.sizeAfter ≠ opened.size ∨
              opened.mtimeAfter ≠ opened.mtime then
            none
          else some {
            displayPath := candidateReal
            relativePath := relativeTo rootReal candidateReal
            size := host.byteLength opened.bytes
            sha256 := host.sha256 opened.bytes
            bytes := opened.bytes }

def decodeReceipt (bytes : Contents) : Option WorkerEvidenceReceipt :=
  (host.parse bytes).bind workerEvidenceReceiptSchema

/-- What a cleanup receipt has to say for a claim. -/
def cleans (receipt : WorkerEvidenceReceipt) (resourceId : String) (bytes : Contents) : Bool :=
  match (host.parse bytes).bind cleanupReceiptSchema with
  | none => false
  | some cleanup => cleanup.resourceId = resourceId && cleanup.runId = receipt.runId &&
    cleanup.attempt = receipt.attempt && cleanup.actualAgentId = receipt.actualAgentId &&
      cleanup.captureCommit = receipt.captureCommit

def cleanupFile (evidenceRoot : AbsolutePath platform) (receipt : WorkerEvidenceReceipt) (claim : CleanupReceiptClaim) :
    Option (ContainedFile platform Contents) :=
  (host.containedFile evidenceRoot claim.receiptPath maxReceiptBytes).filter fun file ↦
    host.cleans receipt claim.resourceId file.bytes

/-- The text whose hash stands for the artifacts. -/
def artifactText (artifacts : List (ContainedFile platform Contents)) : String :=
  "\x00".intercalate (artifacts.map fun file ↦ file.relativePath ++ "\x00" ++ file.sha256)

def validateEvidenceBundle (evidenceRoot : AbsolutePath platform) (receiptPath : String) :
    Except String (EvidenceBundle platform Contents) :=
  match host.containedFile evidenceRoot receiptPath maxReceiptBytes with
  | none => .error "invalid_receipt_file"
  | some receiptFile =>
    match host.decodeReceipt receiptFile.bytes with
    | none => .error "malformed_receipt"
    | some receipt =>
      if receipt.cleanup.isNotApplicable ∧ receipt.resources ≠ [] then .error "cleanup_required"
      else
        match receipt.artifacts.mapM fun claim ↦ host.containedFile evidenceRoot claim.path maxArtifactBytes with
        | none => .error "invalid_artifact"
        | some artifacts =>
          match receipt.claims.mapM (host.cleanupFile evidenceRoot receipt) with
          | none => .error "invalid_cleanup_receipt"
          | some cleanupReceipts =>
            let all := receiptFile :: (artifacts ++ cleanupReceipts)
            if ¬ (all.map fun file ↦ host.canonical file.displayPath).Nodup then .error "duplicate_evidence_path"
            else if maxBundleBytes < (all.map (·.size)).sum then .error "evidence_too_large"
            else .ok ⟨receipt, receiptFile, artifacts, cleanupReceipts, host.sha256 (host.encode (artifactText artifacts))⟩

end EvidenceHost

end OmpLazy.Contracts.Evidence

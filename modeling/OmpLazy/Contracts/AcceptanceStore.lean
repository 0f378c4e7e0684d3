import OmpLazy.Contracts.WorkerResultAcceptance
import OmpLazy.Foundation.WriteAhead
import OmpLazy.State.LifecycleReaders

/-! The ledger of acceptances of a run in its two files, a snapshot and a log that is written before it. -/

namespace OmpLazy.Contracts

open OmpLazy.Foundation OmpLazy.Foundation.Schema
open OmpLazy.State (Uuid FormatVersion WalFormat)

/-- An entry of either version; those of the second have a scope. -/
structure RuntimeEntry where
  event : WorkerAcceptanceEvent
  scope : Option SemanticScope
  deriving DecidableEq, Repr

structure RuntimeAcceptanceLedger where
  version : FormatVersion
  runId : Uuid
  ledgerRevision : ℕ
  entries : List RuntimeEntry
  deriving DecidableEq, Repr

/-- The result that a worker returned, without what the ledger adds to it. -/
structure AcceptedResult where
  runId : Uuid
  attempt : ℕ
  runRevision : ℕ
  ownerSessionId : String
  ownerEpoch : ℕ
  taskGeneration : ℕ
  workerRole : WorkerRole
  actualAgentId : AgentId
  actualJobId : Option JobId
  captureCommit : String
  receiptPath : String
  artifactHash : String
  artifactPaths : List String
  cleanupReceiptPaths : List String
  cleanupStatus : Option CleanupStatus
  cleanupScenarioId : Option String
  parentDecision : Option ParentDecision
  scope : SemanticScope
  deriving DecidableEq, Repr

def RuntimeEntry.ofV2 (entry : AcceptanceEntryV2) : RuntimeEntry := ⟨entry.event, some entry.scope⟩

def RuntimeEntry.withSequence (entry : RuntimeEntry) (sequence : ℕ) : RuntimeEntry :=
  { entry with event := { entry.event with sequence } }

def entrySchema : FormatVersion → Schema RuntimeEntry
  | .v1 => fun json ↦ (acceptanceEventSchema json).map (⟨·, none⟩)
  | .v2 => fun json ↦ (acceptanceLedgerEntryV2Schema json).map .ofV2

def walSchema : FormatVersion → Schema RuntimeEntry
  | .v1 => fun json ↦ (acceptanceEventSchema json).map (⟨·, none⟩)
  | .v2 => fun json ↦ (acceptanceEventV2Schema json).map .ofV2

def encodeEntry (entry : RuntimeEntry) : Json :=
  .object (encodeAcceptanceEvent entry.event ++ entry.scope.elim [] encodeScope)

/-- A line of the log names its version, from the second on. -/
def encodeWalEntry (entry : RuntimeEntry) : Json :=
  .object (encodeAcceptanceEvent entry.event ++
    entry.scope.elim [] fun scope ↦ encodeScope scope ++ [("schemaVersion", .nat 2)])

def encodeLedger (ledger : RuntimeAcceptanceLedger) : Json :=
  .object [("schemaVersion", .nat ledger.version.number), ("runId", .string ledger.runId),
    ("ledgerRevision", .nat ledger.ledgerRevision), ("entries", .array (ledger.entries.map encodeEntry))]

def ledgerSchema : FormatVersion → Schema RuntimeAcceptanceLedger
  | .v1 => fun json ↦ (acceptanceLedgerSchema json).map fun ledger ↦
    ⟨.v1, ledger.runId, ledger.ledgerRevision, ledger.entries.map (⟨·, none⟩)⟩
  | .v2 => fun json ↦ (acceptanceLedgerV2Schema json).map fun ledger ↦
    ⟨.v2, ledger.runId, ledger.ledgerRevision, ledger.entries.map .ofV2⟩

/-- `schema.parse(ledger)` -/
def parseLedger (ledger : RuntimeAcceptanceLedger) : Option RuntimeAcceptanceLedger :=
  ledgerSchema ledger.version (encodeLedger ledger)

/-- The two files of a run, the snapshot with the value of its text. -/
structure AcceptanceFiles (Contents : Type) where
  snapshot : Option Json
  wal : Option Contents
  deriving DecidableEq

/-- How far the two writes of a call get, and whether it returns. -/
inductive AcceptProgress where
  | stopped
  | appended
  | replaced
  | returned
  deriving DecidableEq, Repr

inductive AcceptanceStatus where
  | accepted
  | replayed
  | duplicateReceipt
  deriving DecidableEq, Repr

/-- What comes of a call: its answer, unless it throws, the entry that it has put in the log, and the
files that it leaves. -/
structure AcceptEffect (Contents : Type) where
  status : Option AcceptanceStatus
  appended : Option RuntimeEntry
  files : AcceptanceFiles Contents
  deriving DecidableEq

section Store

variable {Contents : Type} (format : WalFormat Contents)

def readWal (wal : Option Contents) : Option (List Json) :=
  wal.elim (some []) (State.readAcceptanceWal format)

/-- What the log is after a line is appended to it, if that is possible. -/
def appendAcceptanceWal (wal : Option Contents) (value : Json) : Option Contents := do
  let entries := (← readWal format wal) ++ [value]
  let bytes := format.unlines (entries.map format.stringify)
  if State.maxWalEntries < entries.length ∨ State.maxWalBytes < format.byteLength bytes then none else some bytes

/-- The ledger of a run of this version. -/
def readAcceptance (version : FormatVersion) (runId : Uuid) (files : AcceptanceFiles Contents) :
    Option RuntimeAcceptanceLedger := do
  let snapshot ← match files.snapshot with
    | some json => (ledgerSchema .v2 json).or (ledgerSchema .v1 json)
    | none => parseLedger ⟨version, runId, 0, []⟩
  let lines ← readWal format files.wal
  let events ← lines.mapM (walSchema snapshot.version)
  let entries ← WriteAhead.merge (·.event.sequence - 1) snapshot.entries events
  parseLedger { snapshot with ledgerRevision := entries.length, entries }

/-- `[runId, attempt, actualAgentId, artifactHash].join("\u0000")` -/
def AcceptedResult.idempotencyKey (result : AcceptedResult) : String :=
  result.runId ++ ("\x00" ++ (toString result.attempt ++ ("\x00" ++ (result.actualAgentId ++
    ("\x00" ++ result.artifactHash)))))

def AcceptedResult.event (result : AcceptedResult) (receiptHash : String) (sequence : ℕ) : WorkerAcceptanceEvent where
  sequence
  idempotencyKey := result.idempotencyKey
  runId := result.runId
  attempt := result.attempt
  runRevision := result.runRevision
  ownerSessionId := result.ownerSessionId
  ownerEpoch := result.ownerEpoch
  taskGeneration := result.taskGeneration
  workerRole := result.workerRole
  actualAgentId := result.actualAgentId
  actualJobId := result.actualJobId
  captureCommit := result.captureCommit
  receiptPath := result.receiptPath
  receiptHash
  artifactHash := result.artifactHash
  artifactPaths := result.artifactPaths
  cleanupReceiptPaths := result.cleanupReceiptPaths
  cleanupStatus := result.cleanupStatus
  cleanupScenarioId := result.cleanupScenarioId
  parentDecision := result.parentDecision

/-- The entry that a result would have, as its schema leaves it. -/
def candidate (version : FormatVersion) (result : AcceptedResult) (receiptHash : String) (sequence : ℕ) :
    Option RuntimeEntry :=
  entrySchema version (encodeEntry ⟨result.event receiptHash sequence,
    match version with
    | .v1 => none
    | .v2 => some result.scope⟩)

/-- What a call writes, how far it gets. -/
def publish (files : AcceptanceFiles Contents) (entry : RuntimeEntry) (updated : RuntimeAcceptanceLedger)
    (wal : Contents) : AcceptProgress → AcceptEffect Contents
  | .stopped => ⟨none, none, files⟩
  | .appended => ⟨none, some entry, { files with wal := some wal }⟩
  | .replaced => ⟨none, some entry, ⟨some (encodeLedger updated), some wal⟩⟩
  | .returned => ⟨some .accepted, some entry, ⟨some (encodeLedger updated), some wal⟩⟩

def accept (version : FormatVersion) (files : AcceptanceFiles Contents) (result : AcceptedResult)
    (receiptHash : String) (progress : AcceptProgress) : AcceptEffect Contents :=
  let threw : AcceptEffect Contents := ⟨none, none, files⟩
  match readAcceptance format version result.runId files with
  | none => threw
  | some ledger =>
    match candidate ledger.version result receiptHash (ledger.ledgerRevision + 1) with
    | none => threw
    | some entry =>
      match ledger.entries.find? (·.event.idempotencyKey = result.idempotencyKey) with
      | some existing =>
        if existing = entry.withSequence existing.event.sequence then ⟨some .replayed, none, files⟩
        else ⟨some .duplicateReceipt, none, files⟩
      | none =>
        match parseLedger { ledger with
            ledgerRevision := ledger.ledgerRevision + 1, entries := ledger.entries ++ [entry] },
          walSchema ledger.version (encodeWalEntry entry) with
        | some updated, some event =>
          match appendAcceptanceWal format files.wal (encodeWalEntry event) with
          | some wal => publish files event updated wal progress
          | none => threw
        | _, _ => threw

def scopedEntries (version : FormatVersion) (runId : Uuid) (files : AcceptanceFiles Contents) :
    Option (List RuntimeEntry) := (readAcceptance format version runId files).map (·.entries)

end Store

end OmpLazy.Contracts

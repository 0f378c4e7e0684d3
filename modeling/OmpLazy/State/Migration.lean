import OmpLazy.Foundation.Action
import OmpLazy.State.MigrationRecords
import Mathlib.Data.List.AList

namespace OmpLazy.State

open OmpLazy.Foundation OmpLazy.Foundation.Schema OmpLazy.Foundation.Text

inductive MigrationPhase where
  | prepared
  | backingUp
  | backedUp
  | staged
  | publishing
  | committed
  deriving DecidableEq, Repr

def MigrationPhase.text : MigrationPhase → String
  | .prepared => "prepared"
  | .backingUp => "backing_up"
  | .backedUp => "backed_up"
  | .staged => "staged"
  | .publishing => "publishing"
  | .committed => "committed"

structure MigrationItem where
  path : String
  sourceHash : String
  targetHash : String
  deriving DecidableEq, Repr

structure MigrationJournal where
  phase : MigrationPhase
  items : List MigrationItem
  published : List String
  deriving DecidableEq, Repr

structure MarkedItem where
  path : String
  hash : String
  deriving DecidableEq, Repr

/-- Files by their paths. -/
abbrev FileTree (Contents : Type) := AList fun _ : String ↦ Contents

/-- What a migration reads and writes: the files of the state root, their copies and their successors,
the journal and the commit marker. -/
structure MigrationRoot (Contents : Type) where
  files : FileTree Contents
  backup : FileTree Contents
  staged : FileTree Contents
  journal : Option Bytes
  marker : Option Bytes

inductive MigrationErrorCode where
  /-- An exception: `migrateLifecycleState` returns it as this code. -/
  | interrupted
  | recoveryRequired
  | unknownSchemaVersion
  deriving DecidableEq, Repr

inductive MigrationStatus where
  | migrated
  | alreadyCurrent
  deriving DecidableEq, Repr

inductive RecoveryStatus where
  | restored
  | finalized
  | notNeeded
  deriving DecidableEq, Repr

/-- What a call meets: whether it gets the lock, and the number of file operations that it completes
before its deadline, an exception or a crash ends it; `none` is a call that nothing ends. -/
structure MigrationCall where
  acquires : Bool
  operations : Option ℕ
  deriving DecidableEq

structure MigrationSession (Contents : Type) where
  root : MigrationRoot Contents
  operations : Option ℕ

/-- The rules of the texts, of the ledgers and of `localeCompare`. -/
structure MigrationRules (Contents : Type) where
  format : TextFormat Contents
  ledgers : LedgerRules Contents
  localeCompare : String → String → Ordering

namespace Migration

/-! The texts of the journal and of the marker. -/

def nonemptyString : Schema String := string.refine fun s ↦ s ≠ ""

/-- `array(schema).min(1)`. -/
def someOf {α : Type} (schema : Schema α) : Schema (List α) :=
  schema.array.refine fun items ↦ !items.isEmpty

def phaseSchema : Schema MigrationPhase :=
  oneOf [.prepared, .backingUp, .backedUp, .staged, .publishing, .committed] MigrationPhase.text

def encodeItem (item : MigrationItem) : Json := .object
  [("path", .string item.path), ("sourceHash", .string item.sourceHash),
    ("targetHash", .string item.targetHash)]

def itemSchema : Schema MigrationItem :=
  strictObject ["path", "sourceHash", "targetHash"] fun fields ↦ do
    let path ← required fields "path" nonemptyString
    let sourceHash ← required fields "sourceHash" hashSchema
    let targetHash ← required fields "targetHash" hashSchema
    return ⟨path, sourceHash, targetHash⟩

def encodeJournal (journal : MigrationJournal) : Json := .object
  [("schemaVersion", .nat 1), ("phase", .string journal.phase.text),
    ("items", .array (journal.items.map encodeItem)),
    ("published", .array (journal.published.map .string))]

def journalSchema : Schema MigrationJournal :=
  strictObject ["schemaVersion", "phase", "items", "published"] fun fields ↦ do
    let () ← required fields "schemaVersion" (literal (.nat 1))
    let phase ← required fields "phase" phaseSchema
    let items ← required fields "items" (someOf itemSchema)
    let published ← required fields "published" nonemptyString.array
    return ⟨phase, items, published⟩

def encodeMarkedItem (item : MarkedItem) : Json := .object
  [("path", .string item.path), ("hash", .string item.hash)]

def markedItemSchema : Schema MarkedItem :=
  strictObject ["path", "hash"] fun fields ↦ do
    let path ← required fields "path" nonemptyString
    let hash ← required fields "hash" hashSchema
    return ⟨path, hash⟩

def encodeMarker (items : List MarkedItem) : Json := .object
  [("schemaVersion", .nat 1), ("complete", .bool true),
    ("items", .array (items.map encodeMarkedItem))]

def commitMarkerSchema : Schema (List MarkedItem) :=
  strictObject ["schemaVersion", "complete", "items"] fun fields ↦ do
    let () ← required fields "schemaVersion" (literal (.nat 1))
    let () ← required fields "complete" (literal (.bool true))
    required fields "items" (someOf markedItemSchema)

inductive JournalRead where
  | absent
  | invalid
  | journal (journal : MigrationJournal)
  deriving DecidableEq

/-- The paths of the items differ, and what is published is among them. -/
def MigrationJournal.closed (journal : MigrationJournal) : Bool :=
  (journal.items.map (·.path)).Nodup &&
    journal.published.all fun path ↦ path ∈ journal.items.map (·.path)

section Reading

variable {Contents : Type} (rules : MigrationRules Contents) (root : MigrationRoot Contents)

def readJournal : JournalRead :=
  match root.journal with
  | none => .absent
  | some bytes =>
    match bytes.bind journalSchema with
    | none => .invalid
    | some journal => if MigrationJournal.closed journal then .journal journal else .invalid

def verified (tree : FileTree Contents) (path expected : String) : Bool :=
  match tree.lookup path with
  | none => false
  | some bytes => rules.format.hash bytes = expected

/-- `marked.get(path)`: of two items with one path the last counts. -/
def marked (items : List MarkedItem) (path : String) : Option String :=
  (items.reverse.find? (·.path = path)).map (·.hash)

/-- The marker is there, has as many items as the journal, and those with their target hashes. -/
def markerComplete (journal : MigrationJournal) : Bool :=
  match (root.marker.bind id).bind commitMarkerSchema with
  | none => false
  | some items => items.length = journal.items.length &&
      journal.items.all fun item ↦ marked items item.path = some item.targetHash

def targetsVerified (journal : MigrationJournal) : Bool :=
  journal.items.all fun item ↦ verified rules root.files item.path item.targetHash

def backupsVerified (journal : MigrationJournal) : Bool :=
  journal.items.all fun item ↦ verified rules root.backup item.path item.sourceHash

def lifecycleMigrationRequiresRecovery : Bool :=
  match readJournal root with
  | .absent => false
  | .invalid => true
  | .journal journal => journal.phase ≠ .committed

end Reading

def rank (path : String) : ℕ :=
  if path = "active.json" then 5
  else if startsWith "teams/" path then 3
  else if startsWith "runs/" path || startsWith "events/" path then 2
  else 1

section Ordering

variable {Contents ι : Type} (rules : MigrationRules Contents) (path : ι → String)

def before (left right : ι) : Prop :=
  rank (path left) < rank (path right) ∨
    rank (path left) = rank (path right) ∧ rules.localeCompare (path left) (path right) ≠ .gt

instance : DecidableRel (before rules path) := fun _ _ ↦ inferInstanceAs (Decidable (_ ∨ _))

def ordered (items : List ι) : List ι := items.insertionSort (before rules path)

end Ordering

variable {Contents : Type} (rules : MigrationRules Contents)

abbrev Program (Contents : Type) := Action MigrationErrorCode (MigrationSession Contents)

/-- A place where a call can end. -/
def boundary : Program Contents Unit := do
  match (← get).operations with
  | none => pure ()
  | some 0 => throw .interrupted
  | some (n + 1) => modify fun session ↦ { session with operations := some n }

/-- A check; where it fails, the call returns. -/
def require (check : Bool) (error : MigrationErrorCode) : Program Contents Unit :=
  if check then pure () else throw error

def operation (write : MigrationRoot Contents → MigrationRoot Contents) : Program Contents Unit := do
  boundary
  modify fun session ↦ { session with root := write session.root }

def writeJournal (journal : MigrationJournal) : Program Contents Unit :=
  operation fun root ↦ { root with journal := some (stringify (encodeJournal journal)) }

def removeJournal : Program Contents Unit := operation fun root ↦ { root with journal := none }

def restoreItem (item : MigrationItem) : Program Contents Unit := do
  match (← get).root.backup.lookup item.path with
  | none => throw .interrupted
  | some bytes => operation fun root ↦ { root with files := root.files.insert item.path bytes }

def restore (journal : MigrationJournal) : Program Contents RecoveryStatus := do
  require (backupsVerified rules (← get).root journal) .recoveryRequired
  (ordered rules MigrationItem.path journal.items).forM restoreItem
  removeJournal
  return .restored

def discardUnpublishedJournal : Program Contents RecoveryStatus := do
  removeJournal
  return .restored

def finalize (journal : MigrationJournal) : Program Contents RecoveryStatus := do
  let session ← get
  if markerComplete session.root journal && targetsVerified rules session.root journal then
    writeJournal { journal with phase := .committed }
    return .finalized
  else restore rules journal

def recoverLifecycleMigration (acquires : Bool) : Program Contents RecoveryStatus := do
  require acquires .recoveryRequired
  match readJournal (← get).root with
  | .absent => return .notNeeded
  | .invalid => throw .recoveryRequired
  | .journal journal =>
    if journal.phase = .prepared ∨ journal.phase = .backingUp then discardUnpublishedJournal
    else finalize rules journal

structure Target (Contents : Type) where
  path : String
  source : Contents
  bytes : Contents

def Target.item (target : Target Contents) : MigrationItem :=
  ⟨target.path, rules.format.hash target.source, rules.format.hash target.bytes⟩

/-- What `migrateLifecycleState` finds in the files: the code or status with which it returns, or the
files that it converts. -/
def convert (files : List (String × Contents)) :
    Except (Except MigrationErrorCode MigrationStatus) (List (Target Contents)) :=
  if files = [] ∨ ∃ file ∈ files, !isLifecyclePath file.1 then .error (.error .recoveryRequired)
  else if files.any fun file ↦ isFutureLifecycleRecord rules.format file.2 then
    .error (.error .unknownSchemaVersion)
  else
    match identitiesFromTaskFacts rules.format rules.ledgers files with
    | none => .error (.error .recoveryRequired)
    | some identities =>
      let converted := files.map fun (path, bytes) ↦
        (path, bytes, migrateLifecycleRecord rules.format rules.ledgers path bytes identities)
      let isInvalid := fun
        | (_, _, .invalid) => true
        | (_, _, _) => false
      let isCurrent := fun
        | (_, _, .current _) => true
        | (_, _, _) => false
      if converted.any isInvalid then .error (.error .recoveryRequired)
      else if converted.all isCurrent then .error (.ok .alreadyCurrent)
      else if converted.any isCurrent then .error (.error .recoveryRequired)
      else
        let targets := converted.filterMap fun
          | (path, source, .migrated bytes) => some ⟨path, source, bytes⟩
          | (_, _, _) => none
        if targets.length ≠ converted.length then .error (.error .recoveryRequired) else .ok targets

def copyFile (path : String) : Program Contents Unit := do
  match (← get).root.files.lookup path with
  | none => throw .interrupted
  | some bytes => operation fun root ↦ { root with backup := root.backup.insert path bytes }

def backUp (item : MigrationItem) : Program Contents Unit := do
  copyFile item.path
  require (verified rules (← get).root.backup item.path item.sourceHash) .recoveryRequired

def stage (target : Target Contents) : Program Contents Unit := do
  operation fun root ↦ { root with staged := root.staged.insert target.path target.bytes }
  require (verified rules (← get).root.staged target.path (rules.format.hash target.bytes))
    .recoveryRequired

def publishFile (path : String) : Program Contents Unit := do
  match (← get).root.staged.lookup path with
  | none => throw .interrupted
  | some bytes => operation fun root ↦ { root with files := root.files.insert path bytes }

def publishTargets (journal : MigrationJournal) :
    List (Target Contents) → List String → Program Contents (List String)
  | [], published => return published
  | target :: targets, published => do
    require (verified rules (← get).root.staged target.path (rules.format.hash target.bytes))
      .recoveryRequired
    publishFile target.path
    writeJournal { journal with phase := .publishing, published := published ++ [target.path] }
    publishTargets journal targets (published ++ [target.path])

def migrateTargets (targets : List (Target Contents)) : Program Contents MigrationStatus := do
  match journalSchema (encodeJournal ⟨.prepared, targets.map (Target.item rules), []⟩) with
  | none => throw .interrupted
  | some journal =>
    writeJournal journal
    writeJournal { journal with phase := .backingUp }
    journal.items.forM (backUp rules)
    writeJournal { journal with phase := .backedUp }
    targets.forM (stage rules)
    writeJournal { journal with phase := .staged }
    writeJournal { journal with phase := .publishing }
    let published ← publishTargets rules journal (ordered rules Target.path targets) []
    let marker := journal.items.map fun item ↦ ⟨item.path, item.targetHash⟩
    operation fun root ↦ { root with marker := some (stringify (encodeMarker marker)) }
    writeJournal { journal with phase := .committed, published := published }
    boundary
    return .migrated

def migrateLifecycleState (acquires : Bool) : Program Contents MigrationStatus := do
  require acquires .recoveryRequired
  let session ← get
  match readJournal session.root with
  | .invalid => throw .recoveryRequired
  | .journal prior =>
    require (prior.phase = .committed) .recoveryRequired
    let _ ← finalize rules prior
    return .alreadyCurrent
  | .absent =>
    match convert rules (session.root.files.entries.map fun file ↦ (file.1, file.2)) with
    | .error (.error code) => throw code
    | .error (.ok status) => return status
    | .ok targets => migrateTargets rules targets

end Migration

end OmpLazy.State

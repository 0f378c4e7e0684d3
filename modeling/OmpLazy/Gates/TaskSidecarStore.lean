import OmpLazy.Gates.TaskLedgerText
import OmpLazy.Gates.TaskLedgerView

namespace OmpLazy.Gates

open OmpLazy.Foundation
open OmpLazy.State (Uuid AnyRun ActiveIndex ActiveIndexEntry runSchema encodeRun)
open OmpLazy.State.ReceiptAuthority (findLast)

/-- A fact as it was built, with its members in the order in which they were set. -/
structure BuiltFact where
  fact : TaskFact
  json : Json
  deriving DecidableEq, Repr

/-- A fact that is built with its members in the order of its schema. -/
def TaskFact.built (fact : TaskFact) : BuiltFact := ⟨fact, encodeFact fact⟩

/-- What a transaction reads: the index, the runs as the store's reader returns them, and the files of
task facts. A run that cannot be read throws. -/
structure TaskStore where
  index : ActiveIndex
  readRun : Uuid → Option (Option AnyRun)
  ledgers : Uuid → Option Json
  decoded : ∀ runId run, readRun runId = some (some run) → runSchema (encodeRun run) = some run

inductive TaskScopeResult where
  | scope (value : TaskRunScope)
  | none
  | conflict
  deriving DecidableEq, Repr

inductive TaskLedgerDecision (α : Type) where
  | returned (value : α)
  | append (facts : List BuiltFact) (value : α)
  deriving DecidableEq, Repr

inductive TaskLedgerTransaction (α : Type) where
  | scope (value : α) (changed : Bool)
  | none
  | conflict
  deriving DecidableEq, Repr

def emptyLedger (run : AnyRun) : PersistedTaskLedger :=
  match run.version with
  | .v1 => ⟨.v1, run.runId, 0, []⟩
  | .v2 .. => ⟨.v2 none none none, run.runId, 0, []⟩

def readLedger (run : AnyRun) : Option Json → Option PersistedTaskLedger
  | none =>
    let ledger := emptyLedger run
    persistedSchema ledger.version (ledgerJson ledger [])
  | some json => readTaskLedger json

/-- The entry of the index is of the run as it stands. -/
def entryMatches (entry : ActiveIndexEntry) (run : AnyRun) : Bool :=
  run.revision = entry.runRevision && run.transactionRevision = entry.transactionRevision &&
    run.workflow = entry.workflow && run.owner.sessionId = entry.sessionId &&
    run.owner.epoch = entry.ownerEpoch

namespace TaskStore

/-- The run of a session and its ledger; nothing when a reader throws. -/
def resolve (store : TaskStore) (sessionId : String) : Option TaskScopeResult :=
  match store.index.entries.filter (·.sessionId = sessionId) with
  | [] => some .none
  | [entry] => do
    match ← store.readRun entry.runId with
    | none => some .conflict
    | some run =>
      if entryMatches entry run then do
        let ledger ← readLedger run (store.ledgers run.runId)
        some (.scope ⟨run, ledger⟩)
      else some .conflict
  | _ => some .conflict

end TaskStore

namespace TaskRunScope

/-- The fact that the owner of the run has under a key. -/
def factByKey (scope : TaskRunScope) (key : String) : Option TaskFact :=
  findLast (taskFactKey · = key) scope.taskFacts

/-- One more fact: it may not be in the ledger differently, nor come twice. -/
def addNovel (scope : TaskRunScope) (novel : List BuiltFact) (fact : BuiltFact) : Option (List BuiltFact) :=
  match scope.factByKey (taskFactKey fact.fact) with
  | some existing => if encodeFact existing = fact.json then some novel else none
  | none =>
    if novel.any fun candidate ↦ taskFactKey candidate.fact = taskFactKey fact.fact then none
    else some (novel ++ [fact])

/-- The facts that are new to the ledger. -/
def novel (scope : TaskRunScope) (facts : List BuiltFact) : Option (List BuiltFact) :=
  facts.foldlM scope.addNovel []

def appendedJson (scope : TaskRunScope) (index : ℕ) (fact : BuiltFact) : Json :=
  encodeEntry ⟨scope.ledger.ledgerRevision + index + 1, scope.run.owner.sessionId, scope.run.owner.epoch,
    fact.fact⟩ fact.json

/-- The ledger with new facts, as its schema leaves it; nothing when the schema refuses it. -/
def appended (scope : TaskRunScope) (facts : List BuiltFact) : Option PersistedTaskLedger :=
  persistedSchema scope.ledger.version (ledgerJson scope.ledger
    (scope.ledger.entries.map (fun entry ↦ encodeEntry entry (encodeFact entry.fact)) ++
      facts.mapIdx scope.appendedJson))

end TaskRunScope

namespace TaskStore

variable {α : Type}

/-- What a transaction makes of a decision, and the file that it leaves; nothing when it throws. -/
def settle (store : TaskStore) (scope : TaskRunScope) :
    TaskLedgerDecision α → Option (TaskLedgerTransaction α × (Uuid → Option Json))
  | .returned value => some (.scope value false, store.ledgers)
  | .append facts value =>
    match scope.novel facts with
    | none => some (.conflict, store.ledgers)
    | some [] => some (.scope value false, store.ledgers)
    | some novel => do
      let ledger ← scope.appended novel
      some (.scope value true,
        Function.update store.ledgers scope.run.runId (some (encodeTaskLedger ledger)))

/-- A transaction on the ledger of a session's run, under the lock if it is `acquired`. -/
def transact (store : TaskStore) (acquired : Bool) (sessionId : String)
    (decide : TaskRunScope → TaskLedgerDecision α) :
    Option (TaskLedgerTransaction α × (Uuid → Option Json)) :=
  if !acquired then some (.conflict, store.ledgers)
  else do
    match ← store.resolve sessionId with
    | .none => some (.none, store.ledgers)
    | .conflict => some (.conflict, store.ledgers)
    | .scope scope => store.settle scope (decide scope)

end TaskStore

end OmpLazy.Gates

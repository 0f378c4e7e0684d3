import OmpLazy.Continuation.ContinuationCoordinator
import OmpLazy.State.TransactionStore

namespace OmpLazy.Continuation

open OmpLazy.Foundation OmpLazy.State OmpLazy.Workflows Store

/-- What a decision that is not quiet wants to be committed; the generation is bound when it settles. -/
structure Proposal where
  run : AnyRun
  mutation : StateMutation
  taskGeneration : Option ℕ
  deriving DecidableEq, Repr

def ContinuationDecision.proposal : ContinuationDecision → Option Proposal
  | .quiet => none
  | .continued run _ mutation => some ⟨run, mutation, none⟩
  | .stuck run mutation => some ⟨run, mutation, none⟩
  | .settled run mutation taskGeneration => some ⟨run, mutation, some taskGeneration⟩

namespace Proposal

variable (proposal : Proposal)

def version : EventVersion :=
  match proposal.run.version with
  | .v1 => .v1
  | .v2 _ expectedHead =>
    .v2 (if proposal.taskGeneration.isSome then expectedHead else none) proposal.taskGeneration false

/-- The event of the coordinator. -/
def event (index : ActiveIndex) (eventId : Uuid) (atTime : String) : PersistedStateEvent where
  version := proposal.version
  eventId := eventId
  sequence := index.revision + 1
  runId := proposal.run.runId
  workflow := proposal.run.workflow
  kind := proposal.mutation.kind
  expected :=
    { indexRevision := index.revision
      runRevision := some proposal.run.revision
      ownerSessionId := some proposal.run.owner.sessionId
      ownerEpoch := some proposal.run.owner.epoch }
  mutation := proposal.mutation
  atTime := atTime

end Proposal

/-- The event as the object literal of the coordinator, whose members stand in another order than the
schema's. -/
def coordinatorObject (event : PersistedStateEvent) : EventObject where
  value := event
  object := .object
    (("eventId", .string event.eventId) ::
      ("sequence", .nat event.sequence) ::
      ("runId", .string event.runId) ::
      ("workflow", .string event.workflow.text) ::
      ("kind", .string event.kind.text) ::
      ("mutation", encodeMutation event.mutation) ::
      ("at", .string event.atTime) ::
      ("schemaVersion", .nat event.version.number) ::
      ("expected", encodeExpected event.version event.expected) ::
      encodeLegacyHeadUnbound event.version)

structure CoordinatorRequest where
  leafId : String
  sessionId : String

inductive CoordinatorResult where
  | quiet
  | continued (additionalContext : String)
  deriving DecidableEq, Repr

/-- What the coordinator is built with: the plan at a path as `parseStartWorkPlan` reads it, a fresh id,
the time, and what its call of `commit` meets. -/
structure CoordinatorDependencies where
  readPlan : String → Option PlanSnapshot
  eventId : Uuid
  nowIso : String
  commit : CommitOptions

def liftExcept {α : Type} : Except Thrown α → Store α
  | .ok value => pure value
  | .error error => throw error

/-- The runs that the entries of a session name. -/
def loadRuns (root : StateRoot) (disk : Disk) (index : ActiveIndex) (sessionId : String) :
    Except Thrown (List AnyRun) := do
  let loaded ← (index.entries.filter (·.sessionId = sessionId)).mapM (readRun root disk ·.runId)
  return loaded.reduceOption

def loadAuthorities (disk : Disk) (runs : List AnyRun) : Except Thrown (List RunAuthority) :=
  runs.mapM fun run ↦ do
    let authority ← disk.receipts run
    return ⟨run.runId, authority⟩

/-- After each plan that is read the fence is checked; none when it has expired. -/
def observePlans (readPlan : String → Option PlanSnapshot) :
    List AnyRun → Store (Option (List PlanObservation))
  | [] => return some []
  | run :: runs =>
    match run.payload with
    | .ulwLoop _ => observePlans readPlan runs
    | .startWork payload => do
      if !(← isValid) then return none
      let rest ← observePlans readPlan runs
      let observed := (readPlan payload.plan.displayPath).map (⟨run.runId, ·⟩)
      return rest.map (observed.toList ++ ·)

/-- What `handle` asks of the committed state before it continues the session. -/
def confirms (request : CoordinatorRequest) (event : PersistedStateEvent) (continues : Bool)
    (committed : Committed) : Bool :=
  let entry := committed.index.entries.find? (·.runId = event.runId)
  committed.index.revision = event.sequence &&
    committed.run.transactionRevision = event.sequence &&
    committed.run.owner.sessionId = request.sessionId &&
    some committed.run.owner.epoch = event.expected.ownerEpoch &&
    (!continues || entry.map (·.transactionRevision) = some event.sequence)

def ContinuationDecision.result : ContinuationDecision → CoordinatorResult
  | .continued _ additionalContext _ => .continued additionalContext
  | _ => .quiet

def ContinuationDecision.continues : ContinuationDecision → Bool
  | .continued .. => true
  | _ => false

section Handling

variable (root : StateRoot) (dependencies : CoordinatorDependencies) (request : CoordinatorRequest)

/-- The part of `handle` that commits: the decision whose event is committed and confirmed. -/
def commitDecision (index : ActiveIndex) (decision : ContinuationDecision) :
    Store ContinuationDecision := do
  match decision.proposal with
  | none => return .quiet
  | some proposal =>
    if !(← isValid) then return .quiet
    let event := proposal.event index dependencies.eventId dependencies.nowIso
    if !(← isValid) then return .quiet
    match ← commit root dependencies.commit (coordinatorObject event) with
    | .error _ => return .quiet
    | .ok committed =>
      if !(← isValid) then return .quiet
      if confirms request event decision.continues committed then return decision
      else return .quiet

/-- The part of `handle` that reads; none when the fence has expired. -/
def readSnapshot : Store (Option ContinuationSnapshot) := do
  if !(← isValid) then return none
  if !(← isValid) then return none
  let index ← liftExcept (readIndex (← get).disk)
  if !(← isValid) then return none
  let runs ← liftExcept (loadRuns root (← get).disk index request.sessionId)
  if !(← isValid) then return none
  let authorities ← liftExcept (loadAuthorities (← get).disk runs)
  if !(← isValid) then return none
  match ← observePlans dependencies.readPlan runs with
  | none => return none
  | some plans => return some ⟨index, runs, plans, authorities⟩

/-- The decision behind the result of `handle`. -/
def coordinate : Store ContinuationDecision := do
  match ← readSnapshot root dependencies request with
  | none => return .quiet
  | some snapshot =>
    commitDecision root dependencies request snapshot.index
      (decideContinuation request.sessionId request.leafId snapshot)

def handle : Store CoordinatorResult := do
  let decision ← coordinate root dependencies request
  return decision.result

end Handling

end OmpLazy.Continuation

import OmpLazy.Commands.CommandInputs
import OmpLazy.Commands.UlwCheckpoint

/-! The commands that act on a run: each refuses, shows a run, or commits one event. -/

namespace OmpLazy.Commands

open OmpLazy.Foundation OmpLazy.State OmpLazy.Workflows

/-- The operations of `start_work` and `ulw_loop`, as they are parsed. -/
inductive Operation where
  | start
  | pause
  | resume
  | cancel
  | adopt
  | reconcile
  | status
  | repair
  | repairLock
  | create
  | checkpoint
  | steer
  deriving DecidableEq, Repr

inductive Outcome where
  | shown (run : AnyRun)
  | commits (event : PersistedStateEvent)
  deriving DecidableEq

/-- The first 32 digits of a hash, as a version 4 UUID. -/
def uuidOf (hash : List Char) : Uuid :=
  String.ofList (hash.take 8 ++ '-' :: ((hash.drop 8).take 4 ++ '-' :: '4' :: ((hash.drop 13).take 3 ++
    '-' :: '8' :: ((hash.drop 17).take 3 ++ '-' :: (hash.drop 20).take 12))))

def deterministicEventId (sha256 : String → String) (key : String) : Uuid := uuidOf (sha256 key).toList

def controlErrorText : ControlError → String
  | .ownerMismatch => "owner_mismatch"
  | .epochMismatch => "epoch_mismatch"
  | .terminal => "terminal"
  | .invalidTransition => "invalid_transition"

def createEvent (eventId : Uuid) (indexRevision : ℕ) (run : AnyRun) : PersistedStateEvent where
  version := .v2 none none false
  eventId := eventId
  sequence := indexRevision + 1
  runId := run.runId
  workflow := run.workflow
  kind := .runCreated
  expected := ⟨indexRevision, none, none, none⟩
  mutation := .runCreated run
  atTime := run.createdAt

/-- The run of a workflow as a command creates it. -/
def createdRun (runId : Uuid) (head : String) (index : ActiveIndex) (sessionId atTime : String) (payload : Payload) :
    AnyRun where
  version := .v2 none (some head)
  runId := runId
  revision := 1
  transactionRevision := index.revision + 1
  owner := ⟨sessionId, 1⟩
  progressRevision := 1
  continuation := ⟨none, 1, 0, false⟩
  createdAt := atTime
  updatedAt := atTime
  payload := payload

def firstGoals : List Goal :=
  [⟨"goal-1", .inProgress, 0, [⟨"criterion-1", none, none, none, .pending, none, 0, none, none, none⟩]⟩]

def createdLoop (objective : String) : UlwLoopPayload where
  objective := some objective
  annotationText := none
  status := .active
  activeGoalId := some "goal-1"
  goals := firstGoals

/-- What a command reads besides: the working tree, the root as the state has it, new ids, and the index as it is read
again before an event is made. -/
structure WorkflowContext (platform : PathPlatform) extends CommandContext where
  tree : WorkingTree platform
  texts : Platform
  canonicalRoot : CanonicalRoot
  createdRunId : Uuid
  planId : Uuid
  lastIndex : ActiveIndex
  planIsApproved : String → Bool

namespace WorkflowContext

variable {platform : PathPlatform} (context : WorkflowContext platform)

def target : Option String := context.words[0]?

def control (workflow : WorkflowKind) (operation : Operation) : Except String Outcome :=
  let adoption := operation = .adopt
  match context.lookupRun workflow context.target adoption with
  | .error code => .error code
  | .ok run =>
    let controlKind : Control :=
      match operation with
      | .pause => .pause
      | .cancel => .cancel
      | _ => .resume
    let kind : ControlKind :=
      if adoption then .adopt
      else
        match controlKind with
        | .pause => .pause
        | .cancel => .cancel
        | .resume => .resume
    match reduceWorkflowControl run ⟨kind, context.sessionId, run.owner.epoch⟩ with
    | .error code => .error (controlErrorText code)
    | .ok _ =>
      let mutation := if adoption then .ownerAdopted context.sessionId else .workflowControlled controlKind
      .ok (.commits (context.mutationEvent run mutation none none none))

def showStatus (workflow : WorkflowKind) : Except String Outcome :=
  (context.lookupRun workflow context.target false).map .shown

def creation (head : String) (payload : Payload) : PersistedStateEvent :=
  createEvent context.newRunId context.lastIndex.revision
    (createdRun context.createdRunId head context.lastIndex context.sessionId context.nowIso payload)

/-- What is left of a command that creates a run, when the session may have one already. -/
def createUnless (workflow : WorkflowKind) (same : AnyRun → Bool) (payload : Payload) : Except String Outcome :=
  match context.lookupRun workflow none false with
  | .ok run =>
    if run.workflow = workflow then if same run then .ok (.shown run) else .error "idempotency_conflict"
    else context.git.map fun head ↦ .commits (context.creation head payload)
  | .error code =>
    if code ≠ "missing_target" then .error code
    else context.git.map fun head ↦ .commits (context.creation head payload)

def createUlwRun : Except String Outcome :=
  let objective := context.texts.nfc (" ".intercalate context.words)
  let same (run : AnyRun) : Bool :=
    match run.payload with
    | .ulwLoop payload => payload.objective = some objective
    | .startWork _ => false
  context.createUnless .ulwLoop same (.ulwLoop (createdLoop objective))

/-- The event that a steering file of the run asks for. -/
def steering (run : AnyRun) (input : SteeringInput) : Except String Outcome :=
  if input.runId ≠ run.runId then .error "task_scope_mismatch"
  else
    let eventId := context.deterministicEventId
      (run.runId ++ "\x00" ++ "workflow_steered" ++ "\x00" ++ input.idempotencyKey)
    if input.expectedRevision ≠ run.revision ∧ (context.readEvent eventId).isNone then .error "stale_revision"
    else
      match context.git with
      | .error code => .error code
      | .ok head =>
        if input.expectedHead ≠ head then .error "stale_head"
        else .ok (.commits (context.mutationEvent run (.workflowSteered input.addCriteria input.annotationText)
          (some head) (some run.progressRevision) (some input.idempotencyKey)))

def steerUlwRun : Except String Outcome :=
  match context.lookupRun .ulwLoop context.target false with
  | .error code => .error code
  | .ok run =>
    if run.workflow ≠ .ulwLoop then .error "missing_target"
    else
      match context.tree.readSteeringInput (context.words[1]?.getD "") with
      | .error code => .error code
      | .ok input => context.steering run input

def reconciliation (run : AnyRun) (plan : Plan) (normalized : NormalizedPlan) : Except String Outcome :=
  if plan.taskFingerprint ≠ normalized.fingerprint ∨
      plan.taskIds.zipIdx.any fun entry ↦ some entry.1 ≠ normalized.taskIds[entry.2]? then
    .error "plan_identity_mismatch"
  else context.git.map fun head ↦ .commits (context.mutationEvent run
    (.planReconciled normalized.taskIds (some normalized.remainingTaskIds) normalized.fingerprint) (some head)
    (some run.progressRevision) none)

def reconcileStartWork : Except String Outcome :=
  match context.lookupRun .startWork context.target false with
  | .error code => .error code
  | .ok run =>
    match run.payload with
    | .ulwLoop _ => .error "missing_target"
    | .startWork payload =>
      match context.tree.readContainedPlan context.texts (context.words[1]?.getD "") with
      | .error code => .error code
      | .ok plan => context.reconciliation run payload.plan plan.normalized

def createStartWork : Except String Outcome :=
  match context.tree.readContainedPlan context.texts (context.target.getD "") with
  | .error code => .error code
  | .ok plan =>
    if !context.planIsApproved plan.hash then .error "approval_required"
    else
      let same (run : AnyRun) : Bool :=
        match run.payload with
        | .startWork payload => payload.plan.canonicalPath = plan.canonicalPath &&
          payload.plan.taskFingerprint = plan.normalized.fingerprint
        | .ulwLoop _ => false
      context.createUnless .startWork same (.startWork {
        status := .active
        plan := {
          planId := context.planId
          canonicalPath := plan.canonicalPath
          displayPath := plan.displayPath
          allowedRoot := context.canonicalRoot.canonicalPath
          allowedRootDisplay := context.canonicalRoot.displayPath
          taskFingerprint := plan.normalized.fingerprint
          taskIds := plan.normalized.taskIds } })

def executeUlwCommand : Operation → Except String Outcome
  | .pause => context.control .ulwLoop .pause
  | .resume => context.control .ulwLoop .resume
  | .cancel => context.control .ulwLoop .cancel
  | .adopt => context.control .ulwLoop .adopt
  | .status => context.showStatus .ulwLoop
  | .create => context.createUlwRun
  | .steer => context.steerUlwRun
  | _ => context.checkpointUlwRun.map fun checkpoint ↦ .commits (context.checkpointEvent checkpoint)

/-- Whatever is neither a control, a status nor a reconciliation starts work. -/
def executeStartWorkCommand : Operation → Except String Outcome
  | .pause => context.control .startWork .pause
  | .resume => context.control .startWork .resume
  | .cancel => context.control .startWork .cancel
  | .adopt => context.control .startWork .adopt
  | .status => context.showStatus .startWork
  | .reconcile => context.reconcileStartWork
  | _ => context.createStartWork

def execute : WorkflowKind → Operation → Except String Outcome
  | .ulwLoop => context.executeUlwCommand
  | .startWork => context.executeStartWorkCommand

end WorkflowContext

end OmpLazy.Commands

import OmpLazy.State.Domain

namespace OmpLazy.State

/-- The members of an accepted worker event that the transitions and the commands read. -/
structure ScopedWorkerAcceptanceEvent where
  idempotencyKey : String
  attempt : ℕ
  runRevision : ℕ
  ownerSessionId : String
  ownerEpoch : ℕ
  taskGeneration : ℕ
  captureCommit : String
  receiptPath : String
  taskId : Option String
  deriving DecidableEq, Repr

inductive RejectionStatus where
  | retryAllowed
  | needsParentDecision
  deriving DecidableEq, Repr

structure RejectionEntry where
  ownerEpoch : ℕ
  taskGeneration : ℕ
  count : ℕ
  status : RejectionStatus
  taskId : String
  deriving DecidableEq, Repr

structure ReceiptAuthority where
  taskGeneration : ℕ
  accepted : List ScopedWorkerAcceptanceEvent
  rejected : List RejectionEntry
  deriving DecidableEq, Repr

namespace ReceiptAuthority

def empty : ReceiptAuthority := ⟨0, [], []⟩

/-- `values.findLast(test)`. -/
def findLast {α : Type} (test : α → Bool) (values : List α) : Option α := values.reverse.find? test

def matchesRun (run : AnyRun) (entry : ScopedWorkerAcceptanceEvent) : Bool :=
  match run.version with
  | .v2 _ (some expectedHead) =>
    entry.taskId.isSome && entry.ownerSessionId = run.owner.sessionId &&
      entry.ownerEpoch = run.owner.epoch && entry.captureCommit = expectedHead
  | _ => false

def currentAcceptance (run : AnyRun) (authority : ReceiptAuthority) (taskId : String) :
    Option ScopedWorkerAcceptanceEvent :=
  if authority.taskGeneration = 0 then none
  else findLast (fun entry ↦ matchesRun run entry && entry.taskId = some taskId &&
    entry.taskGeneration = authority.taskGeneration && entry.attempt = run.progressRevision)
    authority.accepted

/-- The last acceptance of a task, whatever its generation. -/
def selected (run : AnyRun) (authority : ReceiptAuthority) (taskId : String) :
    Option ScopedWorkerAcceptanceEvent :=
  findLast (fun entry ↦ matchesRun run entry && entry.taskId = some taskId) authority.accepted

def startCompletionAcceptanceIds (run : AnyRun) (plan : Plan) (authority : ReceiptAuthority) :
    Option (List String) :=
  match plan.taskIds.getLast? with
  | none => none
  | some finalTaskId =>
    if currentAcceptance run authority finalTaskId = none then none
    else (plan.taskIds.mapM (selected run authority)).map (·.map (·.idempotencyKey))

def exhaustedTaskId (run : AnyRun) (authority : ReceiptAuthority) : Option String :=
  if authority.taskGeneration = 0 then none
  else (findLast (fun entry ↦ entry.ownerEpoch = run.owner.epoch &&
    entry.taskGeneration = authority.taskGeneration && entry.count = 3 &&
    entry.status = .needsParentDecision && currentAcceptance run authority entry.taskId = none)
    authority.rejected).map (·.taskId)

end ReceiptAuthority

end OmpLazy.State

import OmpLazy.Commands.TeamReservationStore
import OmpLazy.Foundation.PlatformPaths
import OmpLazy.State.ReceiptAuthority

/-! The checkpoint of a loop: a person names a criterion and the receipt that its acceptance recorded. -/

namespace OmpLazy.Commands

open OmpLazy.Foundation OmpLazy.State

/-- What a command reads: its words, the root of the repository, the state, and the repository's head. -/
structure CommandContext where
  sessionId : String
  words : List String
  rules : PathRules
  root : List (List Char)
  index : ActiveIndex
  readRun : Uuid → Option AnyRun
  readEvent : Uuid → Option PersistedStateEvent
  scopedEntries : Uuid → List ScopedWorkerAcceptanceEvent
  git : GitEvidenceBinding
  deterministicEventId : String → Uuid
  newRunId : Uuid
  nowIso : String

namespace CommandContext

variable (context : CommandContext)

def lookupRun (workflow : WorkflowKind) (targetRunId : Option Uuid) (adoption : Bool) : Except String AnyRun :=
  match targetRunId with
  | some targetRunId =>
    match context.readRun targetRunId with
    | none => .error "missing_target"
    | some run =>
      if run.workflow ≠ workflow then .error "missing_target"
      else if !adoption ∧ run.owner.sessionId ≠ context.sessionId then .error "owner_mismatch"
      else .ok run
  | none =>
    match context.index.entries.filter fun entry ↦ entry.workflow = workflow && entry.sessionId = context.sessionId with
    | [] => .error "missing_target"
    | [entry] =>
      match context.readRun entry.runId with
      | none => .error "missing_target"
      | some run => .ok run
    | _ => .error "ambiguous_target"

def mutationEvent (run : AnyRun) (mutation : StateMutation) (expectedHead : Option String)
    (taskGeneration : Option ℕ) (idempotencyKey : Option String) : PersistedStateEvent :=
  let eventId :=
    match idempotencyKey with
    | none => context.newRunId
    | some idempotencyKey =>
      context.deterministicEventId (run.runId ++ "\x00" ++ mutation.kind.text ++ "\x00" ++ idempotencyKey)
  let existing := idempotencyKey.bind fun _ ↦ context.readEvent eventId
  let fresh : EventVersion × Expected :=
    (.v2 expectedHead taskGeneration false,
      { indexRevision := context.index.revision
        runRevision := some run.revision
        ownerSessionId := some run.owner.sessionId
        ownerEpoch := some run.owner.epoch })
  let expected :=
    match existing with
    | none => fresh
    | some event =>
      match event.version with
      | .v1 => fresh
      | .v2 expectedHead taskGeneration _ => (.v2 expectedHead taskGeneration false, event.expected)
  { version := expected.1
    eventId
    sequence := (existing.map (·.sequence)).getD (context.index.revision + 1)
    runId := run.runId
    workflow := run.workflow
    kind := mutation.kind
    expected := expected.2
    mutation
    atTime := (existing.map (·.atTime)).getD context.nowIso }

def evidenceNames (runId : Uuid) (attempt : ℕ) : List (List Char) :=
  [".omo", "omp-lazy", "runs", runId, "attempts", toString attempt, "evidence"].map String.toList

def evidenceRootPath (runId : Uuid) (attempt : ℕ) : List (List Char) :=
  context.rules.join context.root (evidenceNames runId attempt)

def repositoryRelativePath (displayPath : List (List Char)) : List Char :=
  PathRules.withSlashes (context.rules.relative context.root displayPath)

/-- Whether a path leads to the receipt of an acceptance. -/
def leadsTo (runId : Uuid) (evidencePath : String) (entry : ScopedWorkerAcceptanceEvent) : Bool :=
  let absolute := context.rules.join (context.evidenceRootPath runId entry.attempt) [entry.receiptPath.toList]
  context.repositoryRelativePath absolute = PathRules.withSlashes evidencePath.toList

/-- What a checkpoint commits. -/
structure Checkpoint where
  run : AnyRun
  settlement : Settlement
  expectedHead : String
  taskGeneration : ℕ
  idempotencyKey : String
  deriving DecidableEq, Repr

def checkpointUlwRun : Except String Checkpoint :=
  let criterionId := context.words[1]?
  match context.lookupRun .ulwLoop context.words[0]? false with
  | .error code => .error code
  | .ok run =>
    match run.payload with
    | .startWork _ => .error "missing_target"
    | .ulwLoop payload =>
      match payload.goals.find? fun candidate ↦ candidate.criteria.any fun criterion ↦ some criterion.id = criterionId,
        context.words[2]? with
      | some goal, some evidencePath =>
        let accepted := (context.scopedEntries run.runId).find? fun entry ↦
          entry.taskId = criterionId && entry.ownerSessionId = context.sessionId &&
            entry.ownerEpoch = run.owner.epoch && entry.runRevision = run.revision &&
            context.leadsTo run.runId evidencePath entry
        match accepted with
        | none => .error "task_scope_mismatch"
        | some accepted =>
          match context.git with
          | .error code => .error code
          | .ok head =>
            if accepted.captureCommit ≠ head then .error "stale_head"
            else .ok {
              run
              settlement :=
                { goalId := goal.id
                  criterionId := criterionId.getD ""
                  acceptanceId := some accepted.idempotencyKey
                  evidenceRef := evidencePath
                  captureRevision := accepted.runRevision
                  captureCommit := accepted.captureCommit }
              expectedHead := head
              taskGeneration := accepted.taskGeneration
              idempotencyKey := accepted.idempotencyKey }
      | _, _ => .error "task_scope_mismatch"

/-- The event of a checkpoint. -/
def checkpointEvent (checkpoint : Checkpoint) : PersistedStateEvent :=
  context.mutationEvent checkpoint.run (.criterionSettled checkpoint.settlement) (some checkpoint.expectedHead)
    (some checkpoint.taskGeneration) (some checkpoint.idempotencyKey)

end CommandContext

end OmpLazy.Commands

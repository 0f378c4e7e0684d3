import OmpLazy.State.Domain

namespace OmpLazy.State

open OmpLazy.Foundation OmpLazy.Foundation.Schema OmpLazy.Foundation.Text

/-! The texts of the enumerations. -/

def WorkflowKind.text : WorkflowKind → String
  | .startWork => "start_work"
  | .ulwLoop => "ulw_loop"

def IndexStatusHint.text : IndexStatusHint → String
  | .active => "active"
  | .paused => "paused"
  | .stuck => "stuck"
  | .blocked => "blocked"

def RunStatus.text : RunStatus → String
  | .active => "active"
  | .paused => "paused"
  | .blocked => "blocked"
  | .needsUserDecision => "needs_user_decision"
  | .reviewBlocked => "review_blocked"
  | .stuck => "stuck"
  | .completed => "completed"
  | .cancelled => "cancelled"
  | .failed => "failed"
  | .abandoned => "abandoned"

def UlwLoopStatus.text (status : UlwLoopStatus) : String := status.toRunStatus.text

def CriterionStatus.text : CriterionStatus → String
  | .pending => "pending"
  | .pass => "pass"
  | .fail => "fail"
  | .blocked => "blocked"

def GoalStatus.text : GoalStatus → String
  | .pending => "pending"
  | .inProgress => "in_progress"
  | .complete => "complete"
  | .failed => "failed"
  | .blocked => "blocked"
  | .needsUserDecision => "needs_user_decision"
  | .reviewBlocked => "review_blocked"

def Control.text : Control → String
  | .pause => "pause"
  | .resume => "resume"
  | .cancel => "cancel"

def TerminalStatus.text : TerminalStatus → String
  | .completed => "completed"
  | .failed => "failed"

def MutationKind.text : MutationKind → String
  | .runCreated => "run_created"
  | .workflowControlled => "workflow_controlled"
  | .ownerAdopted => "owner_adopted"
  | .planReconciled => "plan_reconciled"
  | .workflowSteered => "workflow_steered"
  | .criterionSettled => "criterion_settled"
  | .taskEvidenceAccepted => "task_evidence_accepted"
  | .workflowTerminal => "workflow_terminal"
  | .continuationAttempted => "continuation_attempted"
  | .continuationStuck => "continuation_stuck"
  | .goalCycleStarted => "goal_cycle_started"
  | .criterionFailureRecorded => "criterion_failure_recorded"

def workflowKindSchema : Schema WorkflowKind := oneOf [.startWork, .ulwLoop] WorkflowKind.text

def statusHintSchema : Schema IndexStatusHint :=
  oneOf [.active, .paused, .stuck, .blocked] IndexStatusHint.text

def startWorkStatusSchema : Schema RunStatus :=
  oneOf [.active, .paused, .blocked, .needsUserDecision, .reviewBlocked, .stuck, .completed,
    .cancelled, .failed, .abandoned] RunStatus.text

def ulwLoopStatusSchema : Schema UlwLoopStatus :=
  oneOf [.active, .paused, .stuck, .completed, .cancelled, .failed, .blocked, .needsUserDecision,
    .reviewBlocked] UlwLoopStatus.text

def criterionStatusSchema : Schema CriterionStatus :=
  oneOf [.pending, .pass, .fail, .blocked] CriterionStatus.text

def goalStatusSchema : Schema GoalStatus :=
  oneOf [.pending, .inProgress, .complete, .failed, .blocked, .needsUserDecision, .reviewBlocked]
    GoalStatus.text

def controlSchema : Schema Control := oneOf [.pause, .resume, .cancel] Control.text

def terminalStatusSchema : Schema TerminalStatus := oneOf [.completed, .failed] TerminalStatus.text

def mutationKindSchema : Schema MutationKind :=
  oneOf [.runCreated, .workflowControlled, .ownerAdopted, .planReconciled, .workflowSteered,
    .criterionSettled, .taskEvidenceAccepted, .workflowTerminal, .continuationAttempted,
    .continuationStuck, .goalCycleStarted, .criterionFailureRecorded] MutationKind.text

/-! The scalar schemas. -/

def uuidSchema : Schema Uuid := string.refine isUuid

def timestamp : Schema String := string.refine isIsoDatetime

def hashSchema : Schema String := string.refine (isLowerHexOf 64)

def annotationSchema : Schema String := string.refine fun s ↦ utf16Length s ≤ 512

def positiveCounter : Schema ℕ := counter.refine (0 < ·)

/-- `counter.max(bound)`. -/
def counterUpTo (bound : ℕ) : Schema ℕ := counter.refine (· ≤ bound)

/-- `new Set(values).size === values.length`. -/
def uniqueStrings : Schema (List String) := nonempty.array.refine fun values ↦ values.Nodup

/-! Runs. -/

def encodeStrings (values : List String) : Json := .array (values.map .string)

def encodeNullableString (value : Option String) : Json := Json.nullable (value.map .string)

def encodeNullableNat (value : Option ℕ) : Json := Json.nullable (value.map .nat)

def encodeContinuation (continuation : Continuation) : Json := .object
  [("lastProcessedLeafId", encodeNullableString continuation.lastProcessedLeafId),
    ("progressRevisionSeen", .nat continuation.progressRevisionSeen),
    ("noProgressAttempts", .nat continuation.noProgressAttempts),
    ("stuck", .bool continuation.stuck)]

def continuationSchema : Schema Continuation :=
  strictObject ["lastProcessedLeafId", "progressRevisionSeen", "noProgressAttempts", "stuck"]
    fun fields ↦ do
      let lastProcessedLeafId ← required fields "lastProcessedLeafId" nonempty.nullable
      let progressRevisionSeen ← required fields "progressRevisionSeen" counter
      let noProgressAttempts ← required fields "noProgressAttempts" counter
      let stuck ← required fields "stuck" boolean
      return ⟨lastProcessedLeafId, progressRevisionSeen, noProgressAttempts, stuck⟩

def encodeOwner (owner : Owner) : Json :=
  .object [("sessionId", .string owner.sessionId), ("epoch", .nat owner.epoch)]

def ownerSchema : Schema Owner :=
  strictObject ["sessionId", "epoch"] fun fields ↦ do
    let sessionId ← required fields "sessionId" nonempty
    let epoch ← required fields "epoch" counter
    return ⟨sessionId, epoch⟩

def encodePlan (plan : Plan) : Json := .object
  [("planId", .string plan.planId), ("canonicalPath", .string plan.canonicalPath),
    ("displayPath", .string plan.displayPath), ("allowedRoot", .string plan.allowedRoot),
    ("allowedRootDisplay", .string plan.allowedRootDisplay),
    ("taskFingerprint", .string plan.taskFingerprint), ("taskIds", encodeStrings plan.taskIds)]

def planSchema : Schema Plan :=
  strictObject ["planId", "canonicalPath", "displayPath", "allowedRoot", "allowedRootDisplay",
    "taskFingerprint", "taskIds"] fun fields ↦ do
      let planId ← required fields "planId" uuidSchema
      let canonicalPath ← required fields "canonicalPath" nonempty
      let displayPath ← required fields "displayPath" nonempty
      let allowedRoot ← required fields "allowedRoot" nonempty
      let allowedRootDisplay ← required fields "allowedRootDisplay" nonempty
      let taskFingerprint ← required fields "taskFingerprint" hashSchema
      let taskIds ← required fields "taskIds" uniqueStrings
      return ⟨planId, canonicalPath, displayPath, allowedRoot, allowedRootDisplay,
        taskFingerprint, taskIds⟩

def encodeStartWorkPayload (payload : StartWorkPayload) : Json := .object
  [("kind", .string "start_work"), ("status", .string payload.status.text),
    ("plan", encodePlan payload.plan)]

def startWorkPayloadSchema : Schema StartWorkPayload :=
  strictObject ["kind", "status", "plan"] fun fields ↦ do
    let () ← required fields "kind" (literal (.string "start_work"))
    let status ← required fields "status" startWorkStatusSchema
    let plan ← required fields "plan" planSchema
    return ⟨status, plan⟩

def encodeCriterion (criterion : Criterion) : Json := .object
  (("id", .string criterion.id) ::
    (Json.optional "scenario" (criterion.scenario.map .string) ++
      (Json.optional "observable" (criterion.observable.map .string) ++
        (Json.optional "evidenceLogicalId" (criterion.evidenceLogicalId.map .string) ++
          [("status", .string criterion.status.text),
            ("identicalFailureFingerprint", encodeNullableString criterion.identicalFailureFingerprint),
            ("identicalFailureCount", .nat criterion.identicalFailureCount),
            ("evidenceRef", encodeNullableString criterion.evidenceRef),
            ("captureRevision", encodeNullableNat criterion.captureRevision),
            ("captureCommit", encodeNullableString criterion.captureCommit)]))))

def criterionSchema : Schema Criterion :=
  strictObject ["id", "scenario", "observable", "evidenceLogicalId", "status",
    "identicalFailureFingerprint", "identicalFailureCount", "evidenceRef", "captureRevision",
    "captureCommit"] fun fields ↦ do
      let id ← required fields "id" nonempty
      let scenario ← Schema.optional fields "scenario" nonempty
      let observable ← Schema.optional fields "observable" nonempty
      let evidenceLogicalId ← Schema.optional fields "evidenceLogicalId" nonempty
      let status ← required fields "status" criterionStatusSchema
      let identicalFailureFingerprint ←
        required fields "identicalFailureFingerprint" nonempty.nullable
      let identicalFailureCount ← required fields "identicalFailureCount" (counterUpTo 3)
      let evidenceRef ← required fields "evidenceRef" nonempty.nullable
      let captureRevision ← required fields "captureRevision" counter.nullable
      let captureCommit ← required fields "captureCommit" nonempty.nullable
      return ⟨id, scenario, observable, evidenceLogicalId, status, identicalFailureFingerprint,
        identicalFailureCount, evidenceRef, captureRevision, captureCommit⟩

def encodeGoal (goal : Goal) : Json := .object
  [("id", .string goal.id), ("status", .string goal.status.text), ("cycleCount", .nat goal.cycleCount),
    ("criteria", .array (goal.criteria.map encodeCriterion))]

def goalFieldsSchema : Schema Goal :=
  strictObject ["id", "status", "cycleCount", "criteria"] fun fields ↦ do
    let id ← required fields "id" nonempty
    let status ← required fields "status" goalStatusSchema
    let cycleCount ← required fields "cycleCount" (counterUpTo 5)
    let criteria ← required fields "criteria" criterionSchema.array
    return ⟨id, status, cycleCount, criteria⟩

def goalSchema : Schema Goal := goalFieldsSchema.refine fun goal ↦ goal.criterionIds.Nodup

def encodeUlwLoopPayload (payload : UlwLoopPayload) : Json := .object
  (("kind", .string "ulw_loop") ::
    (Json.optional "objective" (payload.objective.map .string) ++
      (Json.optional "annotation" (payload.annotationText.map .string) ++
        [("status", .string payload.status.text),
          ("activeGoalId", encodeNullableString payload.activeGoalId),
          ("goals", .array (payload.goals.map encodeGoal))])))

def ulwLoopPayloadSchema : Schema UlwLoopPayload :=
  strictObject ["kind", "objective", "annotation", "status", "activeGoalId", "goals"] fun fields ↦ do
    let () ← required fields "kind" (literal (.string "ulw_loop"))
    let objective ← Schema.optional fields "objective" nonempty
    let annotationText ← Schema.optional fields "annotation" annotationSchema
    let status ← required fields "status" ulwLoopStatusSchema
    let activeGoalId ← required fields "activeGoalId" nonempty.nullable
    let goals ← required fields "goals" goalSchema.array
    return ⟨objective, annotationText, status, activeGoalId, goals⟩

/-- No goal is in progress when there is no active goal, and the active goal is the only one in
progress when there is. -/
def UlwLoopPayload.activeGoalMatches (payload : UlwLoopPayload) : Bool :=
  match payload.activeGoalId with
  | none => payload.inProgress.isEmpty
  | some activeGoalId => payload.inProgress.map (·.id) = [activeGoalId]

def refineUlwLoop (payload : UlwLoopPayload) : Bool :=
  payload.goalIds.Nodup && payload.criterionIds.Nodup && payload.activeGoalMatches

def encodePayload : Payload → Json
  | .startWork payload => encodeStartWorkPayload payload
  | .ulwLoop payload => encodeUlwLoopPayload payload

/-- The members of a version 2 run after those of the common envelope. -/
def encodeRunVersion : RunVersion → List (String × Json)
  | .v1 => []
  | .v2 packetHash expectedHead =>
    [("packetHash", encodeNullableString packetHash),
      ("expectedHead", encodeNullableString expectedHead)]

def RunVersion.number : RunVersion → ℕ
  | .v1 => 1
  | .v2 _ _ => 2

/-- A run as `JSON.stringify` writes what the schema returned for it. -/
def encodeRun (run : AnyRun) : Json := .object
  (("schemaVersion", .nat run.version.number) ::
    ("runId", .string run.runId) ::
    ("revision", .nat run.revision) ::
    ("transactionRevision", .nat run.transactionRevision) ::
    ("owner", encodeOwner run.owner) ::
    ("progressRevision", .nat run.progressRevision) ::
    ("continuation", encodeContinuation run.continuation) ::
    ("createdAt", .string run.createdAt) ::
    ("updatedAt", .string run.updatedAt) ::
    ("workflow", .string run.workflow.text) ::
    ("payload", encodePayload run.payload) :: encodeRunVersion run.version)

def runKeys : List String :=
  ["schemaVersion", "runId", "revision", "transactionRevision", "owner", "progressRevision",
    "continuation", "createdAt", "updatedAt", "workflow", "payload"]

/-- The envelope that the four run schemas share, with the payload of one workflow. -/
def envelopeFields (fields : List (String × Json)) (version : RunVersion) (workflow : WorkflowKind)
    (payloadSchema : Schema Payload) : Option AnyRun := do
  let () ← required fields "schemaVersion" (literal (.nat version.number))
  let runId ← required fields "runId" uuidSchema
  let revision ← required fields "revision" counter
  let transactionRevision ← required fields "transactionRevision" counter
  let owner ← required fields "owner" ownerSchema
  let progressRevision ← required fields "progressRevision" counter
  let continuation ← required fields "continuation" continuationSchema
  let createdAt ← required fields "createdAt" timestamp
  let updatedAt ← required fields "updatedAt" timestamp
  let () ← required fields "workflow" (literal (.string workflow.text))
  let payload ← required fields "payload" payloadSchema
  return ⟨version, runId, revision, transactionRevision, owner, progressRevision, continuation,
    createdAt, updatedAt, payload⟩

/-- One of the four run schemas without its refinement. -/
def runV1Schema (workflow : WorkflowKind) (payloadSchema : Schema Payload) : Schema AnyRun :=
  strictObject runKeys fun fields ↦ envelopeFields fields .v1 workflow payloadSchema

def runV2Schema (workflow : WorkflowKind) (payloadSchema : Schema Payload) : Schema AnyRun :=
  strictObject (runKeys ++ ["packetHash", "expectedHead"]) fun fields ↦ do
    let packetHash ← required fields "packetHash" hashSchema.nullable
    let expectedHead ← required fields "expectedHead" nonempty.nullable
    envelopeFields fields (.v2 packetHash expectedHead) workflow payloadSchema

def startWorkSchema : Schema Payload := fun j ↦ (startWorkPayloadSchema j).map .startWork

/-- `refineUlwLoop` looks at the payload alone, so it is attached there. -/
def ulwLoopSchema : Schema Payload := fun j ↦
  (ulwLoopPayloadSchema.refine refineUlwLoop j).map .ulwLoop

def startWorkRunSchema : Schema AnyRun := runV1Schema .startWork startWorkSchema

def startWorkRunV2Schema : Schema AnyRun := runV2Schema .startWork startWorkSchema

def ulwLoopRunSchema : Schema AnyRun := runV1Schema .ulwLoop ulwLoopSchema

def ulwLoopRunV2Schema : Schema AnyRun := runV2Schema .ulwLoop ulwLoopSchema

def runSchema : Schema AnyRun :=
  union startWorkRunSchema (union startWorkRunV2Schema (union ulwLoopRunSchema ulwLoopRunV2Schema))

/-! The active index. -/

def encodeEntry (entry : ActiveIndexEntry) : Json := .object
  [("workflow", .string entry.workflow.text), ("sessionId", .string entry.sessionId),
    ("runId", .string entry.runId), ("ownerEpoch", .nat entry.ownerEpoch),
    ("runRevision", .nat entry.runRevision),
    ("transactionRevision", .nat entry.transactionRevision),
    ("statusHint", .string entry.statusHint.text)]

def entrySchema : Schema ActiveIndexEntry :=
  strictObject ["workflow", "sessionId", "runId", "ownerEpoch", "runRevision",
    "transactionRevision", "statusHint"] fun fields ↦ do
      let workflow ← required fields "workflow" workflowKindSchema
      let sessionId ← required fields "sessionId" nonempty
      let runId ← required fields "runId" uuidSchema
      let ownerEpoch ← required fields "ownerEpoch" counter
      let runRevision ← required fields "runRevision" counter
      let transactionRevision ← required fields "transactionRevision" counter
      let statusHint ← required fields "statusHint" statusHintSchema
      return ⟨workflow, sessionId, runId, ownerEpoch, runRevision, transactionRevision, statusHint⟩

def encodeIndexVersion : IndexVersion → List (String × Json)
  | .v1 => [("schemaVersion", .nat 1)]
  | .v2 migrationRevision => [("schemaVersion", .nat 2), ("migrationRevision", .nat migrationRevision)]

def encodeActiveIndex (index : ActiveIndex) : Json := .object
  (encodeIndexVersion index.version ++
    [("revision", .nat index.revision), ("entries", .array (index.entries.map encodeEntry))])

def activeIndexFields (fields : List (String × Json)) (version : IndexVersion) :
    Option ActiveIndex := do
  let revision ← required fields "revision" counter
  let entries ← required fields "entries" entrySchema.array
  return ⟨version, revision, entries⟩

def activeIndexV1Schema : Schema ActiveIndex :=
  strictObject ["schemaVersion", "revision", "entries"] fun fields ↦ do
    let () ← required fields "schemaVersion" (literal (.nat 1))
    activeIndexFields fields .v1

def activeIndexV2Schema : Schema ActiveIndex :=
  strictObject ["schemaVersion", "migrationRevision", "revision", "entries"] fun fields ↦ do
    let () ← required fields "schemaVersion" (literal (.nat 2))
    let migrationRevision ← required fields "migrationRevision" positiveCounter
    activeIndexFields fields (.v2 migrationRevision)

def activeIndexSchema : Schema ActiveIndex := union activeIndexV1Schema activeIndexV2Schema

/-! Mutations. -/

def encodeSteeredCriterion (criterion : SteeredCriterion) : Json := .object
  [("id", .string criterion.id), ("scenario", .string criterion.scenario),
    ("observable", .string criterion.observable),
    ("evidenceLogicalId", .string criterion.evidenceLogicalId)]

def steeredCriterionSchema : Schema SteeredCriterion :=
  strictObject ["id", "scenario", "observable", "evidenceLogicalId"] fun fields ↦ do
    let id ← required fields "id" nonempty
    let scenario ← required fields "scenario" nonempty
    let observable ← required fields "observable" nonempty
    let evidenceLogicalId ← required fields "evidenceLogicalId" nonempty
    return ⟨id, scenario, observable, evidenceLogicalId⟩

/-- The members of a mutation after `kind`. -/
def mutationFields : StateMutation → List (String × Json)
  | .runCreated run => [("run", encodeRun run)]
  | .workflowControlled control => [("control", .string control.text)]
  | .ownerAdopted sessionId => [("sessionId", .string sessionId)]
  | .planReconciled taskIds remainingTaskIds taskFingerprint =>
    ("taskIds", encodeStrings taskIds) ::
      (Json.optional "remainingTaskIds" (remainingTaskIds.map encodeStrings) ++
        [("taskFingerprint", .string taskFingerprint)])
  | .workflowSteered criteria annotationText =>
    ("criteria", .array (criteria.map encodeSteeredCriterion)) ::
      Json.optional "annotation" (annotationText.map .string)
  | .criterionSettled settlement =>
    ("goalId", .string settlement.goalId) :: ("criterionId", .string settlement.criterionId) ::
      (Json.optional "acceptanceId" (settlement.acceptanceId.map .string) ++
        [("evidenceRef", .string settlement.evidenceRef),
          ("captureRevision", .nat settlement.captureRevision),
          ("captureCommit", .string settlement.captureCommit)])
  | .taskEvidenceAccepted taskId acceptanceId =>
    [("taskId", .string taskId), ("acceptanceId", .string acceptanceId)]
  | .workflowTerminal status acceptanceIds taskId =>
    ("status", .string status.text) ::
      (Json.optional "acceptanceIds" (acceptanceIds.map encodeStrings) ++
        Json.optional "taskId" (taskId.map .string))
  | .continuationAttempted leafId progressRevision =>
    [("leafId", .string leafId), ("progressRevision", .nat progressRevision)]
  | .continuationStuck leafId => [("leafId", .string leafId)]
  | .goalCycleStarted goalId => [("goalId", .string goalId)]
  | .criterionFailureRecorded goalId criterionId fingerprint =>
    [("goalId", .string goalId), ("criterionId", .string criterionId),
      ("fingerprint", .string fingerprint)]

def encodeMutation (mutation : StateMutation) : Json :=
  .object (("kind", .string mutation.kind.text) :: mutationFields mutation)

/-- `(status === "completed") === (acceptanceIds !== undefined)` and the opposite for `taskId`. -/
def terminalAuthorityMatches : StateMutation → Bool
  | .workflowTerminal .completed acceptanceIds taskId => acceptanceIds.isSome && taskId.isNone
  | .workflowTerminal .failed acceptanceIds taskId => acceptanceIds.isNone && taskId.isSome
  | _ => true

/-- The object that the discriminated union has for each kind. -/
def mutationBody (fields : List (String × Json)) : MutationKind → Option StateMutation
  | .runCreated => (required fields "run" runSchema).map .runCreated
  | .workflowControlled => (required fields "control" controlSchema).map .workflowControlled
  | .ownerAdopted => (required fields "sessionId" nonempty).map .ownerAdopted
  | .planReconciled => do
    let taskIds ← required fields "taskIds" uniqueStrings
    let remainingTaskIds ← Schema.optional fields "remainingTaskIds" uniqueStrings
    let taskFingerprint ← required fields "taskFingerprint" hashSchema
    return .planReconciled taskIds remainingTaskIds taskFingerprint
  | .workflowSteered => do
    let criteria ← required fields "criteria"
      (steeredCriterionSchema.array.refine fun criteria ↦ 1 ≤ criteria.length)
    let annotationText ← Schema.optional fields "annotation" annotationSchema
    return .workflowSteered criteria annotationText
  | .criterionSettled => do
    let goalId ← required fields "goalId" nonempty
    let criterionId ← required fields "criterionId" nonempty
    let acceptanceId ← Schema.optional fields "acceptanceId" nonempty
    let evidenceRef ← required fields "evidenceRef" nonempty
    let captureRevision ← required fields "captureRevision" counter
    let captureCommit ← required fields "captureCommit" nonempty
    return .criterionSettled
      ⟨goalId, criterionId, acceptanceId, evidenceRef, captureRevision, captureCommit⟩
  | .taskEvidenceAccepted => do
    let taskId ← required fields "taskId" nonempty
    let acceptanceId ← required fields "acceptanceId" nonempty
    return .taskEvidenceAccepted taskId acceptanceId
  | .workflowTerminal => do
    let status ← required fields "status" terminalStatusSchema
    let acceptanceIds ← Schema.optional fields "acceptanceIds" uniqueStrings
    let taskId ← Schema.optional fields "taskId" nonempty
    return .workflowTerminal status acceptanceIds taskId
  | .continuationAttempted => do
    let leafId ← required fields "leafId" nonempty
    let progressRevision ← required fields "progressRevision" counter
    return .continuationAttempted leafId progressRevision
  | .continuationStuck => (required fields "leafId" nonempty).map .continuationStuck
  | .goalCycleStarted => (required fields "goalId" nonempty).map .goalCycleStarted
  | .criterionFailureRecorded => do
    let goalId ← required fields "goalId" nonempty
    let criterionId ← required fields "criterionId" nonempty
    let fingerprint ← required fields "fingerprint" nonempty
    return .criterionFailureRecorded goalId criterionId fingerprint

def mutationKeys : MutationKind → List String
  | .runCreated => ["run"]
  | .workflowControlled => ["control"]
  | .ownerAdopted => ["sessionId"]
  | .planReconciled => ["taskIds", "remainingTaskIds", "taskFingerprint"]
  | .workflowSteered => ["criteria", "annotation"]
  | .criterionSettled =>
    ["goalId", "criterionId", "acceptanceId", "evidenceRef", "captureRevision", "captureCommit"]
  | .taskEvidenceAccepted => ["taskId", "acceptanceId"]
  | .workflowTerminal => ["status", "acceptanceIds", "taskId"]
  | .continuationAttempted => ["leafId", "progressRevision"]
  | .continuationStuck => ["leafId"]
  | .goalCycleStarted => ["goalId"]
  | .criterionFailureRecorded => ["goalId", "criterionId", "fingerprint"]

/-- The discriminated union: `kind` selects the strict object. -/
def mutationSchema : Schema StateMutation := Schema.refine (fun j ↦ do
  let kind ← (j.get? "kind").bind mutationKindSchema
  strictObject ("kind" :: mutationKeys kind) (fun fields ↦ mutationBody fields kind) j)
  terminalAuthorityMatches

/-! Events. -/

def encodeExpectedVersion : EventVersion → List (String × Json)
  | .v1 => []
  | .v2 expectedHead taskGeneration _ =>
    [("expectedHead", encodeNullableString expectedHead),
      ("taskGeneration", encodeNullableNat taskGeneration)]

def encodeExpected (version : EventVersion) (expected : Expected) : Json := .object
  (("indexRevision", .nat expected.indexRevision) ::
    ("runRevision", encodeNullableNat expected.runRevision) ::
    ("ownerSessionId", encodeNullableString expected.ownerSessionId) ::
    ("ownerEpoch", encodeNullableNat expected.ownerEpoch) :: encodeExpectedVersion version)

def EventVersion.number : EventVersion → ℕ
  | .v1 => 1
  | .v2 .. => 2

def encodeLegacyHeadUnbound : EventVersion → List (String × Json)
  | .v1 => []
  | .v2 _ _ legacyHeadUnbound => [("legacyHeadUnbound", .bool legacyHeadUnbound)]

/-- An event with its members in the order in which the schema returns them. -/
def encodeEvent (event : PersistedStateEvent) : Json := .object
  (("schemaVersion", .nat event.version.number) ::
    ("eventId", .string event.eventId) ::
    ("sequence", .nat event.sequence) ::
    ("runId", .string event.runId) ::
    ("workflow", .string event.workflow.text) ::
    ("kind", .string event.kind.text) ::
    ("expected", encodeExpected event.version event.expected) ::
    ("mutation", encodeMutation event.mutation) ::
    (encodeLegacyHeadUnbound event.version ++ [("at", .string event.atTime)]))

def expectedKeys : List String := ["indexRevision", "runRevision", "ownerSessionId", "ownerEpoch"]

def expectedFields (fields : List (String × Json)) : Option Expected := do
  let indexRevision ← required fields "indexRevision" counter
  let runRevision ← required fields "runRevision" counter.nullable
  let ownerSessionId ← required fields "ownerSessionId" nonempty.nullable
  let ownerEpoch ← required fields "ownerEpoch" counter.nullable
  return ⟨indexRevision, runRevision, ownerSessionId, ownerEpoch⟩

def expectedSchema : Schema Expected := strictObject expectedKeys expectedFields

def expectedV2Schema : Schema (Expected × Option String × Option ℕ) :=
  strictObject (expectedKeys ++ ["expectedHead", "taskGeneration"]) fun fields ↦ do
    let expected ← expectedFields fields
    let expectedHead ← required fields "expectedHead" nonempty.nullable
    let taskGeneration ← required fields "taskGeneration" positiveCounter.nullable
    return (expected, expectedHead, taskGeneration)

def eventKeys : List String :=
  ["schemaVersion", "eventId", "sequence", "runId", "workflow", "kind", "expected", "mutation", "at"]

def eventFields (fields : List (String × Json)) (version : EventVersion) (expected : Expected) :
    Option PersistedStateEvent := do
  let eventId ← required fields "eventId" uuidSchema
  let sequence ← required fields "sequence" counter
  let runId ← required fields "runId" uuidSchema
  let workflow ← required fields "workflow" workflowKindSchema
  let kind ← required fields "kind" mutationKindSchema
  let mutation ← required fields "mutation" mutationSchema
  let atTime ← required fields "at" timestamp
  return ⟨version, eventId, sequence, runId, workflow, kind, expected, mutation, atTime⟩

def eventMutationMatches (event : PersistedStateEvent) : Bool := event.kind = event.mutation.kind

/-- A legacy event cannot bind a head. -/
def legacyHeadMatches (event : PersistedStateEvent) : Bool :=
  match event.version with
  | .v1 => true
  | .v2 expectedHead _ legacyHeadUnbound => !legacyHeadUnbound || expectedHead.isNone

def stateEventSchema : Schema PersistedStateEvent := Schema.refine
  (strictObject eventKeys fun fields ↦ do
    let () ← required fields "schemaVersion" (literal (.nat 1))
    let expected ← required fields "expected" expectedSchema
    eventFields fields .v1 expected) eventMutationMatches

def stateEventV2Schema : Schema PersistedStateEvent := Schema.refine
  (strictObject (eventKeys ++ ["legacyHeadUnbound"]) fun fields ↦ do
    let () ← required fields "schemaVersion" (literal (.nat 2))
    let (expected, expectedHead, taskGeneration) ← required fields "expected" expectedV2Schema
    let legacyHeadUnbound ← required fields "legacyHeadUnbound" boolean
    eventFields fields (.v2 expectedHead taskGeneration legacyHeadUnbound) expected)
  fun event ↦ eventMutationMatches event && legacyHeadMatches event

/-- `decodeStateEvent` chooses the schema by the version that the object names. -/
def eventSchema : Schema PersistedStateEvent := fun j ↦
  if j.get? "schemaVersion" = some (.nat 2) then stateEventV2Schema j else stateEventSchema j

end OmpLazy.State

import OmpLazy.State.CodecSchemas
import Mathlib.Tactic.MkIffOfInductiveProp

namespace OmpLazy.State

open OmpLazy.Foundation OmpLazy.Foundation.Schema OmpLazy.Foundation.Text

/-! Each type of the state has the values that its schema accepts (`Ok`) and what the schema returns
for them (`tidy`), which is the value with its strings trimmed. -/

theorem nullableString_reads :
    Reads nonempty.nullable encodeNullableString (fun o ↦ ∀ s ∈ o, trim s ≠ "") (Option.map trim) :=
  nonempty_reads.nullable (by simp)

theorem nullableNat_reads :
    Reads counter.nullable encodeNullableNat (fun o ↦ ∀ n ∈ o, n ≤ maxSafeInteger) (Option.map id) :=
  counter_reads.nullable (by simp [Json.nat])

theorem nullableHash_reads :
    Reads hashSchema.nullable encodeNullableString (fun o ↦ ∀ s ∈ o, isLowerHexOf 64 s = true)
      (Option.map id) :=
  (checked_reads _).nullable (by simp)

theorem positiveCounter_reads :
    Reads positiveCounter Json.nat (fun n ↦ n ≤ maxSafeInteger ∧ 0 < n) id :=
  (counter_reads.refine _).of_iff (by simp)

theorem nullablePositive_reads :
    Reads positiveCounter.nullable encodeNullableNat (fun o ↦ ∀ n ∈ o, n ≤ maxSafeInteger ∧ 0 < n)
      (Option.map id) :=
  positiveCounter_reads.nullable (by simp [Json.nat])

theorem counterUpTo_reads (bound : ℕ) :
    Reads (counterUpTo bound) Json.nat (fun n ↦ n ≤ maxSafeInteger ∧ n ≤ bound) id :=
  (counter_reads.refine _).of_iff (by simp)

/-- Strings that are distinct and not blank once they are trimmed. -/
@[mk_iff] structure UniqueStrings (values : List String) : Prop where
  nonblank : ∀ s ∈ values, trim s ≠ ""
  nodup : (values.map trim).Nodup

theorem uniqueStrings_reads :
    Reads uniqueStrings encodeStrings UniqueStrings (List.map trim) :=
  (nonempty_reads.array.refine _).of_iff (by simp [uniqueStrings_iff])

theorem uuid_reads : Reads uuidSchema Json.string (fun s ↦ isUuid s = true) id := checked_reads _

theorem timestamp_reads : Reads timestamp Json.string (fun s ↦ isIsoDatetime s = true) id :=
  checked_reads _

theorem hash_reads : Reads hashSchema Json.string (fun s ↦ isLowerHexOf 64 s = true) id :=
  checked_reads _

theorem annotation_reads :
    Reads annotationSchema Json.string (fun s ↦ utf16Length s ≤ 512) id :=
  (checked_reads _).of_iff (by simp)

theorem workflowKind_reads :
    Reads workflowKindSchema (fun x ↦ .string x.text) (fun _ ↦ True) id :=
  oneOf_reads fun x ↦ by cases x <;> rfl

theorem statusHint_reads : Reads statusHintSchema (fun x ↦ .string x.text) (fun _ ↦ True) id :=
  oneOf_reads fun x ↦ by cases x <;> rfl

theorem startWorkStatus_reads :
    Reads startWorkStatusSchema (fun x ↦ .string x.text) (fun _ ↦ True) id :=
  oneOf_reads fun x ↦ by cases x <;> rfl

theorem ulwLoopStatus_reads :
    Reads ulwLoopStatusSchema (fun x ↦ .string x.text) (fun _ ↦ True) id :=
  oneOf_reads fun x ↦ by cases x <;> rfl

theorem criterionStatus_reads :
    Reads criterionStatusSchema (fun x ↦ .string x.text) (fun _ ↦ True) id :=
  oneOf_reads fun x ↦ by cases x <;> rfl

theorem goalStatus_reads :
    Reads goalStatusSchema (fun x ↦ .string x.text) (fun _ ↦ True) id :=
  oneOf_reads fun x ↦ by cases x <;> rfl

theorem control_reads :
    Reads controlSchema (fun x ↦ .string x.text) (fun _ ↦ True) id :=
  oneOf_reads fun x ↦ by cases x <;> rfl

theorem terminalStatus_reads :
    Reads terminalStatusSchema (fun x ↦ .string x.text) (fun _ ↦ True) id :=
  oneOf_reads fun x ↦ by cases x <;> rfl

theorem mutationKind_reads :
    Reads mutationKindSchema (fun x ↦ .string x.text) (fun _ ↦ True) id :=
  oneOf_reads fun x ↦ by cases x <;> rfl

theorem WorkflowKind.text_inj {x y : WorkflowKind} : x.text = y.text ↔ x = y := by
  cases x <;> cases y <;> decide

/-! Runs. -/

namespace Continuation

@[mk_iff] structure Ok (continuation : Continuation) : Prop where
  lastProcessedLeafId : ∀ s ∈ continuation.lastProcessedLeafId, trim s ≠ ""
  progressRevisionSeen : continuation.progressRevisionSeen ≤ maxSafeInteger
  noProgressAttempts : continuation.noProgressAttempts ≤ maxSafeInteger

def tidy (continuation : Continuation) : Continuation :=
  { continuation with lastProcessedLeafId := continuation.lastProcessedLeafId.map trim }

theorem reads : Reads continuationSchema encodeContinuation Ok tidy where
  encoded x y := by
    simp [continuationSchema, encodeContinuation, strictObject_object, required,
      Option.bind_eq_some_iff, nullableString_reads.encoded, counter_reads.encoded,
      boolean_reads.encoded, and_assoc, ok_iff, tidy]
  settled j y hy := by
    obtain ⟨fields, -, hy⟩ := strictObject_eq_some hy
    simp only [Option.bind_eq_bind, Option.bind_eq_some_iff, Option.pure_def, Option.some.injEq] at hy
    obtain ⟨leafId, hleaf, seen, hseen, attempts, hattempts, stuck, -, rfl⟩ := hy
    have hleaf := nullableString_reads.required_settled hleaf
    have hseen := counter_reads.required_settled hseen
    have hattempts := counter_reads.required_settled hattempts
    exact ⟨⟨hleaf.1, hseen.1, hattempts.1⟩, by simp [tidy, hleaf.2]⟩

end Continuation

namespace Owner

@[mk_iff] structure Ok (owner : Owner) : Prop where
  sessionId : trim owner.sessionId ≠ ""
  epoch : owner.epoch ≤ maxSafeInteger

def tidy (owner : Owner) : Owner := { owner with sessionId := trim owner.sessionId }

theorem reads : Reads ownerSchema encodeOwner Ok tidy where
  encoded x y := by
    simp [ownerSchema, encodeOwner, strictObject_object, required, Option.bind_eq_some_iff,
      nonempty_reads.encoded, counter_reads.encoded, and_assoc, ok_iff, tidy]
  settled j y hy := by
    obtain ⟨fields, -, hy⟩ := strictObject_eq_some hy
    simp only [Option.bind_eq_bind, Option.bind_eq_some_iff, Option.pure_def, Option.some.injEq] at hy
    obtain ⟨sessionId, hsession, epoch, hepoch, rfl⟩ := hy
    have hsession := nonempty_reads.required_settled hsession
    have hepoch := counter_reads.required_settled hepoch
    exact ⟨⟨hsession.1, hepoch.1⟩, by simp [tidy, hsession.2]⟩

end Owner

namespace Plan

@[mk_iff] structure Ok (plan : Plan) : Prop where
  planId : isUuid plan.planId = true
  canonicalPath : trim plan.canonicalPath ≠ ""
  displayPath : trim plan.displayPath ≠ ""
  allowedRoot : trim plan.allowedRoot ≠ ""
  allowedRootDisplay : trim plan.allowedRootDisplay ≠ ""
  taskFingerprint : isLowerHexOf 64 plan.taskFingerprint = true
  taskIds : UniqueStrings plan.taskIds

def tidy (plan : Plan) : Plan :=
  { plan with
    canonicalPath := trim plan.canonicalPath
    displayPath := trim plan.displayPath
    allowedRoot := trim plan.allowedRoot
    allowedRootDisplay := trim plan.allowedRootDisplay
    taskIds := plan.taskIds.map trim }

theorem reads : Reads planSchema encodePlan Ok tidy where
  encoded x y := by
    simp [planSchema, encodePlan, strictObject_object, required, Option.bind_eq_some_iff,
      nonempty_reads.encoded, uuid_reads.encoded, hash_reads.encoded, uniqueStrings_reads.encoded,
      and_assoc, ok_iff, tidy]
  settled j y hy := by
    obtain ⟨fields, -, hy⟩ := strictObject_eq_some hy
    simp only [Option.bind_eq_bind, Option.bind_eq_some_iff, Option.pure_def, Option.some.injEq] at hy
    obtain ⟨planId, hid, canonicalPath, hcanonical, displayPath, hdisplay, allowedRoot, hroot,
      allowedRootDisplay, hrootDisplay, taskFingerprint, hfingerprint, taskIds, htasks, rfl⟩ := hy
    have hid := uuid_reads.required_settled hid
    have hcanonical := nonempty_reads.required_settled hcanonical
    have hdisplay := nonempty_reads.required_settled hdisplay
    have hroot := nonempty_reads.required_settled hroot
    have hrootDisplay := nonempty_reads.required_settled hrootDisplay
    have hfingerprint := hash_reads.required_settled hfingerprint
    have htasks := uniqueStrings_reads.required_settled htasks
    exact ⟨⟨hid.1, hcanonical.1, hdisplay.1, hroot.1, hrootDisplay.1, hfingerprint.1, htasks.1⟩,
      by simp [tidy, hcanonical.2, hdisplay.2, hroot.2, hrootDisplay.2, htasks.2]⟩

end Plan

namespace StartWorkPayload

def tidy (payload : StartWorkPayload) : StartWorkPayload := { payload with plan := payload.plan.tidy }

theorem reads :
    Reads startWorkPayloadSchema encodeStartWorkPayload (fun payload ↦ payload.plan.Ok) tidy where
  encoded x y := by
    simp [startWorkPayloadSchema, encodeStartWorkPayload, strictObject_object, required,
      Option.bind_eq_some_iff, literal, startWorkStatus_reads.encoded, Plan.reads.encoded, tidy]
  settled j y hy := by
    obtain ⟨fields, -, hy⟩ := strictObject_eq_some hy
    simp only [Option.bind_eq_bind, Option.bind_eq_some_iff, Option.pure_def, Option.some.injEq] at hy
    obtain ⟨-, -, status, -, plan, hplan, rfl⟩ := hy
    have hplan := Plan.reads.required_settled hplan
    exact ⟨hplan.1, by simp [tidy, hplan.2]⟩

end StartWorkPayload

namespace Criterion

@[mk_iff] structure Ok (criterion : Criterion) : Prop where
  id : trim criterion.id ≠ ""
  scenario : ∀ s ∈ criterion.scenario, trim s ≠ ""
  observable : ∀ s ∈ criterion.observable, trim s ≠ ""
  evidenceLogicalId : ∀ s ∈ criterion.evidenceLogicalId, trim s ≠ ""
  identicalFailureFingerprint : ∀ s ∈ criterion.identicalFailureFingerprint, trim s ≠ ""
  identicalFailureCount :
    criterion.identicalFailureCount ≤ maxSafeInteger ∧ criterion.identicalFailureCount ≤ 3
  evidenceRef : ∀ s ∈ criterion.evidenceRef, trim s ≠ ""
  captureRevision : ∀ n ∈ criterion.captureRevision, n ≤ maxSafeInteger
  captureCommit : ∀ s ∈ criterion.captureCommit, trim s ≠ ""

def tidy (criterion : Criterion) : Criterion :=
  { criterion with
    id := trim criterion.id
    scenario := criterion.scenario.map trim
    observable := criterion.observable.map trim
    evidenceLogicalId := criterion.evidenceLogicalId.map trim
    identicalFailureFingerprint := criterion.identicalFailureFingerprint.map trim
    evidenceRef := criterion.evidenceRef.map trim
    captureCommit := criterion.captureCommit.map trim }

theorem reads : Reads criterionSchema encodeCriterion Ok tidy where
  encoded x y := by
    simp only [criterionSchema, encodeCriterion, strictObject_object, List.forall_mem_cons,
      List.forall_mem_append, keys_optional]
    simp [required, Schema.optional, Option.bind_eq_some_iff, nonempty_reads.encoded,
      nonempty_reads.ifPresent_iff, nullableString_reads.encoded, nullableNat_reads.encoded,
      criterionStatus_reads.encoded, (counterUpTo_reads 3).encoded, and_assoc, ok_iff, tidy]
  settled j y hy := by
    obtain ⟨fields, -, hy⟩ := strictObject_eq_some hy
    simp only [Option.bind_eq_bind, Option.bind_eq_some_iff, Option.pure_def, Option.some.injEq] at hy
    obtain ⟨id, hid, scenario, hscenario, observable, hobservable, evidenceLogicalId, hlogical,
      status, -, fingerprint, hfingerprint, count, hcount, evidenceRef, hevidence, captureRevision,
      hrevision, captureCommit, hcommit, rfl⟩ := hy
    have hid := nonempty_reads.required_settled hid
    have hscenario := nonempty_reads.optional_settled hscenario
    have hobservable := nonempty_reads.optional_settled hobservable
    have hlogical := nonempty_reads.optional_settled hlogical
    have hfingerprint := nullableString_reads.required_settled hfingerprint
    have hcount := (counterUpTo_reads 3).required_settled hcount
    have hevidence := nullableString_reads.required_settled hevidence
    have hrevision := nullableNat_reads.required_settled hrevision
    have hcommit := nullableString_reads.required_settled hcommit
    exact ⟨⟨hid.1, hscenario.1, hobservable.1, hlogical.1, hfingerprint.1, hcount.1, hevidence.1,
      hrevision.1, hcommit.1⟩, by simp [tidy, hid.2, hscenario.2, hobservable.2, hlogical.2,
        hfingerprint.2, hevidence.2, hcommit.2]⟩

end Criterion

namespace Goal

@[mk_iff] structure Ok (goal : Goal) : Prop where
  id : trim goal.id ≠ ""
  cycleCount : goal.cycleCount ≤ maxSafeInteger ∧ goal.cycleCount ≤ 5
  criteria : ∀ criterion ∈ goal.criteria, criterion.Ok
  criterionIds : (goal.criterionIds.map trim).Nodup

def tidy (goal : Goal) : Goal :=
  { goal with id := trim goal.id, criteria := goal.criteria.map Criterion.tidy }

@[simp] theorem criterionIds_tidy (goal : Goal) :
    goal.tidy.criterionIds = goal.criterionIds.map trim := by
  simp [criterionIds, tidy, Criterion.tidy]

theorem fields_read :
    Reads goalFieldsSchema encodeGoal (fun goal ↦ trim goal.id ≠ "" ∧
      (goal.cycleCount ≤ maxSafeInteger ∧ goal.cycleCount ≤ 5) ∧ ∀ criterion ∈ goal.criteria,
        criterion.Ok) tidy where
  encoded x y := by
    simp [goalFieldsSchema, encodeGoal, strictObject_object, required, Option.bind_eq_some_iff,
      nonempty_reads.encoded, goalStatus_reads.encoded, (counterUpTo_reads 5).encoded,
      Criterion.reads.array.encoded, and_assoc, tidy]
  settled j y hy := by
    obtain ⟨fields, -, hy⟩ := strictObject_eq_some hy
    simp only [Option.bind_eq_bind, Option.bind_eq_some_iff, Option.pure_def, Option.some.injEq] at hy
    obtain ⟨id, hid, status, -, cycleCount, hcycles, criteria, hcriteria, rfl⟩ := hy
    have hid := nonempty_reads.required_settled hid
    have hcycles := (counterUpTo_reads 5).required_settled hcycles
    have hcriteria := Criterion.reads.array.required_settled hcriteria
    exact ⟨⟨hid.1, hcycles.1, hcriteria.1⟩, by simp [tidy, hid.2, hcriteria.2]⟩

theorem reads : Reads goalSchema encodeGoal Ok tidy :=
  (fields_read.refine _).of_iff fun goal ↦ by simp [ok_iff, and_assoc]

end Goal

namespace UlwLoopPayload

@[mk_iff] structure FieldsOk (payload : UlwLoopPayload) : Prop where
  objective : ∀ s ∈ payload.objective, trim s ≠ ""
  annotationText : ∀ s ∈ payload.annotationText, utf16Length s ≤ 512
  activeGoalId : ∀ s ∈ payload.activeGoalId, trim s ≠ ""
  goals : ∀ goal ∈ payload.goals, goal.Ok

/-- The refinement of the ULW schemas, on ids as they are once trimmed. -/
@[mk_iff] structure Refined (payload : UlwLoopPayload) : Prop where
  goalIds : (payload.goalIds.map trim).Nodup
  criterionIds : (payload.criterionIds.map trim).Nodup
  activeGoal : (payload.inProgress.map fun goal ↦ trim goal.id) = (payload.activeGoalId.map trim).toList

def tidy (payload : UlwLoopPayload) : UlwLoopPayload :=
  { payload with
    objective := payload.objective.map trim
    activeGoalId := payload.activeGoalId.map trim
    goals := payload.goals.map Goal.tidy }

theorem inProgress_tidy (payload : UlwLoopPayload) :
    payload.tidy.inProgress = payload.inProgress.map Goal.tidy := by
  simp only [inProgress, tidy, List.filter_map]
  rfl

theorem refineUlwLoop_tidy (payload : UlwLoopPayload) :
    refineUlwLoop payload.tidy = true ↔ payload.Refined := by
  have hgoals : payload.tidy.goalIds = payload.goalIds.map trim := by
    simp [goalIds, tidy, Goal.tidy]
  have hcriteria : payload.tidy.criterionIds = payload.criterionIds.map trim := by
    simp [criterionIds, tidy, List.flatMap_map, List.map_flatMap]
  have hactive : payload.tidy.activeGoalMatches = true ↔
      (payload.inProgress.map fun goal ↦ trim goal.id) = (payload.activeGoalId.map trim).toList := by
    rw [activeGoalMatches, inProgress_tidy]
    cases h : payload.activeGoalId with
    | none => simp [tidy, h]
    | some activeGoalId =>
      simp only [tidy, h, Option.map_some, Option.toList_some, List.map_map, decide_eq_true_eq]
      rfl
  simp only [refineUlwLoop, Bool.and_eq_true, decide_eq_true_eq, hgoals, hcriteria, hactive,
    refined_iff, and_assoc]

theorem fields_read : Reads ulwLoopPayloadSchema encodeUlwLoopPayload FieldsOk tidy where
  encoded x y := by
    simp only [ulwLoopPayloadSchema, encodeUlwLoopPayload, strictObject_object,
      List.forall_mem_cons, List.forall_mem_append, keys_optional]
    simp [required, Schema.optional, Option.bind_eq_some_iff, literal, nonempty_reads.ifPresent_iff,
      annotation_reads.ifPresent_iff, ulwLoopStatus_reads.encoded, nullableString_reads.encoded,
      Goal.reads.array.encoded, and_assoc, fieldsOk_iff, tidy]
  settled j y hy := by
    obtain ⟨fields, -, hy⟩ := strictObject_eq_some hy
    simp only [Option.bind_eq_bind, Option.bind_eq_some_iff, Option.pure_def, Option.some.injEq] at hy
    obtain ⟨-, -, objective, hobjective, annotationText, htext, status, -, activeGoalId, hactive,
      goals, hgoals, rfl⟩ := hy
    have hobjective := nonempty_reads.optional_settled hobjective
    have htext := annotation_reads.optional_settled htext
    have hactive := nullableString_reads.required_settled hactive
    have hgoals := Goal.reads.array.required_settled hgoals
    exact ⟨⟨hobjective.1, htext.1, hactive.1, hgoals.1⟩,
      by simp [tidy, hobjective.2, hactive.2, hgoals.2]⟩

@[mk_iff] structure Ok (payload : UlwLoopPayload) : Prop where
  fields : payload.FieldsOk
  refined : payload.Refined

theorem reads : Reads (ulwLoopPayloadSchema.refine refineUlwLoop) encodeUlwLoopPayload Ok tidy :=
  (fields_read.refine _).of_iff fun payload ↦ by rw [refineUlwLoop_tidy, ok_iff]

end UlwLoopPayload

namespace Payload

def Ok : Payload → Prop
  | .startWork payload => payload.plan.Ok
  | .ulwLoop payload => payload.Ok

def tidy : Payload → Payload
  | .startWork payload => .startWork payload.tidy
  | .ulwLoop payload => .ulwLoop payload.tidy

/-- The payload schema of a workflow. -/
def schemaOf : WorkflowKind → Schema Payload
  | .startWork => startWorkSchema
  | .ulwLoop => ulwLoopSchema

theorem schemaOf_encoded (x y : Payload) :
    schemaOf x.workflow (encodePayload x) = some y ↔ x.Ok ∧ x.tidy = y := by
  cases x with
  | startWork payload =>
    simp only [schemaOf, workflow, startWorkSchema, encodePayload, Option.map_eq_some_iff,
      StartWorkPayload.reads.encoded, Ok, tidy]
    constructor
    · rintro ⟨_, ⟨hp, rfl⟩, rfl⟩
      exact ⟨hp, rfl⟩
    · rintro ⟨hp, rfl⟩
      exact ⟨_, ⟨hp, rfl⟩, rfl⟩
  | ulwLoop payload =>
    simp only [schemaOf, workflow, ulwLoopSchema, encodePayload, Option.map_eq_some_iff,
      UlwLoopPayload.reads.encoded, Ok, tidy]
    constructor
    · rintro ⟨_, ⟨hp, rfl⟩, rfl⟩
      exact ⟨hp, rfl⟩
    · rintro ⟨hp, rfl⟩
      exact ⟨_, ⟨hp, rfl⟩, rfl⟩

theorem schemaOf_settled {workflow : WorkflowKind} {j : Json} {y : Payload}
    (hy : schemaOf workflow j = some y) : y.workflow = workflow ∧ y.Ok ∧ y.tidy = y := by
  cases workflow with
  | startWork =>
    obtain ⟨payload, hp, rfl⟩ := Option.map_eq_some_iff.mp hy
    obtain ⟨hok, htidy⟩ := StartWorkPayload.reads.settled j payload hp
    exact ⟨rfl, hok, congrArg Payload.startWork htidy⟩
  | ulwLoop =>
    obtain ⟨payload, hp, rfl⟩ := Option.map_eq_some_iff.mp hy
    obtain ⟨hok, htidy⟩ := UlwLoopPayload.reads.settled j payload hp
    exact ⟨rfl, hok, congrArg Payload.ulwLoop htidy⟩

end Payload

namespace RunVersion

def Ok : RunVersion → Prop
  | .v1 => True
  | .v2 packetHash expectedHead =>
    (∀ s ∈ packetHash, isLowerHexOf 64 s = true) ∧ ∀ s ∈ expectedHead, trim s ≠ ""

def tidy : RunVersion → RunVersion
  | .v1 => .v1
  | .v2 packetHash expectedHead => .v2 packetHash (expectedHead.map trim)

end RunVersion

namespace AnyRun

@[mk_iff] structure Ok (run : AnyRun) : Prop where
  version : run.version.Ok
  runId : isUuid run.runId = true
  revision : run.revision ≤ maxSafeInteger
  transactionRevision : run.transactionRevision ≤ maxSafeInteger
  owner : run.owner.Ok
  progressRevision : run.progressRevision ≤ maxSafeInteger
  continuation : run.continuation.Ok
  createdAt : isIsoDatetime run.createdAt = true
  updatedAt : isIsoDatetime run.updatedAt = true
  payload : run.payload.Ok

def tidy (run : AnyRun) : AnyRun :=
  { run with
    version := run.version.tidy
    owner := run.owner.tidy
    continuation := run.continuation.tidy
    payload := run.payload.tidy }

theorem envelopeFields_settled {fields : List (String × Json)} {version : RunVersion}
    {workflow : WorkflowKind} {y : AnyRun} (hversion : version.Ok) (htidy : version.tidy = version)
    (hy : envelopeFields fields version workflow (Payload.schemaOf workflow) = some y) :
    y.Ok ∧ y.tidy = y := by
  simp only [envelopeFields, Option.bind_eq_bind, Option.bind_eq_some_iff, Option.pure_def,
    Option.some.injEq] at hy
  obtain ⟨-, -, runId, hid, revision, hrevision, transactionRevision, htransaction, owner, howner,
    progressRevision, hprogress, continuation, hcontinuation, createdAt, hcreated, updatedAt, hupdated,
    -, -, payload, hpayload, rfl⟩ := hy
  have hid := uuid_reads.required_settled hid
  have hrevision := counter_reads.required_settled hrevision
  have htransaction := counter_reads.required_settled htransaction
  have howner := Owner.reads.required_settled howner
  have hprogress := counter_reads.required_settled hprogress
  have hcontinuation := Continuation.reads.required_settled hcontinuation
  have hcreated := timestamp_reads.required_settled hcreated
  have hupdated := timestamp_reads.required_settled hupdated
  obtain ⟨j, -, hj⟩ := required_eq_some.mp hpayload
  obtain ⟨-, hok, hfixed⟩ := Payload.schemaOf_settled hj
  exact ⟨⟨hversion, hid.1, hrevision.1, htransaction.1, howner.1, hprogress.1, hcontinuation.1,
    hcreated.1, hupdated.1, hok⟩, by simp [tidy, htidy, howner.2, hcontinuation.2, hfixed]⟩

theorem runV1Schema_settled {workflow : WorkflowKind} {j : Json} {y : AnyRun}
    (hy : runV1Schema workflow (Payload.schemaOf workflow) j = some y) : y.Ok ∧ y.tidy = y := by
  obtain ⟨fields, -, hy⟩ := strictObject_eq_some hy
  refine envelopeFields_settled ?_ ?_ hy
  · exact trivial
  · rfl

theorem runV2Schema_settled {workflow : WorkflowKind} {j : Json} {y : AnyRun}
    (hy : runV2Schema workflow (Payload.schemaOf workflow) j = some y) : y.Ok ∧ y.tidy = y := by
  obtain ⟨fields, -, hy⟩ := strictObject_eq_some hy
  simp only [Option.bind_eq_bind, Option.bind_eq_some_iff] at hy
  obtain ⟨packetHash, hpacket, expectedHead, hhead, hy⟩ := hy
  have hpacket := nullableHash_reads.required_settled hpacket
  have hhead := nullableString_reads.required_settled hhead
  refine envelopeFields_settled ?_ ?_ hy
  · exact ⟨hpacket.1, hhead.1⟩
  · simp [RunVersion.tidy, hhead.2]

theorem runV1Schema_encoded {workflow : WorkflowKind} (x y : AnyRun) :
    runV1Schema workflow (Payload.schemaOf workflow) (encodeRun x) = some y ↔
      x.version = .v1 ∧ x.workflow = workflow ∧ x.Ok ∧ x.tidy = y := by
  obtain ⟨version, runId, revision, transactionRevision, owner, progressRevision, continuation,
    createdAt, updatedAt, payload⟩ := x
  cases version with
  | v1 =>
    by_cases hw : payload.workflow = workflow
    · subst hw
      simp [runV1Schema, runKeys, encodeRun, encodeRunVersion, strictObject_object, envelopeFields,
        required, literal, Option.bind_eq_some_iff, uuid_reads.encoded, counter_reads.encoded,
        Owner.reads.encoded, Continuation.reads.encoded, timestamp_reads.encoded,
        Payload.schemaOf_encoded, ok_iff, RunVersion.Ok, tidy, RunVersion.tidy, AnyRun.workflow,
        and_assoc]
    · simp [runV1Schema, encodeRun, strictObject_object, envelopeFields, required, literal,
        WorkflowKind.text_inj, AnyRun.workflow, hw]
  | v2 packetHash expectedHead =>
    simp [runV1Schema, encodeRun, encodeRunVersion, strictObject_object, runKeys]

theorem runV2Schema_encoded {workflow : WorkflowKind} (x y : AnyRun) :
    runV2Schema workflow (Payload.schemaOf workflow) (encodeRun x) = some y ↔
      x.version ≠ .v1 ∧ x.workflow = workflow ∧ x.Ok ∧ x.tidy = y := by
  obtain ⟨version, runId, revision, transactionRevision, owner, progressRevision, continuation,
    createdAt, updatedAt, payload⟩ := x
  cases version with
  | v1 => simp [runV2Schema, encodeRun, encodeRunVersion, strictObject_object, required]
  | v2 packetHash expectedHead =>
    by_cases hw : payload.workflow = workflow
    · subst hw
      simp [runV2Schema, runKeys, encodeRun, encodeRunVersion, strictObject_object, envelopeFields,
        RunVersion.number, required, literal, Option.bind_eq_some_iff, uuid_reads.encoded,
        counter_reads.encoded, Owner.reads.encoded, Continuation.reads.encoded,
        timestamp_reads.encoded, nullableHash_reads.encoded, nullableString_reads.encoded,
        Payload.schemaOf_encoded, ok_iff, RunVersion.Ok, tidy, RunVersion.tidy, AnyRun.workflow,
        and_assoc]
    · simp [runV2Schema, encodeRun, strictObject_object, envelopeFields, required, literal,
        WorkflowKind.text_inj, AnyRun.workflow, hw]

theorem runSchema_eq_some {j : Json} {y : AnyRun} (hy : runSchema j = some y) :
    ∃ workflow, runV1Schema workflow (Payload.schemaOf workflow) j = some y ∨
      runV2Schema workflow (Payload.schemaOf workflow) j = some y := by
  simp only [runSchema, union, Option.or_eq_some_iff] at hy
  obtain h | ⟨-, h | ⟨-, h | ⟨-, h⟩⟩⟩ := hy
  · exact ⟨.startWork, .inl h⟩
  · exact ⟨.startWork, .inr h⟩
  · exact ⟨.ulwLoop, .inl h⟩
  · exact ⟨.ulwLoop, .inr h⟩

theorem isSome_runSchema {workflow : WorkflowKind} {j : Json} {y : AnyRun}
    (hy : runV1Schema workflow (Payload.schemaOf workflow) j = some y ∨
      runV2Schema workflow (Payload.schemaOf workflow) j = some y) : (runSchema j).isSome = true := by
  simp only [runSchema, union, Option.isSome_or, Bool.or_eq_true, Option.isSome_iff_exists]
  cases workflow with
  | startWork => exact hy.elim (fun h ↦ .inl ⟨y, h⟩) fun h ↦ .inr (.inl ⟨y, h⟩)
  | ulwLoop => exact .inr (.inr (hy.imp (fun h ↦ ⟨y, h⟩) fun h ↦ ⟨y, h⟩))

theorem reads : Reads runSchema encodeRun Ok tidy where
  encoded x y := by
    have read : ∀ z, runSchema (encodeRun x) = some z → x.Ok ∧ x.tidy = z := fun z hz ↦ by
      obtain ⟨workflow, h | h⟩ := runSchema_eq_some hz
      · exact ((runV1Schema_encoded x z).mp h).2.2
      · exact ((runV2Schema_encoded x z).mp h).2.2
    refine ⟨read y, ?_⟩
    rintro ⟨hok, rfl⟩
    have hsome : (runSchema (encodeRun x)).isSome = true := by
      by_cases hv : x.version = .v1
      · exact isSome_runSchema (.inl ((runV1Schema_encoded x _).mpr ⟨hv, rfl, hok, rfl⟩))
      · exact isSome_runSchema (.inr ((runV2Schema_encoded x _).mpr ⟨hv, rfl, hok, rfl⟩))
    obtain ⟨z, hz⟩ := Option.isSome_iff_exists.mp hsome
    rw [hz, (read z hz).2]
  settled j y hy := by
    obtain ⟨workflow, h | h⟩ := runSchema_eq_some hy
    · exact runV1Schema_settled h
    · exact runV2Schema_settled h

end AnyRun

/-! The active index. -/

namespace ActiveIndexEntry

@[mk_iff] structure Ok (entry : ActiveIndexEntry) : Prop where
  sessionId : trim entry.sessionId ≠ ""
  runId : isUuid entry.runId = true
  ownerEpoch : entry.ownerEpoch ≤ maxSafeInteger
  runRevision : entry.runRevision ≤ maxSafeInteger
  transactionRevision : entry.transactionRevision ≤ maxSafeInteger

def tidy (entry : ActiveIndexEntry) : ActiveIndexEntry :=
  { entry with sessionId := trim entry.sessionId }

theorem reads : Reads entrySchema encodeEntry Ok tidy where
  encoded x y := by
    simp [entrySchema, encodeEntry, strictObject_object, required, Option.bind_eq_some_iff,
      workflowKind_reads.encoded, nonempty_reads.encoded, uuid_reads.encoded, counter_reads.encoded,
      statusHint_reads.encoded, and_assoc, ok_iff, tidy]
  settled j y hy := by
    obtain ⟨fields, -, hy⟩ := strictObject_eq_some hy
    simp only [Option.bind_eq_bind, Option.bind_eq_some_iff, Option.pure_def, Option.some.injEq] at hy
    obtain ⟨workflow, -, sessionId, hsession, runId, hid, ownerEpoch, hepoch, runRevision, hrevision,
      transactionRevision, htransaction, statusHint, -, rfl⟩ := hy
    have hsession := nonempty_reads.required_settled hsession
    have hid := uuid_reads.required_settled hid
    have hepoch := counter_reads.required_settled hepoch
    have hrevision := counter_reads.required_settled hrevision
    have htransaction := counter_reads.required_settled htransaction
    exact ⟨⟨hsession.1, hid.1, hepoch.1, hrevision.1, htransaction.1⟩, by simp [tidy, hsession.2]⟩

end ActiveIndexEntry

namespace IndexVersion

def Ok : IndexVersion → Prop
  | .v1 => True
  | .v2 migrationRevision => migrationRevision ≤ maxSafeInteger ∧ 0 < migrationRevision

end IndexVersion

namespace ActiveIndex

@[mk_iff] structure Ok (index : ActiveIndex) : Prop where
  version : index.version.Ok
  revision : index.revision ≤ maxSafeInteger
  entries : ∀ entry ∈ index.entries, entry.Ok

def tidy (index : ActiveIndex) : ActiveIndex :=
  { index with entries := index.entries.map ActiveIndexEntry.tidy }

theorem fields_settled {fields : List (String × Json)} {version : IndexVersion} {y : ActiveIndex}
    (hversion : version.Ok) (hy : activeIndexFields fields version = some y) :
    y.Ok ∧ y.tidy = y := by
  simp only [activeIndexFields, Option.bind_eq_bind, Option.bind_eq_some_iff, Option.pure_def,
    Option.some.injEq] at hy
  obtain ⟨revision, hrevision, entries, hentries, rfl⟩ := hy
  have hrevision := counter_reads.required_settled hrevision
  have hentries := ActiveIndexEntry.reads.array.required_settled hentries
  exact ⟨⟨hversion, hrevision.1, hentries.1⟩, by simp [tidy, hentries.2]⟩

theorem reads : Reads activeIndexSchema encodeActiveIndex Ok tidy where
  encoded x y := by
    obtain ⟨version, revision, entries⟩ := x
    cases version with
    | v1 =>
      have hv2 : activeIndexV2Schema (encodeActiveIndex ⟨.v1, revision, entries⟩) = none := by
        simp [activeIndexV2Schema, encodeActiveIndex, encodeIndexVersion, strictObject, required,
          literal, Json.nat]
      rw [activeIndexSchema, union, hv2, Option.or_none]
      simp [activeIndexV1Schema, encodeActiveIndex, encodeIndexVersion, strictObject_object, required, literal, activeIndexFields,
        Option.bind_eq_some_iff, counter_reads.encoded, ActiveIndexEntry.reads.array.encoded,
        ok_iff, IndexVersion.Ok, tidy, and_assoc]
    | v2 migrationRevision =>
      have hv1 : activeIndexV1Schema (encodeActiveIndex ⟨.v2 migrationRevision, revision, entries⟩) =
          none := by
        simp [activeIndexV1Schema, encodeActiveIndex, encodeIndexVersion, strictObject]
      rw [activeIndexSchema, union, hv1, Option.none_or]
      simp [activeIndexV2Schema, encodeActiveIndex, encodeIndexVersion, strictObject_object, required, literal, activeIndexFields,
        Option.bind_eq_some_iff, counter_reads.encoded, positiveCounter_reads.encoded,
        ActiveIndexEntry.reads.array.encoded, ok_iff, IndexVersion.Ok, tidy, and_assoc]
  settled j y hy := by
    obtain h | ⟨-, h⟩ := Option.or_eq_some_iff.mp hy
    · obtain ⟨fields, -, h⟩ := strictObject_eq_some h
      simp only [Option.bind_eq_bind, Option.bind_eq_some_iff] at h
      obtain ⟨-, -, h⟩ := h
      refine fields_settled ?_ h
      exact trivial
    · obtain ⟨fields, -, h⟩ := strictObject_eq_some h
      simp only [Option.bind_eq_bind, Option.bind_eq_some_iff] at h
      obtain ⟨-, -, migrationRevision, hmigration, h⟩ := h
      refine fields_settled ?_ h
      exact (positiveCounter_reads.required_settled hmigration).1

end ActiveIndex

end OmpLazy.State

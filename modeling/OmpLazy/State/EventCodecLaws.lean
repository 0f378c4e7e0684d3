import OmpLazy.State.CodecLaws

namespace OmpLazy.State

open OmpLazy.Foundation OmpLazy.Foundation.Schema OmpLazy.Foundation.Text

/-! Mutations. -/

namespace SteeredCriterion

@[mk_iff] structure Ok (criterion : SteeredCriterion) : Prop where
  id : trim criterion.id ≠ ""
  scenario : trim criterion.scenario ≠ ""
  observable : trim criterion.observable ≠ ""
  evidenceLogicalId : trim criterion.evidenceLogicalId ≠ ""

def tidy (criterion : SteeredCriterion) : SteeredCriterion :=
  ⟨trim criterion.id, trim criterion.scenario, trim criterion.observable,
    trim criterion.evidenceLogicalId⟩

theorem reads : Reads steeredCriterionSchema encodeSteeredCriterion Ok tidy where
  encoded x y := by
    simp [steeredCriterionSchema, encodeSteeredCriterion, strictObject_object, required,
      Option.bind_eq_some_iff, nonempty_reads.encoded, and_assoc, ok_iff, tidy]
  settled j y hy := by
    obtain ⟨fields, -, hy⟩ := strictObject_eq_some hy
    simp only [Option.bind_eq_bind, Option.bind_eq_some_iff, Option.pure_def, Option.some.injEq] at hy
    obtain ⟨id, hid, scenario, hscenario, observable, hobservable, logicalId, hlogical, rfl⟩ := hy
    have hid := nonempty_reads.required_settled hid
    have hscenario := nonempty_reads.required_settled hscenario
    have hobservable := nonempty_reads.required_settled hobservable
    have hlogical := nonempty_reads.required_settled hlogical
    exact ⟨⟨hid.1, hscenario.1, hobservable.1, hlogical.1⟩,
      by simp [tidy, hid.2, hscenario.2, hobservable.2, hlogical.2]⟩

theorem array_reads :
    Reads (steeredCriterionSchema.array.refine fun criteria ↦ 1 ≤ criteria.length)
      (fun criteria ↦ .array (criteria.map encodeSteeredCriterion))
      (fun criteria ↦ (∀ criterion ∈ criteria, criterion.Ok) ∧ 1 ≤ criteria.length)
      (List.map tidy) :=
  (reads.array.refine _).of_iff (by simp)

end SteeredCriterion

namespace Settlement

@[mk_iff] structure Ok (settlement : Settlement) : Prop where
  goalId : trim settlement.goalId ≠ ""
  criterionId : trim settlement.criterionId ≠ ""
  acceptanceId : ∀ s ∈ settlement.acceptanceId, trim s ≠ ""
  evidenceRef : trim settlement.evidenceRef ≠ ""
  captureRevision : settlement.captureRevision ≤ maxSafeInteger
  captureCommit : trim settlement.captureCommit ≠ ""

def tidy (settlement : Settlement) : Settlement :=
  { settlement with
    goalId := trim settlement.goalId
    criterionId := trim settlement.criterionId
    acceptanceId := settlement.acceptanceId.map trim
    evidenceRef := trim settlement.evidenceRef
    captureCommit := trim settlement.captureCommit }

end Settlement

namespace StateMutation

def FieldsOk : StateMutation → Prop
  | .runCreated run => run.Ok
  | .workflowControlled _ => True
  | .ownerAdopted sessionId => trim sessionId ≠ ""
  | .planReconciled taskIds remainingTaskIds taskFingerprint =>
    UniqueStrings taskIds ∧ (∀ ids ∈ remainingTaskIds, UniqueStrings ids) ∧
      isLowerHexOf 64 taskFingerprint = true
  | .workflowSteered criteria annotationText =>
    ((∀ criterion ∈ criteria, criterion.Ok) ∧ 1 ≤ criteria.length) ∧
      ∀ s ∈ annotationText, utf16Length s ≤ 512
  | .criterionSettled settlement => settlement.Ok
  | .taskEvidenceAccepted taskId acceptanceId => trim taskId ≠ "" ∧ trim acceptanceId ≠ ""
  | .workflowTerminal _ acceptanceIds taskId =>
    (∀ ids ∈ acceptanceIds, UniqueStrings ids) ∧ ∀ s ∈ taskId, trim s ≠ ""
  | .continuationAttempted leafId progressRevision =>
    trim leafId ≠ "" ∧ progressRevision ≤ maxSafeInteger
  | .continuationStuck leafId => trim leafId ≠ ""
  | .goalCycleStarted goalId => trim goalId ≠ ""
  | .criterionFailureRecorded goalId criterionId fingerprint =>
    trim goalId ≠ "" ∧ trim criterionId ≠ "" ∧ trim fingerprint ≠ ""

def Ok (mutation : StateMutation) : Prop :=
  mutation.FieldsOk ∧ terminalAuthorityMatches mutation = true

def tidy : StateMutation → StateMutation
  | .runCreated run => .runCreated run.tidy
  | .workflowControlled control => .workflowControlled control
  | .ownerAdopted sessionId => .ownerAdopted (trim sessionId)
  | .planReconciled taskIds remainingTaskIds taskFingerprint =>
    .planReconciled (taskIds.map trim) (remainingTaskIds.map (List.map trim)) taskFingerprint
  | .workflowSteered criteria annotationText =>
    .workflowSteered (criteria.map SteeredCriterion.tidy) annotationText
  | .criterionSettled settlement => .criterionSettled settlement.tidy
  | .taskEvidenceAccepted taskId acceptanceId => .taskEvidenceAccepted (trim taskId) (trim acceptanceId)
  | .workflowTerminal status acceptanceIds taskId =>
    .workflowTerminal status (acceptanceIds.map (List.map trim)) (taskId.map trim)
  | .continuationAttempted leafId progressRevision =>
    .continuationAttempted (trim leafId) progressRevision
  | .continuationStuck leafId => .continuationStuck (trim leafId)
  | .goalCycleStarted goalId => .goalCycleStarted (trim goalId)
  | .criterionFailureRecorded goalId criterionId fingerprint =>
    .criterionFailureRecorded (trim goalId) (trim criterionId) (trim fingerprint)

theorem keys_mutationFields (mutation : StateMutation) :
    ∀ f ∈ mutationFields mutation, f.1 ∈ mutationKeys mutation.kind := by
  cases mutation <;>
    simp only [mutationFields, mutationKeys, kind, List.forall_mem_cons, List.forall_mem_append,
      keys_optional] <;> simp

theorem mutationBody_encoded (x y : StateMutation) (k : Json) :
    mutationBody (("kind", k) :: mutationFields x) x.kind = some y ↔ x.FieldsOk ∧ x.tidy = y := by
  cases x <;>
    simp [mutationBody, mutationFields, kind, required, Schema.optional, Option.bind_eq_some_iff,
      AnyRun.reads.encoded, control_reads.encoded, nonempty_reads.encoded, counter_reads.encoded,
      hash_reads.encoded, uniqueStrings_reads.encoded, uniqueStrings_reads.ifPresent_iff,
      nonempty_reads.ifPresent_iff, annotation_reads.ifPresent_iff, terminalStatus_reads.encoded,
      SteeredCriterion.array_reads.encoded, FieldsOk, tidy, Settlement.ok_iff, Settlement.tidy,
      and_assoc]

theorem mutationBody_settled {fields : List (String × Json)} {kind : MutationKind}
    {y : StateMutation} (hy : mutationBody fields kind = some y) :
    y.kind = kind ∧ y.FieldsOk ∧ y.tidy = y := by
  cases kind <;>
    simp only [mutationBody, Option.bind_eq_bind, Option.bind_eq_some_iff, Option.map_eq_some_iff,
      Option.pure_def, Option.some.injEq] at hy
  case runCreated =>
    obtain ⟨run, hrun, rfl⟩ := hy
    have hrun := AnyRun.reads.required_settled hrun
    exact ⟨rfl, hrun.1, by simp [tidy, hrun.2]⟩
  case workflowControlled =>
    obtain ⟨control, -, rfl⟩ := hy
    exact ⟨rfl, trivial, rfl⟩
  case ownerAdopted =>
    obtain ⟨sessionId, hsession, rfl⟩ := hy
    have hsession := nonempty_reads.required_settled hsession
    exact ⟨rfl, hsession.1, by simp [tidy, hsession.2]⟩
  case planReconciled =>
    obtain ⟨taskIds, htasks, remainingTaskIds, hremaining, taskFingerprint, hfingerprint, rfl⟩ := hy
    have htasks := uniqueStrings_reads.required_settled htasks
    have hremaining := uniqueStrings_reads.optional_settled hremaining
    have hfingerprint := hash_reads.required_settled hfingerprint
    exact ⟨rfl, ⟨htasks.1, hremaining.1, hfingerprint.1⟩, by simp [tidy, htasks.2, hremaining.2]⟩
  case workflowSteered =>
    obtain ⟨criteria, hcriteria, annotationText, htext, rfl⟩ := hy
    have hcriteria := SteeredCriterion.array_reads.required_settled hcriteria
    have htext := annotation_reads.optional_settled htext
    exact ⟨rfl, ⟨hcriteria.1, htext.1⟩, by simp [tidy, hcriteria.2]⟩
  case criterionSettled =>
    obtain ⟨goalId, hgoal, criterionId, hcriterion, acceptanceId, hacceptance, evidenceRef,
      hevidence, captureRevision, hrevision, captureCommit, hcommit, rfl⟩ := hy
    have hgoal := nonempty_reads.required_settled hgoal
    have hcriterion := nonempty_reads.required_settled hcriterion
    have hacceptance := nonempty_reads.optional_settled hacceptance
    have hevidence := nonempty_reads.required_settled hevidence
    have hrevision := counter_reads.required_settled hrevision
    have hcommit := nonempty_reads.required_settled hcommit
    exact ⟨rfl, ⟨hgoal.1, hcriterion.1, hacceptance.1, hevidence.1, hrevision.1, hcommit.1⟩,
      by simp [tidy, Settlement.tidy, hgoal.2, hcriterion.2, hacceptance.2, hevidence.2, hcommit.2]⟩
  case taskEvidenceAccepted =>
    obtain ⟨taskId, htask, acceptanceId, hacceptance, rfl⟩ := hy
    have htask := nonempty_reads.required_settled htask
    have hacceptance := nonempty_reads.required_settled hacceptance
    exact ⟨rfl, ⟨htask.1, hacceptance.1⟩, by simp [tidy, htask.2, hacceptance.2]⟩
  case workflowTerminal =>
    obtain ⟨status, -, acceptanceIds, hacceptance, taskId, htask, rfl⟩ := hy
    have hacceptance := uniqueStrings_reads.optional_settled hacceptance
    have htask := nonempty_reads.optional_settled htask
    exact ⟨rfl, ⟨hacceptance.1, htask.1⟩, by simp [tidy, hacceptance.2, htask.2]⟩
  case continuationAttempted =>
    obtain ⟨leafId, hleaf, progressRevision, hprogress, rfl⟩ := hy
    have hleaf := nonempty_reads.required_settled hleaf
    have hprogress := counter_reads.required_settled hprogress
    exact ⟨rfl, ⟨hleaf.1, hprogress.1⟩, by simp [tidy, hleaf.2]⟩
  case continuationStuck =>
    obtain ⟨leafId, hleaf, rfl⟩ := hy
    have hleaf := nonempty_reads.required_settled hleaf
    exact ⟨rfl, hleaf.1, by simp [tidy, hleaf.2]⟩
  case goalCycleStarted =>
    obtain ⟨goalId, hgoal, rfl⟩ := hy
    have hgoal := nonempty_reads.required_settled hgoal
    exact ⟨rfl, hgoal.1, by simp [tidy, hgoal.2]⟩
  case criterionFailureRecorded =>
    obtain ⟨goalId, hgoal, criterionId, hcriterion, fingerprint, hfingerprint, rfl⟩ := hy
    have hgoal := nonempty_reads.required_settled hgoal
    have hcriterion := nonempty_reads.required_settled hcriterion
    have hfingerprint := nonempty_reads.required_settled hfingerprint
    exact ⟨rfl, ⟨hgoal.1, hcriterion.1, hfingerprint.1⟩,
      by simp [tidy, hgoal.2, hcriterion.2, hfingerprint.2]⟩

theorem terminalAuthorityMatches_tidy (mutation : StateMutation) :
    terminalAuthorityMatches mutation.tidy = terminalAuthorityMatches mutation := by
  cases mutation with
  | workflowTerminal status acceptanceIds taskId => cases status <;> simp [terminalAuthorityMatches, tidy]
  | _ => rfl

theorem reads : Reads mutationSchema encodeMutation Ok tidy where
  encoded x y := by
    have hkind : mutationKindSchema (.string x.kind.text) = some x.kind :=
      (mutationKind_reads.fixed_iff x.kind).mpr ⟨trivial, rfl⟩
    have hkeys : ∀ f ∈ ("kind", Json.string x.kind.text) :: mutationFields x,
        f.1 ∈ "kind" :: mutationKeys x.kind :=
      List.forall_mem_cons.mpr ⟨List.mem_cons_self, fun f hf ↦
        List.mem_cons_of_mem _ (keys_mutationFields x f hf)⟩
    simp only [mutationSchema, Schema.refine, encodeMutation, Json.get?, Json.member_cons, if_true,
      Option.bind_eq_bind, Option.bind_some, hkind, Option.filter_eq_some_iff,
      strictObject_object, mutationBody_encoded, Ok]
    constructor
    · rintro ⟨⟨-, hx, rfl⟩, ht⟩
      exact ⟨⟨hx, by rwa [terminalAuthorityMatches_tidy] at ht⟩, rfl⟩
    · rintro ⟨⟨hx, ht⟩, rfl⟩
      exact ⟨⟨hkeys, hx, rfl⟩, by rwa [terminalAuthorityMatches_tidy]⟩
  settled j y hy := by
    obtain ⟨hy, ht⟩ := Option.filter_eq_some_iff.mp hy
    obtain ⟨kind, -, hy⟩ := Option.bind_eq_some_iff.mp hy
    obtain ⟨fields, -, hy⟩ := strictObject_eq_some hy
    obtain ⟨-, hok, htidy⟩ := mutationBody_settled hy
    exact ⟨⟨hok, ht⟩, htidy⟩

@[simp] theorem kind_tidy (mutation : StateMutation) : mutation.tidy.kind = mutation.kind := by
  cases mutation <;> rfl

end StateMutation

/-! Events. -/

namespace Expected

@[mk_iff] structure Ok (expected : Expected) : Prop where
  indexRevision : expected.indexRevision ≤ maxSafeInteger
  runRevision : ∀ n ∈ expected.runRevision, n ≤ maxSafeInteger
  ownerSessionId : ∀ s ∈ expected.ownerSessionId, trim s ≠ ""
  ownerEpoch : ∀ n ∈ expected.ownerEpoch, n ≤ maxSafeInteger

def tidy (expected : Expected) : Expected :=
  { expected with ownerSessionId := expected.ownerSessionId.map trim }

theorem fields_settled {fields : List (String × Json)} {y : Expected}
    (hy : expectedFields fields = some y) : y.Ok ∧ y.tidy = y := by
  simp only [expectedFields, Option.bind_eq_bind, Option.bind_eq_some_iff, Option.pure_def,
    Option.some.injEq] at hy
  obtain ⟨indexRevision, hindex, runRevision, hrun, ownerSessionId, hsession, ownerEpoch, hepoch,
    rfl⟩ := hy
  have hindex := counter_reads.required_settled hindex
  have hrun := nullableNat_reads.required_settled hrun
  have hsession := nullableString_reads.required_settled hsession
  have hepoch := nullableNat_reads.required_settled hepoch
  exact ⟨⟨hindex.1, hrun.1, hsession.1, hepoch.1⟩, by simp [tidy, hsession.2]⟩

theorem reads : Reads expectedSchema (encodeExpected .v1) Ok tidy where
  encoded x y := by
    simp [expectedSchema, expectedKeys, encodeExpected, encodeExpectedVersion, strictObject_object,
      expectedFields, required, Option.bind_eq_some_iff, counter_reads.encoded,
      nullableNat_reads.encoded, nullableString_reads.encoded, and_assoc, ok_iff, tidy]
  settled j y hy := by
    obtain ⟨fields, -, hy⟩ := strictObject_eq_some hy
    exact fields_settled hy

end Expected

namespace EventVersion

def Ok : EventVersion → Prop
  | .v1 => True
  | .v2 expectedHead taskGeneration legacyHeadUnbound =>
    ((∀ s ∈ expectedHead, trim s ≠ "") ∧ ∀ n ∈ taskGeneration, n ≤ maxSafeInteger ∧ 0 < n) ∧
      (legacyHeadUnbound = true → expectedHead = none)

def tidy : EventVersion → EventVersion
  | .v1 => .v1
  | .v2 expectedHead taskGeneration legacyHeadUnbound =>
    .v2 (expectedHead.map trim) taskGeneration legacyHeadUnbound

end EventVersion

theorem Expected.v2_encoded (x : Expected) (head : Option String) (generation : Option ℕ)
    (legacy : Bool) (y : Expected × Option String × Option ℕ) :
    expectedV2Schema (encodeExpected (.v2 head generation legacy) x) = some y ↔
      (x.Ok ∧ (∀ s ∈ head, trim s ≠ "") ∧ ∀ n ∈ generation, n ≤ maxSafeInteger ∧ 0 < n) ∧
        (x.tidy, head.map trim, generation) = y := by
  simp [expectedV2Schema, expectedKeys, encodeExpected, encodeExpectedVersion, strictObject_object,
    expectedFields, required, Option.bind_eq_some_iff, counter_reads.encoded,
    nullableNat_reads.encoded, nullableString_reads.encoded, nullablePositive_reads.encoded,
    and_assoc, ok_iff, tidy]

theorem Expected.v2_settled {j : Json} {y : Expected} {head : Option String} {generation : Option ℕ}
    (hy : expectedV2Schema j = some (y, head, generation)) :
    (y.Ok ∧ (∀ s ∈ head, trim s ≠ "") ∧ ∀ n ∈ generation, n ≤ maxSafeInteger ∧ 0 < n) ∧
      y.tidy = y ∧ head.map trim = head := by
  obtain ⟨fields, -, hy⟩ := strictObject_eq_some hy
  simp only [Option.bind_eq_bind, Option.bind_eq_some_iff, Option.pure_def, Option.some.injEq,
    Prod.mk.injEq] at hy
  obtain ⟨_, hexpected, _, hhead, _, hgeneration, rfl, rfl, rfl⟩ := hy
  have hexpected := fields_settled hexpected
  have hhead := nullableString_reads.required_settled hhead
  have hgeneration := nullablePositive_reads.required_settled hgeneration
  exact ⟨⟨hexpected.1, hhead.1, hgeneration.1⟩, hexpected.2, hhead.2⟩

namespace PersistedStateEvent

@[mk_iff] structure FieldsOk (event : PersistedStateEvent) : Prop where
  eventId : isUuid event.eventId = true
  sequence : event.sequence ≤ maxSafeInteger
  runId : isUuid event.runId = true
  expected : event.expected.Ok
  mutation : event.mutation.Ok
  atTime : isIsoDatetime event.atTime = true
  kind : event.kind = event.mutation.kind

@[mk_iff] structure Ok (event : PersistedStateEvent) : Prop where
  version : event.version.Ok
  fields : event.FieldsOk

def tidy (event : PersistedStateEvent) : PersistedStateEvent :=
  { event with
    version := event.version.tidy
    expected := event.expected.tidy
    mutation := event.mutation.tidy }

theorem fields_settled {fields : List (String × Json)} {version : EventVersion} {expected : Expected}
    {y : PersistedStateEvent} (hexpected : expected.Ok) (htidy : expected.tidy = expected)
    (hversion : version.tidy = version)
    (hy : eventFields fields version expected = some y) (hkind : y.kind = y.mutation.kind) :
    y.version = version ∧ y.FieldsOk ∧ y.tidy = y := by
  simp only [eventFields, Option.bind_eq_bind, Option.bind_eq_some_iff, Option.pure_def,
    Option.some.injEq] at hy
  obtain ⟨eventId, hevent, sequence, hsequence, runId, hrun, workflow, -, kind, -, mutation, hmutation,
    atTime, hat, rfl⟩ := hy
  have hevent := uuid_reads.required_settled hevent
  have hsequence := counter_reads.required_settled hsequence
  have hrun := uuid_reads.required_settled hrun
  have hmutation := StateMutation.reads.required_settled hmutation
  have hat := timestamp_reads.required_settled hat
  exact ⟨rfl, ⟨hevent.1, hsequence.1, hrun.1, hexpected, hmutation.1, hat.1, hkind⟩,
    by simp [tidy, htidy, hversion, hmutation.2]⟩

theorem v1_encoded (x y : PersistedStateEvent) (hx : x.version = .v1) :
    stateEventSchema (encodeEvent x) = some y ↔ x.Ok ∧ x.tidy = y := by
  obtain ⟨version, eventId, sequence, runId, workflow, kind, expected, mutation, atTime⟩ := x
  obtain rfl : version = .v1 := hx
  simp [stateEventSchema, Schema.refine, Option.filter_eq_some_iff, eventKeys, encodeEvent,
    encodeLegacyHeadUnbound, strictObject_object, required, literal, EventVersion.number,
    Option.bind_eq_some_iff, Expected.reads.encoded, eventFields, uuid_reads.encoded,
    counter_reads.encoded, workflowKind_reads.encoded, mutationKind_reads.encoded,
    StateMutation.reads.encoded, timestamp_reads.encoded, eventMutationMatches, ok_iff,
    fieldsOk_iff, EventVersion.Ok, tidy, EventVersion.tidy, and_assoc]
  constructor
  · rintro ⟨hexpected, hid, hsequence, hrun, hmutation, hat, rfl, hkind⟩
    exact ⟨hid, hsequence, hrun, hexpected, hmutation, hat, by simpa using hkind, rfl⟩
  · rintro ⟨hid, hsequence, hrun, hexpected, hmutation, hat, hkind, rfl⟩
    exact ⟨hexpected, hid, hsequence, hrun, hmutation, hat, rfl, by simpa using hkind⟩

theorem v2_encoded (x y : PersistedStateEvent) {head : Option String} {generation : Option ℕ}
    {legacy : Bool} (hx : x.version = .v2 head generation legacy) :
    stateEventV2Schema (encodeEvent x) = some y ↔ x.Ok ∧ x.tidy = y := by
  obtain ⟨version, eventId, sequence, runId, workflow, kind, expected, mutation, atTime⟩ := x
  obtain rfl : version = .v2 head generation legacy := hx
  simp [stateEventV2Schema, Schema.refine, Option.filter_eq_some_iff, eventKeys, encodeEvent,
    encodeLegacyHeadUnbound, strictObject_object, required, literal, EventVersion.number,
    Option.bind_eq_some_iff, Expected.v2_encoded, boolean_reads.encoded, eventFields,
    uuid_reads.encoded, counter_reads.encoded, workflowKind_reads.encoded,
    mutationKind_reads.encoded, StateMutation.reads.encoded, timestamp_reads.encoded,
    eventMutationMatches, ok_iff, fieldsOk_iff, EventVersion.Ok, tidy, EventVersion.tidy, and_assoc]
  constructor
  · rintro ⟨hexpected, hhead, hgeneration, hid, hsequence, hrun, hmutation, hat, rfl, hkind, hlegacy⟩
    refine ⟨hhead, hgeneration, ?_, hid, hsequence, hrun, hexpected, hmutation, hat,
      by simpa using hkind, rfl⟩
    rintro rfl
    simpa [legacyHeadMatches] using hlegacy
  · rintro ⟨hhead, hgeneration, hlegacy, hid, hsequence, hrun, hexpected, hmutation, hat, hkind, rfl⟩
    refine ⟨hexpected, hhead, hgeneration, hid, hsequence, hrun, hmutation, hat, rfl,
      by simpa using hkind, ?_⟩
    cases legacy with
    | false => rfl
    | true => simp [legacyHeadMatches, hlegacy rfl]

/-- An event is read by the schema of its own version. -/
theorem reads : Reads eventSchema encodeEvent Ok tidy where
  encoded x y := by
    have hversion : (encodeEvent x).get? "schemaVersion" = some (.nat x.version.number) := by
      simp [encodeEvent, Json.get?]
    cases hx : x.version with
    | v1 =>
      rw [eventSchema, hversion, hx, if_neg (by simp [EventVersion.number, Json.nat])]
      exact v1_encoded x y hx
    | v2 head generation legacy =>
      rw [eventSchema, hversion, hx, EventVersion.number, if_pos rfl]
      exact v2_encoded x y hx
  settled j y hy := by
    rw [eventSchema] at hy
    split at hy
    · obtain ⟨hy, hcheck⟩ := Option.filter_eq_some_iff.mp hy
      obtain ⟨fields, -, hy⟩ := strictObject_eq_some hy
      simp only [Option.bind_eq_bind, Option.bind_eq_some_iff, Prod.exists] at hy
      obtain ⟨-, -, expected, head, generation, hexpected, legacy, -, hy⟩ := hy
      obtain ⟨jexpected, -, hexpected⟩ := required_eq_some.mp hexpected
      obtain ⟨⟨hok, hhead, hgeneration⟩, htidy, hhead'⟩ := Expected.v2_settled hexpected
      simp only [eventMutationMatches, Bool.and_eq_true, decide_eq_true_eq] at hcheck
      obtain ⟨hversion, hfields, hfixed⟩ :=
        fields_settled hok htidy (by simp [EventVersion.tidy, hhead']) hy hcheck.1
      refine ⟨⟨?_, hfields⟩, hfixed⟩
      rw [hversion]
      refine ⟨⟨hhead, hgeneration⟩, ?_⟩
      rintro rfl
      simpa [legacyHeadMatches, hversion] using hcheck.2
    · obtain ⟨hy, hcheck⟩ := Option.filter_eq_some_iff.mp hy
      obtain ⟨fields, -, hy⟩ := strictObject_eq_some hy
      simp only [Option.bind_eq_bind, Option.bind_eq_some_iff] at hy
      obtain ⟨-, -, expected, hexpected, hy⟩ := hy
      have hexpected := Expected.reads.required_settled hexpected
      simp only [eventMutationMatches, decide_eq_true_eq] at hcheck
      obtain ⟨hversion, hfields, hfixed⟩ :=
        fields_settled hexpected.1 hexpected.2 rfl hy hcheck
      exact ⟨⟨hversion ▸ trivial, hfields⟩, hfixed⟩

theorem version_of_eventFields {fields : List (String × Json)} {version : EventVersion}
    {expected : Expected} {event : PersistedStateEvent}
    (h : eventFields fields version expected = some event) : event.version = version := by
  simp only [eventFields, Option.bind_eq_bind, Option.bind_eq_some_iff, Option.pure_def,
    Option.some.injEq] at h
  obtain ⟨_, -, _, -, _, -, _, -, _, -, _, -, _, -, rfl⟩ := h
  rfl

/-- An event that was read has the version that its text names. -/
theorem version_of_eventSchema {j : Json} {event : PersistedStateEvent} (h : eventSchema j = some event) :
    j.get? "schemaVersion" = some (.nat event.version.number) := by
  rw [eventSchema] at h
  split at h
  · obtain ⟨fields, -, h⟩ := strictObject_eq_some (Option.filter_eq_some_iff.mp h).1
    simp only [Option.bind_eq_bind, Option.bind_eq_some_iff, Prod.exists] at h
    obtain ⟨_, -, _, _, _, -, _, -, h⟩ := h
    rw [version_of_eventFields h]
    assumption
  · obtain ⟨fields, rfl, hbody⟩ := strictObject_eq_some (Option.filter_eq_some_iff.mp h).1
    simp only [Option.bind_eq_bind, Option.bind_eq_some_iff] at hbody
    obtain ⟨_, hversion, _, -, hbody⟩ := hbody
    obtain ⟨j, hmember, hliteral⟩ := required_eq_some.mp hversion
    rw [version_of_eventFields hbody]
    exact hmember.trans (congrArg some (literal_eq_some.mp hliteral))

end PersistedStateEvent

end OmpLazy.State

import OmpLazy.Contracts.WorkerAcceptanceLedger

namespace OmpLazy.Contracts

open OmpLazy.Foundation OmpLazy.Foundation.Schema OmpLazy.Foundation.Text OmpLazy.State

theorem commit_reads : Reads commitSchema Json.string (fun s ↦ isLowerHexOf 40 s = true) id :=
  checked_reads _

theorem cleanupStatus_reads :
    Reads cleanupStatusSchema (fun x ↦ .string x.text) (fun _ ↦ True) id :=
  oneOf_reads fun x ↦ by cases x <;> rfl

theorem parentDecision_reads :
    Reads parentDecisionSchema (fun x ↦ .string x.text) (fun _ ↦ True) id :=
  oneOf_reads fun x ↦ by cases x; rfl

theorem rejectionStatus_reads :
    Reads rejectionStatusSchema (fun x ↦ .string (rejectionStatusText x)) (fun _ ↦ True) id :=
  oneOf_reads fun x ↦ by cases x <;> rfl

theorem somePaths_reads : Reads somePaths encodeStrings
    (fun paths ↦ (∀ s ∈ paths, trim s ≠ "") ∧ paths ≠ []) (List.map trim) :=
  (nonempty_reads.array.refine _).of_iff (by simp)

theorem cleanupPaths_reads : Reads cleanupPaths encodeStrings
    (fun paths ↦ (∀ s ∈ paths, trim s ≠ "") ∧ paths.length ≤ 32) (List.map trim) :=
  (nonempty_reads.array.refine _).of_iff (by simp)

theorem rejectionCount_reads : Reads ((counterUpTo 3).refine (1 ≤ ·)) Json.nat
    (fun n ↦ (n ≤ maxSafeInteger ∧ n ≤ 3) ∧ 1 ≤ n) id :=
  ((counterUpTo_reads 3).refine _).of_iff (by simp)

namespace SemanticScope

@[mk_iff] structure Ok (scope : SemanticScope) : Prop where
  taskId : trim scope.taskId ≠ ""
  semanticAttempt : scope.semanticAttempt ≤ maxSafeInteger ∧ 0 < scope.semanticAttempt

def tidy (scope : SemanticScope) : SemanticScope := { scope with taskId := trim scope.taskId }

theorem encode_listed (scope : SemanticScope) : Listed scopeKeys (encodeScope scope) := by
  simp [Listed, encodeScope, scopeKeys]

theorem fields_encoded (x y : SemanticScope) :
    scopeFields (encodeScope x) = some y ↔ x.Ok ∧ x.tidy = y := by
  simp [scopeFields, encodeScope, required, Option.bind_eq_some_iff, nonempty_reads.encoded,
    workerRole_reads.encoded, positiveCounter_reads.encoded, and_assoc, ok_iff, tidy]

/-- A scope that its schema leaves as it is. -/
structure Settled (scope : SemanticScope) : Prop where
  ok : scope.Ok
  tidy : scope.tidy = scope

theorem Settled.fields_read {scope : SemanticScope} (h : scope.Settled) {fields : List (String × Json)}
    (hfields : SameOn scopeKeys fields (encodeScope scope)) : scopeFields fields = some scope := by
  rw [← (fields_encoded scope scope).mpr ⟨h.ok, h.tidy⟩]
  simp (disch := decide) only [scopeFields, hfields.required]

end SemanticScope

namespace WorkerAcceptanceEvent

structure FieldsOk (event : WorkerAcceptanceEvent) : Prop where
  sequence : event.sequence ≤ maxSafeInteger ∧ 0 < event.sequence
  idempotencyKey : trim event.idempotencyKey ≠ ""
  runId : isUuid event.runId = true
  attempt : event.attempt ≤ maxSafeInteger
  runRevision : event.runRevision ≤ maxSafeInteger
  ownerSessionId : trim event.ownerSessionId ≠ ""
  ownerEpoch : event.ownerEpoch ≤ maxSafeInteger
  taskGeneration : event.taskGeneration ≤ maxSafeInteger ∧ 0 < event.taskGeneration
  actualAgentId : trim event.actualAgentId ≠ "" ∧ utf16Length (trim event.actualAgentId) ≤ 160
  actualJobId : ∀ s ∈ event.actualJobId, trim s ≠ "" ∧ utf16Length (trim s) ≤ 160
  captureCommit : isLowerHexOf 40 event.captureCommit = true
  receiptPath : trim event.receiptPath ≠ ""
  receiptHash : isLowerHexOf 64 event.receiptHash = true
  artifactHash : isLowerHexOf 64 event.artifactHash = true
  artifactPaths : (∀ s ∈ event.artifactPaths, trim s ≠ "") ∧ event.artifactPaths ≠ []
  cleanupReceiptPaths :
    (∀ s ∈ event.cleanupReceiptPaths, trim s ≠ "") ∧ event.cleanupReceiptPaths.length ≤ 32
  cleanupScenarioId : ∀ s ∈ event.cleanupScenarioId, trim s ≠ ""

def tidy (event : WorkerAcceptanceEvent) : WorkerAcceptanceEvent :=
  { event with
    idempotencyKey := trim event.idempotencyKey
    ownerSessionId := trim event.ownerSessionId
    actualAgentId := trim event.actualAgentId
    actualJobId := event.actualJobId.map trim
    receiptPath := trim event.receiptPath
    artifactPaths := event.artifactPaths.map trim
    cleanupReceiptPaths := event.cleanupReceiptPaths.map trim
    cleanupScenarioId := event.cleanupScenarioId.map trim }

theorem encode_listed (event : WorkerAcceptanceEvent) :
    Listed acceptanceKeys (encodeAcceptanceEvent event) := by
  simp only [Listed, encodeAcceptanceEvent, List.forall_mem_cons, List.forall_mem_append,
    keys_optional]
  and_intros
  all_goals first
    | decide
    | (intro _; decide)

theorem encode_optional (event : WorkerAcceptanceEvent) :
    Json.member (encodeAcceptanceEvent event) "cleanupStatus" =
        event.cleanupStatus.map (fun status ↦ .string status.text) ∧
      Json.member (encodeAcceptanceEvent event) "cleanupScenarioId" =
        event.cleanupScenarioId.map .string ∧
      Json.member (encodeAcceptanceEvent event) "parentDecision" =
        event.parentDecision.map fun choice ↦ .string choice.text := by
  simp [encodeAcceptanceEvent, Json.member_cons, Json.member_append, Json.member_optional]

theorem fields_encoded {event : WorkerAcceptanceEvent} (h : event.FieldsOk) :
    acceptanceEventFields (encodeAcceptanceEvent event) = some event.tidy := by
  obtain ⟨hstatus, hscenario, hdecision⟩ := encode_optional event
  refine (positiveCounter_reads.required_bind rfl h.sequence).trans ?_
  refine (nonempty_reads.required_bind rfl h.idempotencyKey).trans ?_
  refine (uuid_reads.required_bind rfl h.runId).trans ?_
  refine (counter_reads.required_bind rfl h.attempt).trans ?_
  refine (counter_reads.required_bind rfl h.runRevision).trans ?_
  refine (nonempty_reads.required_bind rfl h.ownerSessionId).trans ?_
  refine (counter_reads.required_bind rfl h.ownerEpoch).trans ?_
  refine (positiveCounter_reads.required_bind rfl h.taskGeneration).trans ?_
  refine (workerRole_reads.required_bind rfl trivial).trans ?_
  refine (runtimeId_reads.required_bind rfl h.actualAgentId).trans ?_
  refine (nullableRuntimeId_reads.required_bind rfl h.actualJobId).trans ?_
  refine (commit_reads.required_bind rfl h.captureCommit).trans ?_
  refine (nonempty_reads.required_bind rfl h.receiptPath).trans ?_
  refine (hash_reads.required_bind rfl h.receiptHash).trans ?_
  refine (hash_reads.required_bind rfl h.artifactHash).trans ?_
  refine (somePaths_reads.required_bind rfl h.artifactPaths).trans ?_
  refine (cleanupPaths_reads.required_bind rfl h.cleanupReceiptPaths).trans ?_
  refine (cleanupStatus_reads.optional_bind hstatus fun _ _ ↦ trivial).trans ?_
  refine (nonempty_reads.optional_bind hscenario h.cleanupScenarioId).trans ?_
  refine (parentDecision_reads.optional_bind hdecision fun _ _ ↦ trivial).trans ?_
  simp [tidy]

theorem fields_settled {fields : List (String × Json)} {y : WorkerAcceptanceEvent}
    (hy : acceptanceEventFields fields = some y) : y.FieldsOk ∧ y.tidy = y := by
  obtain ⟨sequence, hsequence, hy⟩ := positiveCounter_reads.bind_settled hy
  obtain ⟨idempotencyKey, hkey, hy⟩ := nonempty_reads.bind_settled hy
  obtain ⟨runId, hid, hy⟩ := uuid_reads.bind_settled hy
  obtain ⟨attempt, hattempt, hy⟩ := counter_reads.bind_settled hy
  obtain ⟨runRevision, hrevision, hy⟩ := counter_reads.bind_settled hy
  obtain ⟨ownerSessionId, hsession, hy⟩ := nonempty_reads.bind_settled hy
  obtain ⟨ownerEpoch, hepoch, hy⟩ := counter_reads.bind_settled hy
  obtain ⟨taskGeneration, hgeneration, hy⟩ := positiveCounter_reads.bind_settled hy
  obtain ⟨workerRole, -, hy⟩ := workerRole_reads.bind_settled hy
  obtain ⟨actualAgentId, hagent, hy⟩ := runtimeId_reads.bind_settled hy
  obtain ⟨actualJobId, hjob, hy⟩ := nullableRuntimeId_reads.bind_settled hy
  obtain ⟨captureCommit, hcommit, hy⟩ := commit_reads.bind_settled hy
  obtain ⟨receiptPath, hreceipt, hy⟩ := nonempty_reads.bind_settled hy
  obtain ⟨receiptHash, hreceiptHash, hy⟩ := hash_reads.bind_settled hy
  obtain ⟨artifactHash, hartifact, hy⟩ := hash_reads.bind_settled hy
  obtain ⟨artifactPaths, hpaths, hy⟩ := somePaths_reads.bind_settled hy
  obtain ⟨cleanupReceiptPaths, hcleanup, hy⟩ := cleanupPaths_reads.bind_settled hy
  obtain ⟨cleanupStatus, -, hy⟩ := cleanupStatus_reads.bindOptional_settled hy
  obtain ⟨cleanupScenarioId, hscenario, hy⟩ := nonempty_reads.bindOptional_settled hy
  obtain ⟨parentDecision, -, hy⟩ := parentDecision_reads.bindOptional_settled hy
  obtain rfl := Option.some.inj hy
  exact ⟨⟨hsequence.1, hkey.1, hid.1, hattempt.1, hrevision.1, hsession.1, hepoch.1, hgeneration.1,
      hagent.1, hjob.1, hcommit.1, hreceipt.1, hreceiptHash.1, hartifact.1, hpaths.1, hcleanup.1,
      hscenario.1⟩,
    by simp [tidy, hkey.2, hsession.2, hagent.2, hjob.2, hreceipt.2, hpaths.2, hcleanup.2,
      hscenario.2]⟩

/-- An acceptance as it was read from its own schema. -/
structure Settled (event : WorkerAcceptanceEvent) : Prop where
  fields : event.FieldsOk
  tidy : event.tidy = event
  binds : cleanupBinds event = true

theorem Settled.of_read {j : Json} {event : WorkerAcceptanceEvent}
    (h : acceptanceEventSchema j = some event) : event.Settled := by
  obtain ⟨hread, hbinds⟩ := Option.filter_eq_some_iff.mp h
  obtain ⟨fields, -, hfields⟩ := strictObject_eq_some hread
  obtain ⟨hok, htidy⟩ := fields_settled hfields
  exact ⟨hok, htidy, hbinds⟩

end WorkerAcceptanceEvent

namespace AcceptanceEntryV2

variable {entry : AcceptanceEntryV2}

theorem fields_read (hevent : entry.event.Settled) (hscope : entry.scope.Settled)
    {fields : List (String × Json)}
    (heventFields : SameOn acceptanceKeys fields (encodeAcceptanceEvent entry.event))
    (hscopeFields : SameOn scopeKeys fields (encodeScope entry.scope)) :
    acceptanceEntryV2Fields fields = some entry := by
  have hread : acceptanceEventFields fields = some entry.event := by
    have hencoded := WorkerAcceptanceEvent.fields_encoded hevent.fields
    rw [hevent.tidy] at hencoded
    rw [← hencoded]
    simp (disch := decide) only [acceptanceEventFields, heventFields.required, heventFields.optional]
  have hreadScope := hscope.fields_read hscopeFields
  simp [acceptanceEntryV2Fields, hread, hreadScope]

/-- An entry of the ledger reads itself. -/
theorem reread (hevent : entry.event.Settled) (hscope : entry.scope.Settled) :
    acceptanceLedgerEntryV2Schema (encodeAcceptanceEntryV2 entry) = some entry := by
  have heventKeys := entry.event.encode_listed
  have hscopeKeys := entry.scope.encode_listed
  refine Option.filter_eq_some_iff.mpr ⟨strictObject_object.mpr ⟨?_, ?_⟩, hevent.binds⟩
  · rw [List.forall_mem_append]
    exact ⟨heventKeys.mono (List.subset_append_left _ _), hscopeKeys.mono (List.subset_append_right _ _)⟩
  · exact fields_read hevent hscope (.append_left hscopeKeys (by decide)) (.append_right heventKeys (by decide))

/-- So does an entry of the write-ahead log. -/
theorem event_reread (hevent : entry.event.Settled) (hscope : entry.scope.Settled) :
    acceptanceEventV2Schema (encodeAcceptanceEventV2 entry) = some entry := by
  have heventKeys := entry.event.encode_listed
  have hscopeKeys := entry.scope.encode_listed
  have hversion : Listed ("schemaVersion" :: scopeKeys) (("schemaVersion", .nat 2) :: encodeScope entry.scope) :=
    List.forall_mem_cons.mpr ⟨List.mem_cons_self, hscopeKeys.mono (List.subset_cons_self _ _)⟩
  have hrequired : required (encodeAcceptanceEvent entry.event ++ ("schemaVersion", .nat 2) ::
      encodeScope entry.scope) "schemaVersion" (literal (.nat 2)) = some () := by
    rw [required, Json.member_append, heventKeys.member_eq_none (by decide)]
    simp [literal]
  refine Option.filter_eq_some_iff.mpr ⟨strictObject_object.mpr ⟨?_, ?_⟩, hevent.binds⟩
  · rw [List.forall_mem_append]
    refine ⟨heventKeys.mono fun key hkey ↦ ?_, hversion.mono fun key hkey ↦ ?_⟩
    · exact List.mem_cons_of_mem _ (List.mem_append_left _ hkey)
    · exact (List.mem_cons.mp hkey).elim (fun h ↦ h ▸ List.mem_cons_self) fun h ↦
        List.mem_cons_of_mem _ (List.mem_append_right _ h)
  · simp only [hrequired, Option.bind_eq_bind, Option.bind_some]
    refine fields_read hevent hscope (.append_left hversion (by decide)) fun key hkey ↦ ?_
    have hne : key ≠ "schemaVersion" := by
      rintro rfl
      revert hkey
      decide
    rw [Json.member_append, heventKeys.member_eq_none (by revert key; decide), Option.none_or,
      Json.member_cons, if_neg hne.symm]

end AcceptanceEntryV2

/-! Rejections. -/

namespace RejectionEntry

@[mk_iff] structure Ok (entry : RejectionEntry) : Prop where
  runId : isUuid entry.runId = true
  attempt : entry.attempt ≤ maxSafeInteger
  runRevision : entry.runRevision ≤ maxSafeInteger
  ownerEpoch : entry.ownerEpoch ≤ maxSafeInteger
  taskGeneration : entry.taskGeneration ≤ maxSafeInteger ∧ 0 < entry.taskGeneration
  actualAgentId : trim entry.actualAgentId ≠ "" ∧ utf16Length (trim entry.actualAgentId) ≤ 160
  count : (entry.count ≤ maxSafeInteger ∧ entry.count ≤ 3) ∧ 1 ≤ entry.count

def tidy (entry : RejectionEntry) : RejectionEntry :=
  { entry with actualAgentId := trim entry.actualAgentId }

theorem encode_listed (entry : RejectionEntry) : Listed rejectionKeys (encodeRejection entry) := by
  simp [Listed, encodeRejection, rejectionKeys]

theorem fields_encoded (x y : RejectionEntry) :
    rejectionFields (encodeRejection x) = some y ↔ x.Ok ∧ x.tidy = y := by
  simp [rejectionFields, encodeRejection, required, Option.bind_eq_some_iff, uuid_reads.encoded,
    counter_reads.encoded, positiveCounter_reads.encoded, agentIdSchema, runtimeId_reads.encoded,
    rejectionCount_reads.encoded, rejectionStatus_reads.encoded, and_assoc, ok_iff, tidy]

theorem fields_settled {fields : List (String × Json)} {y : RejectionEntry}
    (hy : rejectionFields fields = some y) : y.Ok ∧ y.tidy = y := by
  simp only [rejectionFields, Option.bind_eq_bind, Option.bind_eq_some_iff, Option.pure_def,
    Option.some.injEq] at hy
  obtain ⟨runId, hid, attempt, hattempt, runRevision, hrevision, ownerEpoch, hepoch, taskGeneration,
    hgeneration, actualAgentId, hagent, count, hcount, status, -, rfl⟩ := hy
  have hid := uuid_reads.required_settled hid
  have hattempt := counter_reads.required_settled hattempt
  have hrevision := counter_reads.required_settled hrevision
  have hepoch := counter_reads.required_settled hepoch
  have hgeneration := positiveCounter_reads.required_settled hgeneration
  have hagent := runtimeId_reads.required_settled hagent
  have hcount := rejectionCount_reads.required_settled hcount
  exact ⟨⟨hid.1, hattempt.1, hrevision.1, hepoch.1, hgeneration.1, hagent.1, hcount.1⟩,
    by simp [tidy, hagent.2]⟩

end RejectionEntry

namespace RejectionEntryV2

variable {entry : RejectionEntryV2}

theorem reread (hentry : entry.entry.Ok) (htidy : entry.entry.tidy = entry.entry)
    (hscope : entry.scope.Settled) :
    rejectionEntryV2Schema (encodeRejectionEntryV2 entry) = some entry := by
  have hentryKeys := entry.entry.encode_listed
  have hscopeKeys := entry.scope.encode_listed
  have hentryFields : SameOn rejectionKeys (encodeRejection entry.entry ++ encodeScope entry.scope)
      (encodeRejection entry.entry) := .append_left hscopeKeys (by decide)
  have hread : rejectionFields (encodeRejection entry.entry ++ encodeScope entry.scope) =
      some entry.entry := by
    rw [← (RejectionEntry.fields_encoded entry.entry entry.entry).mpr ⟨hentry, htidy⟩]
    simp (disch := decide) only [rejectionFields, hentryFields.required]
  have hreadScope := hscope.fields_read (.append_right hentryKeys (by decide))
  refine strictObject_object.mpr ⟨?_, ?_⟩
  · rw [List.forall_mem_append]
    exact ⟨hentryKeys.mono (List.subset_append_left _ _), hscopeKeys.mono (List.subset_append_right _ _)⟩
  · simp [hread, hreadScope]

end RejectionEntryV2

end OmpLazy.Contracts

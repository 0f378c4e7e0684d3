import OmpLazy.Contracts.AcceptanceLaws
import OmpLazy.State.LifecycleReaders

namespace OmpLazy.State

open OmpLazy.Foundation OmpLazy.Foundation.Schema OmpLazy.Foundation.Text OmpLazy.Contracts OmpLazy.Gates

/-- What `JSON.parse` makes of a text of `JSON.stringify`, which is one line. -/
structure WalFormat.Lawful {Contents : Type} (format : WalFormat Contents) : Prop where
  parse_stringify : ∀ value, format.parse (format.stringify value) = some value
  lines_unlines : ∀ values : List Json, format.lines (format.unlines (values.map format.stringify)) =
    values.map format.stringify

namespace Migration

/-! The members of a record in the second version, and of what it is compared with. -/

section Members

variable {α : Type} {fields fields' : List (String × Json)} {keys left : List String}

/-- `asV1` of a record without these members. -/
def legacyFields (left : List String) (fields : List (String × Json)) : List (String × Json) :=
  Json.setField "schemaVersion" (.nat 1) ((fields.filter (·.1 ∉ left)).filter (·.1 ∉ ["schemaVersion"]))

theorem asV1_without : asV1 ((Json.object fields).without left) = .object (legacyFields left fields) := rfl

theorem legacy_sameOn (hleft : ∀ key ∈ keys, key ∉ left) (hversion : "schemaVersion" ∉ keys) :
    SameOn keys (legacyFields left fields) fields := by
  refine (SameOn.setField hversion).trans ((SameOn.filter fun key hkey ↦ ?_).trans (SameOn.filter hleft))
  rw [List.mem_singleton]
  rintro rfl
  exact hversion hkey

theorem legacy_listed (h : Listed (keys ++ left) fields) (hversion : "schemaVersion" ∈ keys) :
    Listed keys (legacyFields left fields) := Listed.setField_iff.mpr ⟨hversion, h.of_filter.filter⟩

theorem legacy_version : required (legacyFields left fields) "schemaVersion" (literal (.nat 1)) = some () := by
  rw [legacyFields, required_setField, literal_eq_some]

theorem required_version (version : ℕ) :
    required (Json.setField "schemaVersion" (.nat version) fields) "schemaVersion" (literal (.nat version)) =
      some () := by
  rw [required_setField, literal_eq_some]

theorem schemaVersion_v2 (h : Json.member fields "schemaVersion" = some (.nat 2)) :
    schemaVersion (.object fields) = some 2 := by
  simp [schemaVersion, Json.get?, h, Json.nat]

theorem member_version {version : ℕ} (h : required fields "schemaVersion" (literal (.nat version)) = some ()) :
    Json.member fields "schemaVersion" = some (.nat version) := by
  obtain ⟨json, hjson, hliteral⟩ := required_eq_some.mp h
  rw [hjson, literal_eq_some.mp hliteral]

end Members

/-! The active index. -/

section ActiveIndex

variable {fields fields' : List (String × Json)} {index : ActiveIndex} {json : Json}

theorem activeIndexFields_congr (h : SameOn ["revision", "entries"] fields fields') (version : IndexVersion) :
    activeIndexFields fields version = activeIndexFields fields' version := by
  simp (disch := decide) only [activeIndexFields, h.required]

theorem activeIndexFields_version {version : IndexVersion} (h : activeIndexFields fields version = some index) :
    index.version = version ∧ ∀ version', activeIndexFields fields version' =
      some { index with version := version' } := by
  simp only [activeIndexFields, Option.bind_eq_bind, Option.bind_eq_some_iff, Option.pure_def,
    Option.some.injEq] at h
  obtain ⟨revision, hrevision, entries, hentries, rfl⟩ := h
  exact ⟨rfl, fun version' ↦ by simp [activeIndexFields, hrevision, hentries]⟩

theorem activeIndex_v1 (h : activeIndexSchema json = some index) (hversion : index.version.number = 1) :
    ∃ fields, json = .object fields ∧ Listed ["schemaVersion", "revision", "entries"] fields ∧
      activeIndexFields fields .v1 = some index := by
  simp only [activeIndexSchema, union, Option.or_eq_some_iff] at h
  obtain hread | ⟨-, hread⟩ := h
  · obtain ⟨fields, rfl, hfields⟩ := strictObject_eq_some hread
    simp only [Option.bind_eq_bind, Option.bind_eq_some_iff] at hfields
    obtain ⟨-, -, hfields⟩ := hfields
    exact ⟨fields, rfl, (strictObject_object.mp hread).1, hfields⟩
  · obtain ⟨fields, -, hfields⟩ := strictObject_eq_some hread
    simp only [Option.bind_eq_bind, Option.bind_eq_some_iff] at hfields
    obtain ⟨-, -, migrationRevision, -, hfields⟩ := hfields
    rw [(activeIndexFields_version hfields).1] at hversion
    cases hversion

def migratedIndexFields (fields : List (String × Json)) : List (String × Json) :=
  Json.setField "migrationRevision" (.nat 1) (Json.setField "schemaVersion" (.nat 2) fields)

theorem migratedIndex_listed (h : Listed ["schemaVersion", "revision", "entries"] fields) :
    Listed ["schemaVersion", "migrationRevision", "revision", "entries"] (migratedIndexFields fields) :=
  Listed.setField_iff.mpr ⟨by decide, Listed.setField_iff.mpr ⟨by decide, h.mono (by simp)⟩⟩

theorem migratedIndex_version :
    Json.member (migratedIndexFields fields) "schemaVersion" = some (.nat 2) := by
  rw [migratedIndexFields, Json.member_setField, if_neg (by decide), Json.member_setField, if_pos rfl]

theorem migratedIndex_read (hlisted : Listed ["schemaVersion", "revision", "entries"] fields)
    (h : activeIndexFields fields .v1 = some index) :
    activeIndexSchema (.object (migratedIndexFields fields)) = some { index with version := .v2 1 } := by
  have hsame : SameOn ["revision", "entries"] (migratedIndexFields fields) fields :=
    (SameOn.setField (by decide)).trans (SameOn.setField (by decide))
  have hnot : activeIndexV1Schema (.object (migratedIndexFields fields)) = none := by
    refine Option.eq_none_iff_forall_ne_some.mpr fun index' hindex' ↦ ?_
    have hbody := (strictObject_object.mp hindex').2
    simp only [Option.bind_eq_bind, Option.bind_eq_some_iff] at hbody
    obtain ⟨_, hliteral, _⟩ := hbody
    have hmember := member_version hliteral
    rw [migratedIndex_version] at hmember
    simp [Json.nat] at hmember
  have hread : activeIndexV2Schema (.object (migratedIndexFields fields)) =
      some { index with version := .v2 1 } := by
    refine strictObject_object.mpr ⟨migratedIndex_listed hlisted, ?_⟩
    have hliteral : required (migratedIndexFields fields) "schemaVersion" (literal (.nat 2)) = some () := by
      rw [migratedIndexFields, required_setField_ne (by decide), required_version]
    have hrevision : required (migratedIndexFields fields) "migrationRevision" positiveCounter = some 1 := by
      rw [migratedIndexFields, required_setField]
      exact (positiveCounter_reads.fixed_iff 1).mpr ⟨by decide, rfl⟩
    simp only [hliteral, hrevision, Option.bind_eq_bind, Option.bind_some, activeIndexFields_congr hsame]
    exact (activeIndexFields_version h).2 _
  rw [activeIndexSchema, union, hnot, Option.none_or, hread]

theorem migratedIndex_current (hlisted : Listed ["schemaVersion", "revision", "entries"] fields)
    (h : activeIndexFields fields .v1 = some index) :
    currentV2 ((Json.object (migratedIndexFields fields)).without ["migrationRevision"])
      (fun v ↦ (activeIndexSchema v).isSome) = true := by
  have hsame : SameOn ["revision", "entries"] (legacyFields ["migrationRevision"] (migratedIndexFields fields))
      fields := by
    refine (legacy_sameOn (by decide) (by decide)).trans ?_
    exact (SameOn.setField (by decide)).trans (SameOn.setField (by decide))
  have hread : activeIndexV1Schema (.object (legacyFields ["migrationRevision"] (migratedIndexFields fields))) =
      some index := by
    refine strictObject_object.mpr ⟨legacy_listed ?_ (by decide), ?_⟩
    · exact (migratedIndex_listed hlisted).mono (by simp)
    · simp only [legacy_version, Option.bind_eq_bind, Option.bind_some, activeIndexFields_congr hsame, h]
  rw [currentV2, asV1_without, Bool.and_eq_true, decide_eq_true_eq]
  refine ⟨?_, by rw [activeIndexSchema, union, hread]; rfl⟩
  refine schemaVersion_v2 ?_
  rw [Json.member_filter (by decide), migratedIndex_version]

end ActiveIndex

/-! Runs. -/

section Run

variable {fields fields' : List (String × Json)} {run : AnyRun} {json : Json} {workflow : WorkflowKind}

theorem envelopeFields_upgraded {version version' : RunVersion}
    (h : envelopeFields fields version workflow (Payload.schemaOf workflow) = some run)
    (hsame : SameOn runKeys.tail fields' fields)
    (hversion : required fields' "schemaVersion" (literal (.nat version'.number)) = some ()) :
    envelopeFields fields' version' workflow (Payload.schemaOf workflow) =
      some { run with version := version' } := by
  simp only [envelopeFields, Option.bind_eq_bind, Option.bind_eq_some_iff, Option.pure_def,
    Option.some.injEq] at h
  obtain ⟨-, -, runId, hid, revision, hrevision, transactionRevision, htransaction, owner, howner,
    progressRevision, hprogress, continuation, hcontinuation, createdAt, hcreated, updatedAt, hupdated,
    _, hworkflow, payload, hpayload, rfl⟩ := h
  simp (disch := decide) only [envelopeFields, hversion, hsame.required, hid, hrevision, htransaction,
    howner, hprogress, hcontinuation, hcreated, hupdated, hworkflow, hpayload, Option.bind_eq_bind,
    Option.bind_some, Option.pure_def]

theorem envelopeFields_version {version : RunVersion}
    (h : envelopeFields fields version workflow (Payload.schemaOf workflow) = some run) :
    run.version = version ∧ required fields "schemaVersion" (literal (.nat version.number)) = some () ∧
      required fields "workflow" (literal (.string workflow.text)) = some () := by
  simp only [envelopeFields, Option.bind_eq_bind, Option.bind_eq_some_iff, Option.pure_def,
    Option.some.injEq] at h
  obtain ⟨_, hversion, runId, -, revision, -, transactionRevision, -, owner, -, progressRevision, -,
    continuation, -, createdAt, -, updatedAt, -, _, hworkflow, payload, -, rfl⟩ := h
  exact ⟨rfl, hversion, hworkflow⟩

theorem run_v1 (h : runSchema json = some run) (hversion : run.version.number = 1) :
    ∃ workflow fields, json = .object fields ∧ Listed runKeys fields ∧
      envelopeFields fields .v1 workflow (Payload.schemaOf workflow) = some run := by
  obtain ⟨workflow, hread | hread⟩ := AnyRun.runSchema_eq_some h
  · obtain ⟨fields, rfl, hfields⟩ := strictObject_eq_some hread
    exact ⟨workflow, fields, rfl, (strictObject_object.mp hread).1, hfields⟩
  · obtain ⟨fields, -, hfields⟩ := strictObject_eq_some hread
    simp only [Option.bind_eq_bind, Option.bind_eq_some_iff] at hfields
    obtain ⟨packetHash, -, expectedHead, -, hfields⟩ := hfields
    rw [(envelopeFields_version hfields).1] at hversion
    cases hversion

def migratedRunFields (fields : List (String × Json)) : List (String × Json) :=
  Json.setField "expectedHead" .null (Json.setField "packetHash" .null
    (Json.setField "schemaVersion" (.nat 2) fields))

theorem migratedRun_listed (h : Listed runKeys fields) :
    Listed (runKeys ++ ["packetHash", "expectedHead"]) (migratedRunFields fields) :=
  Listed.setField_iff.mpr ⟨by decide, Listed.setField_iff.mpr ⟨by decide,
    Listed.setField_iff.mpr ⟨by decide, h.mono (List.subset_append_left _ _)⟩⟩⟩

theorem migratedRun_same : SameOn runKeys.tail (migratedRunFields fields) fields :=
  (SameOn.setField (by decide)).trans ((SameOn.setField (by decide)).trans (SameOn.setField (by decide)))

theorem migratedRun_version :
    required (migratedRunFields fields) "schemaVersion" (literal (.nat 2)) = some () := by
  rw [migratedRunFields, required_setField_ne (by decide), required_setField_ne (by decide),
    required_version]

theorem migratedRun_read (hlisted : Listed runKeys fields)
    (h : envelopeFields fields .v1 workflow (Payload.schemaOf workflow) = some run) :
    runSchema (.object (migratedRunFields fields)) = some { run with version := .v2 none none } := by
  have henvelope : envelopeFields (migratedRunFields fields) (.v2 none none) workflow
      (Payload.schemaOf workflow) = some { run with version := .v2 none none } :=
    envelopeFields_upgraded h migratedRun_same migratedRun_version
  have hread : runV2Schema workflow (Payload.schemaOf workflow) (.object (migratedRunFields fields)) =
      some { run with version := .v2 none none } := by
    refine strictObject_object.mpr ⟨migratedRun_listed hlisted, ?_⟩
    have hpacket : required (migratedRunFields fields) "packetHash" hashSchema.nullable = some none := by
      rw [migratedRunFields, required_setField_ne (by decide), required_setField]
      rfl
    have hhead : required (migratedRunFields fields) "expectedHead" nonempty.nullable = some none := by
      rw [migratedRunFields, required_setField]
      rfl
    simp only [hpacket, hhead, Option.bind_eq_bind, Option.bind_some, henvelope]
  obtain ⟨run', hrun'⟩ := Option.isSome_iff_exists.mp (AnyRun.isSome_runSchema (.inr hread))
  -- The schema that the union takes is this one: the version and the workflow exclude the others.
  obtain ⟨workflow', hother | hother⟩ := AnyRun.runSchema_eq_some hrun'
  · obtain ⟨-, hversion, -⟩ := envelopeFields_version (strictObject_object.mp hother).2
    have heq := (member_version hversion).symm.trans (member_version migratedRun_version)
    simp [RunVersion.number, Json.nat] at heq
  · have hbody := (strictObject_object.mp hother).2
    simp only [Option.bind_eq_bind, Option.bind_eq_some_iff] at hbody
    obtain ⟨packetHash, -, expectedHead, -, hbody⟩ := hbody
    obtain ⟨json, hjson, hworkflow⟩ := required_eq_some.mp (envelopeFields_version hbody).2.2
    obtain ⟨json', hjson', hworkflow'⟩ := required_eq_some.mp (envelopeFields_version henvelope).2.2
    rw [literal_eq_some.mp hworkflow] at hjson
    rw [literal_eq_some.mp hworkflow'] at hjson'
    have htext := hjson.symm.trans hjson'
    rw [Option.some.injEq, Json.string.injEq, WorkflowKind.text_inj] at htext
    rw [htext] at hother
    rw [hrun', ← hother, hread]

theorem migratedRun_current (hlisted : Listed runKeys fields)
    (h : envelopeFields fields .v1 workflow (Payload.schemaOf workflow) = some run) :
    currentV2 ((Json.object (migratedRunFields fields)).without ["packetHash", "expectedHead"])
      (fun v ↦ (runSchema v).isSome) = true := by
  have hsame : SameOn runKeys.tail (legacyFields ["packetHash", "expectedHead"] (migratedRunFields fields))
      fields := (legacy_sameOn (by decide) (by decide)).trans migratedRun_same
  have hread : runV1Schema workflow (Payload.schemaOf workflow)
      (.object (legacyFields ["packetHash", "expectedHead"] (migratedRunFields fields))) =
        some { run with version := .v1 } :=
    strictObject_object.mpr ⟨legacy_listed (migratedRun_listed hlisted) (by decide),
      envelopeFields_upgraded h hsame legacy_version⟩
  rw [currentV2, asV1_without, Bool.and_eq_true, decide_eq_true_eq]
  refine ⟨schemaVersion_v2 ?_, AnyRun.isSome_runSchema (.inl hread)⟩
  rw [Json.member_filter (by decide), member_version migratedRun_version]

end Run

/-! Events. -/

section Event

variable {fields : List (String × Json)} {event : PersistedStateEvent} {json : Json}

/-- The generation that a migrated event expects. -/
def legacyGeneration (event : PersistedStateEvent) : Option ℕ :=
  if taskScoped event.kind then some 1 else none

def migratedEventFields (event : PersistedStateEvent) (fields : List (String × Json)) :
    List (String × Json) :=
  Json.setField "legacyHeadUnbound" (.bool true) (Json.setField "expected"
    (encodeExpected (.v2 none (legacyGeneration event) true) event.expected)
    (Json.setField "schemaVersion" (.nat 2) fields))

theorem eventFields_upgraded {version : EventVersion} {expected : Expected}
    {fields' : List (String × Json)} (version' : EventVersion)
    (h : eventFields fields version expected = some event)
    (hsame : SameOn ["eventId", "sequence", "runId", "workflow", "kind", "mutation", "at"] fields' fields) :
    event.expected = expected ∧
      eventFields fields' version' expected = some { event with version := version' } := by
  simp only [eventFields, Option.bind_eq_bind, Option.bind_eq_some_iff, Option.pure_def,
    Option.some.injEq] at h
  obtain ⟨eventId, hid, sequence, hsequence, runId, hrun, workflow, hworkflow, kind, hkind, mutation,
    hmutation, atTime, htime, rfl⟩ := h
  refine ⟨rfl, ?_⟩
  simp (disch := decide) only [eventFields, hsame.required, hid, hsequence, hrun, hworkflow, hkind,
    hmutation, htime, Option.bind_eq_bind, Option.bind_some, Option.pure_def]

theorem legacyGeneration_positive (event : PersistedStateEvent) :
    ∀ n ∈ legacyGeneration event, n ≤ maxSafeInteger ∧ 0 < n := by
  intro n hn
  rw [legacyGeneration] at hn
  split at hn
  · rw [← Option.some.inj hn]
    decide
  · cases hn

theorem migratedEvent_read (h : stateEventSchema (.object fields) = some event) :
    stateEventV2Schema (.object (migratedEventFields event fields)) =
      some { event with version := .v2 none (legacyGeneration event) true } := by
  obtain ⟨hread, hmatches⟩ := Option.filter_eq_some_iff.mp h
  obtain ⟨hlisted, hbody⟩ := strictObject_object.mp hread
  simp only [Option.bind_eq_bind, Option.bind_eq_some_iff] at hbody
  obtain ⟨-, -, expected, hexpected, hfields⟩ := hbody
  have hsame : SameOn ["eventId", "sequence", "runId", "workflow", "kind", "mutation", "at"]
      (migratedEventFields event fields) fields :=
    (SameOn.setField (by decide)).trans ((SameOn.setField (by decide)).trans (SameOn.setField (by decide)))
  obtain ⟨rfl, hupgraded⟩ :=
    eventFields_upgraded (.v2 none (legacyGeneration event) true) hfields hsame
  obtain ⟨hok, htidy⟩ := Expected.reads.required_settled hexpected
  have hversion : required (migratedEventFields event fields) "schemaVersion" (literal (.nat 2)) =
      some () := by
    rw [migratedEventFields, required_setField_ne (by decide), required_setField_ne (by decide),
      required_version]
  have hunbound : required (migratedEventFields event fields) "legacyHeadUnbound" boolean = some true := by
    rw [migratedEventFields, required_setField]
    rfl
  have hexpectedV2 := (Expected.v2_encoded event.expected none (legacyGeneration event) true _).mpr
    ⟨⟨hok, by simp, legacyGeneration_positive event⟩, rfl⟩
  have hreadExpected : required (migratedEventFields event fields) "expected" expectedV2Schema =
      some (event.expected, none, legacyGeneration event) := by
    rw [migratedEventFields, required_setField_ne (by decide), required_setField, hexpectedV2, htidy]
    rfl
  refine Option.filter_eq_some_iff.mpr ⟨strictObject_object.mpr ⟨?_, ?_⟩, ?_⟩
  · exact Listed.setField_iff.mpr ⟨by decide, Listed.setField_iff.mpr ⟨by decide,
      Listed.setField_iff.mpr ⟨by decide, Listed.mono hlisted (List.subset_append_left _ _)⟩⟩⟩
  · simp only [hversion, hreadExpected, hunbound, hupgraded, Option.bind_eq_bind, Option.bind_some]
  · rw [Bool.and_eq_true]
    exact ⟨hmatches, rfl⟩

end Event

/-! Task facts. -/

section TaskFacts

variable {fields fields' : List (String × Json)} {ledger : PersistedTaskLedger} {json : Json}

theorem taskLedgerFields_upgraded {version : TaskLedgerVersion} (version' : TaskLedgerVersion)
    (h : taskLedgerFields fields version = some ledger) (hsame : SameOn taskLedgerKeys fields' fields) :
    ledger.version = version ∧
      taskLedgerFields fields' version' = some { ledger with version := version' } := by
  simp only [taskLedgerFields, Option.bind_eq_bind, Option.bind_eq_some_iff, Option.pure_def,
    Option.some.injEq] at h
  obtain ⟨runId, hrun, ledgerRevision, hrevision, entries, hentries, rfl⟩ := h
  refine ⟨rfl, ?_⟩
  simp (disch := decide) only [taskLedgerFields, hsame.required, hrun, hrevision, hentries,
    Option.bind_eq_bind, Option.bind_some, Option.pure_def]

theorem taskLedger_v1 (h : readTaskLedger json = some ledger) (hversion : taskLedgerNumber ledger.version = 1) :
    ∃ fields, json = .object fields ∧ Listed ("schemaVersion" :: taskLedgerKeys) fields ∧
      taskLedgerFields fields .v1 = some ledger ∧ ledgerIsOrdered ledger = true := by
  obtain hread | ⟨-, hread⟩ := Option.or_eq_some_iff.mp h
  · obtain ⟨fields, -, hfields⟩ := strictObject_eq_some (Option.filter_eq_some_iff.mp hread).1
    simp only [Option.bind_eq_bind, Option.bind_eq_some_iff] at hfields
    obtain ⟨-, -, packetHash, -, tier, -, reservationId, -, hfields⟩ := hfields
    rw [(taskLedgerFields_upgraded .v1 hfields .refl).1] at hversion
    cases hversion
  · obtain ⟨hobject, hordered⟩ := Option.filter_eq_some_iff.mp hread
    obtain ⟨fields, rfl, hfields⟩ := strictObject_eq_some hobject
    simp only [Option.bind_eq_bind, Option.bind_eq_some_iff] at hfields
    obtain ⟨-, -, hfields⟩ := hfields
    exact ⟨fields, rfl, (strictObject_object.mp hobject).1, hfields, hordered⟩

def migratedTaskFields (fields : List (String × Json)) : List (String × Json) :=
  Json.setField "reservationId" .null (Json.setField "tier" .null (Json.setField "packetHash" .null
    (Json.setField "schemaVersion" (.nat 2) fields)))

theorem migratedTask_listed (h : Listed ("schemaVersion" :: taskLedgerKeys) fields) :
    Listed ("schemaVersion" :: taskLedgerKeys ++ ["packetHash", "tier", "reservationId"])
      (migratedTaskFields fields) :=
  Listed.setField_iff.mpr ⟨by decide, Listed.setField_iff.mpr ⟨by decide, Listed.setField_iff.mpr
    ⟨by decide, Listed.setField_iff.mpr ⟨by decide, h.mono (List.subset_append_left _ _)⟩⟩⟩⟩

theorem migratedTask_same : SameOn taskLedgerKeys (migratedTaskFields fields) fields :=
  (SameOn.setField (by decide)).trans ((SameOn.setField (by decide)).trans
    ((SameOn.setField (by decide)).trans (SameOn.setField (by decide))))

theorem migratedTask_version :
    required (migratedTaskFields fields) "schemaVersion" (literal (.nat 2)) = some () := by
  rw [migratedTaskFields, required_setField_ne (by decide), required_setField_ne (by decide),
    required_setField_ne (by decide), required_version]

theorem migratedTask_read (hlisted : Listed ("schemaVersion" :: taskLedgerKeys) fields)
    (h : taskLedgerFields fields .v1 = some ledger) (hordered : ledgerIsOrdered ledger = true) :
    taskLedgerV2Schema (.object (migratedTaskFields fields)) =
      some { ledger with version := .v2 none none none } := by
  have hpacket : required (migratedTaskFields fields) "packetHash" hashSchema.nullable = some none := by
    rw [migratedTaskFields, required_setField_ne (by decide), required_setField_ne (by decide),
      required_setField]
    rfl
  have htier : required (migratedTaskFields fields) "tier"
      (oneOf [.fast, .standard, .deep] Tier.text).nullable = some none := by
    rw [migratedTaskFields, required_setField_ne (by decide), required_setField]
    rfl
  have hreservation : required (migratedTaskFields fields) "reservationId" nonempty.nullable = some none := by
    rw [migratedTaskFields, required_setField]
    rfl
  refine Option.filter_eq_some_iff.mpr ⟨strictObject_object.mpr ⟨migratedTask_listed hlisted, ?_⟩, hordered⟩
  simp only [migratedTask_version, hpacket, htier, hreservation, Option.bind_eq_bind, Option.bind_some]
  exact (taskLedgerFields_upgraded _ h migratedTask_same).2

theorem migratedTask_current (hlisted : Listed ("schemaVersion" :: taskLedgerKeys) fields)
    (h : taskLedgerFields fields .v1 = some ledger) (hordered : ledgerIsOrdered ledger = true) :
    currentV2 ((Json.object (migratedTaskFields fields)).without ["packetHash", "tier", "reservationId"])
      (fun v ↦ (taskLedgerSchema v).isSome) = true := by
  have hsame : SameOn taskLedgerKeys
      (legacyFields ["packetHash", "tier", "reservationId"] (migratedTaskFields fields)) fields :=
    (legacy_sameOn (by decide) (by decide)).trans migratedTask_same
  have hread : taskLedgerSchema (.object (legacyFields ["packetHash", "tier", "reservationId"]
      (migratedTaskFields fields))) = some { ledger with version := .v1 } := by
    refine Option.filter_eq_some_iff.mpr ⟨strictObject_object.mpr ⟨?_, ?_⟩, hordered⟩
    · exact legacy_listed (migratedTask_listed hlisted) (by decide)
    · simp only [legacy_version, Option.bind_eq_bind, Option.bind_some]
      exact (taskLedgerFields_upgraded _ h hsame).2
  rw [currentV2, asV1_without, Bool.and_eq_true, decide_eq_true_eq, hread]
  refine ⟨schemaVersion_v2 ?_, rfl⟩
  rw [Json.member_filter (by decide), member_version migratedTask_version]

end TaskFacts

/-! Teams. -/

section Team

open Workflows

variable {isAbsolute : String → Bool} {fields fields' : List (String × Json)} {team : TeamState}

theorem teamState_congr (h : teamStateSchema isAbsolute (.object fields) = some team)
    (hlisted : Listed teamKeys fields') (hversion : Json.member fields' "schemaVersion" = some (.nat 1))
    (hsame : SameOn teamKeys.tail fields' fields) : teamStateSchema isAbsolute (.object fields') = some team := by
  obtain ⟨hobject, hbinds⟩ := Option.filter_eq_some_iff.mp h
  obtain ⟨-, hbody⟩ := strictObject_object.mp hobject
  simp only [Option.bind_eq_bind, Option.bind_eq_some_iff] at hbody
  obtain ⟨-, -, hfields⟩ := hbody
  refine Option.filter_eq_some_iff.mpr ⟨strictObject_object.mpr ⟨hlisted, ?_⟩, hbinds⟩
  have hliteral : required fields' "schemaVersion" (literal (.nat 1)) = some () := by
    rw [required, hversion, Option.bind_some, literal_eq_some]
  simp only [hliteral, Option.bind_eq_bind, Option.bind_some, ← hfields]
  simp (disch := decide) only [teamFields, hsame.required]

theorem teamState_listed (h : teamStateSchema isAbsolute (.object fields) = some team) :
    Listed teamKeys fields := (strictObject_object.mp (Option.filter_eq_some_iff.mp h).1).1

/-- The status of a team that its schema accepts is not the one that only the second version has. -/
theorem teamState_not_bound (h : teamStateSchema isAbsolute (.object fields) = some team) :
    Json.member fields "status" ≠ some (.string "bound") := by
  intro hbound
  have hbody := (strictObject_object.mp (Option.filter_eq_some_iff.mp h).1).2
  simp only [Option.bind_eq_bind, Option.bind_eq_some_iff, teamFields] at hbody
  obtain ⟨-, -, teamName, -, runId, -, attempt, -, revision, -, status, hstatus, -⟩ := hbody
  rw [required, hbound] at hstatus
  cases hstatus

theorem tombstone_none (version : ℕ) (h : Listed teamKeys fields) :
    tombstoneSchema version (.object fields) = none := by
  refine Option.eq_none_iff_forall_ne_some.mpr fun u hu ↦ ?_
  have hbody := (strictObject_object.mp hu).2
  rw [required, h.member_eq_none (by decide)] at hbody
  cases hbody

/-- `{ ...value, schemaVersion: 2, status }` of a team. -/
def migratedTeamFields (fields : List (String × Json)) : List (String × Json) :=
  if Json.member fields "status" = some (.string "active") then
    Json.setField "status" (.string "bound") (Json.setField "schemaVersion" (.nat 2) fields)
  else Json.setField "schemaVersion" (.nat 2) fields

theorem migratedTeam_listed (h : Listed teamKeys fields) : Listed teamKeys (migratedTeamFields fields) := by
  have hversion : Listed teamKeys (Json.setField "schemaVersion" (.nat 2) fields) :=
    Listed.setField_iff.mpr ⟨by decide, h⟩
  rw [migratedTeamFields]
  split
  · exact Listed.setField_iff.mpr ⟨by decide, hversion⟩
  · exact hversion

theorem migratedTeam_version :
    Json.member (migratedTeamFields fields) "schemaVersion" = some (.nat 2) := by
  rw [migratedTeamFields]
  split
  · rw [Json.member_setField, if_neg (by decide), Json.member_setField, if_pos rfl]
  · rw [Json.member_setField, if_pos rfl]

/-- With its version and status put back, a migrated team is read as it was. -/
theorem migratedTeam_restored (restored : List (String × Json))
    (h : teamStateSchema isAbsolute (.object fields) = some team)
    (hlisted : Listed teamKeys restored) (hversion : Json.member restored "schemaVersion" = some (.nat 1))
    (hsame : SameOn teamKeys.tail restored (migratedTeamFields fields)) :
    teamStateSchema isAbsolute
      (if Json.member (migratedTeamFields fields) "status" = some (.string "bound") then
        (Json.object restored).set "status" (.string "active") else .object restored) = some team := by
  have hother : ∀ key ∈ teamKeys.tail, key ≠ "status" → Json.member restored key = Json.member fields key := by
    intro key hkey hne
    have hnot : "schemaVersion" ≠ key := by
      rintro rfl
      revert hkey
      decide
    rw [hsame key hkey, migratedTeamFields]
    split
    · rw [Json.member_setField, if_neg hne.symm, Json.member_setField, if_neg hnot]
    · rw [Json.member_setField, if_neg hnot]
  by_cases hactive : Json.member fields "status" = some (.string "active")
  · have hbound : Json.member (migratedTeamFields fields) "status" = some (.string "bound") := by
      rw [migratedTeamFields, if_pos hactive, Json.member_setField, if_pos rfl]
    rw [if_pos hbound]
    refine teamState_congr h (Listed.setField_iff.mpr ⟨by decide, hlisted⟩) ?_ fun key hkey ↦ ?_
    · rw [Json.member_setField, if_neg (by decide), hversion]
    · rw [Json.member_setField]
      split
      · rename_i heq
        rw [← heq, hactive]
      · rename_i hne
        exact hother key hkey fun heq ↦ hne heq.symm
  · have hstatus : Json.member (migratedTeamFields fields) "status" = Json.member fields "status" := by
      rw [migratedTeamFields, if_neg hactive, Json.member_setField, if_neg (by decide)]
    rw [hstatus, if_neg (teamState_not_bound h)]
    refine teamState_congr h hlisted hversion fun key hkey ↦ ?_
    by_cases hkeyStatus : key = "status"
    · rw [hsame key hkey, hkeyStatus, hstatus]
    · exact hother key hkey hkeyStatus

theorem migratedTeam_read (h : teamStateSchema isAbsolute (.object fields) = some team) :
    readTeam isAbsolute (.object (migratedTeamFields fields)) = some (some team) := by
  have hlisted := migratedTeam_listed (teamState_listed h)
  have htombstone : teamTombstoneSchema (.object (migratedTeamFields fields)) = none := by
    rw [teamTombstoneSchema, union, tombstone_none 1 hlisted, tombstone_none 2 hlisted]
    rfl
  have hversion : ¬ (Json.object (migratedTeamFields fields)).get? "schemaVersion" ≠ some (.nat 2) :=
    not_not.mpr migratedTeam_version
  rw [readTeam, htombstone, if_neg (by simp), persistedTeamStateSchema, if_neg hversion]
  have hread := migratedTeam_restored (Json.setField "schemaVersion" (.nat 1)
    (migratedTeamFields fields)) h (Listed.setField_iff.mpr ⟨by decide, hlisted⟩)
    (by rw [Json.member_setField, if_pos rfl]) (SameOn.setField (by decide))
  exact congrArg (Option.map some) hread

theorem migratedTeam_current (h : teamStateSchema isAbsolute (.object fields) = some team) :
    teamStateSchema isAbsolute
      (if Json.member (migratedTeamFields fields) "status" = some (.string "bound") then
        (asV1 (.object (migratedTeamFields fields))).set "status" (.string "active")
      else asV1 (.object (migratedTeamFields fields))) = some team := by
  have hlisted := migratedTeam_listed (teamState_listed h)
  refine migratedTeam_restored (Json.setField "schemaVersion" (.nat 1)
    ((migratedTeamFields fields).filter (·.1 ∉ ["schemaVersion"]))) h ?_ ?_ ?_
  · exact Listed.setField_iff.mpr ⟨by decide, hlisted.filter⟩
  · rw [Json.member_setField, if_pos rfl]
  · exact (SameOn.setField (by decide)).trans (SameOn.filter (by decide))

end Team

end Migration

end OmpLazy.State

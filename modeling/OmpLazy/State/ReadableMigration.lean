import OmpLazy.State.MigratedLedgers

namespace OmpLazy.State.Migration

open OmpLazy.Foundation OmpLazy.Foundation.Schema OmpLazy.Foundation.Text OmpLazy.Contracts OmpLazy.Gates

/-- The second record has the content of the first and the members that its version adds. What becomes
of the entries of a rejection ledger once they have their scopes is the given relation. -/
inductive Upgraded (identities : List TaskIdentity)
    (rejected : List RejectionEntryV2 → List RejectionEntryV2 → Prop) :
    LifecycleRecord → LifecycleRecord → Prop
  | activeIndex (index : ActiveIndex) :
    Upgraded identities rejected (.activeIndex index) (.activeIndex { index with version := .v2 1 })
  | run (run : AnyRun) :
    Upgraded identities rejected (.run run) (.run { run with version := .v2 none none })
  | event (event : PersistedStateEvent) :
    Upgraded identities rejected (.event event)
      (.event { event with version := .v2 none (legacyGeneration event) true })
  | taskFacts (ledger : PersistedTaskLedger) :
    Upgraded identities rejected (.taskFacts ledger)
      (.taskFacts { ledger with version := .v2 none none none })
  | acceptance (ledger : AcceptanceLedger WorkerAcceptanceEvent) (entries : List AcceptanceEntryV2)
    (hentries : ledger.entries.mapM (scopedAcceptance identities) = some entries) :
    Upgraded identities rejected (.acceptance ledger)
      (.acceptanceV2 ⟨ledger.runId, ledger.ledgerRevision, entries⟩)
  | wal (events : List WorkerAcceptanceEvent) (entries : List AcceptanceEntryV2)
    (hentries : events.mapM (scopedAcceptance identities) = some entries) :
    Upgraded identities rejected (.wal events) (.walV2 entries)
  | rejections (ledger : Contracts.RejectionLedger Contracts.RejectionEntry)
    (converted merged : List RejectionEntryV2)
    (hconverted : ledger.entries.mapM (scopedRejection identities) = some converted)
    (hmerged : rejected converted merged) :
    Upgraded identities rejected (.rejections ledger) (.rejectionsV2 ⟨ledger.runId, merged⟩)
  | team (team : Option Workflows.TeamState) : Upgraded identities rejected (.team team) (.team team)
  | activation (record : DirectiveActivationRecord) :
    Upgraded identities rejected (.activation record) (.activation record)
  | counter (counter : ContinuationCounter) :
    Upgraded identities rejected (.counter counter) (.counter counter)

section

variable {Contents : Type} (format : WalFormat Contents) (root : StateRoot) (isAbsolute : String → Bool)

/-- What the readers of the second version check beyond those of the first: the members and the numbers
of an acceptance ledger, the run of the rejections, the size of a log as it is written anew. -/
def Consistent (bytes new : Contents) : LifecycleRecord → Prop
  | .acceptance ledger =>
    (∃ fields, format.parse bytes = some (.object fields) ∧ Listed acceptanceLedgerKeys fields) ∧
      sequenceMatches ledger.runId ledger.ledgerRevision ledger.entries = true
  | .rejections ledger => ∀ entry ∈ ledger.entries, entry.runId = ledger.runId
  | .wal _ => format.byteLength new ≤ maxWalBytes
  | _ => True

/-- The reader of the second version finds the content of a record, and there is nothing more to
migrate. -/
def Readable (rejected : List RejectionEntryV2 → List RejectionEntryV2 → Prop)
    (identities : List TaskIdentity) (path : String) (record : LifecycleRecord) (new : Contents) : Prop :=
  (∃ record', readRecord format root isAbsolute .v2 path new = some record' ∧
      Upgraded identities rejected record record') ∧
    migrateLifecycleRecord format.toTextFormat (ledgerRules format isAbsolute) path new identities =
      .current new

/-- The conversion of a value of a kind. -/
def migrateKind (bytes : Contents) (value : Json) (identities : List TaskIdentity) :
    RecordKind → MigrationRecordResult Contents
  | .activeIndex => migrateIndex format.toTextFormat bytes value
  | .run => migrateRun format.toTextFormat bytes value
  | .event => migrateEvent format.toTextFormat bytes value identities
  | .taskFacts => migrateTaskFacts format.toTextFormat (ledgerRules format isAbsolute) bytes value
  | .acceptance => migrateAcceptance format value identities
  | .rejections => migrateRejections format value identities
  | .team => migrateTeam format.toTextFormat (ledgerRules format isAbsolute) bytes value
  | .activation | .counter | .provenance => migrateVersion format.toTextFormat bytes value
  | .wal => .invalid

end

section

variable {Contents : Type} {format : WalFormat Contents} {root : StateRoot} {isAbsolute : String → Bool}
  {identities : List TaskIdentity} {path : String} {bytes new : Contents} {record : LifecycleRecord}
  {json : Json}

/-- The first of several kinds, or one of the others. -/
theorem branch_of_kind {γ : Type} {c : Prop} [Decidable c] {first kind : RecordKind} {others : Option RecordKind}
    {a b : γ} {f : RecordKind → γ} (hkind : (if c then some first else others) = some kind) (ha : a = f first)
    (hb : others = some kind → b = f kind) : (if c then a else b) = f kind := by
  split at hkind
  · rename_i h
    rw [if_pos h, ha, Option.some.inj hkind]
  · rename_i h
    rw [if_neg h, hb hkind]

theorem migrateLifecycleRecord_kind {kind : RecordKind} (hkind : recordKind path = some kind)
    (hwal : kind ≠ .wal) :
    migrateLifecycleRecord format.toTextFormat (ledgerRules format isAbsolute) path bytes identities =
      match parseRecord format.toTextFormat bytes with
      | none => .invalid
      | some value => migrateKind format isAbsolute bytes value identities kind := by
  have hends : ¬ endsWith ".wal.jsonl" path = true := by
    intro hends
    rw [recordKind, if_pos hends] at hkind
    exact hwal (Option.some.inj hkind).symm
  rw [migrateLifecycleRecord, if_neg hends]
  rw [recordKind, if_neg hends] at hkind
  cases parseRecord format.toTextFormat bytes with
  | none => rfl
  | some value =>
    -- The last three kinds are one case of the migration.
    simp only [Bool.or_eq_true, ite_or]
    iterate 10 refine branch_of_kind hkind rfl fun hkind ↦ ?_
    cases hkind

theorem wal_of_recordKind (h : recordKind path = some .wal) : endsWith ".wal.jsonl" path = true := by
  have hskip : ∀ (c : Prop) [Decidable c] (kind : RecordKind) (rest : Option RecordKind), kind ≠ .wal →
      (if c then some kind else rest) = some .wal → rest = some .wal := by
    intro c _ kind rest hkind h
    split at h
    · exact absurd (Option.some.inj h) hkind
    · exact h
  by_contra hends
  rw [recordKind, if_neg hends] at h
  iterate 10 replace h := hskip _ _ _ (by decide) h
  cases h

theorem migrateLifecycleRecord_wal (hkind : recordKind path = some .wal) :
    migrateLifecycleRecord format.toTextFormat (ledgerRules format isAbsolute) path bytes identities =
      migrateWal format bytes identities := by
  rw [migrateLifecycleRecord, if_pos (wal_of_recordKind hkind)]
  rfl

/-- A converted value is read in its second version, and is not converted again. -/
structure Published (format : WalFormat Contents) (root : StateRoot) (isAbsolute : String → Bool)
    (identities : List TaskIdentity) (path : String) (kind : RecordKind) (record : LifecycleRecord)
    (new : Contents) (fields : List (String × Json)) : Prop where
  text : new = format.stringify (.object fields)
  read : ∃ record', readJson root isAbsolute .v2 path (.object fields) kind = some record' ∧
    Upgraded identities Merged record record'
  current : migrateKind format isAbsolute new (.object fields) identities kind = .current new

theorem Published.readable {kind : RecordKind} {fields : List (String × Json)} (hformat : format.Lawful)
    (hkind : recordKind path = some kind) (hwal : kind ≠ .wal)
    (h : Published format root isAbsolute identities path kind record new fields) :
    Readable format root isAbsolute Merged identities path record new := by
  have hparse : format.parse new = some (.object fields) := by
    rw [h.text, hformat.parse_stringify]
  constructor
  · obtain ⟨record', hrecord', hupgraded⟩ := h.read
    refine ⟨record', ?_, hupgraded⟩
    rw [readRecord, hkind, Option.bind_eq_bind, Option.bind_some, if_neg hwal, hparse, Option.bind_some,
      hrecord']
  · have hvalue : parseRecord format.toTextFormat new = some (.object fields) := by
      rw [parseRecord, hparse]
    rw [migrateLifecycleRecord_kind hkind hwal, hvalue]
    exact h.current

theorem toOption_eq_some {ε α : Type} {x : Except ε α} {y : α} : x.toOption = some y ↔ x = .ok y := by
  cases x <;> simp [Except.toOption]

theorem index_published (hread : readJson root isAbsolute .v1 path json .activeIndex = some record)
    (h : migrateIndex format.toTextFormat bytes json = .migrated new) :
    ∃ fields, Published format root isAbsolute identities path .activeIndex record new fields := by
  simp only [readJson, Option.bind_eq_bind, Option.bind_eq_some_iff, toOption_eq_some,
    Option.ite_none_right_eq_some, Option.some.injEq] at hread
  obtain ⟨index, hdecode, hversion, rfl⟩ := hread
  obtain ⟨json', hjson, hschema, hvalid⟩ := decodeActiveIndex_eq_ok.mp hdecode
  obtain rfl := Option.some.inj hjson
  obtain ⟨fields, rfl, hlisted, hfields⟩ := activeIndex_v1 hschema hversion
  refine ⟨migratedIndexFields fields, ?_, ?_, ?_⟩
  · rw [migrateIndex] at h
    split_ifs at h
    exact (MigrationRecordResult.migrated.inj h).symm
  · refine ⟨_, ?_, .activeIndex index⟩
    have hdecode' : decodeActiveIndex (some (.object (migratedIndexFields fields))) =
        .ok { index with version := .v2 1 } :=
      decodeActiveIndex_eq_ok.mpr ⟨_, rfl, migratedIndex_read hlisted hfields, ⟨hvalid.keys, hvalid.runIds⟩⟩
    simp [readJson, hdecode', Except.toOption, IndexVersion.number, FormatVersion.number]
  · rw [migrateKind, migrateIndex, if_pos (migratedIndex_current hlisted hfields)]

theorem run_published (hread : readJson root isAbsolute .v1 path json .run = some record)
    (h : migrateRun format.toTextFormat bytes json = .migrated new) :
    ∃ fields, Published format root isAbsolute identities path .run record new fields := by
  simp only [readJson, Option.bind_eq_bind, Option.bind_eq_some_iff, toOption_eq_some,
    Option.ite_none_right_eq_some, Option.some.injEq] at hread
  obtain ⟨run, hdecode, hversion, rfl⟩ := hread
  obtain ⟨json', hjson, hschema, hcontained⟩ := decodeRun_eq_ok.mp hdecode
  obtain rfl := Option.some.inj hjson
  obtain ⟨workflow, fields, rfl, hlisted, hfields⟩ := run_v1 hschema hversion
  refine ⟨migratedRunFields fields, ?_, ?_, ?_⟩
  · rw [migrateRun] at h
    split_ifs at h
    exact (MigrationRecordResult.migrated.inj h).symm
  · refine ⟨_, ?_, .run run⟩
    have hdecode' : decodeRun root (some (.object (migratedRunFields fields))) =
        .ok { run with version := .v2 none none } :=
      decodeRun_eq_ok.mpr ⟨_, rfl, migratedRun_read hlisted hfields, hcontained⟩
    simp [readJson, hdecode', Except.toOption, RunVersion.number, FormatVersion.number]
  · rw [migrateKind, migrateRun, if_pos (migratedRun_current hlisted hfields)]

theorem event_published (hread : readJson root isAbsolute .v1 path json .event = some record)
    (h : migrateEvent format.toTextFormat bytes json identities = .migrated new) :
    ∃ fields, Published format root isAbsolute identities path .event record new fields := by
  simp only [readJson, Option.bind_eq_bind, Option.bind_eq_some_iff, toOption_eq_some,
    Option.ite_none_right_eq_some, Option.some.injEq] at hread
  obtain ⟨event, hdecode, hversion, rfl⟩ := hread
  rw [migrateEvent] at h
  split_ifs at h with hv2
  split at h
  · cases h
  rename_i event' hschema
  dsimp only at h
  split at h
  · cases h
  obtain rfl := MigrationRecordResult.migrated.inj h
  obtain ⟨json', hjson, hevent⟩ := decodeStateEvent_eq_ok.mp hdecode
  obtain rfl := Option.some.inj hjson
  obtain rfl : event' = event := by
    rw [eventSchema] at hevent
    split_ifs at hevent
    · rw [hevent] at hv2
      exact absurd rfl hv2
    · exact Option.some.inj (hschema.symm.trans hevent)
  obtain ⟨fields, rfl, -⟩ := strictObject_eq_some (Option.filter_eq_some_iff.mp hschema).1
  have hnew := migratedEvent_read hschema
  refine ⟨migratedEventFields event' fields, rfl, ⟨_, ?_, .event event'⟩, ?_⟩
  · have hmember : (Json.object (migratedEventFields event' fields)).get? "schemaVersion" = some (.nat 2) := by
      rw [Json.get?, migratedEventFields, Json.member_setField, if_neg (by decide), Json.member_setField,
        if_neg (by decide), Json.member_setField, if_pos rfl]
    have hdecode' : decodeStateEvent (some (.object (migratedEventFields event' fields))) =
        .ok { event' with version := .v2 none (legacyGeneration event') true } :=
      decodeStateEvent_eq_ok.mpr ⟨_, rfl, by rw [eventSchema, if_pos hmember, hnew]⟩
    simp [readJson, hdecode', Except.toOption, EventVersion.number, FormatVersion.number]
  · rw [migrateKind, migrateEvent, hnew]
    rfl

theorem taskFacts_published (hread : readJson root isAbsolute .v1 path json .taskFacts = some record)
    (h : migrateTaskFacts format.toTextFormat (ledgerRules format isAbsolute) bytes json = .migrated new) :
    ∃ fields, Published format root isAbsolute identities path .taskFacts record new fields := by
  simp only [readJson, Option.bind_eq_bind, Option.bind_eq_some_iff, Option.ite_none_right_eq_some,
    Option.some.injEq] at hread
  obtain ⟨ledger, hledger, hversion, rfl⟩ := hread
  obtain ⟨fields, rfl, hlisted, hfields, hordered⟩ := taskLedger_v1 hledger hversion
  refine ⟨migratedTaskFields fields, ?_, ?_, ?_⟩
  · rw [migrateTaskFacts] at h
    split_ifs at h
    exact (MigrationRecordResult.migrated.inj h).symm
  · refine ⟨_, ?_, .taskFacts ledger⟩
    simp [readJson, readTaskLedger, migratedTask_read hlisted hfields hordered, taskLedgerNumber,
      FormatVersion.number]
  · rw [migrateKind, migrateTaskFacts]
    exact if_pos (migratedTask_current hlisted hfields hordered)

theorem acceptance_published (hids : ∀ identity ∈ identities, Trimmed identity.taskId)
    (hread : readJson root isAbsolute .v1 path json .acceptance = some record)
    (hparse : format.parse bytes = some json) (hconsistent : Consistent format bytes new record)
    (h : migrateAcceptance format json identities = .migrated new) :
    ∃ fields, Published format root isAbsolute identities path .acceptance record new fields := by
  obtain ⟨ledger, hledger, rfl⟩ := Option.map_eq_some_iff.mp hread
  obtain ⟨⟨fields, hfields, hlisted⟩, hsequence⟩ := hconsistent
  obtain rfl := Option.some.inj (hparse.symm.trans hfields)
  rw [migrateAcceptance, hledger] at h
  split_ifs at h
  dsimp only at h
  split at h
  · cases h
  rename_i entries hentries
  obtain rfl := MigrationRecordResult.migrated.inj h
  have hnew := migratedAcceptance_read hids hledger hentries hlisted hsequence
  refine ⟨_, rfl, ⟨_, ?_, .acceptance ledger entries hentries⟩, ?_⟩
  · exact Option.map_eq_some_iff.mpr ⟨_, hnew, rfl⟩
  · rw [migrateKind, migrateAcceptance]
    exact if_pos (Option.isSome_of_eq_some hnew)

theorem rejections_published (hids : ∀ identity ∈ identities, Trimmed identity.taskId)
    (hread : readJson root isAbsolute .v1 path json .rejections = some record)
    (hconsistent : Consistent format bytes new record)
    (h : migrateRejections format json identities = .migrated new) :
    ∃ fields, Published format root isAbsolute identities path .rejections record new fields := by
  obtain ⟨ledger, hledger, rfl⟩ := Option.map_eq_some_iff.mp hread
  rw [migrateRejections, hledger] at h
  split_ifs at h
  dsimp only at h
  split at h
  · cases h
  rename_i converted hconverted
  obtain rfl := MigrationRecordResult.migrated.inj h
  obtain ⟨fields, rfl, -⟩ := strictObject_eq_some hledger
  have hnew := migratedRejections_read hids hledger hconverted hconsistent
  refine ⟨_, rfl, ⟨_, ?_, .rejections ledger converted _ hconverted (mergeRejections_merged converted)⟩, ?_⟩
  · exact Option.map_eq_some_iff.mpr ⟨_, hnew, rfl⟩
  · rw [migrateKind, migrateRejections]
    exact if_pos (Option.isSome_of_eq_some hnew)

theorem tombstone_published {fields : List (String × Json)}
    (htombstone : Workflows.tombstoneSchema 1 (.object fields) = some ()) :
    Published format root isAbsolute identities path .team (.team none)
      (format.stringify (.object (Json.setField "schemaVersion" (.nat 2) fields)))
      (Json.setField "schemaVersion" (.nat 2) fields) := by
  obtain ⟨hlisted, hbody⟩ := strictObject_object.mp htombstone
  simp only [Option.bind_eq_bind, Option.bind_eq_some_iff] at hbody
  obtain ⟨_, hdeleted, _, hversion, name, hname, -⟩ := hbody
  have hmember : Json.member (Json.setField "schemaVersion" (.nat 2) fields) "schemaVersion" =
      some (.nat 2) := by
    rw [Json.member_setField, if_pos rfl]
  have hnew : Workflows.tombstoneSchema 2 (.object (Json.setField "schemaVersion" (.nat 2) fields)) =
      some () := by
    refine strictObject_object.mpr ⟨Listed.setField_iff.mpr ⟨by decide, hlisted⟩, ?_⟩
    simp (disch := decide) only [required_setField_ne, required_version, hdeleted, hname,
      Option.bind_eq_bind, Option.bind_some, Option.pure_def]
  have hread : Workflows.teamTombstoneSchema (.object (Json.setField "schemaVersion" (.nat 2) fields)) =
      some () := by
    rw [Workflows.teamTombstoneSchema, union, hnew]
    cases Workflows.tombstoneSchema 1 (.object (Json.setField "schemaVersion" (.nat 2) fields)) <;> rfl
  have hold : Workflows.tombstoneSchema 1 (asV1 (.object (Json.setField "schemaVersion" (.nat 2) fields))) =
      some () := by
    have hsame : SameOn ["deleted", "teamName"] (Json.setField "schemaVersion" (.nat 1)
        ((Json.setField "schemaVersion" (.nat 2) fields).filter (·.1 ∉ ["schemaVersion"]))) fields :=
      (SameOn.setField (by decide)).trans ((SameOn.filter (by decide)).trans (SameOn.setField (by decide)))
    refine strictObject_object.mpr ⟨Listed.setField_iff.mpr ⟨by decide,
      (Listed.setField_iff.mpr ⟨by decide, hlisted⟩).filter⟩, ?_⟩
    simp (disch := decide) only [required_version, hsame.required, hdeleted, hname, Option.bind_eq_bind,
      Option.bind_some, Option.pure_def]
  refine ⟨rfl, ⟨_, ?_, .team none⟩, ?_⟩
  · have hv2 : hasVersion .v2 (.object (Json.setField "schemaVersion" (.nat 2) fields)) = true :=
      decide_eq_true hmember
    rw [readJson, if_pos hv2, Workflows.readTeam, hread]
    rfl
  · have hv2 := schemaVersion_v2 hmember
    rw [migrateKind, migrateTeam]
    simp [hv2, ledgerRules, hold]

theorem team_published (hread : readJson root isAbsolute .v1 path json .team = some record)
    (h : migrateTeam format.toTextFormat (ledgerRules format isAbsolute) bytes json = .migrated new) :
    ∃ fields, Published format root isAbsolute identities path .team record new fields := by
  rw [readJson, Option.ite_none_right_eq_some] at hread
  obtain ⟨hversion, hread⟩ := hread
  have hv1 : json.get? "schemaVersion" = some (.nat 1) := of_decide_eq_true hversion
  have hnotV2 : schemaVersion json ≠ some 2 := by simp [schemaVersion, hv1]
  have hnot2 : Workflows.tombstoneSchema 2 json = none := by
    refine Option.eq_none_iff_forall_ne_some.mpr fun u hu ↦ ?_
    obtain ⟨fields, rfl, hbody⟩ := strictObject_eq_some hu
    simp only [Option.bind_eq_bind, Option.bind_eq_some_iff] at hbody
    obtain ⟨_, -, _, hliteral, -⟩ := hbody
    have heq := (member_version hliteral).symm.trans hv1
    simp [Json.nat] at heq
  obtain ⟨team, hteam, rfl⟩ := Option.map_eq_some_iff.mp hread
  have hone : schemaVersion json = some 1 := by simp [schemaVersion, hv1]
  have hnot2' : ∀ accepts : Prop, ¬ (schemaVersion json = some 2 ∧ accepts) := fun _ hv2 ↦ hnotV2 hv2.1
  rw [migrateTeam, if_neg (hnot2' _), if_neg (hnot2' _), if_neg (not_not.mpr hone)] at h
  by_cases htombstone : (Workflows.tombstoneSchema 1 json).isSome = true
  · rw [if_pos (by exact htombstone)] at h
    obtain ⟨u, hsome⟩ := Option.isSome_iff_exists.mp htombstone
    obtain ⟨fields, rfl, -⟩ := strictObject_eq_some hsome
    obtain rfl := MigrationRecordResult.migrated.inj h
    rw [Workflows.readTeam, Workflows.teamTombstoneSchema, union, hsome] at hteam
    obtain rfl : none = team := Option.some.inj hteam
    exact ⟨_, tombstone_published hsome⟩
  have hnone : Workflows.teamTombstoneSchema json = none := by
    rw [Workflows.teamTombstoneSchema, union, hnot2, Option.or_none]
    exact Option.not_isSome_iff_eq_none.mp htombstone
  rw [Workflows.readTeam, hnone, if_neg (by simp), Workflows.persistedTeamStateSchema,
    if_pos (by rw [hv1]; simp [Json.nat])] at hteam
  obtain ⟨state, hstate, rfl⟩ := Option.map_eq_some_iff.mp hteam
  obtain ⟨fields, rfl, -⟩ := strictObject_eq_some (Option.filter_eq_some_iff.mp hstate).1
  have haccepted : ¬ (!(ledgerRules format isAbsolute).isTeamState (.object fields)) = true := by
    simp [ledgerRules, hstate]
  rw [if_neg (by exact htombstone), if_neg haccepted] at h
  obtain rfl := MigrationRecordResult.migrated.inj h
  have hbytes : (if (Json.object fields).get? "status" = some (.string "active") then
      ((Json.object fields).set "schemaVersion" (.nat 2)).set "status" (.string "bound")
      else (Json.object fields).set "schemaVersion" (.nat 2)) = .object (migratedTeamFields fields) := by
    rw [migratedTeamFields, apply_ite Json.object]
    rfl
  refine ⟨migratedTeamFields fields, congrArg format.stringify hbytes, ⟨_, ?_, .team (some state)⟩, ?_⟩
  · have hv2 : hasVersion .v2 (.object (migratedTeamFields fields)) = true :=
      decide_eq_true migratedTeam_version
    rw [readJson, if_pos hv2, migratedTeam_read hstate]
    rfl
  · have hversion' : Json.member (migratedTeamFields fields) "schemaVersion" = some (.nat 2) :=
      migratedTeam_version
    have hv2 := schemaVersion_v2 hversion'
    have hcurrent := Option.isSome_of_eq_some (migratedTeam_current hstate)
    rw [migrateKind, migrateTeam]
    refine if_pos ⟨hv2, ?_⟩
    simp only [hv2, true_and]
    exact hcurrent

theorem version_published {kind : RecordKind} (hkind : kind = .activation ∨ kind = .counter)
    (hread : readJson root isAbsolute .v1 path json kind = some record)
    (h : migrateVersion format.toTextFormat bytes json = .migrated new) :
    ∃ fields, Published format root isAbsolute identities path kind record new fields := by
  have hv1 : json.get? "schemaVersion" = some (.nat 1) := by
    obtain rfl | rfl := hkind
    · exact of_decide_eq_true (Option.ite_none_right_eq_some.mp hread).1
    · exact of_decide_eq_true (Option.ite_none_right_eq_some.mp hread).1
  obtain ⟨fields, rfl⟩ : ∃ fields, json = .object fields := by
    cases json with
    | object fields => exact ⟨fields, rfl⟩
    | null | bool | number | string | array => cases hv1
  have hone : schemaVersion (.object fields) = some 1 := by simp [schemaVersion, hv1]
  rw [migrateVersion, hone] at h
  obtain rfl := MigrationRecordResult.migrated.inj h
  have hmember : Json.member (Json.setField "schemaVersion" (.nat 2) fields) "schemaVersion" =
      some (.nat 2) := by
    rw [Json.member_setField, if_pos rfl]
  have hv2 : hasVersion .v2 (.object (Json.setField "schemaVersion" (.nat 2) fields)) = true :=
    decide_eq_true hmember
  have hcurrent : ∀ bytes : Contents, migrateVersion format.toTextFormat bytes
      (.object (Json.setField "schemaVersion" (.nat 2) fields)) = .current bytes := by
    intro bytes
    rw [migrateVersion, schemaVersion_v2 hmember]
    rfl
  have hrest : ∀ key, "schemaVersion" ≠ key → (Json.object (Json.setField "schemaVersion" (.nat 2)
      fields)).get? key = (Json.object fields).get? key := by
    intro key hkey
    rw [Json.get?, Json.member_setField, if_neg hkey, Json.get?]
  obtain rfl | rfl := hkind
  · obtain ⟨-, hread⟩ := Option.ite_none_right_eq_some.mp hread
    obtain ⟨activation, hactivation, rfl⟩ := Option.map_eq_some_iff.mp hread
    refine ⟨_, rfl, ⟨_, ?_, .activation activation⟩, hcurrent _⟩
    have hold : hasVersion .v1 (.object fields) = true := decide_eq_true hv1
    have hsame : ∀ sessionId, readDirectiveActivation sessionId
        (.object (Json.setField "schemaVersion" (.nat 2) fields)) =
          readDirectiveActivation sessionId (.object fields) := by
      intro sessionId
      simp only [readDirectiveActivation, hv2, hold, Bool.or_true, Bool.true_or, if_true,
        hrest "sessionId" (by decide), hrest "workflow" (by decide), hrest "runId" (by decide),
        hrest "activatedAt" (by decide)]
    rw [readJson, if_pos hv2, hsame, hactivation]
    rfl
  · obtain ⟨-, hread⟩ := Option.ite_none_right_eq_some.mp hread
    obtain ⟨counter, hcounter, rfl⟩ := Option.map_eq_some_iff.mp hread
    simp [readContinuationCounter, hasVersion, hv1, FormatVersion.number, Json.nat] at hcounter

theorem wal_readable (hformat : format.Lawful) (hids : ∀ identity ∈ identities, Trimmed identity.taskId)
    (hkind : recordKind path = some .wal) (hread : readWal format .v1 bytes = some record)
    (hconsistent : Consistent format bytes new record)
    (h : migrateWal format bytes identities = .migrated new) :
    Readable format root isAbsolute Merged identities path record new := by
  obtain ⟨jsons, hjsons, hparsed⟩ := Option.bind_eq_some_iff.mp hread
  obtain ⟨events, hevents, rfl⟩ := Option.map_eq_some_iff.mp hparsed
  rw [readAcceptanceWal] at hjsons
  split at hjsons
  · cases hjsons
  split at hjsons
  · cases hjsons
  rename_i hlength
  obtain ⟨entries, hentries, rfl⟩ := migrateWal_migrated hjsons hevents h
  have hcount : entries.length ≤ maxWalEntries := by
    rw [← (mapM_eq_some.mp hentries).length_eq, ← (mapM_eq_some.mp hevents).length_eq,
      ← (mapM_eq_some.mp hjsons).length_eq]
    exact not_lt.mp hlength
  have hsettled : ∀ event ∈ events, event.Settled := by
    intro event hevent
    obtain ⟨line, -, hline⟩ := exists_of_forall₂ (mapM_eq_some.mp hevents) hevent
    exact .of_read hline
  have hreads := walEntries_read hids hsettled hentries
  constructor
  · refine ⟨_, ?_, .wal events entries hentries⟩
    rw [readRecord, hkind, Option.bind_eq_bind, Option.bind_some, if_pos rfl]
    exact walLines_read hformat hreads hcount hconsistent
  · rw [migrateLifecycleRecord_wal hkind]
    exact walLines_current hformat hreads

/-- Migrated records are readable. -/
theorem migrated_readable (hformat : format.Lawful)
    (hids : ∀ identity ∈ identities, Trimmed identity.taskId)
    (hread : readRecord format root isAbsolute .v1 path bytes = some record)
    (hmigrated : migrateLifecycleRecord format.toTextFormat (ledgerRules format isAbsolute) path bytes
      identities = .migrated new)
    (hconsistent : Consistent format bytes new record) :
    Readable format root isAbsolute Merged identities path record new := by
  obtain ⟨kind, hkind, hread⟩ := Option.bind_eq_some_iff.mp hread
  by_cases hwal : kind = .wal
  · subst hwal
    rw [if_pos rfl] at hread
    rw [migrateLifecycleRecord_wal hkind] at hmigrated
    exact wal_readable hformat hids hkind hread hconsistent hmigrated
  rw [if_neg hwal] at hread
  obtain ⟨json, hparse, hread⟩ := Option.bind_eq_some_iff.mp hread
  rw [migrateLifecycleRecord_kind hkind hwal] at hmigrated
  have hpublished : ∃ fields, Published format root isAbsolute identities path kind record new fields := by
    split at hmigrated
    · cases hmigrated
    rename_i value hvalue
    obtain rfl : value = json := Option.some.inj ((parseRecord_eq_some hvalue).1.symm.trans hparse)
    cases kind with
    | activeIndex => exact index_published hread hmigrated
    | run => exact run_published hread hmigrated
    | event => exact event_published hread hmigrated
    | taskFacts => exact taskFacts_published hread hmigrated
    | acceptance => exact acceptance_published hids hread hparse hconsistent hmigrated
    | wal => exact absurd rfl hwal
    | rejections => exact rejections_published hids hread hconsistent hmigrated
    | team => exact team_published hread hmigrated
    | activation => exact version_published (.inl rfl) hread hmigrated
    | counter => exact version_published (.inr rfl) hread hmigrated
    | provenance => cases hread
  obtain ⟨fields, hfields⟩ := hpublished
  exact hfields.readable hformat hkind hwal

end

/-! Two rejections of one worker, and an acceptance ledger that counts wrong. -/

namespace Sample

/-- Texts as their lines. -/
def format : WalFormat (List Bytes) where
  lines text := text.map fun line ↦ [line]
  parse
    | [line] => line
    | _ => none
  stringify value := [stringify value]
  hash _ := ""
  unlines := List.flatten
  byteLength := List.length

theorem format_lawful : format.Lawful where
  parse_stringify _ := rfl
  lines_unlines values := by
    induction values with
    | nil => rfl
    | cons value values ih => exact congrArg (List.cons _) ih

def root : StateRoot := ⟨⟨"/repo", "/repo"⟩, id⟩

def isAbsolute (path : String) : Bool := startsWith "/" path

def runId : String := "11111111-1111-4111-8111-111111111111"

def identity : TaskIdentity := ⟨runId, "worker-a", .low, "agent-a"⟩

def rejection (attempt : ℕ) : Contracts.RejectionEntry :=
  ⟨runId, attempt, 2, 1, 1, "agent-a", 2, .retryAllowed⟩

def rejections : List Bytes := format.stringify (.object [("schemaVersion", .nat 1),
  ("runId", .string runId), ("entries", .array ([0, 1].map fun attempt ↦
    .object (encodeRejection (rejection attempt))))])

def mergedRejection : RejectionEntryV2 :=
  ⟨⟨runId, 1, 2, 1, 1, "agent-a", 3, .needsParentDecision⟩, ⟨"worker-a", .low, 1⟩⟩

def migratedRejections : List Bytes := format.stringify (.object [("schemaVersion", .nat 2),
  ("runId", .string runId), ("entries", .array [encodeRejectionEntryV2 mergedRejection])])

/-- A ledger with one rejection, in the second version of a task without a name. -/
def nameless : List Bytes := format.stringify (.object [("schemaVersion", .nat 1), ("runId", .string runId),
  ("entries", .array [.object (encodeRejection (rejection 0))])])

def migratedNameless : List Bytes := format.stringify (.object [("schemaVersion", .nat 2),
  ("runId", .string runId), ("entries", .array [encodeRejectionEntryV2 ⟨rejection 0, ⟨"", .low, 1⟩⟩])])

def rejectionsPath : String := "worker-rejections/11111111-1111-4111-8111-111111111111.json"

def acceptancesPath : String := "worker-acceptance/11111111-1111-4111-8111-111111111111.json"

/-- An acceptance ledger without entries, in a version. -/
def miscounted (version : ℕ) : List Bytes := format.stringify (.object [("schemaVersion", .nat version),
  ("runId", .string runId), ("ledgerRevision", .nat 1), ("entries", .array [])])

theorem rejections_read : readRecord format root isAbsolute .v1 rejectionsPath rejections =
    some (.rejections ⟨runId, [rejection 0, rejection 1]⟩) := by decide

theorem rejections_migrated : migrateLifecycleRecord format.toTextFormat (ledgerRules format isAbsolute)
    rejectionsPath rejections [identity] = .migrated migratedRejections := by decide

end Sample

section Sampled

open Migration.Sample

theorem migrated_readable_merged : Readable Sample.format Sample.root Sample.isAbsolute Merged
    [Sample.identity] rejectionsPath (.rejections ⟨Sample.runId, [rejection 0, rejection 1]⟩)
      migratedRejections :=
  migrated_readable format_lawful (by decide) rejections_read rejections_migrated
    (show ∀ entry ∈ [rejection 0, rejection 1], entry.runId = Sample.runId by decide)

/-- Merged rejections do not have the content of what was there; an acceptance ledger that counts wrong
and a task without a name are not read at all. -/
theorem migrated_not_readable :
    (readRecord Sample.format Sample.root Sample.isAbsolute .v1 rejectionsPath rejections =
        some (.rejections ⟨Sample.runId, [rejection 0, rejection 1]⟩) ∧
      migrateLifecycleRecord Sample.format.toTextFormat (ledgerRules Sample.format Sample.isAbsolute)
        rejectionsPath rejections [Sample.identity] = .migrated migratedRejections ∧
      ¬ Readable Sample.format Sample.root Sample.isAbsolute (· = ·) [Sample.identity] rejectionsPath
        (.rejections ⟨Sample.runId, [rejection 0, rejection 1]⟩) migratedRejections) ∧
    (readRecord Sample.format Sample.root Sample.isAbsolute .v1 acceptancesPath (miscounted 1) =
        some (.acceptance ⟨Sample.runId, 1, []⟩) ∧
      migrateLifecycleRecord Sample.format.toTextFormat (ledgerRules Sample.format Sample.isAbsolute)
        acceptancesPath (miscounted 1) [] = .migrated (miscounted 2) ∧
      ¬ Readable Sample.format Sample.root Sample.isAbsolute (· = ·) [] acceptancesPath
        (.acceptance ⟨Sample.runId, 1, []⟩) (miscounted 2)) ∧
    (readRecord Sample.format Sample.root Sample.isAbsolute .v1 rejectionsPath nameless =
        some (.rejections ⟨Sample.runId, [rejection 0]⟩) ∧
      migrateLifecycleRecord Sample.format.toTextFormat (ledgerRules Sample.format Sample.isAbsolute)
        rejectionsPath nameless [{ Sample.identity with taskId := "" }] = .migrated migratedNameless ∧
      ¬ Readable Sample.format Sample.root Sample.isAbsolute (· = ·) [{ Sample.identity with taskId := "" }]
        rejectionsPath (.rejections ⟨Sample.runId, [rejection 0]⟩) migratedNameless) := by
  refine ⟨⟨rejections_read, rejections_migrated, ?_⟩, ⟨by decide, by decide, ?_⟩,
    by decide, by decide, ?_⟩
  · rintro ⟨⟨record', hread, hupgraded⟩, -⟩
    have hmerged : readRecord Sample.format Sample.root Sample.isAbsolute .v2 rejectionsPath
        migratedRejections = some (.rejectionsV2 ⟨Sample.runId, [mergedRejection]⟩) := by decide
    obtain rfl := Option.some.inj (hmerged.symm.trans hread)
    cases hupgraded with
    | rejections _ converted merged hconverted hsame =>
      subst hsame
      have hlength := (mapM_eq_some.mp hconverted).length_eq
      cases hlength
  · rintro ⟨⟨record', hread, -⟩, -⟩
    have hnone : readRecord Sample.format Sample.root Sample.isAbsolute .v2 acceptancesPath
        (miscounted 2) = none := by decide
    cases hnone.symm.trans hread
  · rintro ⟨⟨record', hread, -⟩, -⟩
    have hnone : readRecord Sample.format Sample.root Sample.isAbsolute .v2 rejectionsPath
        migratedNameless = none := by decide
    cases hnone.symm.trans hread

end Sampled

end OmpLazy.State.Migration

import OmpLazy.Contracts.AcceptanceLaws
import OmpLazy.Contracts.AcceptanceStore

/-! What is written of a ledger of acceptances is read back. -/

namespace OmpLazy.Contracts

open OmpLazy.Foundation OmpLazy.Foundation.Schema OmpLazy.Foundation.Text
open OmpLazy.State

/-- The schema of an acceptance leaves only what it has checked. -/
theorem WorkerAcceptanceEvent.fields_of_encoded {x y : WorkerAcceptanceEvent}
    (h : acceptanceEventFields (encodeAcceptanceEvent x) = some y) : x.FieldsOk ∧ x.tidy = y := by
  have hread := h
  obtain ⟨hstatus, hscenario, hdecision⟩ := encode_optional x
  obtain ⟨sequence, hsequence, h⟩ := Option.bind_eq_some_iff.mp h
  obtain ⟨idempotencyKey, hkey, h⟩ := Option.bind_eq_some_iff.mp h
  obtain ⟨runId, hid, h⟩ := Option.bind_eq_some_iff.mp h
  obtain ⟨attempt, hattempt, h⟩ := Option.bind_eq_some_iff.mp h
  obtain ⟨runRevision, hrevision, h⟩ := Option.bind_eq_some_iff.mp h
  obtain ⟨ownerSessionId, hsession, h⟩ := Option.bind_eq_some_iff.mp h
  obtain ⟨ownerEpoch, hepoch, h⟩ := Option.bind_eq_some_iff.mp h
  obtain ⟨taskGeneration, hgeneration, h⟩ := Option.bind_eq_some_iff.mp h
  obtain ⟨workerRole, -, h⟩ := Option.bind_eq_some_iff.mp h
  obtain ⟨actualAgentId, hagent, h⟩ := Option.bind_eq_some_iff.mp h
  obtain ⟨actualJobId, hjob, h⟩ := Option.bind_eq_some_iff.mp h
  obtain ⟨captureCommit, hcommit, h⟩ := Option.bind_eq_some_iff.mp h
  obtain ⟨receiptPath, hpath, h⟩ := Option.bind_eq_some_iff.mp h
  obtain ⟨receiptHash, hreceipt, h⟩ := Option.bind_eq_some_iff.mp h
  obtain ⟨artifactHash, hartifact, h⟩ := Option.bind_eq_some_iff.mp h
  obtain ⟨artifactPaths, hpaths, h⟩ := Option.bind_eq_some_iff.mp h
  obtain ⟨cleanupReceiptPaths, hcleanup, h⟩ := Option.bind_eq_some_iff.mp h
  obtain ⟨cleanupStatus, -, h⟩ := Option.bind_eq_some_iff.mp h
  obtain ⟨cleanupScenarioId, hscenarioId, -⟩ := Option.bind_eq_some_iff.mp h
  rw [Schema.optional, hscenario, nonempty_reads.ifPresent_iff] at hscenarioId
  have hok : x.FieldsOk :=
    ⟨((positiveCounter_reads.required_iff rfl).mp hsequence).1, ((nonempty_reads.required_iff rfl).mp hkey).1,
      ((uuid_reads.required_iff rfl).mp hid).1, ((counter_reads.required_iff rfl).mp hattempt).1,
      ((counter_reads.required_iff rfl).mp hrevision).1, ((nonempty_reads.required_iff rfl).mp hsession).1,
      ((counter_reads.required_iff rfl).mp hepoch).1, ((positiveCounter_reads.required_iff rfl).mp hgeneration).1,
      ((runtimeId_reads.required_iff rfl).mp hagent).1, ((nullableRuntimeId_reads.required_iff rfl).mp hjob).1,
      ((commit_reads.required_iff rfl).mp hcommit).1, ((nonempty_reads.required_iff rfl).mp hpath).1,
      ((hash_reads.required_iff rfl).mp hreceipt).1, ((hash_reads.required_iff rfl).mp hartifact).1,
      ((somePaths_reads.required_iff rfl).mp hpaths).1, ((cleanupPaths_reads.required_iff rfl).mp hcleanup).1,
      hscenarioId.1⟩
  exact ⟨hok, Option.some.inj ((fields_encoded hok).symm.trans hread)⟩

theorem WorkerAcceptanceEvent.fields_encoded_iff {x y : WorkerAcceptanceEvent} :
    acceptanceEventFields (encodeAcceptanceEvent x) = some y ↔ x.FieldsOk ∧ x.tidy = y := by
  constructor
  · exact fields_of_encoded
  · rintro ⟨hok, rfl⟩
    exact fields_encoded hok

theorem SemanticScope.fields_settled {fields : List (String × Json)} {y : SemanticScope}
    (hy : scopeFields fields = some y) : y.Ok ∧ y.tidy = y := by
  obtain ⟨taskId, htaskId, hy⟩ := nonempty_reads.bind_settled hy
  obtain ⟨role, -, hy⟩ := workerRole_reads.bind_settled hy
  obtain ⟨semanticAttempt, hattempt, hy⟩ := positiveCounter_reads.bind_settled hy
  obtain rfl := Option.some.inj hy
  exact ⟨⟨htaskId.1, hattempt.1⟩, by simp [tidy, htaskId.2]⟩

/-! Entries. -/

namespace RuntimeEntry

structure Ok (entry : RuntimeEntry) : Prop where
  fields : entry.event.FieldsOk
  binds : cleanupBinds entry.event.tidy = true
  scope : ∀ scope ∈ entry.scope, scope.Ok

def tidy (entry : RuntimeEntry) : RuntimeEntry := ⟨entry.event.tidy, entry.scope.map SemanticScope.tidy⟩

/-- The entry has the members of the version. -/
def Fits (version : FormatVersion) (entry : RuntimeEntry) : Prop := entry.scope.isSome = true ↔ version = .v2

/-- An entry that the schema of its version leaves as it is. -/
structure Settled (version : FormatVersion) (entry : RuntimeEntry) : Prop where
  ok : entry.Ok
  tidy : entry.tidy = entry
  fits : entry.Fits version

variable {version : FormatVersion} {entry entry' : RuntimeEntry}

theorem Fits.cases (h : entry.Fits version) :
    (version = .v1 ∧ entry = ⟨entry.event, none⟩) ∨
      (version = .v2 ∧ ∃ scope, entry = ⟨entry.event, some scope⟩) := by
  obtain ⟨event, scope⟩ := entry
  cases scope with
  | none => cases version <;> simp [Fits] at h ⊢
  | some scope => cases version <;> simp [Fits] at h ⊢

theorem Settled.event_settled (h : entry.Settled version) : entry.event.Settled := by
  have htidy : entry.event.tidy = entry.event := congrArg RuntimeEntry.event h.tidy
  exact ⟨h.ok.fields, htidy, htidy ▸ h.ok.binds⟩

theorem Settled.scope_settled (h : entry.Settled version) {scope : SemanticScope}
    (hscope : entry.scope = some scope) : scope.Settled := by
  have htidy := congrArg RuntimeEntry.scope h.tidy
  rw [RuntimeEntry.tidy, hscope, Option.map_some, Option.some.injEq] at htidy
  exact ⟨h.ok.scope scope hscope, htidy⟩

end RuntimeEntry

section Entries

variable {version : FormatVersion} {entry entry' : RuntimeEntry} {json : Json}

theorem acceptanceEventSchema_encoded {x y : WorkerAcceptanceEvent} :
    acceptanceEventSchema (.object (encodeAcceptanceEvent x)) = some y ↔
      (x.FieldsOk ∧ cleanupBinds x.tidy = true) ∧ x.tidy = y := by
  rw [acceptanceEventSchema, Schema.refine, Option.filter_eq_some_iff, strictObject_object,
    WorkerAcceptanceEvent.fields_encoded_iff]
  constructor
  · rintro ⟨⟨-, hok, rfl⟩, hbinds⟩
    exact ⟨⟨hok, hbinds⟩, rfl⟩
  · rintro ⟨⟨hok, hbinds⟩, rfl⟩
    exact ⟨⟨x.encode_listed, hok, rfl⟩, hbinds⟩

theorem acceptanceEntryV2_encoded {x : WorkerAcceptanceEvent} {scope : SemanticScope} {y : AcceptanceEntryV2} :
    acceptanceLedgerEntryV2Schema (.object (encodeAcceptanceEvent x ++ encodeScope scope)) = some y ↔
      (x.FieldsOk ∧ cleanupBinds x.tidy = true ∧ scope.Ok) ∧ (⟨x.tidy, scope.tidy⟩ : AcceptanceEntryV2) = y := by
  have heventFields : SameOn acceptanceKeys (encodeAcceptanceEvent x ++ encodeScope scope) (encodeAcceptanceEvent x) :=
    .append_left scope.encode_listed (by decide)
  have hscopeFields : SameOn scopeKeys (encodeAcceptanceEvent x ++ encodeScope scope) (encodeScope scope) :=
    .append_right x.encode_listed (by decide)
  have hevent : acceptanceEventFields (encodeAcceptanceEvent x ++ encodeScope scope) =
      acceptanceEventFields (encodeAcceptanceEvent x) := by
    simp (disch := decide) only [acceptanceEventFields, heventFields.required, heventFields.optional]
  have hscope : scopeFields (encodeAcceptanceEvent x ++ encodeScope scope) = scopeFields (encodeScope scope) := by
    simp (disch := decide) only [scopeFields, hscopeFields.required]
  have hlisted : ∀ f ∈ encodeAcceptanceEvent x ++ encodeScope scope, f.1 ∈ acceptanceKeys ++ scopeKeys := by
    rw [List.forall_mem_append]
    exact ⟨x.encode_listed.mono (List.subset_append_left _ _),
      scope.encode_listed.mono (List.subset_append_right _ _)⟩
  rw [acceptanceLedgerEntryV2Schema, Schema.refine, Option.filter_eq_some_iff, strictObject_object]
  simp only [acceptanceEntryV2Fields, hevent, hscope, Option.bind_eq_bind, Option.bind_eq_some_iff,
    WorkerAcceptanceEvent.fields_encoded_iff, SemanticScope.fields_encoded, Option.pure_def, Option.some.injEq]
  constructor
  · rintro ⟨⟨-, event, ⟨hok, rfl⟩, tidied, ⟨hscopeOk, rfl⟩, rfl⟩, hbinds⟩
    exact ⟨⟨hok, hbinds, hscopeOk⟩, rfl⟩
  · rintro ⟨⟨hok, hbinds, hscopeOk⟩, rfl⟩
    exact ⟨⟨hlisted, _, ⟨hok, rfl⟩, _, ⟨hscopeOk, rfl⟩, rfl⟩, hbinds⟩

/-- What the schema of a version makes of an entry that has its members. -/
theorem entrySchema_encoded (hfits : entry.Fits version) :
    entrySchema version (encodeEntry entry) = some entry' ↔ entry.Ok ∧ entry.tidy = entry' := by
  obtain ⟨rfl, hentry⟩ | ⟨rfl, scope, hentry⟩ := hfits.cases
  · rw [hentry, entrySchema, encodeEntry, Option.elim_none, List.append_nil, Option.map_eq_some_iff]
    simp only [acceptanceEventSchema_encoded]
    constructor
    · rintro ⟨event, ⟨⟨hok, hbinds⟩, rfl⟩, rfl⟩
      exact ⟨⟨hok, hbinds, fun _ hnone ↦ by cases hnone⟩, rfl⟩
    · rintro ⟨⟨hok, hbinds, -⟩, rfl⟩
      exact ⟨_, ⟨⟨hok, hbinds⟩, rfl⟩, rfl⟩
  · rw [hentry, entrySchema, encodeEntry, Option.elim_some, Option.map_eq_some_iff]
    simp only [acceptanceEntryV2_encoded]
    constructor
    · rintro ⟨found, ⟨⟨hok, hbinds, hscope⟩, rfl⟩, rfl⟩
      exact ⟨⟨hok, hbinds, fun _ hsome ↦ Option.some.inj hsome ▸ hscope⟩, rfl⟩
    · rintro ⟨⟨hok, hbinds, hscope⟩, rfl⟩
      exact ⟨_, ⟨⟨hok, hbinds, hscope scope rfl⟩, rfl⟩, rfl⟩

/-- What it returns it leaves as it is. -/
theorem entrySchema_settled (h : entrySchema version json = some entry) : entry.Settled version := by
  cases version with
  | v1 =>
    obtain ⟨event, hevent, rfl⟩ := Option.map_eq_some_iff.mp h
    obtain ⟨hfields, htidy, hbinds⟩ := WorkerAcceptanceEvent.Settled.of_read hevent
    refine ⟨⟨hfields, htidy.symm ▸ hbinds, fun _ hnone ↦ by cases hnone⟩, ?_, by simp [RuntimeEntry.Fits]⟩
    rw [RuntimeEntry.tidy, htidy, Option.map_none]
  | v2 =>
    obtain ⟨found, hfound, rfl⟩ := Option.map_eq_some_iff.mp h
    obtain ⟨hread, hbinds⟩ := Option.filter_eq_some_iff.mp hfound
    obtain ⟨fields, -, hfields⟩ := strictObject_eq_some hread
    obtain ⟨event, hevent, hfields⟩ := Option.bind_eq_some_iff.mp hfields
    obtain ⟨scope, hscope, hfields⟩ := Option.bind_eq_some_iff.mp hfields
    cases hfields
    obtain ⟨hok, htidy⟩ := WorkerAcceptanceEvent.fields_settled hevent
    obtain ⟨hscopeOk, hscopeTidy⟩ := SemanticScope.fields_settled hscope
    refine ⟨⟨hok, htidy.symm ▸ hbinds, fun _ hsome ↦ Option.some.inj hsome ▸ hscopeOk⟩, ?_,
      by simp [RuntimeEntry.Fits, RuntimeEntry.ofV2]⟩
    rw [RuntimeEntry.tidy, RuntimeEntry.ofV2, htidy, Option.map_some, hscopeTidy]

theorem RuntimeEntry.Settled.reread (h : entry.Settled version) :
    entrySchema version (encodeEntry entry) = some entry := (entrySchema_encoded h.fits).mpr ⟨h.ok, h.tidy⟩

/-- A line of the log is read as the entry that was written. -/
theorem RuntimeEntry.Settled.wal_reread (h : entry.Settled version) :
    walSchema version (encodeWalEntry entry) = some entry := by
  obtain ⟨rfl, hentry⟩ | ⟨rfl, scope, hentry⟩ := h.fits.cases
  · have hread := h.reread
    rw [hentry, encodeEntry] at hread
    rw [hentry, walSchema, encodeWalEntry]
    exact hread
  · have hevent := h.event_settled
    have hscope : scope.Settled := h.scope_settled (congrArg RuntimeEntry.scope hentry)
    have heventKeys := entry.event.encode_listed
    have hscopeKeys := scope.encode_listed
    have hversion : Listed ["schemaVersion"] [("schemaVersion", Json.nat 2)] := by simp [Listed]
    have hlater : Listed (scopeKeys ++ ["schemaVersion"]) (encodeScope scope ++ [("schemaVersion", .nat 2)]) :=
      List.forall_mem_append.mpr ⟨hscopeKeys.mono (List.subset_append_left _ _),
        hversion.mono (List.subset_append_right _ _)⟩
    have hread : acceptanceEventV2Schema (.object (encodeAcceptanceEvent entry.event ++
        (encodeScope scope ++ [("schemaVersion", .nat 2)]))) = some ⟨entry.event, scope⟩ := by
      refine Option.filter_eq_some_iff.mpr ⟨strictObject_object.mpr ⟨?_, ?_⟩, hevent.binds⟩
      · rw [List.forall_mem_append]
        refine ⟨heventKeys.mono fun key hkey ↦ ?_, hlater.mono fun key hkey ↦ ?_⟩
        · exact List.mem_cons_of_mem _ (List.mem_append_left _ hkey)
        · obtain hkey | hkey := List.mem_append.mp hkey
          · exact List.mem_cons_of_mem _ (List.mem_append_right _ hkey)
          · exact List.mem_singleton.mp hkey ▸ List.mem_cons_self
      · have hrequired : required (encodeAcceptanceEvent entry.event ++ (encodeScope scope ++
            [("schemaVersion", .nat 2)])) "schemaVersion" (literal (.nat 2)) = some () := by
          rw [required, Json.member_append, heventKeys.member_eq_none (by decide), Option.none_or,
            Json.member_append, hscopeKeys.member_eq_none (by decide)]
          simp [literal]
        simp only [hrequired, Option.bind_eq_bind, Option.bind_some]
        exact @AcceptanceEntryV2.fields_read ⟨entry.event, scope⟩ hevent hscope _
          (.append_left hlater (by decide))
          ((SameOn.append_right heventKeys (by decide)).trans (.append_left hversion (by decide)))
    rw [hentry, walSchema, encodeWalEntry, Option.elim_some]
    exact (congrArg (Option.map RuntimeEntry.ofV2) hread).trans rfl

end Entries

/-! Ledgers. -/

section Ledgers

variable {version : FormatVersion} {id : Uuid} {entries : List RuntimeEntry}

/-- A list is read back through a schema whose values are converted. -/
theorem array_map_reread {α β : Type} {schema : Schema β} {convert : β → α} {encode : α → Json} {xs : List α}
    (h : ∀ x ∈ xs, (schema (encode x)).map convert = some x) :
    (schema.array (.array (xs.map encode))).map (List.map convert) = some xs := by
  rw [Schema.array]
  induction xs with
  | nil => rfl
  | cons x xs ih =>
    obtain ⟨hx, hxs⟩ := List.forall_mem_cons.mp h
    obtain ⟨y, hy, rfl⟩ := Option.map_eq_some_iff.mp hx
    obtain ⟨ys, hys, hconverted⟩ := Option.map_eq_some_iff.mp (ih hxs)
    rw [List.map_cons, Schema.items, hy, Option.bind_some, hys, Option.map_some, Option.map_some, List.map_cons,
      hconverted]

/-- What the ledger of a run may hold. -/
structure Orderly (version : FormatVersion) (id : Uuid) (entries : List RuntimeEntry) : Prop where
  runId : isUuid id = true
  settled : ∀ entry ∈ entries, entry.Settled version
  runs : ∀ entry ∈ entries, entry.event.runId = id
  numbered : entries.map (·.event.sequence) = List.range' 1 entries.length
  keys : (entries.map (·.event.idempotencyKey)).Nodup

theorem Orderly.sequenceMatches (h : Orderly version id entries) :
    sequenceMatches id entries.length (entries.map (·.event)) = true := by
  have hnumbered := h.numbered
  have hkeys := h.keys
  simp only [Contracts.sequenceMatches, List.length_map, decide_true, Bool.true_and, List.map_map, Function.comp_def,
    Bool.and_eq_true, decide_eq_true_eq, List.all_eq_true, List.forall_mem_map]
  exact ⟨⟨hnumbered, h.runs⟩, hkeys⟩

theorem Orderly.reread (h : Orderly version id entries) (hlength : entries.length ≤ maxSafeInteger) :
    parseLedger ⟨version, id, entries.length, entries⟩ = some ⟨version, id, entries.length, entries⟩ := by
  have hid : uuidSchema (.string id) = some id := (uuid_reads.encoded _ _).mpr ⟨h.runId, rfl⟩
  have hrevision : counter (.nat entries.length) = some entries.length :=
    (counter_reads.encoded _ _).mpr ⟨hlength, rfl⟩
  have hmatches := h.sequenceMatches
  cases version with
  | v1 =>
    have hread : (acceptanceEventSchema.array (.array (entries.map encodeEntry))).map
        (List.map fun event ↦ (⟨event, none⟩ : RuntimeEntry)) = some entries :=
      array_map_reread fun entry hentry ↦ (h.settled entry hentry).reread
    obtain ⟨events, hevents, hconverted⟩ := Option.map_eq_some_iff.mp hread
    simp only [parseLedger, ledgerSchema, encodeLedger, acceptanceLedgerSchema, looseObject, acceptanceLedgerFields,
      required, Json.member_cons, FormatVersion.number]
    simp [literal, hid, hrevision, hevents, hconverted]
  | v2 =>
    have hread : (acceptanceLedgerEntryV2Schema.array (.array (entries.map encodeEntry))).map
        (List.map RuntimeEntry.ofV2) = some entries :=
      array_map_reread fun entry hentry ↦ (h.settled entry hentry).reread
    obtain ⟨found, hfound, hconverted⟩ := Option.map_eq_some_iff.mp hread
    have hevents : found.map (·.event) = entries.map (·.event) := by
      rw [← hconverted, List.map_map]
      rfl
    have hstrict : strictObject acceptanceLedgerKeys (fun fields ↦ do
        let () ← required fields "schemaVersion" (literal (.nat 2))
        acceptanceLedgerFields acceptanceLedgerEntryV2Schema fields)
          (encodeLedger ⟨.v2, id, entries.length, entries⟩) = some ⟨id, entries.length, found⟩ := by
      refine strictObject_object.mpr ⟨by simp [acceptanceLedgerKeys], ?_⟩
      simp only [acceptanceLedgerFields, required, Json.member_cons, FormatVersion.number]
      simp [literal, hid, hrevision, hfound]
    have hledger : acceptanceLedgerV2Schema (encodeLedger ⟨.v2, id, entries.length, entries⟩) =
        some ⟨id, entries.length, found⟩ :=
      Option.filter_eq_some_iff.mpr ⟨hstrict, by rw [hevents]; exact hmatches⟩
    rw [parseLedger, ledgerSchema]
    exact (congrArg (Option.map _) hledger).trans (by rw [Option.map_some, hconverted])

/-- A ledger is told from one of the other version. -/
theorem Orderly.snapshot_read (h : Orderly version id entries) (hlength : entries.length ≤ maxSafeInteger) :
    ((ledgerSchema .v2 (encodeLedger ⟨version, id, entries.length, entries⟩)).or
      (ledgerSchema .v1 (encodeLedger ⟨version, id, entries.length, entries⟩))) =
        some ⟨version, id, entries.length, entries⟩ := by
  have hread := h.reread hlength
  cases version with
  | v1 =>
    have hnone : ledgerSchema .v2 (encodeLedger ⟨.v1, id, entries.length, entries⟩) = none := by
      rw [ledgerSchema]
      simp [acceptanceLedgerV2Schema, Schema.refine, strictObject, encodeLedger, required, literal,
        FormatVersion.number, Json.nat]
    rw [hnone, Option.none_or]
    exact hread
  | v2 => exact (congrArg (Option.or · _) hread).trans rfl

end Ledgers

end OmpLazy.Contracts

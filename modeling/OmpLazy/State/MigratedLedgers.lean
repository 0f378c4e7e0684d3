import Mathlib.Algebra.Order.BigOperators.Group.List
import Mathlib.Algebra.Order.Ring.Nat
import OmpLazy.State.MigratedRecords
import OmpLazy.State.TaskIdentities

/-! What the migration makes of the ledgers of a run. -/

namespace OmpLazy.State.Migration

open OmpLazy.Foundation OmpLazy.Foundation.Schema OmpLazy.Foundation.Text OmpLazy.Contracts

section Scopes

variable {identities : List TaskIdentity}

theorem identityFor_mem {runId agentId : String} {role : Option WorkerRole} {identity : TaskIdentity}
    (h : identityFor identities runId agentId role = some identity) : identity ∈ identities := by
  rw [identityFor] at h
  split at h
  · rename_i heq
    obtain rfl := Option.some.inj h
    exact List.mem_of_mem_filter (heq ▸ List.mem_singleton_self _)
  · cases h

theorem scope_settled {identity : TaskIdentity} (h : Trimmed identity.taskId) :
    (TaskIdentity.scope identity).Settled where
  ok := ⟨by rw [TaskIdentity.scope, h.1]; exact h.2, by simp [TaskIdentity.scope, maxSafeInteger]⟩
  tidy := congrArg (fun taskId ↦ (⟨taskId, identity.role, 1⟩ : SemanticScope)) h.1

theorem scopedAcceptance_eq_some {event : WorkerAcceptanceEvent} {entry : AcceptanceEntryV2}
    (hids : ∀ identity ∈ identities, Trimmed identity.taskId)
    (h : scopedAcceptance identities event = some entry) : entry.event = event ∧ entry.scope.Settled := by
  obtain ⟨identity, hidentity, rfl⟩ := Option.map_eq_some_iff.mp h
  exact ⟨rfl, scope_settled (hids identity (identityFor_mem hidentity))⟩

theorem scopedRejection_eq_some {rejection : Contracts.RejectionEntry} {entry : RejectionEntryV2}
    (hids : ∀ identity ∈ identities, Trimmed identity.taskId)
    (h : scopedRejection identities rejection = some entry) :
    entry.entry = rejection ∧ entry.scope.Settled := by
  obtain ⟨identity, hidentity, rfl⟩ := Option.map_eq_some_iff.mp h
  exact ⟨rfl, scope_settled (hids identity (identityFor_mem hidentity))⟩

end Scopes

/-! Acceptances. -/

section Acceptance

variable {identities : List TaskIdentity} {fields : List (String × Json)}
  {ledger : AcceptanceLedger WorkerAcceptanceEvent} {entries : List AcceptanceEntryV2}

/-- `{ ...value, schemaVersion: 2, entries }`. -/
def migratedLedgerFields (entries : Json) (fields : List (String × Json)) : List (String × Json) :=
  Json.setField "entries" entries (Json.setField "schemaVersion" (.nat 2) fields)

theorem migratedLedger_version (entries : Json) :
    required (migratedLedgerFields entries fields) "schemaVersion" (literal (.nat 2)) = some () := by
  rw [migratedLedgerFields, required_setField_ne (by decide), required_version]

theorem acceptanceLedger_settled (h : acceptanceLedgerSchema (.object fields) = some ledger) :
    ∀ event ∈ ledger.entries, event.Settled := by
  obtain ⟨_, heq, hbody⟩ := looseObject_eq_some h
  simp only [Option.bind_eq_bind, Option.bind_eq_some_iff, acceptanceLedgerFields, Option.pure_def,
    Option.some.injEq] at hbody
  obtain ⟨-, -, runId, -, ledgerRevision, -, entries, hentries, rfl⟩ := hbody
  obtain ⟨json, -, harray⟩ := required_eq_some.mp hentries
  obtain ⟨items, rfl, hitems⟩ := array_eq_some harray
  intro event hevent
  obtain ⟨item, -, hitem⟩ := exists_of_forall₂ hitems hevent
  exact .of_read hitem

theorem migratedAcceptance_read (hids : ∀ identity ∈ identities, Trimmed identity.taskId)
    (h : acceptanceLedgerSchema (.object fields) = some ledger)
    (hscoped : ledger.entries.mapM (scopedAcceptance identities) = some entries)
    (hlisted : Listed acceptanceLedgerKeys fields)
    (hsequence : sequenceMatches ledger.runId ledger.ledgerRevision ledger.entries = true) :
    acceptanceLedgerV2Schema (.object (migratedLedgerFields
      (.array (entries.map encodeAcceptanceEntryV2)) fields)) =
        some ⟨ledger.runId, ledger.ledgerRevision, entries⟩ := by
  have hforall := mapM_eq_some.mp hscoped
  have hevents : entries.map (·.event) = ledger.entries := by
    rw [← List.forall₂_eq_eq_eq, List.forall₂_map_left_iff]
    exact hforall.flip.imp fun entry event hentry ↦ (scopedAcceptance_eq_some hids hentry).1
  have hreread : ∀ entry ∈ entries,
      acceptanceLedgerEntryV2Schema (encodeAcceptanceEntryV2 entry) = some entry := by
    intro entry hentry
    obtain ⟨event, hevent, hread⟩ := exists_of_forall₂ hforall hentry
    obtain ⟨rfl, hscope⟩ := scopedAcceptance_eq_some hids hread
    exact AcceptanceEntryV2.reread (acceptanceLedger_settled h _ hevent) hscope
  obtain ⟨_, heq, hbody⟩ := looseObject_eq_some h
  obtain rfl := Json.object.inj heq
  simp only [Option.bind_eq_bind, Option.bind_eq_some_iff, acceptanceLedgerFields, Option.pure_def,
    Option.some.injEq] at hbody
  obtain ⟨-, -, runId, hrun, ledgerRevision, hrevision, events, -, rfl⟩ := hbody
  refine Option.filter_eq_some_iff.mpr ⟨strictObject_object.mpr ⟨?_, ?_⟩, ?_⟩
  · exact Listed.setField_iff.mpr ⟨by decide, Listed.setField_iff.mpr ⟨by decide, hlisted⟩⟩
  · have hsame : SameOn ["runId", "ledgerRevision"]
        (migratedLedgerFields (.array (entries.map encodeAcceptanceEntryV2)) fields) fields :=
      (SameOn.setField (by decide)).trans (SameOn.setField (by decide))
    have hentries : required (migratedLedgerFields (.array (entries.map encodeAcceptanceEntryV2)) fields)
        "entries" acceptanceLedgerEntryV2Schema.array = some entries := by
      rw [migratedLedgerFields, required_setField, array_reread hreread]
    simp (disch := decide) only [migratedLedger_version, acceptanceLedgerFields, hsame.required, hrun,
      hrevision, hentries, Option.bind_eq_bind, Option.bind_some, Option.pure_def]
  · dsimp only
    rw [hevents]
    exact hsequence

end Acceptance

/-! Rejections. -/

section Rejections

variable {identities : List TaskIdentity} {fields : List (String × Json)}
  {ledger : Contracts.RejectionLedger Contracts.RejectionEntry}
  {converted merged : List RejectionEntryV2} {key : String}

/-- What the entries with a key come to: the last of them, with their counts added up to three. -/
def mergedEntry (key : String) (converted : List RejectionEntryV2) : Option RejectionEntryV2 :=
  let same := converted.filter (rejectionKey · = key)
  same.getLast?.map (withCount (min 3 (same.map (·.entry.count)).sum))

/-- Entries without two of one key, each of them what the entries with its key come to. -/
structure Merged (converted merged : List RejectionEntryV2) : Prop where
  distinct : (merged.map rejectionKey).Nodup
  found : ∀ key, merged.find? (rejectionKey · = key) = mergedEntry key converted

theorem mergedEntry_append (entry : RejectionEntryV2) :
    mergedEntry key (converted ++ [entry]) = if rejectionKey entry = key then
      some (withCount (min 3 (((mergedEntry key converted).map (·.entry.count)).getD 0 +
        entry.entry.count)) entry)
    else mergedEntry key converted := by
  split
  · rename_i hkey
    have hprior : ((mergedEntry key converted).map (·.entry.count)).getD 0 =
        min 3 ((converted.filter (rejectionKey · = key)).map (·.entry.count)).sum := by
      rw [mergedEntry]
      cases hlast : (converted.filter (rejectionKey · = key)).getLast? with
      | none => simp [List.getLast?_eq_none_iff.mp hlast]
      | some last => simp [withCount]
    have hcount : ∀ m n : ℕ, min 3 (min 3 m + n) = min 3 (m + n) := by omega
    rw [hprior, hcount]
    simp [mergedEntry, hkey]
  · rename_i hkey
    simp [mergedEntry, hkey]

theorem merge_found (converted : List RejectionEntryV2) (key : String) :
    getEntry key (converted.foldl mergeRejection []) = mergedEntry key converted := by
  induction converted using List.reverseRecOn generalizing key with
  | nil => rfl
  | append_singleton converted entry ih =>
    rw [List.foldl_append, List.foldl_cons, List.foldl_nil, mergeRejection, getEntry_setEntry, ih, ih,
      mergedEntry_append]
    split
    · rename_i hkey
      rw [hkey]
    · rfl

/-- The keys of the map are those of its entries, and no key comes twice. -/
theorem merge_keyed (converted : List RejectionEntryV2) :
    (∀ entry ∈ converted.foldl mergeRejection [], rejectionKey entry.2 = entry.1) ∧
      ((converted.foldl mergeRejection []).map (·.1)).Nodup := by
  induction converted using List.reverseRecOn with
  | nil => simp
  | append_singleton converted entry ih =>
    rw [List.foldl_append, List.foldl_cons, List.foldl_nil, mergeRejection]
    refine ⟨fun pair hpair ↦ ?_, nodup_setEntry ih.2⟩
    obtain rfl | hmem := mem_setEntry hpair
    · rfl
    · exact ih.1 pair hmem

theorem mergeRejections_merged (converted : List RejectionEntryV2) :
    Merged converted (mergeRejections converted) := by
  obtain ⟨hkeyed, hnodup⟩ := merge_keyed converted
  constructor
  · rw [mergeRejections, List.map_map]
    exact (List.map_congr_left hkeyed).symm ▸ hnodup
  · intro key
    have hfind : ∀ entries : List (String × RejectionEntryV2),
        (∀ entry ∈ entries, rejectionKey entry.2 = entry.1) →
          (entries.map (·.2)).find? (rejectionKey · = key) = getEntry key entries := by
      intro entries hentries
      induction entries with
      | nil => rfl
      | cons entry entries ih =>
        obtain ⟨hentry, hrest⟩ := List.forall_mem_cons.mp hentries
        rw [List.map_cons, List.find?_cons, ih hrest, hentry, getEntry_cons]
        by_cases hkey : entry.1 = key <;> simp [hkey]
    rw [← merge_found, mergeRejections, hfind _ hkeyed]

/-- A merged entry is one of the entries, with a count that is not below its own. -/
theorem Merged.exists_entry (h : Merged converted merged) {entry : RejectionEntryV2}
    (hentry : entry ∈ merged) : ∃ last ∈ converted, ∃ count, withCount count last = entry ∧
      min 3 last.entry.count ≤ count ∧ count ≤ 3 := by
  have hfound := h.found (rejectionKey entry)
  rw [find?_key h.distinct hentry] at hfound
  obtain ⟨last, hlast, heq⟩ := Option.map_eq_some_iff.mp hfound.symm
  have hmem := List.mem_of_getLast? hlast
  refine ⟨last, List.mem_of_mem_filter hmem, _, heq, ?_, Nat.min_le_left _ _⟩
  have hsum := List.single_le_sum (fun _ _ ↦ Nat.zero_le _) last.entry.count
    (List.mem_map_of_mem (f := (·.entry.count)) hmem)
  omega

theorem rejectionLedger_settled (h : rejectionLedgerSchema (.object fields) = some ledger) :
    ∀ entry ∈ ledger.entries, entry.Ok ∧ entry.tidy = entry := by
  have hbody := (strictObject_object.mp h).2
  simp only [Option.bind_eq_bind, Option.bind_eq_some_iff, rejectionLedgerFields, Option.pure_def,
    Option.some.injEq] at hbody
  obtain ⟨-, -, runId, -, entries, hentries, rfl⟩ := hbody
  obtain ⟨json, -, harray⟩ := required_eq_some.mp hentries
  obtain ⟨items, rfl, hitems⟩ := array_eq_some harray
  intro entry hentry
  obtain ⟨item, -, hitem⟩ := exists_of_forall₂ hitems hentry
  obtain ⟨entryFields, -, hfields⟩ := strictObject_eq_some hitem
  exact RejectionEntry.fields_settled hfields

theorem withCount_reread {entry : RejectionEntryV2} {count : ℕ} (hok : entry.entry.Ok)
    (htidy : entry.entry.tidy = entry.entry) (hscope : entry.scope.Settled)
    (hlow : min 3 entry.entry.count ≤ count) (hhigh : count ≤ 3) :
    rejectionEntryV2Schema (encodeRejectionEntryV2 (withCount count entry)) =
      some (withCount count entry) := by
  refine RejectionEntryV2.reread ?_ ?_ hscope
  · have hcount := hok.count
    have hpositive : 1 ≤ count := by omega
    exact { hok with count := ⟨⟨hhigh.trans (by decide), hhigh⟩, hpositive⟩ }
  · have hagent : trim entry.entry.actualAgentId = entry.entry.actualAgentId :=
      congrArg Contracts.RejectionEntry.actualAgentId htidy
    exact congrArg (fun agent ↦ ({ (withCount count entry).entry with actualAgentId := agent } :
      Contracts.RejectionEntry)) hagent

/-- The members of a migrated ledger are read as the merged entries, whatever runs they are about. -/
theorem migratedRejections_parsed (hids : ∀ identity ∈ identities, Trimmed identity.taskId)
    (h : rejectionLedgerSchema (.object fields) = some ledger)
    (hscoped : ledger.entries.mapM (scopedRejection identities) = some converted) :
    strictObject rejectionLedgerKeys (rejectionLedgerFields 2 rejectionEntryV2Schema)
      (.object (migratedLedgerFields (.array ((mergeRejections converted).map encodeRejectionEntryV2))
        fields)) = some ⟨ledger.runId, mergeRejections converted⟩ := by
  have hforall := mapM_eq_some.mp hscoped
  have hread : ∀ entry ∈ mergeRejections converted,
      rejectionEntryV2Schema (encodeRejectionEntryV2 entry) = some entry := by
    intro entry hentry
    obtain ⟨last, hmem, count, rfl, hlow, hhigh⟩ := (mergeRejections_merged converted).exists_entry hentry
    obtain ⟨source, hsource, hread⟩ := exists_of_forall₂ hforall hmem
    obtain ⟨rfl, hscope⟩ := scopedRejection_eq_some hids hread
    obtain ⟨hok, htidy⟩ := rejectionLedger_settled h _ hsource
    exact withCount_reread hok htidy hscope hlow hhigh
  have hreread := array_reread hread
  obtain ⟨hlisted, hbody⟩ := strictObject_object.mp h
  simp only [Option.bind_eq_bind, Option.bind_eq_some_iff, rejectionLedgerFields, Option.pure_def,
    Option.some.injEq] at hbody
  obtain ⟨-, -, runId, hrunId, entries, -, rfl⟩ := hbody
  refine strictObject_object.mpr ⟨?_, ?_⟩
  · exact Listed.setField_iff.mpr ⟨by decide, Listed.setField_iff.mpr ⟨by decide, hlisted⟩⟩
  · have hsame : SameOn ["runId"] (migratedLedgerFields
        (.array ((mergeRejections converted).map encodeRejectionEntryV2)) fields) fields :=
      (SameOn.setField (by decide)).trans (SameOn.setField (by decide))
    have hentries : required (migratedLedgerFields (.array ((mergeRejections converted).map
        encodeRejectionEntryV2)) fields) "entries" rejectionEntryV2Schema.array =
          some (mergeRejections converted) := by
      rw [migratedLedgerFields, required_setField, hreread]
    simp (disch := decide) only [migratedLedger_version, rejectionLedgerFields, hsame.required, hrunId,
      hentries, Option.bind_eq_bind, Option.bind_some, Option.pure_def]

theorem migratedRejections_read (hids : ∀ identity ∈ identities, Trimmed identity.taskId)
    (h : rejectionLedgerSchema (.object fields) = some ledger)
    (hscoped : ledger.entries.mapM (scopedRejection identities) = some converted)
    (hrun : ∀ entry ∈ ledger.entries, entry.runId = ledger.runId) :
    rejectionLedgerV2Schema (.object (migratedLedgerFields
      (.array ((mergeRejections converted).map encodeRejectionEntryV2)) fields)) =
        some ⟨ledger.runId, mergeRejections converted⟩ := by
  refine Option.filter_eq_some_iff.mpr ⟨migratedRejections_parsed hids h hscoped, ?_⟩
  have hmerged := mergeRejections_merged converted
  rw [identityMatches, Bool.and_eq_true, List.all_eq_true, decide_eq_true_eq]
  refine ⟨fun entry hentry ↦ decide_eq_true ?_, hmerged.distinct⟩
  obtain ⟨last, hmem, count, rfl, -⟩ := hmerged.exists_entry hentry
  obtain ⟨source, hsource, hread⟩ := exists_of_forall₂ (mapM_eq_some.mp hscoped) hmem
  obtain ⟨rfl, -⟩ := scopedRejection_eq_some hids hread
  exact hrun last.entry hsource

end Rejections

/-! The write-ahead log. -/

section Wal

variable {Contents : Type} {format : WalFormat Contents} {identities : List TaskIdentity}
  {bytes migrated : Contents} {events : List WorkerAcceptanceEvent}

theorem parseRecord_eq_some {json : Json} (h : parseRecord format.toTextFormat bytes = some json) :
    format.parse bytes = some json ∧ ∃ fields, json = .object fields := by
  rw [parseRecord] at h
  split at h
  · rename_i fields hparse
    obtain rfl := Option.some.inj h
    exact ⟨hparse, fields, rfl⟩
  · cases h

theorem parseRecord_stringify (hformat : format.Lawful) (fields : List (String × Json)) :
    parseRecord format.toTextFormat (format.stringify (.object fields)) = some (.object fields) := by
  rw [parseRecord, hformat.parse_stringify]

/-- An acceptance of the first version does not name its version. -/
theorem acceptanceEvent_unversioned {json : Json} {event : WorkerAcceptanceEvent}
    (h : acceptanceEventSchema json = some event) : json.get? "schemaVersion" ≠ some (.nat 2) := by
  have hobject := (Option.filter_eq_some_iff.mp h).1
  obtain ⟨fields, rfl, -⟩ := strictObject_eq_some hobject
  have hlisted : Listed acceptanceKeys fields := (strictObject_object.mp hobject).1
  rw [Json.get?, hlisted.member_eq_none (by decide)]
  simp

theorem encodeAcceptanceEventV2_version (entry : AcceptanceEntryV2) :
    (encodeAcceptanceEventV2 entry).get? "schemaVersion" = some (.nat 2) := by
  rw [encodeAcceptanceEventV2, Json.get?, Json.member_append,
    entry.event.encode_listed.member_eq_none (by decide), Option.none_or, Json.member_cons, if_pos rfl]

/-- The lines of a migrated log. -/
def walLines (format : WalFormat Contents) (entries : List AcceptanceEntryV2) : Contents :=
  format.unlines ((entries.map encodeAcceptanceEventV2).map format.stringify)

theorem migrateWal_migrated {jsons : List Json}
    (hjsons : (format.lines bytes).mapM format.parse = some jsons)
    (hevents : jsons.mapM acceptanceEventSchema = some events)
    (h : migrateWal format bytes identities = .migrated migrated) :
    ∃ entries, events.mapM (scopedAcceptance identities) = some entries ∧
      migrated = walLines format entries := by
  rw [migrateWal] at h
  split at h
  · cases h
  rename_i parsed hparsed
  obtain rfl : parsed = jsons := by
    have hparsed' : (format.lines bytes).mapM format.parse = some parsed :=
      mapM_eq_some.mpr ((mapM_eq_some.mp hparsed).imp fun _ _ hline ↦ (parseRecord_eq_some hline).1)
    exact Option.some.inj (hparsed'.symm.trans hjsons)
  split at h
  · cases h
  rename_i lines hlines
  dsimp only at h
  split at h
  · cases h
  rename_i hnot
  obtain rfl := MigrationRecordResult.migrated.inj h
  clear hjsons hparsed h hnot
  have hforall := mapM_eq_some.mp hlines
  rw [mapM_eq_some] at hevents
  suffices hscoped : ∃ entries, events.mapM (scopedAcceptance identities) = some entries ∧
      lines = entries.map encodeAcceptanceEventV2 by
    obtain ⟨entries, hentries, rfl⟩ := hscoped
    exact ⟨entries, hentries, rfl⟩
  clear hlines
  induction hevents generalizing lines with
  | nil =>
    rw [List.forall₂_nil_left_iff] at hforall
    exact ⟨[], rfl, hforall⟩
  | cons hevent _ ih =>
    obtain ⟨line, rest, hline, hrest, rfl⟩ := List.forall₂_cons_left_iff.mp hforall
    obtain ⟨entries, hentries, rfl⟩ := ih _ hrest
    rw [migrateWalEntry, if_neg (acceptanceEvent_unversioned hevent)] at hline
    simp only [hevent, Option.bind_eq_bind, Option.bind_some, Option.bind_eq_some_iff, Option.pure_def,
      Option.some.injEq] at hline
    obtain ⟨entry, hentry, rfl⟩ := hline
    exact ⟨entry :: entries, by simp [hentry, hentries], rfl⟩

theorem walLines_parsed (hformat : format.Lawful) (entries : List AcceptanceEntryV2) :
    (format.lines (walLines format entries)).mapM format.parse =
      some (entries.map encodeAcceptanceEventV2) := by
  rw [walLines, hformat.lines_unlines, mapM_eq_some, List.forall₂_map_left_iff]
  exact List.forall₂_same.mpr fun json _ ↦ hformat.parse_stringify json

theorem walEntries_read (hids : ∀ identity ∈ identities, Trimmed identity.taskId)
    (hevents : ∀ event ∈ events, event.Settled) {entries : List AcceptanceEntryV2}
    (hentries : events.mapM (scopedAcceptance identities) = some entries) :
    ∀ entry ∈ entries, acceptanceEventV2Schema (encodeAcceptanceEventV2 entry) = some entry := by
  intro entry hentry
  obtain ⟨event, hevent, hread⟩ := exists_of_forall₂ (mapM_eq_some.mp hentries) hentry
  obtain ⟨rfl, hscope⟩ := scopedAcceptance_eq_some hids hread
  exact AcceptanceEntryV2.event_reread (hevents _ hevent) hscope

theorem walLines_read (hformat : format.Lawful) {entries : List AcceptanceEntryV2}
    (hreads : ∀ entry ∈ entries, acceptanceEventV2Schema (encodeAcceptanceEventV2 entry) = some entry)
    (hlength : entries.length ≤ maxWalEntries)
    (hsize : format.byteLength (walLines format entries) ≤ maxWalBytes) :
    readWal format .v2 (walLines format entries) = some (.walV2 entries) := by
  have hcount : (format.lines (walLines format entries)).length = entries.length := by
    rw [walLines, hformat.lines_unlines, List.length_map, List.length_map]
  have hschema : (entries.map encodeAcceptanceEventV2).mapM acceptanceEventV2Schema = some entries := by
    rw [mapM_eq_some, List.forall₂_map_left_iff]
    exact List.forall₂_same.mpr hreads
  rw [readWal, readAcceptanceWal, if_neg (not_lt.mpr hsize), if_neg (not_lt.mpr (hcount ▸ hlength)),
    walLines_parsed hformat]
  simp [hschema]

/-- A migrated log is left as it is. -/
theorem walLines_current (hformat : format.Lawful) {entries : List AcceptanceEntryV2}
    (hreads : ∀ entry ∈ entries, acceptanceEventV2Schema (encodeAcceptanceEventV2 entry) = some entry) :
    migrateWal format (walLines format entries) identities = .current (walLines format entries) := by
  have hparsed : (format.lines (walLines format entries)).mapM (parseRecord format.toTextFormat) =
      some (entries.map encodeAcceptanceEventV2) := by
    rw [walLines, hformat.lines_unlines, mapM_eq_some, List.forall₂_map_left_iff, List.forall₂_same]
    intro json hjson
    obtain ⟨entry, -, rfl⟩ := List.mem_map.mp hjson
    exact parseRecord_stringify hformat _
  have hmigrated : (entries.map encodeAcceptanceEventV2).mapM (migrateWalEntry identities) =
      some (entries.map encodeAcceptanceEventV2) := by
    rw [mapM_eq_some, List.forall₂_same]
    intro json hjson
    obtain ⟨entry, hentry, rfl⟩ := List.mem_map.mp hjson
    rw [migrateWalEntry, if_pos (encodeAcceptanceEventV2_version entry), hreads entry hentry]
    rfl
  have hall : (entries.map encodeAcceptanceEventV2).all
      (fun entry ↦ entry.get? "schemaVersion" = some (.nat 2)) = true := by
    rw [List.all_map, List.all_eq_true]
    exact fun entry _ ↦ decide_eq_true (encodeAcceptanceEventV2_version entry)
  rw [migrateWal, hparsed]
  simp only [hmigrated, hall, if_true]
  rfl

end Wal

end OmpLazy.State.Migration

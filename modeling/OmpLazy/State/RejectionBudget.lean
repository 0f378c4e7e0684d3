import OmpLazy.Contracts.WorkerResultAcceptance
import OmpLazy.Gates.TaskLedgerText
import OmpLazy.State.ReadableMigration
import OmpLazy.State.SnapshotClosure

/-! The rejections that a worker has after its ledger was migrated. -/

namespace OmpLazy.State.Migration

open OmpLazy.Foundation OmpLazy.Foundation.Schema OmpLazy.Foundation.Text OmpLazy.Contracts
  OmpLazy.Gates

section Identities

variable {Contents : Type} {format : WalFormat Contents} {isAbsolute : String → Bool}

theorem identitiesFromTaskFacts_trimmed {files : List (String × Contents)} {identities : List TaskIdentity}
    (h : identitiesFromTaskFacts format.toTextFormat (ledgerRules format isAbsolute) files =
      some identities) : ∀ identity ∈ identities, Trimmed identity.taskId := by
  induction files generalizing identities with
  | nil =>
    obtain rfl := Option.some.inj h
    simp
  | cons file files ih =>
    rw [identitiesFromTaskFacts] at h
    split at h
    · exact ih h
    · simp only [Option.bind_eq_bind, Option.bind_eq_some_iff, Option.pure_def, Option.some.injEq] at h
      obtain ⟨value, -, found, hfound, others, hothers, rfl⟩ := h
      exact List.forall_mem_append.mpr ⟨taskIdentities_trimmed hfound, ih hothers⟩

end Identities

section Merging

variable {identities : List TaskIdentity} {entries : List Contracts.RejectionEntry}
  {converted : List RejectionEntryV2} {key : String}

/-- The counts of the entries that are merged under a key. -/
def mergedCount (identities : List TaskIdentity) (entries : List Contracts.RejectionEntry)
    (key : String) : ℕ :=
  ((entries.filter fun entry ↦ (scopedRejection identities entry).map rejectionKey = some key).map
    (·.count)).sum

theorem converted_count (h : entries.mapM (scopedRejection identities) = some converted)
    (hids : ∀ identity ∈ identities, Trimmed identity.taskId) :
    ((converted.filter (rejectionKey · = key)).map (·.entry.count)).sum =
      mergedCount identities entries key := by
  have hforall := mapM_eq_some.mp h
  clear h
  rw [mergedCount]
  induction hforall with
  | nil => rfl
  | @cons entry entryV2 entries converted hentry _ ih =>
    have hcount := (scopedRejection_eq_some hids hentry).1
    simp only [List.filter_cons, hentry, Option.map_some, Option.some.injEq]
    by_cases hkey : rejectionKey entryV2 = key
    · simp only [hkey, decide_true, if_true, List.map_cons, List.sum_cons, hcount, ih]
    · simp only [hkey, decide_false, Bool.false_eq_true, if_false, ih]

/-- The rejections of a scope after the merge: those of the entries that have its key, up to three. -/
theorem merged_rejectionCount {runId : Uuid} {scope : RejectionScope}
    (h : entries.mapM (scopedRejection identities) = some converted)
    (hids : ∀ identity ∈ identities, Trimmed identity.taskId) :
    rejectionCount scope (.v2 ⟨runId, mergeRejections converted⟩) =
      min 3 (mergedCount identities entries scope.key) := by
  rw [rejectionCount, (mergeRejections_merged converted).found, ← converted_count h hids, mergedEntry]
  cases hlast : (converted.filter (rejectionKey · = scope.key)).getLast? with
  | none => simp [List.getLast?_eq_none_iff.mp hlast]
  | some last => simp [withCount]

/-- The last member of a key is the attempt. -/
theorem rejectionKey_attempt {entry entry' : RejectionEntryV2} (h : rejectionKey entry = rejectionKey entry') :
    (toString entry.scope.semanticAttempt).toList.getLast? =
      (toString entry'.scope.semanticAttempt).toList.getLast? := by
  obtain ⟨c, hlast, -⟩ := toString_last entry.scope.semanticAttempt
  obtain ⟨c', hlast', -⟩ := toString_last entry'.scope.semanticAttempt
  rw [Option.mem_def] at hlast hlast'
  have hchars := congrArg (fun key : String ↦ key.toList.getLast?) h
  simp only [rejectionKey, String.toList_append, List.getLast?_append, hlast, hlast',
    Option.some_or] at hchars
  rw [hlast, hlast']
  exact hchars

/-- Nothing is merged under the key of a second or third attempt. -/
theorem mergedCount_later {scope : RejectionScope} {attempt : ℕ} (hscope : scope.semantic.semanticAttempt = attempt)
    (hattempt : attempt = 2 ∨ attempt = 3) : mergedCount identities entries scope.key = 0 := by
  have hnone : entries.filter (fun entry ↦
      (scopedRejection identities entry).map rejectionKey = some scope.key) = [] := by
    rw [List.filter_eq_nil_iff]
    intro entry hentry hkey
    obtain ⟨entryV2, hscoped, hkey⟩ := Option.map_eq_some_iff.mp (of_decide_eq_true hkey)
    obtain ⟨identity, -, rfl⟩ := Option.map_eq_some_iff.mp hscoped
    have hlast := rejectionKey_attempt hkey
    have hfirst : (toString 1).toList.getLast? = (toString attempt).toList.getLast? := hscope ▸ hlast
    obtain rfl | rfl := hattempt <;> exact absurd hfirst (by decide)
  rw [mergedCount, hnone]
  rfl

/-- The first member of a key is the run. -/
theorem rejectionKey_runId {entry entry' : RejectionEntryV2} (hid : isUuid entry.entry.runId = true)
    (hid' : isUuid entry'.entry.runId = true) (h : rejectionKey entry = rejectionKey entry') :
    entry.entry.runId = entry'.entry.runId := by
  have hchars := congrArg String.toList h
  simp only [rejectionKey, String.toList_append, List.append_assoc] at hchars
  exact String.toList_injective
    (List.append_inj_left hchars ((isUuid_length hid).trans (isUuid_length hid').symm))

/-- A migrated ledger is read exactly if all its entries were about its run. -/
theorem migratedRejections_readable {fields : List (String × Json)}
    {ledger : Contracts.RejectionLedger Contracts.RejectionEntry}
    {read : Contracts.RejectionLedger RejectionEntryV2}
    (hids : ∀ identity ∈ identities, Trimmed identity.taskId)
    (h : rejectionLedgerSchema (.object fields) = some ledger)
    (hscoped : ledger.entries.mapM (scopedRejection identities) = some converted)
    (hread : rejectionLedgerV2Schema (.object (migratedLedgerFields
      (.array ((mergeRejections converted).map encodeRejectionEntryV2)) fields)) = some read) :
    ∀ entry ∈ ledger.entries, entry.runId = ledger.runId := by
  obtain ⟨hparsed, hmatches⟩ := Option.filter_eq_some_iff.mp hread
  obtain rfl := Option.some.inj ((migratedRejections_parsed hids h hscoped).symm.trans hparsed)
  simp only [identityMatches, Bool.and_eq_true, List.all_eq_true, decide_eq_true_eq] at hmatches
  have hmerged := mergeRejections_merged converted
  have hforall := mapM_eq_some.mp hscoped
  have huuid : ∀ entry ∈ converted, isUuid entry.entry.runId = true := by
    intro entry hentry
    obtain ⟨source, hsource, hread⟩ := exists_of_forall₂ hforall hentry
    obtain ⟨rfl, -⟩ := scopedRejection_eq_some hids hread
    exact (rejectionLedger_settled h _ hsource).1.runId
  intro entry hentry
  obtain ⟨entryV2, hmem, hconverted⟩ := exists_of_forall₂ hforall.flip hentry
  obtain ⟨rfl, -⟩ := scopedRejection_eq_some hids hconverted
  -- the entries with its key have been merged into the last of them, which is about the same run
  have hfound := hmerged.found (rejectionKey entryV2)
  have hsame : entryV2 ∈ converted.filter (rejectionKey · = rejectionKey entryV2) :=
    List.mem_filter.mpr ⟨hmem, by simp⟩
  obtain ⟨last, hlast⟩ := Option.ne_none_iff_exists'.mp
    (mt List.getLast?_eq_none_iff.mp (List.ne_nil_of_mem hsame))
  rw [mergedEntry, hlast, Option.map_some] at hfound
  have hrun := hmatches.1 _ (List.mem_of_find?_eq_some hfound)
  obtain ⟨hlastMem, hkey⟩ := List.mem_filter.mp (List.mem_of_getLast? hlast)
  rw [← hrun]
  exact (rejectionKey_runId (huuid last hlastMem) (huuid entryV2 hmem) (of_decide_eq_true hkey)).symm

end Merging

/-! The scope in which a worker's rejections are counted. -/

theorem rejectionScope_attempt {dispatch : TaskRunScope} {agentId : AgentId} {scope : RejectionScope}
    (h : rejectionScope dispatch agentId = some scope) :
    scope.semantic.semanticAttempt = semanticAttempt scope.semantic.role := by
  simp only [rejectionScope, Option.bind_eq_bind, Option.pure_def] at h
  obtain ⟨identity, -, h⟩ := Option.bind_eq_some_iff.mp h
  split at h
  · cases h
  · obtain ⟨role, -, h⟩ := Option.bind_eq_some_iff.mp h
    obtain rfl := Option.some.inj h
    rfl

section Budget

variable {Contents : Type} {format : WalFormat Contents} {value : Json} {bytes : Contents}
  {identities : List TaskIdentity} {ledger : Contracts.RejectionLedger Contracts.RejectionEntry}

theorem migrateRejections_eq_migrated (h : migrateRejections format value identities = .migrated bytes)
    (hledger : rejectionLedgerSchema value = some ledger) :
    ∃ fields converted, value = .object fields ∧
      ledger.entries.mapM (scopedRejection identities) = some converted ∧
        bytes = format.stringify (.object (migratedLedgerFields
          (.array ((mergeRejections converted).map encodeRejectionEntryV2)) fields)) := by
  obtain ⟨fields, rfl, -⟩ := strictObject_eq_some hledger
  unfold migrateRejections at h
  split at h
  · cases h
  split at h
  · cases h
  rw [hledger] at h
  dsimp only at h
  split at h
  · cases h
  · rename_i converted hconverted
    exact ⟨fields, converted, rfl, hconverted, (MigrationRecordResult.migrated.inj h).symm⟩

/-- A migrated ledger is not taken for one of the first version. -/
theorem migratedRejections_not_v1 {fields : List (String × Json)} (entries : Json) :
    rejectionLedgerSchema (.object (migratedLedgerFields entries fields)) = none := by
  refine Option.eq_none_iff_forall_ne_some.mpr fun read hread ↦ ?_
  have hbody := (strictObject_object.mp hread).2
  obtain ⟨_, hversion, -⟩ := Option.bind_eq_some_iff.mp hbody
  obtain ⟨json, hjson, hone⟩ := required_eq_some.mp hversion
  have hmigrated : required (migratedLedgerFields entries fields) "schemaVersion" (literal (.nat 2)) =
      some () := migratedLedger_version entries
  obtain ⟨json', hjson', htwo⟩ := required_eq_some.mp hmigrated
  rw [hjson] at hjson'
  obtain rfl := Option.some.inj hjson'
  exact absurd ((literal_eq_some.mp hone).symm.trans (literal_eq_some.mp htwo)) (by decide)

theorem mergedCount_ge {entry : Contracts.RejectionEntry} {identity : TaskIdentity}
    (hentry : entry ∈ ledger.entries)
    (hidentity : identityFor identities entry.runId entry.actualAgentId none = some identity) :
    entry.count ≤ mergedCount identities ledger.entries (rejectionKey ⟨entry, TaskIdentity.scope identity⟩) := by
  have hscoped : scopedRejection identities entry = some ⟨entry, TaskIdentity.scope identity⟩ := by
    rw [scopedRejection, hidentity, Option.map_some]
  refine List.single_le_sum (fun _ _ ↦ Nat.zero_le _) _ (List.mem_map_of_mem (List.mem_filter.mpr ⟨hentry, ?_⟩))
  rw [hscoped, Option.map_some, decide_eq_true_eq]

/-- The rejections of a worker survive the migration of its ledger exactly if the worker is a low one
and the ledger is about one run: they are read under the attempt that the role of the worker implies. -/
theorem rejections_survive_iff {isAbsolute : String → Bool} {files : List (String × Contents)}
    {entry : Contracts.RejectionEntry} {identity : TaskIdentity} {dispatch : TaskRunScope}
    {agentId : AgentId} {scope : RejectionScope} {run : Option AnyRun} (hformat : format.Lawful)
    (hidentities : identitiesFromTaskFacts format.toTextFormat (ledgerRules format isAbsolute) files =
      some identities)
    (hledger : rejectionLedgerSchema value = some ledger)
    (hmigrated : migrateRejections format value identities = .migrated bytes)
    (hentry : entry ∈ ledger.entries)
    (hidentity : identityFor identities entry.runId entry.actualAgentId none = some identity)
    (hscope : rejectionScope dispatch agentId = some scope) (hrun : scope.runId = entry.runId)
    (htask : scope.semantic.taskId = identity.taskId) (hgeneration : scope.taskGeneration = entry.taskGeneration)
    (hrole : scope.semantic.role = identity.role) :
    (∃ json stored, format.parse bytes = some json ∧ readRejections scope.runId run (some json) = some stored ∧
      rejectionCount scope stored = min 3 (mergedCount identities ledger.entries
        (rejectionKey ⟨entry, TaskIdentity.scope identity⟩)) ∧ entry.count ≤ rejectionCount scope stored) ↔
      identity.role = .low ∧ ∀ other ∈ ledger.entries, other.runId = ledger.runId := by
  have hids := identitiesFromTaskFacts_trimmed hidentities
  obtain ⟨fields, converted, rfl, hconverted, rfl⟩ := migrateRejections_eq_migrated hmigrated hledger
  obtain ⟨hok, -⟩ := rejectionLedger_settled hledger entry hentry
  rw [hformat.parse_stringify]
  constructor
  · rintro ⟨_, stored, hjson, hstored, -, hcount⟩
    obtain rfl := Option.some.inj hjson
    rw [readRejections, migratedRejections_not_v1, Option.map_none, Option.or_none] at hstored
    obtain ⟨read, hread, rfl⟩ := Option.map_eq_some_iff.mp hstored
    have hruns := migratedRejections_readable hids hledger hconverted hread
    refine ⟨?_, hruns⟩
    obtain rfl := Option.some.inj
      ((migratedRejections_read hids hledger hconverted hruns).symm.trans hread)
    rw [merged_rejectionCount hconverted hids] at hcount
    have hattempt := rejectionScope_attempt hscope
    rw [hrole] at hattempt
    have hpositive := hok.count.2
    cases hlow : identity.role with
    | low => rfl
    | medium =>
      rw [mergedCount_later hattempt (by rw [hlow]; exact .inl rfl)] at hcount
      omega
    | high =>
      rw [mergedCount_later hattempt (by rw [hlow]; exact .inr rfl)] at hcount
      omega
  · rintro ⟨hlow, hruns⟩
    have hread := migratedRejections_read hids hledger hconverted hruns
    have hkey : scope.key = rejectionKey ⟨entry, TaskIdentity.scope identity⟩ := by
      have hattempt := rejectionScope_attempt hscope
      rw [hrole, hlow] at hattempt
      rw [RejectionScope.key, rejectionKey, rejectionKey, RejectionScope.entry, TaskIdentity.scope]
      dsimp only
      rw [hrun, htask, hgeneration, hrole, hattempt]
      rfl
    refine ⟨_, .v2 ⟨ledger.runId, mergeRejections converted⟩, rfl, ?_, ?_, ?_⟩
    · rw [readRejections, hread]
      rfl
    · rw [merged_rejectionCount hconverted hids, hkey]
    · rw [merged_rejectionCount hconverted hids, hkey]
      have hcount := hok.count.1.2
      have hmerged := mergedCount_ge hentry hidentity
      omega

end Budget

/-! A worker of each role whose result was rejected three times. -/

namespace Sample

def workerLedger (role : WorkerRole) : PersistedTaskLedger :=
  ⟨.v1, State.Sample.runId, 2,
    [⟨1, "session", 1, .taskReserved "call-1" 1 [⟨none, 0, some "worker-a", some role.text⟩]⟩,
      ⟨2, "session", 1, .taskIdentitiesBound "call-1" [⟨0, "agent-a", some "job-a"⟩]⟩]⟩

def workerFiles (role : WorkerRole) : List (String × List Bytes) :=
  [("task-facts/11111111-1111-4111-8111-111111111111.json",
    format.stringify (encodeTaskLedger (workerLedger role)))]

def workerIdentity (role : WorkerRole) : TaskIdentity := ⟨State.Sample.runId, "worker-a", role, "agent-a"⟩

def rejected : Contracts.RejectionEntry :=
  ⟨State.Sample.runId, 0, 2, 1, 2, "agent-a", 3, .needsParentDecision⟩

def rejectedLedger : Contracts.RejectionLedger Contracts.RejectionEntry := ⟨State.Sample.runId, [rejected]⟩

def rejectedJson : Json := .object [("schemaVersion", .nat 1), ("runId", .string State.Sample.runId),
  ("entries", .array [.object (encodeRejection rejected)])]

def migratedRejected (role : WorkerRole) : List Bytes := format.stringify (.object
  [("schemaVersion", .nat 2), ("runId", .string State.Sample.runId),
    ("entries", .array [encodeRejectionEntryV2 ⟨rejected, ⟨"worker-a", role, 1⟩⟩])])

/-- The scope that the acceptance of the worker's next result builds. -/
def workerScope (role : WorkerRole) : RejectionScope :=
  ⟨State.Sample.runId, 1, 1, 1, 2, "agent-a", ⟨"worker-a", role, semanticAttempt role⟩⟩

theorem workerIdentities (role : WorkerRole) : identitiesFromTaskFacts format.toTextFormat
    (ledgerRules format isAbsolute) (workerFiles role) = some [workerIdentity role] := by
  cases role <;> decide

theorem rejected_migrated (role : WorkerRole) :
    migrateRejections format rejectedJson [workerIdentity role] = .migrated (migratedRejected role) := by
  cases role <;> decide

theorem workerScope_built (role : WorkerRole) :
    rejectionScope ⟨State.Sample.run, workerLedger role⟩ "agent-a" = some (workerScope role) := by
  cases role <;> decide

end Sample

open Migration.Sample in
theorem low_rejections_survive : ∃ json stored, format.parse (migratedRejected .low) = some json ∧
    readRejections State.Sample.runId none (some json) = some stored ∧
      rejectionCount (workerScope .low) stored = min 3 (mergedCount [workerIdentity .low] [rejected]
        (rejectionKey ⟨rejected, TaskIdentity.scope (workerIdentity .low)⟩)) ∧
      rejected.count ≤ rejectionCount (workerScope .low) stored := by
  have hledger : rejectionLedgerSchema rejectedJson = some rejectedLedger := by decide
  exact (rejections_survive_iff format_lawful (workerIdentities .low) hledger (rejected_migrated .low)
    (List.mem_singleton_self _) rfl (workerScope_built .low) rfl rfl rfl rfl).mpr
      ⟨rfl, List.forall_mem_singleton.mpr rfl⟩

open Migration.Sample in
/-- A medium worker whose result was rejected three times starts over. -/
theorem medium_rejections_lost :
    identitiesFromTaskFacts format.toTextFormat (ledgerRules format isAbsolute) (workerFiles .medium) =
      some [workerIdentity .medium] ∧
    migrateRejections format rejectedJson [workerIdentity .medium] = .migrated (migratedRejected .medium) ∧
    rejectionScope ⟨State.Sample.run, workerLedger .medium⟩ "agent-a" = some (workerScope .medium) ∧
    ((format.parse (migratedRejected .medium)).bind fun json ↦
      (readRejections State.Sample.runId none (some json)).map (rejectionCount (workerScope .medium))) =
        some 0 :=
  ⟨workerIdentities .medium, rejected_migrated .medium, workerScope_built .medium, by decide⟩

end OmpLazy.State.Migration

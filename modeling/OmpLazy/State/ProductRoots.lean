import OmpLazy.State.MigrationAtomicity
import OmpLazy.State.ReadableMigration

namespace OmpLazy.State.Migration

open OmpLazy.Foundation OmpLazy.Foundation.Schema OmpLazy.Foundation.Text OmpLazy.Contracts OmpLazy.Gates
  Action

/-! When the files of a root are converted. -/

section Conversion

variable {Contents : Type} {rules : MigrationRules Contents} {files : List (String × Contents)}

/-- What the migration asks of the files before it writes anything. -/
structure Convertible (rules : MigrationRules Contents) (files : List (String × Contents)) : Prop where
  nonempty : files ≠ []
  paths : ∀ file ∈ files, isLifecyclePath file.1 = true
  versions : ∀ file ∈ files, isFutureLifecycleRecord rules.format file.2 = false
  migrated : ∃ identities, identitiesFromTaskFacts rules.format rules.ledgers files = some identities ∧
    ∀ file ∈ files, ∃ new,
      migrateLifecycleRecord rules.format rules.ledgers file.1 file.2 identities = .migrated new

theorem convert_ok_iff : (∃ targets, convert rules files = .ok targets) ↔ Convertible rules files := by
  constructor
  · rintro ⟨targets, h⟩
    simp only [convert] at h
    split at h
    · cases h
    rename_i hpaths
    split at h
    · cases h
    rename_i hfuture
    split at h
    · cases h
    rename_i identities hidentities
    split at h
    · cases h
    rename_i hinvalid
    split at h
    · cases h
    split at h
    · cases h
    rename_i hcurrent
    rw [not_or] at hpaths
    refine ⟨hpaths.1, fun file hfile ↦ ?_, fun file hfile ↦ ?_, identities, hidentities,
      fun file hfile ↦ ?_⟩
    · by_contra hpath
      exact hpaths.2 ⟨file, hfile, by simpa using hpath⟩
    · by_contra hversion
      exact hfuture (List.any_eq_true.mpr ⟨file, hfile, by simpa using hversion⟩)
    · have hmem := List.mem_map_of_mem (f := fun file : String × Contents ↦ (file.1, file.2,
        migrateLifecycleRecord rules.format rules.ledgers file.1 file.2 identities)) hfile
      cases hresult : migrateLifecycleRecord rules.format rules.ledgers file.1 file.2 identities with
      | migrated new => exact ⟨new, rfl⟩
      | invalid => exact absurd (List.any_eq_true.mpr ⟨_, hmem, by rw [hresult]⟩) hinvalid
      | current bytes => exact absurd (List.any_eq_true.mpr ⟨_, hmem, by rw [hresult]⟩) hcurrent
  · rintro ⟨hnonempty, hpaths, hversions, identities, hidentities, hmigrated⟩
    have hpath : ¬ (files = [] ∨ ∃ file ∈ files, (!isLifecyclePath file.1) = true) := by
      rintro (h | ⟨file, hfile, hpath⟩)
      · exact hnonempty h
      · simp [hpaths file hfile] at hpath
    have hfuture : ¬ (files.any fun file ↦ isFutureLifecycleRecord rules.format file.2) = true := by
      rw [Bool.not_eq_true, List.any_eq_false]
      exact fun file hfile ↦ by simp [hversions file hfile]
    obtain ⟨first, hfirst⟩ := List.exists_mem_of_ne_nil files hnonempty
    have : Nonempty Contents := ⟨first.2⟩
    choose! new hnew using hmigrated
    have hconverted (result : String × Contents → String × Contents × MigrationRecordResult Contents)
        (h : ∀ file, result file = (file.1, file.2,
          migrateLifecycleRecord rules.format rules.ledgers file.1 file.2 identities)) :
        files.map result = files.map fun file ↦ (file.1, file.2, .migrated (new file)) :=
      List.map_congr_left fun file hfile ↦ by rw [h, ← hnew file hfile]
    simp only [convert, hidentities]
    rw [if_neg hpath, if_neg hfuture, hconverted _ fun _ ↦ rfl, if_neg (by simp),
      if_neg (by simpa using ⟨_, _, hfirst⟩), if_neg (by simp), if_neg (by simp [List.filterMap_map])]
    exact ⟨_, rfl⟩

/-- Before anything is written no call has migrated. -/
theorem convert_not_migrated (files : List (String × Contents)) :
    convert rules files ≠ .error (.ok .migrated) := by
  simp only [convert]
  split
  · simp
  split
  · simp
  split
  · simp
  split
  · simp
  split
  · simp
  split
  · simp
  split <;> simp

end Conversion

/-! A migration that nothing ends. -/

section Completion

variable {Contents : Type} {rules : MigrationRules Contents} {files : FileTree Contents}
  {targets done : List (Target Contents)} {target : Target Contents} {item : MigrationItem}
  {source : Contents}

theorem check_completes {P Q : MigrationRoot Contents → Prop} {check : Bool} {error : MigrationErrorCode}
    (h : check = true) (hQ : ∀ root, P root → Q root) : Completes P (require check error) Q := by
  rw [h]
  exact ret_completes hQ

theorem writeJournal_completes {P : MigrationRoot Contents → Prop} (journal : MigrationJournal)
    (h : ∀ root, P root → P { root with journal := some (stringify (encodeJournal journal)) }) :
    Completes P (writeJournal journal) P := operation_completes h

theorem backUp_completes (hsource : files.lookup item.path = some source)
    (hhash : rules.format.hash source = item.sourceHash) :
    Completes (·.files = files) (backUp rules item) (·.files = files) := by
  have hcopy : Completes (·.files = files) (copyFile item.path : Program Contents Unit)
      fun root ↦ root.files = files ∧ root.backup.lookup item.path = some source := by
    refine read_completes fun s hs ↦ ?_
    rw [hs, hsource]
    refine operation_completes ?_
    rintro _ rfl
    exact ⟨hs, AList.lookup_insert _⟩
  refine seq_completes hcopy fun _ ↦ read_completes fun s hs ↦ ?_
  have hverified : verified rules s.root.backup item.path item.sourceHash = true :=
    verified_iff.mpr ⟨source, hs.2, hhash⟩
  exact check_completes hverified fun root hroot ↦ hroot ▸ hs.1

/-- The files are still these, and these successors are staged. -/
structure Staged (files : FileTree Contents) (done : List (Target Contents)) (root : MigrationRoot Contents) :
    Prop where
  files : root.files = files
  staged : ∀ target ∈ done, root.staged.lookup target.path = some target.bytes

theorem stage_completes (hnew : target.path ∉ done.map (·.path)) :
    Completes (Staged files done) (stage rules target) (Staged files (done ++ [target])) := by
  have hstage : Completes (Staged files done)
      (operation fun root ↦ { root with staged := root.staged.insert target.path target.bytes })
      (Staged files (done ++ [target])) := by
    refine operation_completes fun root h ↦ ⟨h.files, fun other hother ↦ ?_⟩
    obtain hother | hother := List.mem_append.mp hother
    · have hne : other.path ≠ target.path := fun heq ↦ hnew (heq ▸ List.mem_map_of_mem hother)
      rw [← h.staged other hother]
      exact AList.lookup_insert_ne hne
    · obtain rfl := List.mem_singleton.mp hother
      exact AList.lookup_insert _
  refine seq_completes hstage fun _ ↦ read_completes fun s hs ↦ ?_
  have hverified : verified rules s.root.staged target.path (rules.format.hash target.bytes) = true :=
    verified_iff.mpr ⟨target.bytes, hs.staged target (by simp), rfl⟩
  exact check_completes hverified fun root hroot ↦ hroot ▸ hs

/-- The successors are staged, and the files that have none are still these. -/
structure Publishing (files : FileTree Contents) (targets : List (Target Contents))
    (root : MigrationRoot Contents) : Prop where
  staged : ∀ target ∈ targets, root.staged.lookup target.path = some target.bytes
  others : ∀ path ∉ targets.map (·.path), root.files.lookup path = files.lookup path

theorem publishTargets_completes (journal : MigrationJournal) (remaining : List (Target Contents))
    (published : List String) (hremaining : ∀ target ∈ remaining, target ∈ targets) :
    Completes (Publishing files targets) (publishTargets rules journal remaining published)
      (Publishing files targets) := by
  induction remaining generalizing published with
  | nil => exact ret_completes fun _ h ↦ h
  | cons target remaining ih =>
    rw [List.forall_mem_cons] at hremaining
    refine read_completes fun s hs ↦ ?_
    have hstaged := hs.staged target hremaining.1
    have hverified : verified rules s.root.staged target.path (rules.format.hash target.bytes) = true :=
      verified_iff.mpr ⟨target.bytes, hstaged, rfl⟩
    refine seq_completes (require_completes hverified) fun _ ↦ ?_
    have hpublish : Completes (· = s.root) (publishFile target.path : Program Contents Unit)
        (Publishing files targets) := by
      refine read_completes fun t ht ↦ ?_
      rw [ht, hstaged]
      refine operation_completes ?_
      rintro _ rfl
      refine ⟨ht ▸ hs.staged, fun path hpath ↦ ?_⟩
      have hne : path ≠ target.path := fun heq ↦ hpath (heq ▸ List.mem_map_of_mem hremaining.1)
      rw [← hs.others path hpath]
      exact AList.lookup_insert_ne hne
    refine seq_completes hpublish fun _ ↦ seq_completes (writeJournal_completes _ fun _ h ↦ ⟨h.1, h.2⟩)
      fun _ ↦ ih _ hremaining.2

theorem migrateTargets_completes (hnodup : (targets.map (·.path)).Nodup)
    (hsource : ∀ target ∈ targets, files.lookup target.path = some target.source)
    (hjournal : JournalOk ⟨.prepared, targets.map (Target.item rules), []⟩) :
    Triple (fun s ↦ s.operations = none ∧ s.root.files = files) (migrateTargets rules targets)
      (fun status s ↦ status = .migrated ∧
        ∀ path ∉ targets.map (·.path), s.root.files.lookup path = files.lookup path) fun _ ↦ False := by
  unfold migrateTargets
  have hread := (journal_reads.fixed_iff _).mpr ⟨hjournal, rfl⟩
  rw [hread]
  let items := targets.map (Target.item rules)
  have hcopies : Completes (·.files = files) (items.forM (backUp rules)) (·.files = files) := by
    refine loop_completes (I := fun _ root ↦ root.files = files) fun done item rest hitems ↦ ?_
    obtain ⟨target, htarget, rfl⟩ := List.mem_map.mp (hitems ▸ List.mem_append_right done List.mem_cons_self)
    exact backUp_completes (hsource target htarget) rfl
  have hstages : Completes (Staged files []) (targets.forM (stage rules)) (Staged files targets) := by
    refine loop_completes fun done target rest htargets ↦ stage_completes fun hmem ↦ ?_
    rw [htargets, List.map_append, List.map_cons] at hnodup
    exact List.disjoint_of_nodup_append hnodup hmem List.mem_cons_self
  have hjournals : ∀ journal, Completes (·.files = files) (writeJournal journal : Program Contents Unit)
      (·.files = files) := fun journal ↦ writeJournal_completes journal fun _ h ↦ h
  have hstaged : ∀ journal, Completes (Staged files targets) (writeJournal journal : Program Contents Unit)
      (Staged files targets) := fun journal ↦ writeJournal_completes journal fun _ h ↦ ⟨h.1, h.2⟩
  refine Triple.seq (hjournals _) fun _ ↦ Triple.seq (hjournals _) fun _ ↦ ?_
  refine Triple.seq hcopies fun _ ↦ Triple.seq (hjournals _) fun _ ↦ ?_
  refine Triple.seq (hstages.strengthen fun s hs ↦ ⟨hs.1, hs.2, by simp⟩) fun _ ↦ ?_
  refine Triple.seq (hstaged _) fun _ ↦ Triple.seq (hstaged _) fun _ ↦ ?_
  have hperm := List.perm_insertionSort (before rules Target.path) targets
  have hpublishing : ∀ s : MigrationSession Contents, s.operations = none ∧ Staged files targets s.root →
      s.operations = none ∧ Publishing files targets s.root :=
    fun s hs ↦ ⟨hs.1, hs.2.staged, fun path _ ↦ by rw [hs.2.files]⟩
  refine Triple.seq ((publishTargets_completes _ _ _ fun _ ↦ hperm.mem_iff.mp).strengthen hpublishing)
    fun published ↦ ?_
  have hmarker : Completes (Publishing files targets)
      (operation fun root ↦ { root with marker := some (stringify (encodeMarker (markerItems items))) })
      (Publishing files targets) := operation_completes fun _ h ↦ ⟨h.1, h.2⟩
  refine Triple.seq hmarker fun _ ↦ ?_
  refine Triple.seq (writeJournal_completes _ fun _ h ↦ ⟨h.1, h.2⟩) fun _ ↦ ?_
  exact Triple.seq boundary_completes fun _ ↦ Triple.ret fun s hs ↦ ⟨rfl, hs.2.others⟩

theorem migrate_absent {root : MigrationRoot Contents} (habsent : root.journal = none)
    (operations : Option ℕ) :
    exec (migrateLifecycleState rules true) ⟨root, operations⟩ =
      match convert rules (root.files.entries.map fun file ↦ (file.1, file.2)) with
      | .error (.error code) => (.error code, ⟨root, operations⟩)
      | .error (.ok status) => (.ok status, ⟨root, operations⟩)
      | .ok targets => exec (migrateTargets rules targets) ⟨root, operations⟩ := by
  have hread : readJournal root = .absent := by rw [readJournal, habsent]
  rw [migrateLifecycleState, exec_bind, require, if_pos rfl, exec_pure]
  simp only [exec_bind, exec_get, hread]
  rcases convert rules _ with (code | status) | targets <;> rfl

theorem lifecyclePath_ne_empty {path : String} (h : isLifecyclePath path = true) : path ≠ "" := by
  rintro rfl
  exact absurd h (by decide)

theorem migrate_completes (hhash : ∀ bytes, isLowerHexOf 64 (rules.format.hash bytes) = true)
    {root : MigrationRoot Contents} (habsent : root.journal = none)
    (h : Convertible rules (root.files.entries.map fun file ↦ (file.1, file.2))) :
    ∃ session, exec (migrateLifecycleState rules true) ⟨root, none⟩ = (.ok .migrated, session) ∧
      ∀ path, isLifecyclePath path = false → session.root.files.lookup path = root.files.lookup path := by
  obtain ⟨targets, htargets⟩ := convert_ok_iff.mpr h
  have hpaths := convert_paths htargets
  rw [List.map_map] at hpaths
  have hfiles := convert_files htargets
  have hlifecycle : ∀ target ∈ targets, isLifecyclePath target.path = true := fun target htarget ↦
    h.paths (target.path, target.source) (hfiles ▸ List.mem_map_of_mem
      (f := fun target : Target Contents ↦ (target.path, target.source)) htarget)
  have hsource : ∀ target ∈ targets, root.files.lookup target.path = some target.source := by
    intro target htarget
    have hmem := hfiles ▸ List.mem_map_of_mem
      (f := fun target : Target Contents ↦ (target.path, target.source)) htarget
    obtain ⟨file, hfile, heq⟩ := List.mem_map.mp hmem
    obtain ⟨hpath, hbytes⟩ := Prod.mk.inj heq
    rw [← hpath, ← hbytes]
    exact List.mem_dlookup root.files.nodupKeys hfile
  have hjournal : JournalOk ⟨.prepared, targets.map (Target.item rules), []⟩ := by
    refine ⟨fun item hitem ↦ ?_, ?_, by simp⟩
    · obtain ⟨target, htarget, rfl⟩ := List.mem_map.mp hitem
      exact ⟨lifecyclePath_ne_empty (hlifecycle target htarget), hhash _, hhash _⟩
    · intro hnil
      obtain rfl := List.map_eq_nil_iff.mp hnil
      exact h.nonempty hfiles.symm
  have hnodup : (targets.map (·.path)).Nodup := hpaths ▸ root.files.keys_nodup
  have hexec := migrateTargets_completes hnodup hsource hjournal ⟨root, none⟩ ⟨rfl, rfl⟩
  split at hexec
  · rename_i status session heq
    obtain ⟨rfl, hothers⟩ := hexec
    refine ⟨session, ?_, fun path hpath ↦ hothers path fun hmem ↦ ?_⟩
    · rw [migrate_absent habsent, htargets]
      exact heq
    · obtain ⟨target, htarget, rfl⟩ := List.mem_map.mp hmem
      exact absurd (hlifecycle target htarget) (by simp [hpath])
  · exact hexec.elim

/-- Only a migration of convertible files returns this status. -/
theorem convertible_of_migrated {root : MigrationRoot Contents} {operations : Option ℕ}
    {session : MigrationSession Contents} (habsent : root.journal = none)
    (h : exec (migrateLifecycleState rules true) ⟨root, operations⟩ = (.ok .migrated, session)) :
    Convertible rules (root.files.entries.map fun file ↦ (file.1, file.2)) := by
  rw [migrate_absent habsent] at h
  split at h
  · cases h
  · rename_i status hconvert
    obtain rfl : status = .migrated := Except.ok.inj (Prod.mk.inj h).1
    exact absurd hconvert (convert_not_migrated _)
  · rename_i targets htargets
    exact convert_ok_iff.mp ⟨targets, htargets⟩

end Completion

/-! The roots that the product writes. -/

/-- `evidenceRootPath`, under the state root. -/
def evidenceRootPath (runId : String) (attempt : ℕ) : String :=
  "runs/" ++ runId ++ "/attempts/" ++ toString attempt ++ "/evidence"

def approvalPath (planHash : String) : String := "approvals/" ++ planHash ++ ".json"

def reservationPath (teamName : String) : String := "team-reservations/" ++ teamName ++ ".json"

/-- The files of the product that are no lifecycle records. -/
inductive OtherFile : String → Prop
  | evidence (runId : String) (attempt : ℕ) (file : String) (hrunId : isUuid runId = true) :
    OtherFile (evidenceRootPath runId attempt ++ "/" ++ file)
  | approval (planHash : String) (hplanHash : isLowerHexOf 64 planHash = true) :
    OtherFile (approvalPath planHash)
  | reservation (teamName : String) (hteamName : isTeamName teamName.toList = true) :
    OtherFile (reservationPath teamName)

/-- The names that the walk over the root leaves out. -/
def isSkipped (name : List Char) : Bool :=
  name = "migration".toList || name = "state.lock".toList || ".tmp-".toList <:+: name

def isWalked (path : String) : Bool := (path.toList.splitOn '/').all fun name ↦ !isSkipped name

section Roots

variable {Contents : Type}

def sourceFiles (tree : FileTree Contents) : FileTree Contents :=
  ⟨tree.entries.filter fun file ↦ isWalked file.1, tree.nodupKeys.sublist List.filter_sublist⟩

theorem dlookup_filter (keep : String → Bool) (path : String) (files : List (Σ _ : String, Contents)) :
    (files.filter fun file ↦ keep file.1).dlookup path = if keep path then files.dlookup path else none := by
  induction files with
  | nil => simp
  | cons file files ih =>
    obtain ⟨name, bytes⟩ := file
    by_cases hname : path = name
    · subst hname
      by_cases hkeep : keep path = true
      · rw [List.filter_cons_of_pos (by exact hkeep), if_pos hkeep, List.dlookup_cons_eq, List.dlookup_cons_eq]
      · rw [List.filter_cons_of_neg (by exact hkeep), ih, if_neg hkeep, if_neg hkeep]
    · rw [List.filter_cons]
      split
      · rw [List.dlookup_cons_ne _ _ hname, List.dlookup_cons_ne _ _ hname, ih]
      · rw [List.dlookup_cons_ne _ _ hname, ih]

theorem lookup_sourceFiles (tree : FileTree Contents) (path : String) :
    (sourceFiles tree).lookup path = if isWalked path then tree.lookup path else none :=
  dlookup_filter isWalked path tree.entries

def listed (tree : FileTree Contents) : List (String × Contents) :=
  tree.entries.map fun file ↦ (file.1, file.2)

variable (format : WalFormat Contents) (isAbsolute : String → Bool)

/-- A value of the first version of a kind that its identities tell apart: each entry of a ledger and
each event of a task has exactly one. -/
def ValidValue (identities : List TaskIdentity) (value : Json) : RecordKind → Prop
  | .activeIndex => (activeIndexSchema value).isSome
  | .run => (runSchema value).isSome
  | .event => ∃ event, stateEventSchema value = some event ∧ (taskScoped event.kind = true →
      ∃ identity, (identities.filter fun identity ↦ identity.runId = event.runId &&
        some identity.taskId = orderedTaskId event.mutation) = [identity])
  | .taskFacts => (taskLedgerSchema value).isSome
  | .acceptance => ∃ ledger, acceptanceLedgerSchema value = some ledger ∧
      ∀ entry ∈ ledger.entries, (scopedAcceptance identities entry).isSome
  | .rejections => ∃ ledger, rejectionLedgerSchema value = some ledger ∧
      ∀ entry ∈ ledger.entries, (scopedRejection identities entry).isSome
  | .team => (Workflows.teamStateSchema isAbsolute value).isSome ∨ (Workflows.tombstoneSchema 1 value).isSome
  | .activation | .counter | .provenance => True
  | .wal => False

/-- A line of a log of the first version, with exactly one identity. -/
def ValidLine (identities : List TaskIdentity) (line : Contents) : Prop :=
  ∃ json event, format.parse line = some json ∧ acceptanceEventSchema json = some event ∧
    (scopedAcceptance identities event).isSome

/-- A valid lifecycle record of the first version; a log may be empty. -/
def ValidRecord (identities : List TaskIdentity) (path : String) (bytes : Contents) : Prop :=
  isLifecyclePath path = true ∧
    match recordKind path with
    | none => False
    | some .wal => ∀ line ∈ format.lines bytes, ValidLine format identities line
    | some kind => ∃ value, format.parse bytes = some value ∧ hasVersion .v1 value = true ∧
        ValidValue isAbsolute identities value kind

/-- A root of the first version as the product writes it: valid records with unique identities, and its
other files. -/
def ProductRoot (tree : FileTree Contents) : Prop :=
  ∃ identities, identitiesFromTaskFacts format.toTextFormat (ledgerRules format isAbsolute)
      (listed (sourceFiles tree)) = some identities ∧
    ∀ file ∈ listed (sourceFiles tree), OtherFile file.1 ∨ ValidRecord format isAbsolute identities file.1 file.2

/-- What the migration takes for an up-to-date record although it is of no version. -/
def IsEmptyLog (path : String) (bytes : Contents) : Prop :=
  endsWith ".wal.jsonl" path = true ∧ format.lines bytes = []

end Roots

section Records

variable {Contents : Type} {format : WalFormat Contents} {isAbsolute : String → Bool}
  {identities : List TaskIdentity} {value : Json} {bytes : Contents} {path : String}

theorem mapM_of_isSome {α β : Type} {f : α → Option β} {xs : List α} (h : ∀ x ∈ xs, (f x).isSome) :
    ∃ ys, xs.mapM f = some ys := by
  induction xs with
  | nil => exact ⟨[], rfl⟩
  | cons x xs ih =>
    obtain ⟨y, hy⟩ := Option.isSome_iff_exists.mp (h x List.mem_cons_self)
    obtain ⟨ys, hys⟩ := ih fun x hx ↦ h x (List.mem_cons_of_mem _ hx)
    exact ⟨y :: ys, by simp [hy, hys]⟩

theorem hasVersion_object (h : hasVersion .v1 value = true) :
    ∃ fields, value = .object fields ∧ Json.member fields "schemaVersion" = some (.nat 1) := by
  have hv1 : value.get? "schemaVersion" = some (.nat 1) := of_decide_eq_true h
  cases value with
  | object fields => exact ⟨fields, rfl, hv1⟩
  | null | bool | number | string | array => cases hv1

theorem schemaVersion_v1 (h : hasVersion .v1 value = true) : schemaVersion value = some 1 := by
  have hv1 : value.get? "schemaVersion" = some (.nat 1) := of_decide_eq_true h
  simp [schemaVersion, hv1]

theorem currentV2_v1 (h : hasVersion .v1 value = true) (keys : List String) (hkeys : "schemaVersion" ∉ keys)
    (accepts : Json → Bool) : currentV2 (value.without keys) accepts = false := by
  have hv1 : hasVersion .v1 (value.without keys) = true := by
    rw [hasVersion, Json.get?_without hkeys]
    exact h
  rw [currentV2, schemaVersion_v1 hv1]
  rfl

/-- A value of the first version is not one of the second. -/
theorem not_v2 {β : Type} {fields : List (String × Json)} {rest : Unit → Option β} {x : β}
    (hmember : Json.member fields "schemaVersion" = some (.nat 1))
    (h : ((required fields "schemaVersion" (literal (.nat 2))).bind rest) = some x) : False := by
  obtain ⟨u, hversion, -⟩ := Option.bind_eq_some_iff.mp h
  have heq := (member_version hversion).symm.trans hmember
  simp [Json.nat] at heq

section Values

variable {fields : List (String × Json)} (hmember : Json.member fields "schemaVersion" = some (.nat 1))

include hmember

theorem eventV2_none : stateEventV2Schema (.object fields) = none := by
  refine Option.eq_none_iff_forall_ne_some.mpr fun event h ↦ ?_
  exact not_v2 hmember (strictObject_object.mp (Option.filter_eq_some_iff.mp h).1).2

theorem acceptanceV2_none : acceptanceLedgerV2Schema (.object fields) = none := by
  refine Option.eq_none_iff_forall_ne_some.mpr fun ledger h ↦ ?_
  exact not_v2 hmember (strictObject_object.mp (Option.filter_eq_some_iff.mp h).1).2

theorem rejectionsV2_none : rejectionLedgerV2Schema (.object fields) = none := by
  refine Option.eq_none_iff_forall_ne_some.mpr fun ledger h ↦ ?_
  exact not_v2 hmember (strictObject_object.mp (Option.filter_eq_some_iff.mp h).1).2

end Values

theorem validValue_migrated {kind : RecordKind} (hversion : hasVersion .v1 value = true)
    (h : ValidValue isAbsolute identities value kind) :
    ∃ new, migrateKind format isAbsolute bytes value identities kind = .migrated new := by
  have hv1 := schemaVersion_v1 hversion
  obtain ⟨fields, rfl, hmember⟩ := hasVersion_object hversion
  cases kind with
  | activeIndex =>
    have hcurrent := currentV2_v1 hversion ["migrationRevision"] (by decide)
    have hvalid : (activeIndexSchema (.object fields)).isNone = false := Option.isNone_eq_false_iff.mpr h
    simp [migrateKind, migrateIndex, hcurrent, hvalid]
  | run =>
    have hcurrent := currentV2_v1 hversion ["packetHash", "expectedHead"] (by decide)
    have hvalid : (runSchema (.object fields)).isNone = false := Option.isNone_eq_false_iff.mpr h
    simp [migrateKind, migrateRun, hcurrent, hvalid]
  | event =>
    obtain ⟨event, hevent, hunique⟩ := h
    rw [migrateKind, migrateEvent, eventV2_none hmember, hevent, if_neg (by simp)]
    dsimp only
    rw [if_neg]
    · exact ⟨_, rfl⟩
    · rw [Bool.and_eq_true, decide_eq_true_eq, not_and, not_not]
      intro hscoped
      obtain ⟨identity, hidentity⟩ := hunique hscoped
      rw [hidentity]
      rfl
  | taskFacts =>
    have hcurrent := currentV2_v1 hversion ["packetHash", "tier", "reservationId"] (by decide)
    have hvalid : (taskLedgerSchema (.object fields)).isSome = true := h
    simp [migrateKind, migrateTaskFacts, hcurrent, ledgerRules, hvalid]
  | acceptance =>
    obtain ⟨ledger, hledger, hscoped⟩ := h
    obtain ⟨entries, hentries⟩ := mapM_of_isSome hscoped
    simp [migrateKind, migrateAcceptance, acceptanceV2_none hmember, hv1, hledger, hentries]
  | rejections =>
    obtain ⟨ledger, hledger, hscoped⟩ := h
    obtain ⟨entries, hentries⟩ := mapM_of_isSome hscoped
    simp [migrateKind, migrateRejections, rejectionsV2_none hmember, hv1, hledger, hentries]
  | team =>
    rw [migrateKind, migrateTeam]
    simp only [hv1, Option.some.injEq, OfNat.one_ne_ofNat, false_and, if_false, ne_eq, not_true_eq_false]
    split
    · exact ⟨_, rfl⟩
    · rename_i htombstone
      rw [if_neg]
      · exact ⟨_, rfl⟩
      · have hteam := h.resolve_right htombstone
        simp [ledgerRules, hteam]
  | activation | counter | provenance =>
    rw [migrateKind, migrateVersion, hv1]
    exact ⟨_, rfl⟩
  | wal => exact h.elim

theorem migrateWalEntry_v1 {event : WorkerAcceptanceEvent} (h : acceptanceEventSchema value = some event)
    (hscoped : (scopedAcceptance identities event).isSome) : (migrateWalEntry identities value).isSome := by
  obtain ⟨entry, hentry⟩ := Option.isSome_iff_exists.mp hscoped
  rw [migrateWalEntry, if_neg (acceptanceEvent_unversioned h)]
  simp [h, hentry]

theorem validLines_migrated (hnonempty : format.lines bytes ≠ [])
    (h : ∀ line ∈ format.lines bytes, ValidLine format identities line) :
    ∃ new, migrateWal format bytes identities = .migrated new := by
  have hline : ∀ line ∈ format.lines bytes, ∃ json event,
      parseRecord format.toTextFormat line = some json ∧ acceptanceEventSchema json = some event ∧
        (scopedAcceptance identities event).isSome := by
    intro line hmem
    obtain ⟨json, event, hparse, hevent, hscoped⟩ := h line hmem
    obtain ⟨fields, rfl, -⟩ := strictObject_eq_some (Option.filter_eq_some_iff.mp hevent).1
    exact ⟨_, event, by rw [parseRecord, hparse], hevent, hscoped⟩
  obtain ⟨jsons, hjsons⟩ := mapM_of_isSome (f := parseRecord format.toTextFormat)
    fun line hmem ↦ by
      obtain ⟨json, _, hparse, -⟩ := hline line hmem
      exact Option.isSome_of_eq_some hparse
  have hentry : ∀ json ∈ jsons, ∃ event, acceptanceEventSchema json = some event ∧
      (scopedAcceptance identities event).isSome := by
    intro json hmem
    obtain ⟨line, hlines, hparse⟩ := exists_of_forall₂ (mapM_eq_some.mp hjsons) hmem
    obtain ⟨json', event, hparse', hevent, hscoped⟩ := hline line hlines
    obtain rfl := Option.some.inj (hparse'.symm.trans hparse)
    exact ⟨event, hevent, hscoped⟩
  obtain ⟨entries, hentries⟩ := mapM_of_isSome (f := migrateWalEntry identities) fun json hmem ↦ by
    obtain ⟨event, hevent, hscoped⟩ := hentry json hmem
    exact migrateWalEntry_v1 hevent hscoped
  have hnot : ¬ (jsons.all fun entry ↦ entry.get? "schemaVersion" = some (.nat 2)) = true := by
    have hjsons' : jsons ≠ [] := by
      rintro rfl
      exact hnonempty (List.forall₂_nil_right_iff.mp (mapM_eq_some.mp hjsons))
    obtain ⟨json, hmem⟩ := List.exists_mem_of_ne_nil jsons hjsons'
    obtain ⟨event, hevent, -⟩ := hentry json hmem
    exact fun hall ↦ acceptanceEvent_unversioned hevent (of_decide_eq_true (List.all_eq_true.mp hall json hmem))
  simp only [migrateWal, hjsons, hentries]
  rw [if_neg hnot]
  exact ⟨_, rfl⟩

theorem emptyLog_current (isAbsolute : String → Bool) (identities : List TaskIdentity)
    (h : IsEmptyLog format path bytes) : ∃ new, migrateLifecycleRecord format.toTextFormat (ledgerRules format isAbsolute) path bytes identities =
      .current new := by
  rw [migrateLifecycleRecord, if_pos h.1]
  simp [ledgerRules, migrateWal, h.2]

/-- A valid record is converted unless it is an empty log. -/
theorem validRecord_migrated (h : ValidRecord format isAbsolute identities path bytes)
    (hlog : ¬ IsEmptyLog format path bytes) :
    ∃ new, migrateLifecycleRecord format.toTextFormat (ledgerRules format isAbsolute) path bytes identities =
      .migrated new := by
  obtain ⟨-, h⟩ := h
  split at h
  · exact h.elim
  · rename_i hkind
    rw [migrateLifecycleRecord_wal hkind]
    exact validLines_migrated (fun hnil ↦ hlog ⟨wal_of_recordKind hkind, hnil⟩) h
  · rename_i kind hnotWal hkind
    obtain ⟨value, hparse, hversion, hvalid⟩ := h
    rw [migrateLifecycleRecord_kind hkind hnotWal]
    obtain ⟨fields, rfl, -⟩ := hasVersion_object hversion
    rw [parseRecord, hparse]
    exact validValue_migrated hversion hvalid

end Records

/-! The paths of the other files. -/

theorem named_eq_true {start finish path : String} {isName : List Char → Bool}
    (h : named start finish isName path = true) :
    ∃ stem, path.toList = start.toList ++ stem ++ finish.toList ∧ isName stem = true := by
  rw [named, between] at h
  split at h
  · rename_i heq
    exact ⟨_, heq, h⟩
  · cases h

theorem named_start {start finish path : String} {isName : List Char → Bool}
    (h : named start finish isName path = true) : start.toList <+: path.toList := by
  obtain ⟨stem, heq, -⟩ := named_eq_true h
  rw [heq, List.append_assoc]
  exact List.prefix_append _ _

/-- How the paths of the records start that are no runs. -/
def recordStarts : List String :=
  ["active.json", "events/", "task-facts/", "worker-acceptance/", "worker-rejections/", "teams/",
    "directive-activations/", "continuation-counters/", "model-chain-provenance/"]

theorem lifecyclePath_start {path : String} (h : isLifecyclePath path = true) :
    named "runs/" "/run.json" isHexName path = true ∨
      ∃ start ∈ recordStarts, start.toList <+: path.toList := by
  simp only [isLifecyclePath, Bool.or_eq_true, beq_iff_eq] at h
  obtain (((((((((rfl | h) | h) | h) | h) | h) | h) | h) | h) | h) | h := h
  · exact .inr ⟨"active.json", by simp [recordStarts], List.prefix_refl _⟩
  · exact .inl h
  all_goals exact .inr ⟨_, by simp [recordStarts], named_start h⟩

theorem toList_start (start name finish : String) :
    start.toList <+: (start ++ name ++ finish).toList := by
  rw [String.append_assoc, String.toList_append]
  exact List.prefix_append _ _

theorem not_lifecycle_of_start {path : String} (start : String) (hstart : start.toList <+: path.toList)
    (hruns : ¬ ("runs/".toList <+: start.toList ∨ start.toList <+: "runs/".toList))
    (hothers : ∀ other ∈ recordStarts, ¬ (other.toList <+: start.toList ∨ start.toList <+: other.toList)) :
    isLifecyclePath path = false := by
  rw [← Bool.not_eq_true]
  intro h
  obtain h | ⟨other, hmem, hother⟩ := lifecyclePath_start h
  · exact hruns (List.prefix_or_prefix_of_prefix (named_start h) hstart)
  · exact hothers other hmem (List.prefix_or_prefix_of_prefix hother hstart)

/-- The path of a run has two directories. -/
theorem run_slashes {path : String} (h : named "runs/" "/run.json" isHexName path = true) :
    path.toList.count '/' = 2 := by
  obtain ⟨stem, heq, hname⟩ := named_eq_true h
  have hstem : stem.count '/' = 0 := by
    refine List.count_eq_zero.mpr fun hmem ↦ ?_
    rw [isHexName, Bool.and_eq_true, List.all_eq_true] at hname
    exact absurd (hname.2 _ hmem) (by decide)
  rw [heq, List.count_append, List.count_append, hstem]
  rfl

theorem otherFile_not_lifecycle {path : String} (h : OtherFile path) : isLifecyclePath path = false := by
  cases h with
  | evidence runId attempt file hrunId =>
    rw [← Bool.not_eq_true]
    intro h
    obtain h | ⟨start, hmem, hstart⟩ := lifecyclePath_start h
    · have hslashes : List.Sublist ("/attempts/".toList ++ "/evidence".toList)
          (evidenceRootPath runId attempt ++ "/" ++ file).toList := by
        simp only [evidenceRootPath, String.toList_append]
        refine (List.Sublist.append ?_ (List.Sublist.refl _)).trans
          ((List.sublist_append_left _ _).trans (List.sublist_append_left _ _))
        exact (List.sublist_append_right _ _).trans (List.sublist_append_left _ _)
      have hcount := hslashes.count_le '/'
      rw [run_slashes h] at hcount
      exact absurd hcount (by decide)
    · have hruns : "runs/".toList <+: (evidenceRootPath runId attempt ++ "/" ++ file).toList := by
        simp only [evidenceRootPath, String.toList_append, List.append_assoc]
        exact List.prefix_append _ _
      have hclash : ∀ start ∈ recordStarts,
          ¬ (start.toList <+: "runs/".toList ∨ "runs/".toList <+: start.toList) := by decide
      exact hclash start hmem (List.prefix_or_prefix_of_prefix hstart hruns)
  | approval planHash hplanHash =>
    exact not_lifecycle_of_start "approvals/" (toList_start _ _ _) (by decide) (by decide)
  | reservation teamName hteamName =>
    exact not_lifecycle_of_start "team-reservations/" (toList_start _ _ _) (by decide)
      (by decide)

/-! The migration of a root that the product wrote. -/

section Roots

variable {Contents : Type} (format : WalFormat Contents) (isAbsolute : String → Bool)
  (localeCompare : String → String → Ordering) (tree : FileTree Contents)

def productRules : MigrationRules Contents := ⟨format.toTextFormat, ledgerRules format isAbsolute, localeCompare⟩

def unmigrated : MigrationRoot Contents := ⟨sourceFiles tree, ∅, ∅, none, none⟩

/-- What is at a path after a call that left these files. -/
def fileAfter (files : FileTree Contents) (path : String) : Option Contents :=
  (files.lookup path).or (if isWalked path then none else tree.lookup path)

/-- With enough time the migration of the root returns that it migrated, and the other files are as they
were. -/
def Accepts : Prop :=
  ∃ session, exec (migrateLifecycleState (productRules format isAbsolute localeCompare) true)
      ⟨unmigrated tree, none⟩ = (.ok .migrated, session) ∧
    ∀ path, OtherFile path → fileAfter tree session.root.files path = tree.lookup path

/-- The walk finds records only, none of them an empty log or with a line that is a later record. -/
structure Acceptable : Prop where
  nonempty : listed (sourceFiles tree) ≠ []
  records : ∀ file ∈ listed (sourceFiles tree), ¬ OtherFile file.1
  logs : ∀ file ∈ listed (sourceFiles tree), ¬ IsEmptyLog format file.1 file.2
  versions : ∀ file ∈ listed (sourceFiles tree),
    isFutureLifecycleRecord format.toTextFormat file.2 = false

end Roots

section Roots

variable {Contents : Type} {format : WalFormat Contents} {isAbsolute : String → Bool}
  {localeCompare : String → String → Ordering} {tree : FileTree Contents}

theorem fileAfter_sourceFiles (path : String) : fileAfter tree (sourceFiles tree) path = tree.lookup path := by
  rw [fileAfter, lookup_sourceFiles]
  split
  · rw [Option.or_none]
  · rw [Option.none_or]

theorem accepts_iff_convertible (hhash : ∀ bytes, isLowerHexOf 64 (format.hash bytes) = true) :
    Accepts format isAbsolute localeCompare tree ↔
      Convertible (productRules format isAbsolute localeCompare) (listed (sourceFiles tree)) := by
  constructor
  · rintro ⟨session, hexec, -⟩
    exact convertible_of_migrated rfl hexec
  · intro h
    have habsent : (unmigrated tree).journal = none := rfl
    obtain ⟨session, hexec, hothers⟩ := migrate_completes hhash habsent h
    refine ⟨session, hexec, fun path hpath ↦ ?_⟩
    rw [fileAfter, hothers path (otherFile_not_lifecycle hpath)]
    exact fileAfter_sourceFiles path

theorem ProductRoot.convertible_iff (h : ProductRoot format isAbsolute tree) :
    Convertible (productRules format isAbsolute localeCompare) (listed (sourceFiles tree)) ↔
      Acceptable format tree := by
  obtain ⟨identities, hidentities, hfiles⟩ := h
  constructor
  · rintro ⟨hnonempty, hpaths, hversions, identities', -, hmigrated⟩
    refine ⟨hnonempty, fun file hmem hother ↦ ?_, fun file hmem hlog ↦ ?_, hversions⟩
    · exact absurd (hpaths file hmem) (by simp [otherFile_not_lifecycle hother])
    · obtain ⟨new, hnew⟩ := hmigrated file hmem
      obtain ⟨new', hcurrent⟩ := emptyLog_current isAbsolute identities' hlog
      cases hnew.symm.trans hcurrent
  · rintro ⟨hnonempty, hrecords, hlogs, hversions⟩
    have hvalid : ∀ file ∈ listed (sourceFiles tree), ValidRecord format isAbsolute identities file.1 file.2 :=
      fun file hmem ↦ (hfiles file hmem).resolve_left (hrecords file hmem)
    exact ⟨hnonempty, fun file hmem ↦ (hvalid file hmem).1, hversions, identities, hidentities,
      fun file hmem ↦ validRecord_migrated (hvalid file hmem) (hlogs file hmem)⟩

/-- A root that the product wrote is migrated where the walk finds nothing but records, and no empty
log. -/
theorem product_root_accepted_iff (hhash : ∀ bytes, isLowerHexOf 64 (format.hash bytes) = true)
    (hroot : ProductRoot format isAbsolute tree) :
    Accepts format isAbsolute localeCompare tree ↔ Acceptable format tree := by
  rw [accepts_iff_convertible hhash]
  exact hroot.convertible_iff

end Roots

/-! An index, alone, with a plan approval and with an empty log. -/

namespace Sample

/-- The format with the SHA-256 of the texts of the index. -/
def hashed : WalFormat (List Bytes) :=
  { format with hash := fun text ↦ Lifecycle.V1.hash (text.headD none) }

theorem hashed_hex (text : List Bytes) : isLowerHexOf 64 (hashed.hash text) = true := by
  simp only [hashed, Lifecycle.V1.hash]
  split
  · decide
  split <;> decide

def indexed : FileTree (List Bytes) := AList.singleton "active.json" (hashed.stringify Lifecycle.V1.v1Index)

def planHash : String := "0f3e1c5a7b9d2f4e6a8c0b1d3f5e7a9c0f3e1c5a7b9d2f4e6a8c0b1d3f5e7a9c"

def approval : Json := .object [("schemaVersion", .nat 1), ("planHash", .string planHash),
  ("approverSessionHash", .string planHash), ("ownerEpoch", .nat 1), ("planRevision", .nat 1),
  ("approvalRecordHash", .string planHash)]

def approved : FileTree (List Bytes) := indexed.insert (approvalPath planHash) (hashed.stringify approval)

def logPath : String := "worker-acceptance/11111111-1111-4111-8111-111111111111.wal.jsonl"

def logged : FileTree (List Bytes) := indexed.insert logPath []

theorem index_valid : ValidRecord hashed isAbsolute [] "active.json" (hashed.stringify Lifecycle.V1.v1Index) := by
  have hkind : recordKind "active.json" = some .activeIndex := by decide
  refine ⟨by decide, ?_⟩
  rw [hkind]
  have hschema : (activeIndexSchema Lifecycle.V1.v1Index).isSome = true := by decide
  exact ⟨Lifecycle.V1.v1Index, rfl, by decide, hschema⟩

theorem log_valid : ValidRecord hashed isAbsolute [] logPath [] := by
  have hkind : recordKind logPath = some .wal := by decide
  refine ⟨by decide, ?_⟩
  rw [hkind]
  exact fun line hline ↦ nomatch hline

theorem indexed_listed :
    listed (sourceFiles indexed) = [("active.json", hashed.stringify Lifecycle.V1.v1Index)] := by
  decide

theorem indexed_product : ProductRoot hashed isAbsolute indexed := by
  refine ⟨[], by decide, fun file hfile ↦ ?_⟩
  rw [indexed_listed] at hfile
  obtain rfl := List.mem_singleton.mp hfile
  exact .inr index_valid

theorem indexed_acceptable : Acceptable hashed indexed := by
  refine ⟨by decide, fun file hfile hother ↦ ?_, fun file hfile hlog ↦ ?_, by decide⟩
  · rw [indexed_listed] at hfile
    obtain rfl := List.mem_singleton.mp hfile
    exact absurd (otherFile_not_lifecycle hother) (by decide)
  · rw [indexed_listed] at hfile
    obtain rfl := List.mem_singleton.mp hfile
    exact absurd hlog.1 (by decide)

theorem approved_product : ProductRoot hashed isAbsolute approved := by
  refine ⟨[], by decide +kernel, fun file hfile ↦ ?_⟩
  have hlisted : listed (sourceFiles approved) = [(approvalPath planHash, hashed.stringify approval),
      ("active.json", hashed.stringify Lifecycle.V1.v1Index)] := by decide +kernel
  rw [hlisted, List.mem_cons, List.mem_singleton] at hfile
  obtain rfl | rfl := hfile
  · exact .inl (.approval planHash (by decide))
  · exact .inr index_valid

theorem logged_product : ProductRoot hashed isAbsolute logged := by
  refine ⟨[], by decide, fun file hfile ↦ ?_⟩
  have hlisted : listed (sourceFiles logged) = [(logPath, []),
      ("active.json", hashed.stringify Lifecycle.V1.v1Index)] := by decide
  rw [hlisted, List.mem_cons, List.mem_singleton] at hfile
  obtain rfl | rfl := hfile
  · exact .inr log_valid
  · exact .inr index_valid

end Sample

theorem product_root_accepted_index :
    Accepts Sample.hashed Sample.isAbsolute compare Sample.indexed :=
  (product_root_accepted_iff Sample.hashed_hex Sample.indexed_product).mpr Sample.indexed_acceptable

/-- A plan approval or an empty log in the root, and it is not migrated. -/
theorem product_root_refused :
    (ProductRoot Sample.hashed Sample.isAbsolute Sample.approved ∧
      ¬ Accepts Sample.hashed Sample.isAbsolute compare Sample.approved) ∧
    (ProductRoot Sample.hashed Sample.isAbsolute Sample.logged ∧
      ¬ Accepts Sample.hashed Sample.isAbsolute compare Sample.logged) := by
  refine ⟨⟨Sample.approved_product, fun ⟨session, hexec, _⟩ ↦ ?_⟩,
    Sample.logged_product, fun ⟨session, hexec, _⟩ ↦ ?_⟩
  · have hrefused : (exec (migrateLifecycleState
        (productRules Sample.hashed Sample.isAbsolute compare) true)
          ⟨unmigrated Sample.approved, none⟩).1 = .error .recoveryRequired := by decide +kernel
    rw [hexec] at hrefused
    cases hrefused
  · have hrefused : (exec (migrateLifecycleState
        (productRules Sample.hashed Sample.isAbsolute compare) true)
          ⟨unmigrated Sample.logged, none⟩).1 = .error .recoveryRequired := by decide
    rw [hexec] at hrefused
    cases hrefused

end OmpLazy.State.Migration

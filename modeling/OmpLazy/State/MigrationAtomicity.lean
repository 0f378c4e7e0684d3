import OmpLazy.Foundation.Keys
import OmpLazy.State.Lifecycle
import OmpLazy.State.MigrationLaws

namespace OmpLazy.State.Migration

open OmpLazy.Foundation Action Relation

section Atomicity

variable {Contents α β : Type} {rules : MigrationRules Contents} {files : FileTree Contents}
  {targets : List (Target Contents)} {root other : MigrationRoot Contents}
  {journal : MigrationJournal} {target : Target Contents}

/-- What a migration starts from: the targets are made from all the files, and no file has the hash of
its successor without being that text. -/
structure Started (rules : MigrationRules Contents) (files : FileTree Contents)
    (targets : List (Target Contents)) : Prop where
  converted : convert rules (files.entries.map fun file ↦ (file.1, file.2)) = .ok targets
  collisionFree : ∀ target ∈ targets, rules.format.hash target.source = rules.format.hash target.bytes →
    target.source = target.bytes

/-- The files are those from which the migration started. -/
def Original (files : FileTree Contents) (root : MigrationRoot Contents) : Prop :=
  ∀ path, root.files.lookup path = files.lookup path

/-- The files are the targets. -/
def Replaced (targets : List (Target Contents)) (root : MigrationRoot Contents) : Prop :=
  ∀ path, root.files.lookup path = (targets.find? (·.path = path)).map (·.bytes)

/-- Every file is the original or its target, and every original has its copy. -/
structure Mixed (files : FileTree Contents) (targets : List (Target Contents))
    (root : MigrationRoot Contents) : Prop where
  each : ∀ target ∈ targets, root.files.lookup target.path = some target.source ∨
    root.files.lookup target.path = some target.bytes
  others : ∀ path ∉ targets.map (·.path), root.files.lookup path = files.lookup path
  copies : ∀ target ∈ targets, root.backup.lookup target.path = some target.source

/-- The journal is still to be discarded without touching the files. -/
def Unsaved (journal : MigrationJournal) : Prop :=
  journal.phase = .prepared ∨ journal.phase = .backingUp

/-- What an interrupted migration, or an interrupted recovery from it, leaves. -/
structure Interrupted (rules : MigrationRules Contents) (files : FileTree Contents)
    (targets : List (Target Contents)) (root : MigrationRoot Contents) : Prop where
  readable : readJournal root ≠ .invalid
  absent : readJournal root = .absent → Original files root
  items : ∀ journal, readJournal root = .journal journal →
    journal.items = targets.map (Target.item rules)
  unsaved : ∀ journal, readJournal root = .journal journal → Unsaved journal → Original files root
  saved : ∀ journal, readJournal root = .journal journal → ¬ Unsaved journal → Mixed files targets root

/-- A journal of these targets that can be read. -/
structure Listed (rules : MigrationRules Contents) (targets : List (Target Contents))
    (journal : MigrationJournal) : Prop where
  items : journal.items = targets.map (Target.item rules)
  ok : ∀ item ∈ journal.items, ItemOk item
  some : journal.items ≠ []
  published : ∀ path ∈ journal.published, path ∈ targets.map (·.path)

/-- The text of the journal file. -/
def Written (journal : MigrationJournal) (root : MigrationRoot Contents) : Prop :=
  root.journal = some (stringify (encodeJournal journal))

@[simp] theorem path_item (target : Target Contents) : (target.item rules).path = target.path := rfl

namespace Started

variable (h : Started rules files targets)

include h

theorem paths_nodup : (targets.map (·.path)).Nodup := by
  have hpaths := convert_paths h.converted
  rw [List.map_map] at hpaths
  exact hpaths ▸ files.keys_nodup

theorem eq_of_path {target' : Target Contents} (hmem : target ∈ targets) (hmem' : target' ∈ targets)
    (hpath : target.path = target'.path) : target = target' :=
  List.inj_on_of_nodup_map h.paths_nodup hmem hmem' hpath

theorem lookup_source (hmem : target ∈ targets) : files.lookup target.path = some target.source := by
  have hfile : (target.path, target.source) ∈ files.entries.map fun file ↦ (file.1, file.2) := by
    rw [← convert_files h.converted]
    exact List.mem_map_of_mem hmem
  obtain ⟨⟨path, bytes⟩, hentry, heq⟩ := List.mem_map.mp hfile
  obtain ⟨rfl, rfl⟩ := Prod.mk.inj heq
  exact AList.mem_lookup_iff.mpr hentry

theorem lookup_other {path : String} (hpath : path ∉ targets.map (·.path)) : files.lookup path = none := by
  have hpaths := convert_paths h.converted
  rw [List.map_map] at hpaths
  rw [AList.lookup_eq_none]
  exact fun hmem ↦ hpath (hpaths ▸ hmem)

/-- Where every file is a target, the files are the targets. -/
theorem replaced (hmixed : Mixed files targets root)
    (hall : ∀ target ∈ targets, root.files.lookup target.path = some target.bytes) :
    Replaced targets root := by
  intro path
  by_cases hpath : path ∈ targets.map (·.path)
  · obtain ⟨target, hmem, rfl⟩ := List.mem_map.mp hpath
    rw [hall target hmem, find?_key h.paths_nodup hmem]
    rfl
  · have hnone : targets.find? (·.path = path) = none := by
      rw [List.find?_eq_none]
      exact fun _ hmem hfound ↦ hpath (List.mem_map.mpr ⟨_, hmem, by simpa using hfound⟩)
    rw [hmixed.others path hpath, h.lookup_other hpath, hnone]
    rfl

theorem original (hmixed : Mixed files targets root)
    (hall : ∀ target ∈ targets, root.files.lookup target.path = some target.source) :
    Original files root := by
  intro path
  by_cases hpath : path ∈ targets.map (·.path)
  · obtain ⟨target, hmem, rfl⟩ := List.mem_map.mp hpath
    rw [hall target hmem, h.lookup_source hmem]
  · exact hmixed.others path hpath

/-- Before anything is published every file is the original. -/
theorem mixed (horiginal : Original files root)
    (hcopies : ∀ target ∈ targets, root.backup.lookup target.path = some target.source) :
    Mixed files targets root where
  each _ hmem := .inl ((horiginal _).trans (h.lookup_source hmem))
  others path _ := horiginal path
  copies := hcopies

/-- A file that is put in place of another, either from its copy or from its target, keeps the mix. -/
theorem insert (hmixed : Mixed files targets root) (hmem : target ∈ targets) {bytes : Contents}
    (hbytes : bytes = target.source ∨ bytes = target.bytes) :
    Mixed files targets { root with files := root.files.insert target.path bytes } where
  each target' hmem' := by
    by_cases hpath : target'.path = target.path
    · obtain rfl := h.eq_of_path hmem' hmem hpath
      simpa using hbytes
    · simpa [AList.lookup_insert_ne hpath] using hmixed.each target' hmem'
  others path hpath := by
    have hne : path ≠ target.path := fun heq ↦ hpath (heq ▸ List.mem_map_of_mem hmem)
    simpa [AList.lookup_insert_ne hne] using hmixed.others path hpath
  copies := hmixed.copies

end Started

namespace Listed

theorem paths (h : Listed rules targets journal) : journal.items.map (·.path) = targets.map (·.path) := by
  rw [h.items, List.map_map]
  rfl

theorem rewritten (h : Listed rules targets journal) (phase : MigrationPhase) {published : List String}
    (hpublished : ∀ path ∈ published, path ∈ targets.map (·.path)) :
    Listed rules targets ⟨phase, journal.items, published⟩ := ⟨h.items, h.ok, h.some, hpublished⟩

theorem read (h : Listed rules targets journal) (hnodup : (targets.map (·.path)).Nodup)
    (hwritten : Written journal root) : readJournal root = .journal journal := by
  have hpublished : ∀ path ∈ journal.published, path ≠ "" := by
    intro path hpath
    obtain ⟨item, hitem, rfl⟩ := List.mem_map.mp (h.paths.symm ▸ h.published path hpath)
    exact (h.ok item hitem).path
  refine readJournal_eq_journal.mpr ⟨_, hwritten, ?_, ?_⟩
  · exact (journal_reads.fixed_iff _).mpr ⟨⟨h.ok, h.some, hpublished⟩, rfl⟩
  · rw [MigrationJournal.closed, h.paths, decide_eq_true hnodup, Bool.true_and, List.all_eq_true]
    exact fun path hpath ↦ decide_eq_true (h.published path hpath)

end Listed

namespace Interrupted

theorem of_absent (hread : readJournal root = .absent) (h : Original files root) :
    Interrupted rules files targets root := by
  refine ⟨by simp [hread], fun _ ↦ h, ?_, ?_, ?_⟩
  all_goals
    intro journal hjournal
    rw [hread] at hjournal
    cases hjournal

theorem of_read (hread : readJournal root = .journal journal)
    (hitems : journal.items = targets.map (Target.item rules))
    (hunsaved : Unsaved journal → Original files root)
    (hsaved : ¬ Unsaved journal → Mixed files targets root) : Interrupted rules files targets root := by
  refine ⟨by simp [hread], by simp [hread], ?_, ?_, ?_⟩
  all_goals
    intro journal' hread'
    obtain rfl := JournalRead.journal.inj (hread.symm.trans hread')
  · exact hitems
  · exact hunsaved
  · exact hsaved

end Interrupted

/-- A fact that does not depend on the files. -/
theorem fact_holds {p : Prop} {P Q R : MigrationRoot Contents → Prop} {program : Program Contents α}
    (h : p → Holds P program Q R) : Holds (fun root ↦ P root ∧ p) program Q R :=
  fun s hs ↦ h hs.2 s hs.1

/-! Recovery. -/

/-- A recovery that answered left the originals or the targets. -/
structure Answered (rules : MigrationRules Contents) (files : FileTree Contents)
    (targets : List (Target Contents)) (root : MigrationRoot Contents) : Prop where
  interrupted : Interrupted rules files targets root
  atomic : Original files root ∨ Replaced targets root

/-- These items are put back, and the journal is still there. -/
structure Restoring (files : FileTree Contents) (targets : List (Target Contents))
    (journal : MigrationJournal) (done : List MigrationItem) (root : MigrationRoot Contents) : Prop where
  read : readJournal root = .journal journal
  mixed : Mixed files targets root
  restored : ∀ item ∈ done, root.files.lookup item.path = files.lookup item.path

theorem Restoring.interrupted {done : List MigrationItem} (h : Restoring files targets journal done root)
    (hitems : journal.items = targets.map (Target.item rules)) (hsaved : ¬ Unsaved journal) :
    Interrupted rules files targets root :=
  .of_read h.read hitems (fun hunsaved ↦ absurd hunsaved hsaved) fun _ ↦ h.mixed

theorem restoreItem_restoring (hstarted : Started rules files targets)
    (hitems : journal.items = targets.map (Target.item rules)) (hsaved : ¬ Unsaved journal)
    {done : List MigrationItem} {item : MigrationItem} (hitem : item ∈ journal.items) :
    Holds (Restoring files targets journal done) (restoreItem item)
      (Restoring files targets journal (done ++ [item])) (Interrupted rules files targets) := by
  rw [hitems] at hitem
  obtain ⟨target, htarget, rfl⟩ := List.mem_map.mp hitem
  refine read_holds fun s hs ↦ ?_
  have hcopy : s.root.backup.lookup (target.item rules).path = some target.source :=
    hs.mixed.copies target htarget
  rw [hcopy]
  refine operation_holds ?_ fun root hroot ↦ hroot ▸ hs.interrupted hitems hsaved
  rintro root rfl
  refine ⟨hs.read, hstarted.insert hs.mixed htarget (.inl rfl), fun other hother ↦ ?_⟩
  have hsource := hstarted.lookup_source htarget
  by_cases hpath : other.path = target.path
  · rw [hpath, hsource]
    exact AList.lookup_insert _
  · obtain hother | hother := List.mem_append.mp hother
    · simpa [AList.lookup_insert_ne hpath] using hs.restored other hother
    · exact absurd (congrArg MigrationItem.path (List.mem_singleton.mp hother)) hpath

theorem restore_answered (hstarted : Started rules files targets)
    (hitems : journal.items = targets.map (Target.item rules)) (hsaved : ¬ Unsaved journal) :
    Holds (Restoring files targets journal []) (restore rules journal)
      (Answered rules files targets) (Interrupted rules files targets) := by
  refine read_holds fun s hs ↦ ?_
  refine seq_holds (require_holds (Q := Restoring files targets journal [])
    (fun root hroot ↦ hroot ▸ hs.interrupted hitems hsaved) fun root hroot _ ↦ hroot ▸ hs) fun _ ↦ ?_
  have hperm := List.perm_insertionSort (before rules MigrationItem.path) journal.items
  refine seq_holds (loop_holds (I := Restoring files targets journal) fun done item rest hordered ↦ ?_)
    fun _ ↦ ?_
  · have hmem : item ∈ ordered rules MigrationItem.path journal.items := by simp [hordered]
    exact restoreItem_restoring hstarted hitems hsaved (hperm.mem_iff.mp hmem)
  have horiginal : ∀ root, Restoring files targets journal
      (ordered rules MigrationItem.path journal.items) root → Original files root := by
    intro root h
    refine hstarted.original h.mixed fun target htarget ↦ ?_
    have hmem : target.item rules ∈ journal.items := hitems ▸ List.mem_map_of_mem htarget
    exact (h.restored _ (hperm.mem_iff.mpr hmem)).trans (hstarted.lookup_source htarget)
  have hremove : Holds (Restoring files targets journal (ordered rules MigrationItem.path journal.items))
      (removeJournal : Program Contents Unit) (Answered rules files targets)
      (Interrupted rules files targets) :=
    operation_holds (fun root h ↦ ⟨.of_absent rfl (horiginal root h), .inl (horiginal root h)⟩)
      fun root h ↦ h.interrupted hitems hsaved
  exact seq_holds hremove fun _ ↦ ret_holds fun _ h ↦ h

/-- A file with the hash of its target is its target. -/
theorem replaced_of_verified (hstarted : Started rules files targets)
    (hitems : journal.items = targets.map (Target.item rules)) (hmixed : Mixed files targets root)
    (hverified : targetsVerified rules root journal = true) : Replaced targets root := by
  refine hstarted.replaced hmixed fun target htarget ↦ ?_
  have hmem : target.item rules ∈ journal.items := hitems ▸ List.mem_map_of_mem htarget
  obtain ⟨bytes, hbytes, hhash⟩ := verified_iff.mp (List.all_eq_true.mp hverified _ hmem)
  obtain hsource | htargetBytes := hmixed.each target htarget
  · obtain rfl := Option.some.inj (hbytes.symm.trans hsource)
    rw [hsource, hstarted.collisionFree target htarget hhash]
  · exact htargetBytes

theorem finalize_answered (hstarted : Started rules files targets)
    (hitems : journal.items = targets.map (Target.item rules)) (hsaved : ¬ Unsaved journal) :
    Holds (Restoring files targets journal []) (finalize rules journal)
      (Answered rules files targets) (Interrupted rules files targets) := by
  refine read_holds fun s hs ↦ branch_holds (fun hcomplete ↦ ?_) fun _ ↦ ?_
  · rw [Bool.and_eq_true] at hcomplete
    have hreplaced := replaced_of_verified hstarted hitems hs.mixed hcomplete.2
    have hwrite : Holds (· = s.root) (writeJournal { journal with phase := .committed })
        (Answered rules files targets) (Interrupted rules files targets) := by
      refine operation_holds ?_ fun root hroot ↦ hroot ▸ hs.interrupted hitems hsaved
      rintro root rfl
      have hmixed : Mixed files targets { s.root with
          journal := some (stringify (encodeJournal { journal with phase := .committed })) } :=
        ⟨hs.mixed.each, hs.mixed.others, hs.mixed.copies⟩
      have hread : readJournal { s.root with
          journal := some (stringify (encodeJournal { journal with phase := .committed })) } =
            .journal { journal with phase := .committed } := read_rewritten hs.read .committed rfl
      refine ⟨.of_read hread hitems (fun hunsaved ↦ ?_) fun _ ↦ hmixed, .inr hreplaced⟩
      obtain h | h := hunsaved <;> cases h
    exact seq_holds hwrite fun _ ↦ ret_holds fun _ h ↦ h
  · exact strengthen_holds (restore_answered hstarted hitems hsaved) fun root hroot ↦ hroot ▸ hs

theorem recover_answered (hstarted : Started rules files targets) (acquires : Bool) :
    Holds (Interrupted rules files targets) (recoverLifecycleMigration rules acquires)
      (Answered rules files targets) (Interrupted rules files targets) := by
  refine seq_holds (require_holds (Q := Interrupted rules files targets) (fun _ h ↦ h) fun _ h _ ↦ h)
    fun _ ↦ read_holds fun s hs ↦ ?_
  split
  · rename_i habsent
    exact ret_holds fun root hroot ↦ hroot ▸ ⟨hs, .inl (hs.absent habsent)⟩
  · exact stop_holds fun root hroot ↦ hroot ▸ hs
  · rename_i journal hread
    refine branch_holds (fun hunsaved ↦ ?_) fun hsaved ↦ ?_
    · have horiginal := hs.unsaved journal hread hunsaved
      have hremove : Holds (· = s.root) (removeJournal : Program Contents Unit)
          (Answered rules files targets) (Interrupted rules files targets) := by
        refine operation_holds ?_ fun root hroot ↦ hroot ▸ hs
        rintro root rfl
        exact ⟨.of_absent rfl horiginal, .inl horiginal⟩
      exact seq_holds hremove fun _ ↦ ret_holds fun _ h ↦ h
    · refine strengthen_holds (finalize_answered hstarted (hs.items journal hread) hsaved) ?_
      rintro root rfl
      exact ⟨hread, hs.saved journal hread hsaved, by simp⟩

/-! Migration. -/

/-- The journal announces the copies, and these items have theirs. -/
structure Copying (files : FileTree Contents) (journal : MigrationJournal) (done : List MigrationItem)
    (root : MigrationRoot Contents) : Prop where
  written : Written journal root
  original : Original files root
  copies : ∀ item ∈ done, root.backup.lookup item.path = files.lookup item.path

/-- All the copies are there, and these targets are staged. -/
structure Staging (rules : MigrationRules Contents) (files : FileTree Contents)
    (targets done : List (Target Contents)) (root : MigrationRoot Contents) : Prop where
  written : ∃ journal, Written journal root ∧ Listed rules targets journal ∧ ¬ Unsaved journal
  mixed : Mixed files targets root
  staged : ∀ target ∈ done, root.staged.lookup target.path = some target.bytes

theorem Copying.interrupted {done : List MigrationItem} (h : Copying files journal done root)
    (hstarted : Started rules files targets) (hlisted : Listed rules targets journal)
    (hunsaved : Unsaved journal) : Interrupted rules files targets root :=
  .of_read (hlisted.read hstarted.paths_nodup h.written) hlisted.items (fun _ ↦ h.original)
    fun hsaved ↦ absurd hunsaved hsaved

theorem Staging.interrupted {done : List (Target Contents)} (h : Staging rules files targets done root)
    (hstarted : Started rules files targets) : Interrupted rules files targets root := by
  obtain ⟨journal, hwritten, hlisted, hsaved⟩ := h.written
  exact .of_read (hlisted.read hstarted.paths_nodup hwritten) hlisted.items
    (fun hunsaved ↦ absurd hunsaved hsaved) fun _ ↦ h.mixed

theorem backUp_copying (hstarted : Started rules files targets) (hlisted : Listed rules targets journal)
    (hunsaved : Unsaved journal) {done : List MigrationItem} (item : MigrationItem) :
    Holds (Copying files journal done) (backUp rules item) (Copying files journal (done ++ [item]))
      (Interrupted rules files targets) := by
  have hcopy : Holds (Copying files journal done) (copyFile item.path)
      (Copying files journal (done ++ [item])) (Interrupted rules files targets) := by
    refine read_holds fun s hs ↦ ?_
    split
    · exact stop_holds fun root hroot ↦ hroot ▸ hs.interrupted hstarted hlisted hunsaved
    · rename_i bytes hbytes
      refine operation_holds ?_ fun root hroot ↦ hroot ▸ hs.interrupted hstarted hlisted hunsaved
      rintro root rfl
      refine ⟨hs.written, hs.original, fun other hother ↦ ?_⟩
      by_cases hpath : other.path = item.path
      · rw [hpath, ← hs.original item.path, hbytes]
        exact AList.lookup_insert _
      · obtain hother | hother := List.mem_append.mp hother
        · simpa [AList.lookup_insert_ne hpath] using hs.copies other hother
        · exact absurd (congrArg MigrationItem.path (List.mem_singleton.mp hother)) hpath
  refine seq_holds hcopy fun _ ↦ read_holds fun s hs ↦ ?_
  exact require_holds (fun root hroot ↦ hroot ▸ hs.interrupted hstarted hlisted hunsaved) fun root hroot _ ↦ hroot ▸ hs

theorem stage_staging (hstarted : Started rules files targets) {done : List (Target Contents)}
    (hdone : ∀ other ∈ done, other ∈ targets) (htarget : target ∈ targets) :
    Holds (Staging rules files targets done) (stage rules target)
      (Staging rules files targets (done ++ [target])) (Interrupted rules files targets) := by
  have hstage : Holds (Staging rules files targets done)
      (operation fun root ↦ { root with staged := root.staged.insert target.path target.bytes })
      (Staging rules files targets (done ++ [target])) (Interrupted rules files targets) := by
    refine operation_holds (fun root h ↦ ?_) fun root h ↦ h.interrupted hstarted
    refine ⟨h.written, ⟨h.mixed.each, h.mixed.others, h.mixed.copies⟩, fun other hother ↦ ?_⟩
    have hmem : other ∈ targets := by
      obtain hother | hother := List.mem_append.mp hother
      · exact hdone other hother
      · exact List.mem_singleton.mp hother ▸ htarget
    by_cases hpath : other.path = target.path
    · obtain rfl := hstarted.eq_of_path hmem htarget hpath
      exact AList.lookup_insert _
    · obtain hother | hother := List.mem_append.mp hother
      · simpa [AList.lookup_insert_ne hpath] using h.staged other hother
      · exact absurd (congrArg Target.path (List.mem_singleton.mp hother)) hpath
  refine seq_holds hstage fun _ ↦ read_holds fun s hs ↦ ?_
  exact require_holds (fun root hroot ↦ hroot ▸ hs.interrupted hstarted) fun root hroot _ ↦ hroot ▸ hs

theorem writeJournal_staging (hstarted : Started rules files targets) {done : List (Target Contents)}
    (journal : MigrationJournal) (hlisted : Listed rules targets journal) (hsaved : ¬ Unsaved journal) :
    Holds (Staging rules files targets done) (writeJournal journal : Program Contents Unit)
      (Staging rules files targets done) (Interrupted rules files targets) :=
  operation_holds (fun _ h ↦ ⟨⟨journal, rfl, hlisted, hsaved⟩,
    ⟨h.mixed.each, h.mixed.others, h.mixed.copies⟩, h.staged⟩) fun _ h ↦ h.interrupted hstarted

theorem publishFile_staging (hstarted : Started rules files targets) (htarget : target ∈ targets) :
    Holds (Staging rules files targets targets) (publishFile target.path)
      (Staging rules files targets targets) (Interrupted rules files targets) := by
  refine read_holds fun s hs ↦ ?_
  rw [hs.staged target htarget]
  refine operation_holds ?_ fun root hroot ↦ hroot ▸ hs.interrupted hstarted
  rintro root rfl
  exact ⟨hs.written, hstarted.insert hs.mixed htarget (.inr rfl), hs.staged⟩

/-- What is published are targets. -/
theorem publishTargets_staging (hstarted : Started rules files targets)
    (hlisted : Listed rules targets journal) (remaining : List (Target Contents))
    (published : List String) (hremaining : ∀ target ∈ remaining, target ∈ targets)
    (hpublished : ∀ path ∈ published, path ∈ targets.map (·.path)) :
    Triple (fun s ↦ Staging rules files targets targets s.root)
      (publishTargets rules journal remaining published)
      (fun published s ↦ Staging rules files targets targets s.root ∧
        ∀ path ∈ published, path ∈ targets.map (·.path))
      fun s ↦ Interrupted rules files targets s.root := by
  induction remaining generalizing published with
  | nil => exact Triple.ret fun s hs ↦ ⟨hs, hpublished⟩
  | cons target remaining ih =>
    rw [List.forall_mem_cons] at hremaining
    have hnext : ∀ path ∈ published ++ [target.path], path ∈ targets.map (·.path) := by
      intro path hpath
      obtain hpath | hpath := List.mem_append.mp hpath
      · exact hpublished path hpath
      · exact List.mem_singleton.mp hpath ▸ List.mem_map_of_mem hremaining.1
    refine Triple.read fun s hs ↦ ?_
    have hverify : Holds (· = s.root)
        (require (verified rules s.root.staged target.path (rules.format.hash target.bytes)) .recoveryRequired)
        (Staging rules files targets targets) (Interrupted rules files targets) :=
      require_holds (fun root hroot ↦ hroot ▸ hs.interrupted hstarted) fun root hroot _ ↦ hroot ▸ hs
    have hwrite : Holds (Staging rules files targets targets)
        (writeJournal ⟨.publishing, journal.items, published ++ [target.path]⟩)
        (Staging rules files targets targets) (Interrupted rules files targets) :=
      writeJournal_staging hstarted _ (hlisted.rewritten .publishing hnext) (by simp [Unsaved])
    refine Triple.strengthen (Triple.seq hverify fun _ ↦ ?_) fun t ht ↦ congrArg _ ht
    refine Triple.seq (publishFile_staging hstarted hremaining.1) fun _ ↦ ?_
    exact Triple.seq hwrite fun _ ↦ ih _ hremaining.2 hnext

theorem migrateTargets_interrupted (hstarted : Started rules files targets) :
    Holds (fun root ↦ readJournal root = .absent ∧ Original files root) (migrateTargets rules targets)
      (Interrupted rules files targets) (Interrupted rules files targets) := by
  have hstart : ∀ root : MigrationRoot Contents, readJournal root = .absent ∧ Original files root →
      Interrupted rules files targets root := fun root h ↦ .of_absent h.1 h.2
  unfold migrateTargets
  split
  · exact stop_holds hstart
  rename_i journal hjournal
  obtain ⟨hok, rfl⟩ := (journal_reads.encoded _ _).mp hjournal
  let items := targets.map (Target.item rules)
  have hlisted : ∀ phase, Listed rules targets ⟨phase, items, []⟩ :=
    fun phase ↦ ⟨rfl, hok.items, hok.some, by simp⟩
  have hprepared : Holds (fun root ↦ readJournal root = .absent ∧ Original files root)
      (writeJournal ⟨.prepared, items, []⟩) (Copying files ⟨.prepared, items, []⟩ [])
      (Interrupted rules files targets) :=
    operation_holds (fun _ h ↦ ⟨rfl, h.2, by simp⟩) hstart
  have hbacking : Holds (Copying files ⟨.prepared, items, []⟩ []) (writeJournal ⟨.backingUp, items, []⟩)
      (Copying files ⟨.backingUp, items, []⟩ []) (Interrupted rules files targets) :=
    operation_holds (fun _ h ↦ ⟨rfl, h.original, by simp⟩)
      fun _ h ↦ h.interrupted hstarted (hlisted .prepared) (.inl rfl)
  have hcopies : Holds (Copying files ⟨.backingUp, items, []⟩ []) (items.forM (backUp rules))
      (Copying files ⟨.backingUp, items, []⟩ items) (Interrupted rules files targets) :=
    loop_holds fun _ item _ _ ↦ backUp_copying hstarted (hlisted .backingUp) (.inr rfl) item
  have hbackedUp : Holds (Copying files ⟨.backingUp, items, []⟩ items)
      (writeJournal ⟨.backedUp, items, []⟩) (Staging rules files targets [])
      (Interrupted rules files targets) := by
    refine operation_holds (fun root h ↦ ?_)
      fun _ h ↦ h.interrupted hstarted (hlisted .backingUp) (.inr rfl)
    have hcopied : ∀ target ∈ targets, root.backup.lookup target.path = some target.source :=
      fun target hmem ↦ (h.copies (target.item rules) (List.mem_map_of_mem hmem)).trans
        (hstarted.lookup_source hmem)
    have hmixed := hstarted.mixed h.original hcopied
    exact ⟨⟨⟨.backedUp, items, []⟩, rfl, hlisted .backedUp, by simp [Unsaved]⟩,
      ⟨hmixed.each, hmixed.others, hmixed.copies⟩, by simp⟩
  have hstages : Holds (Staging rules files targets []) (targets.forM (stage rules))
      (Staging rules files targets targets) (Interrupted rules files targets) := by
    refine loop_holds fun done target rest htargets ↦ stage_staging hstarted (fun other hother ↦ ?_) ?_
    all_goals simp_all
  refine seq_holds hprepared fun _ ↦ seq_holds hbacking fun _ ↦ seq_holds hcopies fun _ ↦ ?_
  refine seq_holds hbackedUp fun _ ↦ seq_holds hstages fun _ ↦ ?_
  refine seq_holds (writeJournal_staging hstarted _ (hlisted .staged) (by simp [Unsaved])) fun _ ↦ ?_
  refine seq_holds (writeJournal_staging hstarted _ (hlisted .publishing) (by simp [Unsaved])) fun _ ↦ ?_
  have hperm := List.perm_insertionSort (before rules Target.path) targets
  refine Triple.seq (publishTargets_staging hstarted (hlisted .prepared) _ _
    (fun _ ↦ hperm.mem_iff.mp) (by simp)) fun published ↦ ?_
  refine fact_holds fun hpublished ↦ ?_
  have hmarker : Holds (Staging rules files targets targets)
      (operation fun root ↦ { root with marker := some (stringify (encodeMarker (markerItems items))) })
      (Staging rules files targets targets) (Interrupted rules files targets) :=
    operation_holds (fun _ h ↦ ⟨h.written, ⟨h.mixed.each, h.mixed.others, h.mixed.copies⟩, h.staged⟩)
      fun _ h ↦ h.interrupted hstarted
  refine seq_holds hmarker fun _ ↦ ?_
  have hcommitted := (hlisted .prepared).rewritten .committed hpublished
  refine seq_holds (writeJournal_staging hstarted _ hcommitted (by simp [Unsaved])) fun _ ↦ ?_
  exact seq_holds (boundary_holds fun _ h ↦ h.interrupted hstarted)
    fun _ ↦ ret_holds fun _ h ↦ h.interrupted hstarted

theorem migrate_interrupted (hstarted : Started rules root.files targets)
    (habsent : readJournal root = .absent) (acquires : Bool) :
    Holds (· = root) (migrateLifecycleState rules acquires) (Interrupted rules root.files targets)
      (Interrupted rules root.files targets) := by
  have hroot : Interrupted rules root.files targets root := .of_absent habsent fun _ ↦ rfl
  refine seq_holds (require_holds (Q := (· = root)) (fun _ h ↦ h ▸ hroot) fun _ h _ ↦ h) fun _ ↦ ?_
  refine read_holds fun s hs ↦ ?_
  subst hs
  simp only [habsent, hstarted.converted]
  refine strengthen_holds (migrateTargets_interrupted hstarted) ?_
  rintro other rfl
  exact ⟨habsent, fun _ ↦ rfl⟩

/-- A call of `recoverLifecycleMigration`, ended anywhere. -/
def RecoveryStep (rules : MigrationRules Contents) (root other : MigrationRoot Contents) : Prop :=
  ∃ call : MigrationCall,
    (exec (recoverLifecycleMigration rules call.acquires) ⟨root, call.operations⟩).2.root = other

/-- Without its copies a recovery that has to put files back refuses, and changes nothing. -/
theorem recover_refused (hread : readJournal root = .journal journal) (hsaved : ¬ Unsaved journal)
    (hincomplete : (markerComplete root journal && targetsVerified rules root journal) = false)
    (hbackups : backupsVerified rules root journal = false) (operations : Option ℕ) :
    exec (recoverLifecycleMigration rules true) ⟨root, operations⟩ =
      (.error .recoveryRequired, ⟨root, operations⟩) := by
  rw [Unsaved] at hsaved
  simp only [recoverLifecycleMigration, require, exec_bind, exec_pure, exec_get, if_true, hread,
    if_neg hsaved, finalize, hincomplete, restore, hbackups, Bool.false_eq_true, if_false, exec_throw]

/-- A recovery that nothing ends answers. -/
theorem recover_completes (h : Interrupted rules files targets root) :
    Completes (· = root) (recoverLifecycleMigration rules true) fun _ ↦ True := by
  refine seq_completes (require_completes rfl) fun _ ↦ read_completes fun s hs ↦ ?_
  subst hs
  split
  · exact ret_completes fun _ _ ↦ trivial
  · exact absurd ‹_› h.readable
  · rename_i journal hread
    have hwrite : ∀ (write : MigrationRoot Contents → MigrationRoot Contents) (status : RecoveryStatus),
        Completes (· = s.root) (do operation write; return status) fun _ ↦ True := fun write status ↦
      seq_completes (operation_completes (Q := fun _ ↦ True) fun _ _ ↦ trivial)
        fun _ ↦ ret_completes fun _ _ ↦ trivial
    split
    · exact hwrite _ .restored
    · rename_i hsaved
      refine read_completes fun t ht ↦ ?_
      rw [ht]
      split
      · exact hwrite _ .finalized
      · have hbackups : backupsVerified rules s.root journal = true := by
          rw [backupsVerified, h.items journal hread, List.all_map, List.all_eq_true]
          intro target htarget
          have hcopy := (h.saved journal hread hsaved).copies target htarget
          exact verified_iff.mpr ⟨target.source, hcopy, rfl⟩
        exact Triple.weaken (restore_completes hbackups) fun _ _ ht ↦ ⟨ht.1, trivial⟩

theorem completes_ok {program : Program Contents α} {P Q : MigrationRoot Contents → Prop}
    (h : Completes P program Q) (hroot : P root) :
    ∃ x session, exec program ⟨root, none⟩ = (.ok x, session) := by
  have hexec := h ⟨root, none⟩ ⟨rfl, hroot⟩
  split at hexec
  · exact ⟨_, _, ‹_›⟩
  · exact hexec.elim

theorem recovery_interrupted (hstarted : Started rules files targets) :
    Preserves (RecoveryStep rules) (Interrupted rules files targets) := by
  rintro root other h ⟨call, rfl⟩
  have hrecover := recover_answered hstarted call.acquires ⟨root, call.operations⟩ h
  split at hrecover
  · rename_i heq
    rw [heq]
    exact hrecover.interrupted
  · rename_i heq
    rw [heq]
    exact hrecover

/-- However a migration and the recoveries from it are cut short, a recovery that nothing ends answers,
and one that answers leaves all the originals or all the targets. A recovery without its copies refuses
and changes nothing. -/
theorem migration_crash_atomic {root₁ root₂ : MigrationRoot Contents} {migration : MigrationCall}
    (habsent : readJournal root = .absent) (hstarted : Started rules root.files targets)
    (hmigrate : (exec (migrateLifecycleState rules migration.acquires)
      ⟨root, migration.operations⟩).2.root = root₁)
    (hcrashes : ReflTransGen (RecoveryStep rules) root₁ root₂) :
    (∃ status session, exec (recoverLifecycleMigration rules true) ⟨root₂, none⟩ =
      (.ok status, session)) ∧
    (∀ (recovery : MigrationCall) (status : RecoveryStatus) (session : MigrationSession Contents),
      exec (recoverLifecycleMigration rules recovery.acquires) ⟨root₂, recovery.operations⟩ =
          (.ok status, session) →
        Original root.files session.root ∨ Replaced targets session.root) ∧
    ∀ (other : MigrationRoot Contents) (journal : MigrationJournal) (operations : Option ℕ),
      readJournal other = .journal journal → ¬ Unsaved journal →
        (markerComplete other journal && targetsVerified rules other journal) = false →
        backupsVerified rules other journal = false →
        exec (recoverLifecycleMigration rules true) ⟨other, operations⟩ =
          (.error .recoveryRequired, ⟨other, operations⟩) := by
  have hmigrated : Interrupted rules root.files targets root₁ :=
    hmigrate ▸ holds_exec (s := ⟨root, migration.operations⟩)
      (migrate_interrupted hstarted habsent migration.acquires) rfl
  have hinterrupted := (recovery_interrupted hstarted).run hcrashes hmigrated
  refine ⟨completes_ok (recover_completes hinterrupted) rfl, fun recovery status session hexec ↦ ?_,
    fun other journal operations hread hsaved hincomplete hbackups ↦
      recover_refused hread hsaved hincomplete hbackups operations⟩
  have hrecover := recover_answered hstarted recovery.acquires ⟨root₂, recovery.operations⟩ hinterrupted
  rw [hexec] at hrecover
  exact hrecover.atomic

end Atomicity

end OmpLazy.State.Migration

namespace OmpLazy.State.Lifecycle.V1

open OmpLazy.Foundation Action Migration

/-- The migration of the index is cut short after its file was published. -/
def published : MigrationRoot Bytes :=
  (exec (migrateLifecycleState rules true) ⟨v1Root.root, some 8⟩).2.root

/-- The first recovery is cut short before it has put the file back. -/
def recovering : MigrationRoot Bytes :=
  (exec (recoverLifecycleMigration rules true) ⟨published, some 0⟩).2.root

theorem migration_crash_atomic_recovering :
    ∃ status session, exec (recoverLifecycleMigration rules true) ⟨recovering, none⟩ =
        (.ok status, session) ∧
      (Original v1Root.root.files session.root ∨
        Replaced [⟨"active.json", some v1Index, some v2Index⟩] session.root) := by
  have hstarted : Started rules v1Root.root.files [⟨"active.json", some v1Index, some v2Index⟩] := by
    refine ⟨rfl, fun target hmem hhash ↦ ?_⟩
    obtain rfl := List.mem_singleton.mp hmem
    exact absurd hhash (by decide)
  have hcrashed : RecoveryStep rules published recovering := ⟨⟨true, some 0⟩, rfl⟩
  have habsent : readJournal v1Root.root = .absent := rfl
  have hmigrated : (exec (migrateLifecycleState rules (MigrationCall.mk true (some 8)).acquires)
      ⟨v1Root.root, (MigrationCall.mk true (some 8)).operations⟩).2.root = published := rfl
  obtain ⟨⟨status, session, hexec⟩, hatomic, -⟩ :=
    migration_crash_atomic habsent hstarted hmigrated (.single hcrashed)
  exact ⟨status, session, hexec, hatomic ⟨true, none⟩ status session hexec⟩

end OmpLazy.State.Lifecycle.V1

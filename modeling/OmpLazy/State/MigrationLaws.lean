import OmpLazy.State.Migration
import Mathlib.Tactic.MkIffOfInductiveProp

namespace OmpLazy.State.Migration

open OmpLazy.Foundation OmpLazy.Foundation.Schema OmpLazy.Foundation.Text Action

/-! The journal and the marker are read back as they were written. -/

theorem nonemptyString_reads : Reads nonemptyString Json.string (fun s ↦ s ≠ "") id :=
  (checked_reads _).of_iff (by simp)

theorem phase_reads : Reads phaseSchema (fun x ↦ .string x.text) (fun _ ↦ True) id :=
  oneOf_reads fun x ↦ by cases x <;> rfl

theorem someOf_reads {α : Type} {schema : Schema α} {encode : α → Json} {ok : α → Prop} {tidy : α → α}
    (h : Reads schema encode ok tidy) :
    Reads (someOf schema) (fun xs ↦ .array (xs.map encode)) (fun xs ↦ (∀ x ∈ xs, ok x) ∧ xs ≠ [])
      (List.map tidy) :=
  (h.array.refine _).of_iff (by simp)

@[mk_iff] structure ItemOk (item : MigrationItem) : Prop where
  path : item.path ≠ ""
  sourceHash : isLowerHexOf 64 item.sourceHash = true
  targetHash : isLowerHexOf 64 item.targetHash = true

theorem item_reads : Reads itemSchema encodeItem ItemOk id where
  encoded x y := by
    simp [itemSchema, encodeItem, strictObject_object, required, Option.bind_eq_some_iff,
      nonemptyString_reads.encoded, hash_reads.encoded, and_assoc, itemOk_iff]
  settled j y hy := by
    obtain ⟨fields, -, hy⟩ := strictObject_eq_some hy
    simp only [Option.bind_eq_bind, Option.bind_eq_some_iff, Option.pure_def, Option.some.injEq] at hy
    obtain ⟨path, hpath, source, hsource, target, htarget, rfl⟩ := hy
    exact ⟨⟨(nonemptyString_reads.required_settled hpath).1, (hash_reads.required_settled hsource).1,
      (hash_reads.required_settled htarget).1⟩, rfl⟩

@[mk_iff] structure JournalOk (journal : MigrationJournal) : Prop where
  items : ∀ item ∈ journal.items, ItemOk item
  some : journal.items ≠ []
  published : ∀ path ∈ journal.published, path ≠ ""

theorem journal_reads : Reads journalSchema encodeJournal JournalOk id where
  encoded x y := by
    simp [journalSchema, encodeJournal, strictObject_object, required, Option.bind_eq_some_iff,
      phase_reads.encoded, (someOf_reads item_reads).encoded, nonemptyString_reads.array.encoded,
      literal_eq_some, and_assoc, journalOk_iff]
  settled j y hy := by
    obtain ⟨fields, -, hy⟩ := strictObject_eq_some hy
    simp only [Option.bind_eq_bind, Option.bind_eq_some_iff, Option.pure_def, Option.some.injEq] at hy
    obtain ⟨-, -, phase, -, items, hitems, published, hpublished, rfl⟩ := hy
    have hitems := (someOf_reads item_reads).required_settled hitems
    exact ⟨⟨hitems.1.1, hitems.1.2, (nonemptyString_reads.array.required_settled hpublished).1⟩, rfl⟩

@[mk_iff] structure MarkedItemOk (item : MarkedItem) : Prop where
  path : item.path ≠ ""
  hash : isLowerHexOf 64 item.hash = true

theorem markedItem_reads : Reads markedItemSchema encodeMarkedItem MarkedItemOk id where
  encoded x y := by
    simp [markedItemSchema, encodeMarkedItem, strictObject_object, required, Option.bind_eq_some_iff,
      nonemptyString_reads.encoded, hash_reads.encoded, and_assoc, markedItemOk_iff]
  settled j y hy := by
    obtain ⟨fields, -, hy⟩ := strictObject_eq_some hy
    simp only [Option.bind_eq_bind, Option.bind_eq_some_iff, Option.pure_def, Option.some.injEq] at hy
    obtain ⟨path, hpath, hash, hhash, rfl⟩ := hy
    exact ⟨⟨(nonemptyString_reads.required_settled hpath).1, (hash_reads.required_settled hhash).1⟩, rfl⟩

theorem commitMarkerSchema_encodeMarker {items : List MarkedItem} (hok : ∀ item ∈ items, MarkedItemOk item)
    (hsome : items ≠ []) : commitMarkerSchema (encodeMarker items) = some items := by
  have hitems : someOf markedItemSchema (.array (items.map encodeMarkedItem)) = some items :=
    ((someOf_reads markedItem_reads).encoded items items).mpr ⟨⟨hok, hsome⟩, List.map_id _⟩
  simp [commitMarkerSchema, encodeMarker, strictObject_object, required, literal, hitems]

section Journals

variable {Contents : Type} {rules : MigrationRules Contents} {root : MigrationRoot Contents}
  {journal journal' : MigrationJournal}

theorem readJournal_eq_journal : readJournal root = .journal journal ↔
    ∃ bytes, root.journal = some bytes ∧ bytes.bind journalSchema = some journal ∧
      MigrationJournal.closed journal = true := by
  rw [readJournal]
  cases root.journal with
  | none => simp
  | some bytes =>
    cases hread : bytes.bind journalSchema with
    | none => simp [hread]
    | some read =>
      simp only [Option.some.injEq, exists_eq_left', hread]
      split
      · rename_i hclosed
        simp only [JournalRead.journal.injEq]
        exact ⟨fun h ↦ ⟨h, h ▸ hclosed⟩, And.left⟩
      · rename_i hclosed
        simp only [reduceCtorEq, false_iff, not_and]
        rintro rfl
        exact hclosed

theorem readJournal_congr {other : MigrationRoot Contents} (h : other.journal = root.journal) :
    readJournal other = readJournal root := by
  rw [readJournal, h, readJournal]

theorem JournalOk.of_read (h : readJournal root = .journal journal) : JournalOk journal := by
  obtain ⟨bytes, -, hread, -⟩ := readJournal_eq_journal.mp h
  obtain ⟨json, -, hjson⟩ := Option.bind_eq_some_iff.mp hread
  exact (journal_reads.settled json journal hjson).1

/-- Whatever is read after a journal was written is that journal. -/
theorem read_of_written (h : root.journal = some (stringify (encodeJournal journal)))
    (hread : readJournal root = .journal journal') : journal' = journal := by
  obtain ⟨bytes, hbytes, hread, -⟩ := readJournal_eq_journal.mp hread
  obtain rfl := Option.some.inj (h.symm.trans hbytes)
  exact (((journal_reads.encoded journal journal').mp hread).2).symm

/-- A journal that was read can be written again, in another phase too. -/
theorem read_rewritten (hread : readJournal root = .journal journal) (phase : MigrationPhase)
    {other : MigrationRoot Contents}
    (h : other.journal = some (stringify (encodeJournal { journal with phase := phase }))) :
    readJournal other = .journal { journal with phase := phase } := by
  have hok := JournalOk.of_read hread
  obtain ⟨-, -, -, hclosed⟩ := readJournal_eq_journal.mp hread
  refine readJournal_eq_journal.mpr ⟨_, h, ?_, hclosed⟩
  exact (journal_reads.fixed_iff _).mpr ⟨⟨hok.items, hok.some, hok.published⟩, rfl⟩

theorem nodup_of_read (hread : readJournal root = .journal journal) :
    (journal.items.map (·.path)).Nodup := by
  obtain ⟨-, -, -, hclosed⟩ := readJournal_eq_journal.mp hread
  rw [MigrationJournal.closed, Bool.and_eq_true, decide_eq_true_eq] at hclosed
  exact hclosed.1

theorem verified_congr {tree tree' : FileTree Contents} {path : String}
    (h : tree'.lookup path = tree.lookup path) (expected : String) :
    verified rules tree' path expected = verified rules tree path expected := by
  rw [verified, h, verified]

theorem verified_iff {tree : FileTree Contents} {path expected : String} :
    verified rules tree path expected = true ↔
      ∃ bytes, tree.lookup path = some bytes ∧ rules.format.hash bytes = expected := by
  rw [verified]
  cases tree.lookup path <;> simp

end Journals

/-- What the steps of a migration keep: a committed journal has a complete marker, and once the files
are backed up their copies have the hashes of the journal. -/
structure Sound {Contents : Type} (rules : MigrationRules Contents) (root : MigrationRoot Contents) :
    Prop where
  marked : ∀ journal, readJournal root = .journal journal → journal.phase = .committed →
    markerComplete root journal = true
  backedUp : ∀ journal, readJournal root = .journal journal → journal.phase ≠ .prepared →
    journal.phase ≠ .backingUp → backupsVerified rules root journal = true

/-- The journal, if it can be read, is this one. -/
def Journaled {Contents : Type} (journal : MigrationJournal) (root : MigrationRoot Contents) : Prop :=
  ∀ journal', readJournal root = .journal journal' → journal' = journal

section Invariant

variable {Contents : Type} {rules : MigrationRules Contents} {root other : MigrationRoot Contents}
  {journal : MigrationJournal}

theorem Sound.congr (h : Sound rules root) (hjournal : other.journal = root.journal)
    (hbackup : other.backup = root.backup) (hmarker : other.marker = root.marker) :
    Sound rules other where
  marked journal hread hphase := by
    rw [readJournal_congr hjournal] at hread
    rw [markerComplete, hmarker]
    exact h.marked journal hread hphase
  backedUp journal hread hprepared hbacking := by
    rw [readJournal_congr hjournal] at hread
    rw [backupsVerified, hbackup]
    exact h.backedUp journal hread hprepared hbacking

theorem Sound.of_absent (h : root.journal = none) : Sound rules root := by
  have habsent : readJournal root = .absent := by rw [readJournal, h]
  constructor <;> intro journal hread <;> rw [habsent] at hread <;> cases hread

/-- Before the files are backed up nothing is asked of the copies. -/
theorem Sound.of_unsaved (h : Journaled journal root)
    (hphase : journal.phase = .prepared ∨ journal.phase = .backingUp) : Sound rules root where
  marked journal' hread hcommitted := by
    obtain rfl := h journal' hread
    obtain hphase | hphase := hphase <;> cases hphase.symm.trans hcommitted
  backedUp journal' hread hprepared hbacking := by
    obtain rfl := h journal' hread
    obtain hphase | hphase := hphase
    · exact absurd hphase hprepared
    · exact absurd hphase hbacking

theorem Sound.of_saved (h : Journaled journal root) (hphase : journal.phase ≠ .committed)
    (hbackups : backupsVerified rules root journal = true) : Sound rules root where
  marked journal' hread hcommitted := by
    obtain rfl := h journal' hread
    exact absurd hcommitted hphase
  backedUp journal' hread _ _ := by
    obtain rfl := h journal' hread
    exact hbackups

theorem Journaled.of_written (h : root.journal = some (stringify (encodeJournal journal))) :
    Journaled journal root := fun _ hread ↦ read_of_written h hread

theorem Journaled.congr (h : Journaled journal root) (hjournal : other.journal = root.journal) :
    Journaled journal other := by
  intro journal' hread
  rw [readJournal_congr hjournal] at hread
  exact h journal' hread

end Invariant

section Programs

variable {Contents α β : Type} {rules : MigrationRules Contents}
  {P Q S R : MigrationRoot Contents → Prop} {journal : MigrationJournal}

/-- `Triple` for conditions on the files. -/
def Holds (P : MigrationRoot Contents → Prop) (program : Program Contents α)
    (Q : MigrationRoot Contents → Prop) (R : MigrationRoot Contents → Prop) : Prop :=
  Triple (fun s ↦ P s.root) program (fun _ s ↦ Q s.root) fun s ↦ R s.root

/-- Where the condition holds whether the program ends or stops, it holds of what the program leaves. -/
theorem holds_exec {program : Program Contents α} (h : Holds P program Q Q)
    {s : MigrationSession Contents} (hs : P s.root) : Q (exec program s).2.root := by
  have hexec := h s hs
  split at hexec <;> simp_all

theorem boundary_holds (hstop : ∀ root, P root → R root) :
    Holds P (boundary : Program Contents Unit) P R := by
  refine Triple.read fun s hs ↦ ?_
  split
  · exact Triple.ret fun t ht ↦ ht ▸ hs
  · exact Triple.stop fun t ht ↦ hstop _ (ht ▸ hs)
  · exact Triple.write fun t ht ↦ ht ▸ hs

theorem operation_holds {write : MigrationRoot Contents → MigrationRoot Contents}
    (h : ∀ root, P root → Q (write root)) (hstop : ∀ root, P root → R root) :
    Holds P (operation write) Q R :=
  (boundary_holds hstop).seq fun _ ↦ Triple.write fun _ hs ↦ h _ hs

theorem stop_holds {error : MigrationErrorCode} (hstop : ∀ root, P root → R root) :
    Holds P (throw error : Program Contents α) Q R := Triple.stop fun _ hs ↦ hstop _ hs

theorem ret_holds {x : α} (h : ∀ root, P root → Q root) :
    Holds P (pure x : Program Contents α) Q R := Triple.ret fun _ hs ↦ h _ hs

/-- A program that reads the files first. -/
theorem read_holds {next : MigrationSession Contents → Program Contents α}
    (h : ∀ s, P s.root → Holds (· = s.root) (next s) Q R) :
    Holds P (get >>= next) Q R := by
  refine Triple.read fun s hs ↦ ?_
  refine (h s hs).strengthen fun t ht ↦ ?_
  rw [ht]

theorem require_holds {check : Bool} {error : MigrationErrorCode} (hstop : ∀ root, P root → R root)
    (h : ∀ root, P root → check = true → Q root) : Holds P (require check error) Q R :=
  Triple.branch (fun hcheck ↦ ret_holds fun root hroot ↦ h root hroot hcheck)
    fun _ ↦ stop_holds hstop

theorem seq_holds {program : Program Contents α} {next : α → Program Contents β}
    (h : Holds P program Q R) (hnext : ∀ x, Holds Q (next x) S R) :
    Holds P (program >>= next) S R := Triple.seq h hnext

theorem loop_holds {ι : Type} {items : List ι} {body : ι → Program Contents Unit}
    {I : List ι → MigrationRoot Contents → Prop}
    (h : ∀ done item rest, items = done ++ item :: rest →
      Holds (I done) (body item) (I (done ++ [item])) R) :
    Holds (I []) (items.forM body) (I items) R :=
  Triple.loop (I := fun (done : List ι) (s : MigrationSession Contents) ↦ I done s.root) h

theorem branch_holds {p : Prop} [Decidable p] {yes no : Program Contents α}
    (hyes : p → Holds P yes Q R) (hno : ¬ p → Holds P no Q R) :
    Holds P (if p then yes else no) Q R := Triple.branch hyes hno

theorem strengthen_holds {program : Program Contents α} (h : Holds Q program S R)
    (hpre : ∀ root, P root → Q root) : Holds P program S R :=
  Triple.strengthen h fun s hs ↦ hpre s.root hs

theorem removeJournal_sound :
    Holds (Sound rules) (removeJournal : Program Contents Unit) (Sound rules) (Sound rules) :=
  operation_holds (fun _ _ ↦ .of_absent rfl) fun _ h ↦ h

theorem restoreItem_sound (item : MigrationItem) :
    Holds (Sound rules) (restoreItem item) (Sound rules) (Sound rules) := by
  refine read_holds fun s hs ↦ ?_
  split
  · exact stop_holds fun _ hroot ↦ hroot ▸ hs
  · exact operation_holds (fun root hroot ↦ (hroot ▸ hs : Sound rules root).congr rfl rfl rfl)
      fun _ hroot ↦ hroot ▸ hs

theorem restore_sound (journal : MigrationJournal) :
    Holds (Sound rules) (restore rules journal) (Sound rules) (Sound rules) := by
  refine read_holds fun s hs ↦ ?_
  refine seq_holds (require_holds (Q := Sound rules) (fun _ hroot ↦ hroot ▸ hs)
    fun _ hroot _ ↦ hroot ▸ hs) fun _ ↦ ?_
  refine seq_holds (loop_holds (I := fun _ ↦ Sound rules) fun _ item _ _ ↦ restoreItem_sound item)
    fun _ ↦ ?_
  exact seq_holds removeJournal_sound fun _ ↦ ret_holds fun _ h ↦ h

/-- `finalize` with a complete marker writes the same journal, in phase committed. -/
theorem Sound.finalized {root : MigrationRoot Contents} (h : Sound rules root)
    (hread : readJournal root = .journal journal) (hprepared : journal.phase ≠ .prepared)
    (hbacking : journal.phase ≠ .backingUp) (hmarker : markerComplete root journal = true) :
    Sound rules { root with
      journal := some (stringify (encodeJournal { journal with phase := .committed })) } where
  marked journal' hread' _ := by
    obtain rfl := read_of_written rfl hread'
    exact hmarker
  backedUp journal' hread' _ _ := by
    obtain rfl := read_of_written rfl hread'
    exact h.backedUp journal hread hprepared hbacking

theorem finalize_sound (hprepared : journal.phase ≠ .prepared) (hbacking : journal.phase ≠ .backingUp) :
    Holds (fun root ↦ Sound rules root ∧ readJournal root = .journal journal) (finalize rules journal)
      (Sound rules) (Sound rules) := by
  refine read_holds fun s hs ↦ branch_holds (fun hcomplete ↦ ?_) fun _ ↦ ?_
  · rw [Bool.and_eq_true] at hcomplete
    have hwrite : Holds (· = s.root) (writeJournal { journal with phase := .committed })
        (Sound rules) (Sound rules) := by
      refine operation_holds (fun root hroot ↦ ?_) fun root hroot ↦ hroot ▸ hs.1
      subst hroot
      exact hs.1.finalized hs.2 hprepared hbacking hcomplete.1
    exact seq_holds hwrite fun _ ↦ ret_holds fun _ h ↦ h
  · exact strengthen_holds (restore_sound journal) fun root hroot ↦ hroot ▸ hs.1

theorem recover_sound (acquires : Bool) :
    Holds (Sound rules) (recoverLifecycleMigration rules acquires) (Sound rules) (Sound rules) := by
  refine seq_holds (require_holds (Q := Sound rules) (fun _ h ↦ h) fun _ h _ ↦ h) fun _ ↦ ?_
  refine read_holds fun s hs ↦ ?_
  split
  · exact ret_holds fun root hroot ↦ hroot ▸ hs
  · exact stop_holds fun root hroot ↦ hroot ▸ hs
  · rename_i journal hread
    refine branch_holds (fun _ ↦ ?_) fun hphase ↦ ?_
    · refine strengthen_holds (Q := Sound rules) ?_ fun root hroot ↦ hroot ▸ hs
      exact seq_holds removeJournal_sound fun _ ↦ ret_holds fun _ h ↦ h
    · rw [not_or] at hphase
      refine strengthen_holds (finalize_sound hphase.1 hphase.2) fun root hroot ↦ ?_
      exact ⟨hroot ▸ hs, hroot ▸ hread⟩

/-- The items are backed up, and the journal is one of them that is not yet committed. -/
structure Saved (rules : MigrationRules Contents) (items : List MigrationItem)
    (root : MigrationRoot Contents) : Prop where
  journal : ∃ journal : MigrationJournal,
    journal.items = items ∧ journal.phase ≠ .committed ∧ Journaled journal root
  copies : ∀ item ∈ items, verified rules root.backup item.path item.sourceHash = true

namespace Saved

variable {root other : MigrationRoot Contents} {items : List MigrationItem}

theorem sound (h : Saved rules items root) : Sound rules root := by
  obtain ⟨journal, rfl, hphase, hjournal⟩ := h.journal
  exact .of_saved hjournal hphase (List.all_eq_true.mpr h.copies)

theorem congr (h : Saved rules items root) (hjournal : other.journal = root.journal)
    (hbackup : other.backup = root.backup) : Saved rules items other where
  journal := by
    obtain ⟨journal, hitems, hphase, hjournaled⟩ := h.journal
    exact ⟨journal, hitems, hphase, hjournaled.congr hjournal⟩
  copies := by
    rw [hbackup]
    exact h.copies

theorem writeJournal (journal : MigrationJournal) (hphase : journal.phase ≠ .committed) :
    Holds (Saved rules journal.items) (writeJournal journal : Program Contents Unit)
      (Saved rules journal.items) (Sound rules) := by
  refine operation_holds (fun root h ↦ ?_) fun _ h ↦ h.sound
  exact ⟨⟨journal, rfl, hphase, .of_written rfl⟩, h.copies⟩

theorem stage (target : Target Contents) :
    Holds (Saved rules items) (stage rules target) (Saved rules items) (Sound rules) := by
  refine seq_holds (operation_holds (fun _ h ↦ h.congr rfl rfl) fun _ h ↦ h.sound) fun _ ↦ ?_
  refine read_holds fun s hs ↦ ?_
  exact require_holds (fun _ hroot ↦ hroot ▸ hs.sound) fun _ hroot _ ↦ hroot ▸ hs

theorem publishFile (path : String) :
    Holds (Saved rules items) (publishFile path) (Saved rules items) (Sound rules) := by
  refine read_holds fun s hs ↦ ?_
  split
  · exact stop_holds fun _ hroot ↦ hroot ▸ hs.sound
  · refine operation_holds (fun root hroot ↦ ?_) fun _ hroot ↦ hroot ▸ hs.sound
    subst hroot
    exact hs.congr rfl rfl

theorem publishTargets (journal : MigrationJournal) (targets : List (Target Contents)) (published : List String) :
    Holds (Saved rules journal.items) (publishTargets rules journal targets published)
      (Saved rules journal.items) (Sound rules) := by
  induction targets generalizing published with
  | nil => exact ret_holds fun _ h ↦ h
  | cons target targets ih =>
    refine read_holds fun s hs ↦ ?_
    refine seq_holds (require_holds (Q := Saved rules journal.items) (fun _ hroot ↦ hroot ▸ hs.sound)
      fun _ hroot _ ↦ hroot ▸ hs) fun _ ↦ ?_
    refine seq_holds (publishFile target.path) fun _ ↦ ?_
    exact seq_holds (writeJournal ⟨.publishing, journal.items, published ++ [target.path]⟩ (by simp)) fun _ ↦ ih _

end Saved

/-- The journal is in phase backing up, and these items have their copies. -/
structure Copied (rules : MigrationRules Contents) (journal : MigrationJournal)
    (done : List MigrationItem) (root : MigrationRoot Contents) : Prop where
  phase : journal.phase = .backingUp
  journaled : Journaled journal root
  copies : ∀ item ∈ done, verified rules root.backup item.path item.sourceHash = true

namespace Copied

variable {root : MigrationRoot Contents} {done rest : List MigrationItem} {item : MigrationItem}

theorem sound (h : Copied rules journal done root) : Sound rules root :=
  .of_unsaved h.journaled (.inr h.phase)

theorem copyFile (hne : ∀ other ∈ done, other.path ≠ item.path) :
    Holds (Copied rules journal done) (copyFile item.path) (Copied rules journal done) (Sound rules) := by
  refine read_holds fun s hs ↦ ?_
  split
  · exact stop_holds fun _ hroot ↦ hroot ▸ hs.sound
  · refine operation_holds (fun root hroot ↦ ?_) fun _ hroot ↦ hroot ▸ hs.sound
    subst hroot
    refine ⟨hs.phase, hs.journaled.congr rfl, fun other hother ↦ ?_⟩
    rw [verified_congr (AList.lookup_insert_ne (hne other hother))]
    exact hs.copies other hother

/-- Backing up keeps the copies that are there, since the paths differ. -/
theorem backUp (hitems : journal.items = done ++ item :: rest)
    (hnodup : (journal.items.map (·.path)).Nodup) :
    Holds (Copied rules journal done) (backUp rules item) (Copied rules journal (done ++ [item]))
      (Sound rules) := by
  have hne : ∀ other ∈ done, other.path ≠ item.path := by
    intro other hmem heq
    rw [hitems, List.map_append, List.map_cons, List.nodup_append] at hnodup
    exact hnodup.2.2 _ (List.mem_map_of_mem hmem) _ List.mem_cons_self heq
  refine seq_holds (copyFile hne) fun _ ↦ read_holds fun s hs ↦ ?_
  refine require_holds (fun _ hroot ↦ hroot ▸ hs.sound) fun root hroot hcheck ↦ ?_
  subst hroot
  refine ⟨hs.phase, hs.journaled, fun other hother ↦ ?_⟩
  obtain hother | hother := List.mem_append.mp hother
  · exact hs.copies other hother
  · obtain rfl := List.mem_singleton.mp hother
    exact hcheck

end Copied

theorem marked_of_mem {items : List MarkedItem} (hnodup : (items.map (·.path)).Nodup) {item : MarkedItem}
    (h : item ∈ items) : marked items item.path = some item.hash := by
  have hsome : (items.reverse.find? (·.path = item.path)).isSome := by
    rw [List.find?_isSome]
    exact ⟨item, List.mem_reverse.mpr h, by simp⟩
  obtain ⟨found, hfound⟩ := Option.isSome_iff_exists.mp hsome
  have hmem : found ∈ items := List.mem_reverse.mp (List.mem_of_find?_eq_some hfound)
  have hpath : found.path = item.path := by simpa using List.find?_some hfound
  rw [marked, hfound, Option.map_some, List.inj_on_of_nodup_map hnodup hmem h hpath]

/-- The marker of the items of a journal. -/
def markerItems (items : List MigrationItem) : List MarkedItem :=
  items.map fun item ↦ ⟨item.path, item.targetHash⟩

theorem markerComplete_of_written {root : MigrationRoot Contents} (hread : readJournal root = .journal journal)
    (hmarker : root.marker = some (stringify (encodeMarker (markerItems journal.items)))) :
    markerComplete root journal = true := by
  have hok := JournalOk.of_read hread
  have hitems : commitMarkerSchema (encodeMarker (markerItems journal.items)) =
      some (markerItems journal.items) := by
    refine commitMarkerSchema_encodeMarker (fun item hitem ↦ ?_) (by simpa [markerItems] using hok.some)
    obtain ⟨source, hsource, rfl⟩ := List.mem_map.mp hitem
    exact ⟨(hok.items source hsource).path, (hok.items source hsource).targetHash⟩
  have hnodup : ((markerItems journal.items).map (·.path)).Nodup := by
    rw [markerItems, List.map_map]
    exact nodup_of_read hread
  have hmarked : root.marker.bind id = some (encodeMarker (markerItems journal.items)) := by
    rw [hmarker]
    rfl
  rw [markerComplete, hmarked, Option.bind_some, hitems]
  simp only [Bool.and_eq_true, decide_eq_true_eq, List.all_eq_true]
  refine ⟨by rw [markerItems, List.length_map], fun item hitem ↦ ?_⟩
  exact marked_of_mem hnodup     (List.mem_map.mpr ⟨item, hitem, rfl⟩)

/-- The last write of a migration. -/
theorem commit_saved (journal : MigrationJournal) (hphase : journal.phase = .committed) :
    Holds (fun root ↦ Saved rules journal.items root ∧
        root.marker = some (stringify (encodeMarker (markerItems journal.items))))
      (writeJournal journal) (Sound rules) (Sound rules) := by
  refine operation_holds (fun root h ↦ ?_) fun _ h ↦ h.1.sound
  constructor
  · intro journal' hread _
    obtain rfl := read_of_written rfl hread
    exact markerComplete_of_written hread h.2
  · intro journal' hread _ _
    obtain rfl := read_of_written rfl hread
    exact List.all_eq_true.mpr h.1.copies

theorem migrateTargets_sound {targets : List (Target Contents)}
    (hnodup : (targets.map (·.path)).Nodup) :
    Holds (Sound rules) (migrateTargets rules targets) (Sound rules) (Sound rules) := by
  unfold migrateTargets
  split
  · exact stop_holds fun _ h ↦ h
  rename_i journal hjournal
  obtain ⟨-, rfl⟩ := (journal_reads.encoded _ _).mp hjournal
  let items := targets.map (Target.item rules)
  have hpaths : (items.map (·.path)).Nodup := by
    rw [List.map_map]
    exact hnodup
  have hprepared : Holds (Sound rules) (writeJournal ⟨.prepared, items, []⟩)
      (Journaled ⟨.prepared, items, []⟩) (Sound rules) :=
    operation_holds (fun _ _ ↦ .of_written rfl) fun _ h ↦ h
  have hbacking : Holds (Journaled ⟨.prepared, items, []⟩) (writeJournal ⟨.backingUp, items, []⟩)
      (Copied rules ⟨.backingUp, items, []⟩ []) (Sound rules) :=
    operation_holds (fun _ _ ↦ ⟨rfl, .of_written rfl, by simp⟩) fun _ h ↦ .of_unsaved h (.inl rfl)
  have hcopies : Holds (Copied rules ⟨.backingUp, items, []⟩ []) (items.forM (backUp rules))
      (Copied rules ⟨.backingUp, items, []⟩ items) (Sound rules) :=
    loop_holds fun _ _ _ hitems ↦ Copied.backUp hitems hpaths
  have hbackedUp : Holds (Copied rules ⟨.backingUp, items, []⟩ items)
      (writeJournal ⟨.backedUp, items, []⟩) (Saved rules items) (Sound rules) :=
    operation_holds (fun _ h ↦ ⟨⟨⟨.backedUp, items, []⟩, rfl, by simp, .of_written rfl⟩, h.copies⟩)
      fun _ h ↦ h.sound
  have hstages : Holds (Saved rules items) (targets.forM (stage rules)) (Saved rules items) (Sound rules) :=
    loop_holds (I := fun _ ↦ Saved rules items) fun _ target _ _ ↦ Saved.stage target
  refine seq_holds hprepared fun _ ↦ seq_holds hbacking fun _ ↦ seq_holds hcopies fun _ ↦ ?_
  refine seq_holds hbackedUp fun _ ↦ seq_holds hstages fun _ ↦ ?_
  refine seq_holds (Saved.writeJournal ⟨.staged, items, []⟩ (by simp)) fun _ ↦ ?_
  refine seq_holds (Saved.writeJournal ⟨.publishing, items, []⟩ (by simp)) fun _ ↦ ?_
  refine seq_holds (Saved.publishTargets ⟨.prepared, items, []⟩ _ _) fun published ↦ ?_
  have hmarker : Holds (Saved rules items)
      (operation fun root ↦ { root with marker := some (stringify (encodeMarker (markerItems items))) })
      (fun root ↦ Saved rules items root ∧
        root.marker = some (stringify (encodeMarker (markerItems items)))) (Sound rules) :=
    operation_holds (fun _ h ↦ ⟨h.congr rfl rfl, rfl⟩) fun _ h ↦ h.sound
  refine seq_holds hmarker fun _ ↦ ?_
  refine seq_holds (commit_saved ⟨.committed, items, published⟩ rfl) fun _ ↦ ?_
  exact seq_holds (boundary_holds fun _ h ↦ h) fun _ ↦ ret_holds fun _ h ↦ h

/-- A migration converts all the files that it finds. -/
theorem convert_files {files : List (String × Contents)} {targets : List (Target Contents)}
    (h : convert rules files = .ok targets) :
    targets.map (fun target ↦ (target.path, target.source)) = files := by
  simp only [convert] at h
  split at h
  · cases h
  split at h
  · cases h
  split at h
  · cases h
  rename_i identities _
  split at h
  · cases h
  split at h
  · cases h
  split at h
  · cases h
  split at h
  · cases h
  rename_i hlength
  obtain rfl := Except.ok.inj h
  rw [not_not, List.length_map] at hlength
  refine List.Sublist.eq_of_length ?_ (by rw [List.length_map, hlength])
  clear *- identities
  induction files with
  | nil => exact List.Sublist.slnil
  | cons file files ih =>
    rw [List.map_cons, List.filterMap_cons]
    split
    · exact ih.cons _
    · rename_i target htarget
      split at htarget
      · rename_i path source bytes hfile
        obtain rfl := Option.some.inj htarget
        obtain ⟨rfl, hsource⟩ := Prod.mk.inj hfile
        obtain ⟨rfl, -⟩ := Prod.mk.inj hsource
        exact ih.cons_cons _
      · cases htarget

theorem convert_paths {files : List (String × Contents)} {targets : List (Target Contents)}
    (h : convert rules files = .ok targets) : targets.map (·.path) = files.map (·.1) := by
  rw [← convert_files h, List.map_map]
  rfl

theorem migrate_sound (acquires : Bool) :
    Holds (Sound rules) (migrateLifecycleState rules acquires) (Sound rules) (Sound rules) := by
  refine seq_holds (require_holds (Q := Sound rules) (fun _ h ↦ h) fun _ h _ ↦ h) fun _ ↦ ?_
  refine read_holds fun s hs ↦ ?_
  split
  · exact stop_holds fun _ hroot ↦ hroot ▸ hs
  · rename_i prior hread
    refine seq_holds (require_holds (Q := fun root ↦ root = s.root ∧ prior.phase = .committed)
      (fun _ hroot ↦ hroot ▸ hs) fun root hroot hphase ↦ ⟨hroot, of_decide_eq_true hphase⟩) fun _ ↦ ?_
    by_cases hphase : prior.phase = .committed
    · have hfinalize : Holds (fun root ↦ root = s.root ∧ prior.phase = .committed) (finalize rules prior)
          (Sound rules) (Sound rules) := by
        refine strengthen_holds (finalize_sound (by simp [hphase]) (by simp [hphase])) ?_
        rintro root ⟨rfl, -⟩
        exact ⟨hs, hread⟩
      exact seq_holds hfinalize fun _ ↦ ret_holds fun _ h ↦ h
    · exact fun t ht ↦ absurd ht.2 hphase
  · split
    · exact stop_holds fun _ hroot ↦ hroot ▸ hs
    · exact ret_holds fun _ hroot ↦ hroot ▸ hs
    · rename_i targets htargets
      have hpaths := convert_paths htargets
      rw [List.map_map] at hpaths
      refine strengthen_holds (migrateTargets_sound (hpaths ▸ s.root.files.keys_nodup)) ?_
      exact fun _ hroot ↦ hroot ▸ hs

end Programs

/-! What a call does to a committed migration. -/

section Committed

variable {Contents α β : Type} {rules : MigrationRules Contents} {root : MigrationRoot Contents}
  {journal : MigrationJournal} {P Q S : MigrationRoot Contents → Prop}

/-- The files and the journal are still those of this root. -/
structure Kept (root other : MigrationRoot Contents) : Prop where
  files : other.files = root.files
  journal : readJournal other = readJournal root

theorem Kept.refl : Kept root root := ⟨rfl, rfl⟩

theorem finalize_kept (hread : readJournal root = .journal journal) (hphase : journal.phase = .committed)
    (hmarker : markerComplete root journal = true) (htargets : targetsVerified rules root journal = true) :
    Holds (· = root) (finalize rules journal) (Kept root) (Kept root) := by
  refine read_holds fun s hs ↦ branch_holds (fun _ ↦ ?_) fun hnot ↦ ?_
  · have hwrite : Holds (· = s.root) (writeJournal { journal with phase := .committed })
        (Kept root) (Kept root) := by
      refine operation_holds (fun other hother ↦ ?_) fun other hother ↦ ?_
      · subst hother hs
        refine ⟨rfl, ?_⟩
        rw [read_rewritten hread .committed rfl, hread, ← hphase]
      · subst hother hs
        exact .refl
    exact seq_holds hwrite fun _ ↦ ret_holds fun _ h ↦ h
  · subst hs
    simp [hmarker, htargets] at hnot

/-- Where the marker is complete and every file still has its target hash, a call changes nothing. -/
theorem migrate_kept (acquires : Bool) (hread : readJournal root = .journal journal)
    (hphase : journal.phase = .committed) (hmarker : markerComplete root journal = true)
    (htargets : targetsVerified rules root journal = true) :
    Holds (· = root) (migrateLifecycleState rules acquires) (Kept root) (Kept root) := by
  refine seq_holds (require_holds (Q := (· = root)) (fun _ h ↦ h ▸ .refl) fun _ h _ ↦ h) fun _ ↦ ?_
  refine read_holds fun s hs ↦ ?_
  subst hs
  simp only [hread]
  refine seq_holds (require_holds (Q := (· = s.root)) (fun _ h ↦ h ▸ .refl) fun _ h _ ↦ h) fun _ ↦ ?_
  exact seq_holds (finalize_kept hread hphase hmarker htargets) fun _ ↦ ret_holds fun _ h ↦ h

theorem recover_kept (acquires : Bool) (hread : readJournal root = .journal journal)
    (hphase : journal.phase = .committed) (hmarker : markerComplete root journal = true)
    (htargets : targetsVerified rules root journal = true) :
    Holds (· = root) (recoverLifecycleMigration rules acquires) (Kept root) (Kept root) := by
  refine seq_holds (require_holds (Q := (· = root)) (fun _ h ↦ h ▸ .refl) fun _ h _ ↦ h) fun _ ↦ ?_
  refine read_holds fun s hs ↦ ?_
  subst hs
  simp only [hread]
  refine branch_holds (fun hunsaved ↦ ?_) fun _ ↦ finalize_kept hread hphase hmarker htargets
  simp [hphase] at hunsaved

/-- A program that nothing ends before it is through. -/
def Completes (P : MigrationRoot Contents → Prop) (program : Program Contents α)
    (Q : MigrationRoot Contents → Prop) : Prop :=
  Triple (fun s ↦ s.operations = none ∧ P s.root) program (fun _ s ↦ s.operations = none ∧ Q s.root)
    fun _ ↦ False

theorem completes_exec {program : Program Contents α} (h : Completes P program Q)
    {root : MigrationRoot Contents} (hroot : P root) : Q (exec program ⟨root, none⟩).2.root := by
  have hexec := h ⟨root, none⟩ ⟨rfl, hroot⟩
  split at hexec
  · rename_i heq
    rw [heq]
    exact hexec.2
  · exact hexec.elim

theorem boundary_completes : Completes P (boundary : Program Contents Unit) P := by
  refine Triple.read fun s hs ↦ ?_
  rw [hs.1]
  exact Triple.ret fun t ht ↦ ht ▸ hs

theorem operation_completes {write : MigrationRoot Contents → MigrationRoot Contents}
    (h : ∀ root, P root → Q (write root)) : Completes P (operation write) Q :=
  Triple.seq boundary_completes fun _ ↦ Triple.write fun s hs ↦ ⟨hs.1, h s.root hs.2⟩

theorem ret_completes {x : α} (h : ∀ root, P root → Q root) :
    Completes P (pure x : Program Contents α) Q := Triple.ret fun s hs ↦ ⟨hs.1, h s.root hs.2⟩

theorem read_completes {next : MigrationSession Contents → Program Contents α}
    (h : ∀ s, P s.root → Completes (· = s.root) (next s) Q) : Completes P (get >>= next) Q := by
  refine Triple.read fun s hs ↦ (h s hs.2).strengthen fun t ht ↦ ?_
  subst ht
  exact ⟨hs.1, rfl⟩

theorem require_completes {check : Bool} {error : MigrationErrorCode} (h : check = true) :
    Completes P (require check error : Program Contents Unit) P := by
  rw [h]
  exact ret_completes fun _ h ↦ h

theorem seq_completes {program : Program Contents α} {next : α → Program Contents β}
    (h : Completes P program Q) (hnext : ∀ x, Completes Q (next x) S) :
    Completes P (program >>= next) S := Triple.seq h hnext

theorem loop_completes {ι : Type} {items : List ι} {body : ι → Program Contents Unit}
    {I : List ι → MigrationRoot Contents → Prop}
    (h : ∀ done item rest, items = done ++ item :: rest →
      Completes (I done) (body item) (I (done ++ [item]))) :
    Completes (I []) (items.forM body) (I items) :=
  Triple.loop (I := fun (done : List ι) (s : MigrationSession Contents) ↦
    s.operations = none ∧ I done s.root) h

/-- The files of these items are their copies, and the others are as they were. -/
structure Restored (root : MigrationRoot Contents) (done : List MigrationItem)
    (other : MigrationRoot Contents) : Prop where
  backup : other.backup = root.backup
  files : ∀ path, other.files.lookup path =
    if path ∈ done.map (·.path) then root.backup.lookup path else root.files.lookup path

theorem Restored.restoreItem {done : List MigrationItem} {item : MigrationItem} {bytes : Contents}
    (hbytes : root.backup.lookup item.path = some bytes) :
    Completes (Restored root done) (restoreItem item) (Restored root (done ++ [item])) := by
  refine read_completes fun s hs ↦ ?_
  rw [hs.backup, hbytes]
  refine operation_completes ?_
  rintro _ rfl
  refine ⟨hs.backup, fun path ↦ ?_⟩
  by_cases hpath : path = item.path
  · subst hpath
    simp [hbytes]
  · rw [AList.lookup_insert_ne hpath, hs.files]
    simp [hpath]

/-- With all the copies in place, `restore` puts every listed file back. -/
theorem restore_completes (hbackups : backupsVerified rules root journal = true) :
    Completes (· = root) (restore rules journal) (Restored root journal.items) := by
  refine read_completes fun s hs ↦ ?_
  subst hs
  refine seq_completes (require_completes hbackups) fun _ ↦ ?_
  have hstart : Restored s.root [] s.root := ⟨rfl, by simp⟩
  have hloop : Completes (Restored s.root [])
      ((ordered rules MigrationItem.path journal.items).forM Migration.restoreItem)
      (Restored s.root (ordered rules MigrationItem.path journal.items)) := by
    refine loop_completes fun done item rest hitems ↦ ?_
    have hordered : item ∈ ordered rules MigrationItem.path journal.items := by simp [hitems]
    have hmem := (List.perm_insertionSort (before rules MigrationItem.path) _).mem_iff.mp hordered
    obtain ⟨bytes, hbytes, -⟩ := verified_iff.mp (List.all_eq_true.mp hbackups item hmem)
    exact Restored.restoreItem hbytes
  refine seq_completes (hloop.strengthen ?_) fun _ ↦ ?_
  · rintro t ⟨hnone, hroot⟩
    exact ⟨hnone, hroot ▸ hstart⟩
  refine seq_completes (operation_completes (Q := Restored s.root journal.items) fun other hother ↦ ?_)
    fun _ ↦ ret_completes fun _ h ↦ h
  have hperm := (List.perm_insertionSort (before rules MigrationItem.path) journal.items).map
    MigrationItem.path
  refine ⟨hother.backup, fun path ↦ ?_⟩
  rw [← if_congr hperm.mem_iff rfl rfl]
  exact hother.files path

/-- Where a file has another hash than its target, `migrateLifecycleState` puts all of them back. -/
theorem migrate_restores (hread : readJournal root = .journal journal)
    (hphase : journal.phase = .committed) (hbackups : backupsVerified rules root journal = true)
    (htargets : targetsVerified rules root journal = false) :
    Completes (· = root) (migrateLifecycleState rules true) (Restored root journal.items) := by
  refine seq_completes (require_completes rfl) fun _ ↦ read_completes fun s hs ↦ ?_
  subst hs
  simp only [hread]
  refine seq_completes (require_completes (by simp [hphase])) fun _ ↦ ?_
  refine seq_completes (Q := Restored s.root journal.items) (read_completes fun t ht ↦ ?_)
    fun _ ↦ ret_completes fun _ h ↦ h
  rw [ht, htargets, Bool.and_false, if_neg (by simp)]
  exact restore_completes hbackups

end Committed

end OmpLazy.State.Migration

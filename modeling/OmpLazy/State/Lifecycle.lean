import OmpLazy.Foundation.Runs
import OmpLazy.State.FailedCommits
import OmpLazy.State.MigrationLaws
import OmpLazy.State.StateFiles

set_option linter.unusedSectionVars false

namespace OmpLazy.State

open OmpLazy.Foundation Action Migration Relation

/-- Where a process is in `preflightLifecycle`; a process that is idle may also migrate, recover or
commit. -/
inductive Preflight where
  | idle
  /-- The index was read in version 2. -/
  | checking
  | recovering
  | migrating
  | recoveringAgain
  | retrying
  deriving DecidableEq

namespace Preflight

/-- `readFile(activeIndex)`, parsed: a missing or malformed index ends the preflight. -/
def ofIndex : Option (Option Json) → Preflight
  | none | some none => .idle
  | some (some value) => if value.get? "schemaVersion" = some (.nat 2) then .checking else .migrating

def migrates (preflight : Preflight) : Bool := preflight ∈ [.idle, .migrating, .retrying]

def recovers (preflight : Preflight) : Bool := preflight ∈ [.idle, .recovering, .recoveringAgain]

def afterMigrate : Preflight → Bool → Preflight
  | .migrating, false => .recoveringAgain
  | _, _ => .idle

def afterRecover : Preflight → Bool → Preflight
  | .recovering, true => .migrating
  | .recoveringAgain, true => .retrying
  | _, _ => .idle

end Preflight

/-- A state root and the processes that work on it. -/
structure Lifecycle (Process Contents : Type) where
  root : MigrationRoot Contents
  processes : Process → Preflight

/-- What a process does between two changes of the lock: an unlocked read, or a whole call. -/
inductive LifecycleAction (Process : Type) where
  | readIndex (p : Process)
  | readJournal (p : Process)
  | migrate (p : Process) (options : MigrationCall)
  | recover (p : Process) (options : MigrationCall)
  | commit (p : Process) (receipts : AnyRun → Except Thrown ReceiptAuthority) (event : EventObject)
      (written : ℕ)
  | stop (p : Process)

namespace Lifecycle

variable {Process Contents : Type} [DecidableEq Process] (rules : MigrationRules Contents)
  (stateRoot : StateRoot)

def turn (s : Lifecycle Process Contents) (p : Process) (preflight : Preflight) :
    Lifecycle Process Contents :=
  { s with processes := Function.update s.processes p preflight }

/-- The state after a call under the lock, and whether the call succeeded. -/
def call {α : Type} (s : Lifecycle Process Contents) (options : MigrationCall)
    (program : Bool → Program Contents α) : MigrationRoot Contents × Bool :=
  let (outcome, session) := exec (program options.acquires) ⟨s.root, options.operations⟩
  (session.root, outcome.isOk)

def step (s : Lifecycle Process Contents) :
    LifecycleAction Process → Option (Lifecycle Process Contents)
  | .readIndex p =>
    if s.processes p = .idle then
      some (s.turn p (.ofIndex ((s.root.files.lookup "active.json").map rules.format.parse)))
    else none
  | .readJournal p =>
    if s.processes p = .checking then
      some (s.turn p (if lifecycleMigrationRequiresRecovery s.root then .recovering else .idle))
    else none
  | .migrate p options =>
    if (s.processes p).migrates then
      let (root, ok) := s.call options (migrateLifecycleState rules)
      some { s.turn p ((s.processes p).afterMigrate ok) with root := root }
    else none
  | .recover p options =>
    if (s.processes p).recovers then
      let (root, ok) := s.call options (recoverLifecycleMigration rules)
      some { s.turn p ((s.processes p).afterRecover ok) with root := root }
    else none
  | .commit p receipts event written =>
    if s.processes p = .idle then
      some { s with root := { s.root with
        files := StateFiles.commitFiles rules.format receipts stateRoot event written s.root.files } }
    else none
  | .stop p => some (s.turn p .idle)

def Step (s t : Lifecycle Process Contents) : Prop := ∃ action, s.step rules stateRoot action = some t

/-- Every file that a committed migration has listed still has the hash that the migration gave it. -/
def TargetsKept (root : MigrationRoot Contents) : Prop :=
  ∀ journal, readJournal root = .journal journal → journal.phase = .committed →
    targetsVerified rules root journal = true

def isCall : LifecycleAction Process → Prop
  | .migrate .. | .recover .. => True
  | _ => False

/-- The steps in which a migration or a recovery is called only while the targets are kept. -/
def KeptStep (s t : Lifecycle Process Contents) : Prop :=
  ∃ action, (isCall action → TargetsKept rules s.root) ∧ s.step rules stateRoot action = some t

/-- A migration has reached phase committed. -/
def Committed (journal : MigrationJournal) (s : Lifecycle Process Contents) : Prop :=
  readJournal s.root = .journal journal ∧ journal.phase = .committed

section Runs

variable {rules : MigrationRules Contents} {stateRoot : StateRoot} {s t u : Lifecycle Process Contents}
  {action : LifecycleAction Process} {journal : MigrationJournal}

/-- Where a step leads that is not a call: the migration is as it was. -/
theorem step_other (hstep : s.step rules stateRoot action = some t) (hcall : ¬ isCall action) :
    t.root.journal = s.root.journal ∧ t.root.backup = s.root.backup ∧ t.root.marker = s.root.marker := by
  cases action with
  | migrate | recover => exact absurd trivial hcall
  | readIndex | readJournal | commit =>
    simp only [step] at hstep
    split at hstep
    · obtain rfl := Option.some.inj hstep
      exact ⟨rfl, rfl, rfl⟩
    · cases hstep
  | stop =>
    obtain rfl := Option.some.inj hstep
    exact ⟨rfl, rfl, rfl⟩

/-- What holds of a root after a migration and after a recovery holds of it after a call. -/
theorem step_call {P : MigrationRoot Contents → Prop} (hstep : s.step rules stateRoot action = some t)
    (hcall : isCall action)
    (hmigrate : ∀ acquires, Migration.Holds (· = s.root) (migrateLifecycleState rules acquires) P P)
    (hrecover : ∀ acquires, Migration.Holds (· = s.root) (recoverLifecycleMigration rules acquires) P P) :
    P t.root := by
  cases action with
  | migrate p options =>
    simp only [step] at hstep
    split at hstep
    · obtain rfl := Option.some.inj hstep
      exact holds_exec (hmigrate options.acquires) rfl
    · cases hstep
  | recover p options =>
    simp only [step] at hstep
    split at hstep
    · obtain rfl := Option.some.inj hstep
      exact holds_exec (hrecover options.acquires) rfl
    · cases hstep
  | readIndex | readJournal | commit | stop => exact hcall.elim

theorem sound_step : Preserves (Step rules stateRoot)
    fun s : Lifecycle Process Contents ↦ Sound rules s.root := by
  rintro s t hs ⟨action, hstep⟩
  by_cases hcall : isCall action
  · refine step_call hstep hcall (fun acquires ↦ ?_) fun acquires ↦ ?_
    · exact strengthen_holds (migrate_sound acquires) fun _ hroot ↦ hroot ▸ hs
    · exact strengthen_holds (recover_sound acquires) fun _ hroot ↦ hroot ▸ hs
  · obtain ⟨hjournal, hbackup, hmarker⟩ := step_other hstep hcall
    exact hs.congr hjournal hbackup hmarker

/-- A call on kept targets changes no file, and the migration stays committed. -/
theorem call_kept (hs : Sound rules s.root) (hcommitted : Committed journal s)
    (hkept : TargetsKept rules s.root) (hcall : isCall action)
    (hstep : s.step rules stateRoot action = some t) : Migration.Kept s.root t.root := by
  obtain ⟨hread, hphase⟩ := hcommitted
  have hmarker := hs.marked journal hread hphase
  have htargets := hkept journal hread hphase
  exact step_call hstep hcall (fun acquires ↦ migrate_kept acquires hread hphase hmarker htargets)
    fun acquires ↦ recover_kept acquires hread hphase hmarker htargets

theorem committed_step : Preserves (KeptStep rules stateRoot)
    fun s : Lifecycle Process Contents ↦ Sound rules s.root ∧ Committed journal s := by
  rintro s t ⟨hs, hcommitted⟩ ⟨action, hkept, hstep⟩
  refine ⟨sound_step hs ⟨action, hstep⟩, ?_, hcommitted.2⟩
  by_cases hcall : isCall action
  · rw [(call_kept hs hcommitted (hkept hcall) hcall hstep).journal]
    exact hcommitted.1
  · rw [readJournal_congr (step_other hstep hcall).1]
    exact hcommitted.1

theorem targetsKept_iff (hcommitted : Committed journal s) :
    TargetsKept rules s.root ↔ targetsVerified rules s.root journal = true := by
  refine ⟨fun h ↦ h journal hcommitted.1 hcommitted.2, fun h other hread _ ↦ ?_⟩
  obtain rfl : journal = other := by simpa [hcommitted.1] using hread
  exact h

/-- A call of `migrateLifecycleState` that runs to its end leaves the files alone exactly when they are
the targets still, or when putting the copies back changes nothing. -/
theorem migrate_unchanged_iff (hs : Sound rules s.root) (hcommitted : Committed journal s) :
    (∀ path, (s.call ⟨true, none⟩ (migrateLifecycleState rules)).1.files.lookup path =
        s.root.files.lookup path) ↔
      TargetsKept rules s.root ∨
        ∀ item ∈ journal.items, s.root.backup.lookup item.path = s.root.files.lookup item.path := by
  obtain ⟨hread, hphase⟩ := hcommitted
  rw [targetsKept_iff ⟨hread, hphase⟩]
  cases htargets : targetsVerified rules s.root journal with
  | true =>
    refine iff_of_true (fun path ↦ ?_) (.inl rfl)
    have hkept := migrate_kept true hread hphase (hs.marked journal hread hphase) htargets
    exact congrArg (AList.lookup path)
      (holds_exec (s := ⟨s.root, none⟩) hkept rfl).files
  | false =>
    have hbackups := hs.backedUp journal hread (by simp [hphase]) (by simp [hphase])
    have hrestored : Restored s.root journal.items
        (s.call ⟨true, none⟩ (migrateLifecycleState rules)).1 :=
      completes_exec (migrate_restores hread hphase hbackups htargets) rfl
    simp only [hrestored.files, Bool.false_eq_true, false_or]
    constructor
    · intro h item hitem
      have hpath := h item.path
      rwa [if_pos (List.mem_map_of_mem hitem)] at hpath
    · intro h path
      split
      · rename_i hmem
        obtain ⟨item, hitem, rfl⟩ := List.mem_map.mp hmem
        exact h item hitem
      · rfl

/-- Once a migration has committed, the calls that find its targets kept change no file; the next call
that runs to its end changes none exactly when the targets are kept, or the copies are what the files
are anyway. -/
theorem committed_updates_kept {s₀ : Lifecycle Process Contents} (hfresh : s₀.root.journal = none)
    (hrun : ReflTransGen (Step rules stateRoot) s₀ s) (hcommitted : Committed journal s)
    (hkept : ReflTransGen (KeptStep rules stateRoot) s t) :
    Committed journal t ∧
      (∀ action u, isCall action → TargetsKept rules t.root → t.step rules stateRoot action = some u →
        u.root.files = t.root.files) ∧
      ((∀ path, (t.call ⟨true, none⟩ (migrateLifecycleState rules)).1.files.lookup path =
          t.root.files.lookup path) ↔
        TargetsKept rules t.root ∨
          ∀ item ∈ journal.items, t.root.backup.lookup item.path = t.root.files.lookup item.path) := by
  have hs := sound_step.run hrun (Sound.of_absent hfresh)
  obtain ⟨ht, hcommitted⟩ := committed_step.run hkept ⟨hs, hcommitted⟩
  refine ⟨hcommitted, fun action u hcall htargets hstep ↦ ?_, ?_⟩
  · exact (call_kept ht hcommitted htargets hcall hstep).files
  exact migrate_unchanged_iff ht hcommitted

def play (rules : MigrationRules Contents) (stateRoot : StateRoot) (s : Lifecycle Process Contents)
    (actions : List (LifecycleAction Process)) : Option (Lifecycle Process Contents) :=
  actions.foldlM (step rules stateRoot) s

theorem steps_of_play (actions : List (LifecycleAction Process))
    (h : s.play rules stateRoot actions = some t) : ReflTransGen (Step rules stateRoot) s t := by
  induction actions generalizing s with
  | nil =>
    obtain rfl := Option.some.inj h
    exact .refl
  | cons action actions ih =>
    obtain ⟨s', hstep, hplay⟩ := Option.bind_eq_some_iff.mp h
    exact .head ⟨action, hstep⟩ (ih hplay)

end Runs

end Lifecycle

/-! A version 1 root that one process migrates and then commits to, while another process has read its
index before the migration. -/

namespace Lifecycle.V1

def v1Index : Json := encodeActiveIndex ⟨.v1, 0, []⟩

def v2Index : Json := (v1Index.set "schemaVersion" (.nat 2)).set "migrationRevision" (.nat 1)

/-- The SHA-256 of the texts that are hashed here: the index in version 1, in version 2, and after the
commit. -/
def hash (bytes : Bytes) : String :=
  if bytes = some v1Index then "8b9482c4c035cc5478e9265b806fffb7541eb2af2bd072019e166f4a4f93c7e2"
  else if bytes = some v2Index then "e24e59e9f4a4b40b0beeccbbdd0eee62bc07b22f94c4fcb180574fdcf458b9da"
  else "55be1dcb524dd2ee33b83af20c5f854a2b2324e7f4d0aad84aa32049e8cfa428"

/-- There are no ledgers in this root. -/
def rules : MigrationRules Bytes where
  format := ⟨fun bytes ↦ [bytes], id, stringify, hash⟩
  ledgers := ⟨fun _ ↦ none, fun _ ↦ false, fun _ ↦ false, fun _ ↦ false, fun _ _ ↦ .invalid,
    fun _ _ ↦ .invalid, fun _ _ ↦ .invalid⟩
  localeCompare := compare

def v1Root : Lifecycle ℕ Bytes where
  root := ⟨AList.singleton "active.json" (some v1Index), ∅, ∅, none, none⟩
  processes := fun _ ↦ .idle

def unhindered : MigrationCall := ⟨true, none⟩

def migration : List (LifecycleAction ℕ) :=
  [.readIndex 0, .readIndex 1, .migrate 1 unhindered]

def migrated : Lifecycle ℕ Bytes := (play rules State.Sample.root v1Root migration).getD v1Root

def creation : LifecycleAction ℕ :=
  .commit 1 (fun _ ↦ .error .unreadableReceipts) (.ofValue State.Sample.creation) 3

def committed : Lifecycle ℕ Bytes :=
  (play rules State.Sample.root v1Root (migration ++ [creation])).getD v1Root

def journal : MigrationJournal where
  phase := .committed
  items := [⟨"active.json", hash (some v1Index), hash (some v2Index)⟩]
  published := ["active.json"]

theorem played_migrated : play rules State.Sample.root v1Root migration = some migrated := by
  have h : (play rules State.Sample.root v1Root migration).isSome = true := by decide
  obtain ⟨s, hs⟩ := Option.isSome_iff_exists.mp h
  rw [migrated, hs, Option.getD_some]

theorem played_committed :
    play rules State.Sample.root v1Root (migration ++ [creation]) = some committed := by
  have h : (play rules State.Sample.root v1Root (migration ++ [creation])).isSome = true := by
    decide
  obtain ⟨s, hs⟩ := Option.isSome_iff_exists.mp h
  rw [committed, hs, Option.getD_some]

theorem migrated_committed : Committed journal migrated := ⟨by decide, rfl⟩

theorem migrated_kept : TargetsKept rules migrated.root := by
  rw [targetsKept_iff migrated_committed]
  decide

end Lifecycle.V1

namespace Lifecycle

open V1

theorem committed_updates_kept_migrated :
    ∃ t, migrated.step rules State.Sample.root (.migrate 0 unhindered) = some t ∧
      Committed journal t ∧ t.root.files.lookup "active.json" = some (some v2Index) := by
  have hsome : (migrated.step rules State.Sample.root (.migrate 0 unhindered)).isSome = true := by
    decide
  obtain ⟨t, ht⟩ := Option.isSome_iff_exists.mp hsome
  have hrun := steps_of_play migration played_migrated
  obtain ⟨-, hfiles, -⟩ := committed_updates_kept rfl hrun migrated_committed .refl
  have hstep : KeptStep rules State.Sample.root migrated t :=
    ⟨.migrate 0 unhindered, fun _ ↦ migrated_kept, ht⟩
  obtain ⟨hcommitted, -⟩ := committed_updates_kept rfl hrun migrated_committed (.single hstep)
  refine ⟨t, ht, hcommitted, ?_⟩
  rw [hfiles (.migrate 0 unhindered) t trivial migrated_kept ht]
  decide

/-- One process has read the index before another one migrated the root and committed to it; then its
own migration puts the index of version 1 back. -/
theorem stale_migration_rewinds :
    ∃ s t : Lifecycle ℕ Bytes, ReflTransGen (Step rules State.Sample.root) v1Root s ∧
      Committed journal s ∧
      s.root.files.lookup "active.json" = some (some (encodeActiveIndex State.Sample.index)) ∧
      s.step rules State.Sample.root (.migrate 0 unhindered) = some t ∧
      t.root.files.lookup "active.json" = some (some v1Index) := by
  have hrewound : ((committed.step rules State.Sample.root (.migrate 0 unhindered)).map
      fun t ↦ t.root.files.lookup "active.json") = some (some (some v1Index)) := by decide
  obtain ⟨t, ht, hindex⟩ := Option.map_eq_some_iff.mp hrewound
  exact ⟨committed, t, steps_of_play _ played_committed, ⟨by decide, rfl⟩, by decide, ht,
    hindex⟩

end Lifecycle

end OmpLazy.State

import OmpLazy.Foundation.Runs
import Mathlib.Logic.Function.Basic
import Mathlib.Data.Nat.Notation

set_option linter.unusedSectionVars false

namespace OmpLazy.State

open OmpLazy.Foundation Relation

/-- A caller between two file-system calls. -/
inductive Caller (Nonce : Type*) where
  | idle
  /-- `tryAcquire` has created the file and not yet written to it. -/
  | created (nonce : Nonce)
  /-- `tryAcquire` has returned a handle. -/
  | holding (nonce : Nonce)
  /-- `release` has read the nonce of its handle and will unlink. -/
  | releasing (nonce : Nonce)
  /-- `clearConfirmedStaleLock` was called, confirmed and with a dead owner. -/
  | clearing (nonce : Nonce)
  /-- Its first read has found the nonce. -/
  | matched (nonce : Nonce)
  /-- The read of `release` has found it again, and the file will be unlinked. -/
  | checked (nonce : Nonce)
  | crashed
  deriving DecidableEq

namespace Caller

variable {Nonce : Type*}

/-- The nonce under which a live caller has made the lock file. -/
def acquired : Caller Nonce → Option Nonce
  | .created nonce | .holding nonce | .releasing nonce => some nonce
  | _ => none

/-- The nonce of a handle that the caller has. -/
def holds : Caller Nonce → Option Nonce
  | .holding nonce | .releasing nonce => some nonce
  | _ => none

def clears : Caller Nonce → Option Nonce
  | .clearing nonce | .matched nonce | .checked nonce => some nonce
  | _ => none

/-- The nonce of the lock file that the caller is about to unlink. -/
def unlinks : Caller Nonce → Option Nonce
  | .releasing nonce | .checked nonce => some nonce
  | _ => none

end Caller

/-- The lock file, by the nonce of the attempt that made it. It is readable once metadata that the
schema accepts was written. -/
structure LockFile (Nonce : Type*) where
  nonce : Nonce
  readable : Bool

/-- The lock file, what each process does, and which process has used a nonce. -/
structure LockSystem (Process Nonce : Type*) where
  file : Option (LockFile Nonce)
  callers : Process → Caller Nonce
  owner : Nonce → Option Process

inductive LockAction (Process Nonce : Type*) where
  | create (p : Process) (nonce : Nonce)
  | write (p : Process) (valid : Bool)
  | readForRelease (p : Process)
  | unlink (p : Process)
  | clear (p : Process) (nonce : Nonce)
  | readMetadata (p : Process)
  | crash (p : Process)

namespace LockSystem

variable {Process Nonce : Type*} [DecidableEq Process] [DecidableEq Nonce]

/-- The nonce that a reader finds. -/
def nonce (s : LockSystem Process Nonce) : Option Nonce :=
  s.file.bind fun file ↦ if file.readable then some file.nonce else none

/-- The process that used the nonce has crashed. -/
def ownerCrashed (s : LockSystem Process Nonce) (nonce : Nonce) : Bool :=
  match s.owner nonce with
  | some p => s.callers p = .crashed
  | none => false

def turn (s : LockSystem Process Nonce) (p : Process) (caller : Caller Nonce) :
    LockSystem Process Nonce :=
  { s with callers := Function.update s.callers p caller }

/-- One file-system call, or the call or the crash of a process; `none` where it is not possible.
The nonces of two attempts differ. -/
def step (s : LockSystem Process Nonce) : LockAction Process Nonce → Option (LockSystem Process Nonce)
  | .create p nonce =>
    if s.callers p = .idle ∧ s.file.isNone ∧ s.owner nonce = none then
      some { s.turn p (.created nonce) with
        file := some ⟨nonce, false⟩
        owner := Function.update s.owner nonce (some p) }
    else none
  | .write p valid =>
    match s.callers p with
    | .created nonce => some { s.turn p (.holding nonce) with
        file := s.file.map fun file ↦ if file.nonce = nonce then ⟨nonce, valid⟩ else file }
    | _ => none
  | .readForRelease p =>
    match s.callers p with
    | .holding nonce => some (s.turn p (if s.nonce = some nonce then .releasing nonce else .idle))
    | .matched nonce => some (s.turn p (if s.nonce = some nonce then .checked nonce else .idle))
    | _ => none
  | .unlink p =>
    match (s.callers p).unlinks with
    | some _ => some { s.turn p .idle with file := none }
    | none => none
  | .clear p nonce =>
    if s.callers p = .idle ∧ s.ownerCrashed nonce then some (s.turn p (.clearing nonce)) else none
  | .readMetadata p =>
    match s.callers p with
    | .clearing nonce => some (s.turn p (if s.nonce = some nonce then .matched nonce else .idle))
    | _ => none
  | .crash p => some (s.turn p .crashed)

def run (s : LockSystem Process Nonce) (actions : List (LockAction Process Nonce)) :
    Option (LockSystem Process Nonce) := actions.foldlM step s

def Step (s t : LockSystem Process Nonce) : Prop := ∃ action, s.step action = some t

/-- No two live callers have a handle, and who is about to unlink the lock file will not unlink that
of another nonce. -/
structure Safe (s : LockSystem Process Nonce) : Prop where
  exclusive : ∀ p q, (s.callers p).holds.isSome → (s.callers q).holds.isSome → p = q
  asked : ∀ p nonce file, (s.callers p).unlinks = some nonce → s.file = some file → file.nonce = nonce

/-- The lock file is made only while no clear is between its last read and its unlink. -/
def ClearsSettled (s t : LockSystem Process Nonce) : Prop :=
  s.file = none → t.file ≠ none → ∀ p nonce, s.callers p ≠ .checked nonce

def initial : LockSystem Process Nonce := ⟨none, fun _ ↦ .idle, fun _ ↦ none⟩

/-- A live caller that has made the lock file finds it there, clears are for dead owners, and who has
checked the nonce will find it or nothing. -/
structure Consistent (s : LockSystem Process Nonce) : Prop where
  acquired : ∀ p nonce, (s.callers p).acquired = some nonce →
    s.owner nonce = some p ∧ ∃ file, s.file = some file ∧ file.nonce = nonce
  cleared : ∀ p nonce, (s.callers p).clears = some nonce → s.ownerCrashed nonce = true
  checked : ∀ p nonce file, s.callers p = .checked nonce → s.file = some file → file.nonce = nonce

variable {s t : LockSystem Process Nonce} {p q : Process} {nonce : Nonce} {caller : Caller Nonce}

theorem callers_turn_self : (s.turn p caller).callers p = caller := Function.update_self ..

theorem callers_turn_of_ne (h : q ≠ p) : (s.turn p caller).callers q = s.callers q :=
  Function.update_of_ne h ..

theorem file_of_nonce (h : s.nonce = some nonce) : ∃ file, s.file = some file ∧ file.nonce = nonce := by
  obtain ⟨file, hfile, hnonce⟩ := Option.bind_eq_some_iff.mp h
  split at hnonce
  · exact ⟨file, hfile, Option.some.inj hnonce⟩
  · cases hnonce

theorem ownerCrashed_iff : s.ownerCrashed nonce = true ↔
    ∃ p, s.owner nonce = some p ∧ s.callers p = .crashed := by
  rw [ownerCrashed]
  cases s.owner nonce <;> simp

theorem acquired_of_holds (h : caller.holds.isSome) : ∃ nonce, caller.acquired = some nonce := by
  cases caller <;> simp_all [Caller.holds, Caller.acquired]

theorem acquired_or_checked_of_unlinks (h : caller.unlinks = some nonce) :
    caller.acquired = some nonce ∨ caller = .checked nonce := by
  cases caller <;> simp_all [Caller.unlinks, Caller.acquired]

namespace Consistent

/-- The owner of a nonce that a live caller has used is that caller. -/
theorem unique (h : Consistent s) {nonce' : Nonce} (hp : (s.callers p).acquired = some nonce)
    (hq : (s.callers q).acquired = some nonce') : p = q := by
  obtain ⟨howner, file, hfile, hnonce⟩ := h.acquired p nonce hp
  obtain ⟨howner', file', hfile', hnonce'⟩ := h.acquired q nonce' hq
  obtain rfl := Option.some.inj (hfile.symm.trans hfile')
  rw [← hnonce, hnonce', howner'] at howner
  exact (Option.some.inj howner).symm

theorem safe (h : Consistent s) : Safe s where
  exclusive p q hp hq := by
    obtain ⟨nonce, hp⟩ := acquired_of_holds hp
    obtain ⟨nonce', hq⟩ := acquired_of_holds hq
    exact h.unique hp hq
  asked p nonce file hp hfile := by
    obtain hp | hp := acquired_or_checked_of_unlinks hp
    · obtain ⟨-, file', hfile', hnonce⟩ := h.acquired p nonce hp
      obtain rfl := Option.some.inj (hfile.symm.trans hfile')
      exact hnonce
    · exact h.checked p nonce file hp hfile

theorem ownerCrashed_turn (hcrashed : s.callers p = .crashed → caller = .crashed)
    (h : s.ownerCrashed nonce = true) : (s.turn p caller).ownerCrashed nonce = true := by
  obtain ⟨q, howner, hq⟩ := ownerCrashed_iff.mp h
  refine ownerCrashed_iff.mpr ⟨q, howner, ?_⟩
  by_cases hne : q = p
  · subst hne
    rw [callers_turn_self, hcrashed hq]
  · rw [callers_turn_of_ne hne, hq]

/-- A caller moves on without a change to the file. -/
theorem turn (h : Consistent s) (hcrashed : s.callers p = .crashed → caller = .crashed)
    (hacquired : ∀ nonce, caller.acquired = some nonce → (s.callers p).acquired = some nonce)
    (hcleared : ∀ nonce, caller.clears = some nonce → s.ownerCrashed nonce = true)
    (hchecked : ∀ nonce, caller = .checked nonce → s.nonce = some nonce) :
    Consistent (s.turn p caller) where
  acquired q nonce hq := by
    by_cases hne : q = p
    · subst hne
      rw [callers_turn_self] at hq
      exact h.acquired q nonce (hacquired nonce hq)
    · rw [callers_turn_of_ne hne] at hq
      exact h.acquired q nonce hq
  cleared q nonce hq := by
    refine ownerCrashed_turn hcrashed ?_
    by_cases hne : q = p
    · subst hne
      rw [callers_turn_self] at hq
      exact hcleared nonce hq
    · rw [callers_turn_of_ne hne] at hq
      exact h.cleared q nonce hq
  checked q nonce file hq hfile := by
    by_cases hne : q = p
    · subst hne
      rw [callers_turn_self] at hq
      obtain ⟨file', hfile', hnonce⟩ := file_of_nonce (hchecked nonce hq)
      obtain rfl := Option.some.inj (hfile.symm.trans hfile')
      exact hnonce
    · rw [callers_turn_of_ne hne] at hq
      exact h.checked q nonce file hq hfile

/-- A new lock file, while no clear is about to unlink one. -/
theorem create (h : Consistent s) (hidle : s.callers p = .idle) (hfile : s.file = none)
    (hfresh : s.owner nonce = none) (hsettled : ∀ q nonce, s.callers q ≠ .checked nonce) :
    Consistent { s.turn p (.created nonce) with
      file := some ⟨nonce, false⟩
      owner := Function.update s.owner nonce (some p) } where
  acquired q nonce' hq := by
    by_cases hne : q = p
    · subst hne
      obtain rfl : nonce = nonce' := by simpa [callers_turn_self, Caller.acquired] using hq
      exact ⟨Function.update_self .., _, rfl, rfl⟩
    · have hq : (s.callers q).acquired = some nonce' := by
        rwa [← callers_turn_of_ne hne]
      obtain ⟨-, file, hsome, -⟩ := h.acquired q nonce' hq
      cases hfile.symm.trans hsome
  cleared q nonce' hq := by
    have hq : (s.callers q).clears = some nonce' := by
      by_cases hne : q = p
      · subst hne
        simp [callers_turn_self, Caller.clears] at hq
      · rwa [← callers_turn_of_ne hne]
    obtain ⟨r, howner, hcrashed⟩ := ownerCrashed_iff.mp (h.cleared q nonce' hq)
    have hne : nonce' ≠ nonce := by
      rintro rfl
      cases hfresh.symm.trans howner
    have hr : r ≠ p := by
      rintro rfl
      cases hidle.symm.trans hcrashed
    exact ownerCrashed_iff.mpr ⟨r, (Function.update_of_ne hne ..).trans howner,
      (callers_turn_of_ne hr).trans hcrashed⟩
  checked q nonce' file hq _ := by
    by_cases hne : q = p
    · subst hne
      simp [callers_turn_self] at hq
    · exact absurd ((callers_turn_of_ne hne).symm.trans hq) (hsettled q nonce')

/-- The metadata goes into the file that the caller has made. -/
theorem write (h : Consistent s) (hcreated : s.callers p = .created nonce) (valid : Bool) :
    Consistent { s.turn p (.holding nonce) with
      file := s.file.map fun file ↦ if file.nonce = nonce then ⟨nonce, valid⟩ else file } := by
  have hacquired : (s.callers p).acquired = some nonce := by rw [hcreated]; rfl
  obtain ⟨howner, file, hfile, rfl⟩ := h.acquired p nonce hacquired
  have hturn : Consistent (s.turn p (.holding file.nonce)) := h.turn (by simp [hcreated])
    (fun _ hnonce ↦ hacquired.trans hnonce) (fun _ hclears ↦ by cases hclears)
      fun _ hchecked ↦ by cases hchecked
  rw [hfile, Option.map_some, if_pos rfl]
  constructor
  · intro q nonce hq
    obtain ⟨howner, file', hfile', hnonce⟩ := hturn.acquired q nonce hq
    obtain rfl := Option.some.inj (hfile.symm.trans hfile')
    exact ⟨howner, _, rfl, hnonce⟩
  · exact hturn.cleared
  · intro q nonce file' hq hfile'
    obtain rfl := Option.some.inj hfile'
    exact hturn.checked q nonce file hq hfile

/-- Whoever unlinks the lock file was the only one to rely on it. -/
theorem unlink (h : Consistent s) (hunlinks : (s.callers p).unlinks = some nonce) :
    Consistent { s.turn p .idle with file := none } where
  acquired q nonce' hq := by
    have hne : q ≠ p := by
      rintro rfl
      simp [callers_turn_self, Caller.acquired] at hq
    have hq : (s.callers q).acquired = some nonce' := by rwa [← callers_turn_of_ne hne]
    obtain hp | hp := acquired_or_checked_of_unlinks hunlinks
    · exact absurd (h.unique hq hp) hne
    · obtain ⟨howner, file, hfile, rfl⟩ := h.acquired q nonce' hq
      have hnonce := h.checked p nonce file hp hfile
      have hcleared : (s.callers p).clears = some nonce := by rw [hp]; rfl
      obtain ⟨r, howner', hcrashed⟩ := ownerCrashed_iff.mp (h.cleared p nonce hcleared)
      rw [← hnonce, howner] at howner'
      obtain rfl := Option.some.inj howner'
      rw [hcrashed] at hq
      cases hq
  cleared q nonce' hq := by
    have hne : q ≠ p := by
      rintro rfl
      simp [callers_turn_self, Caller.clears] at hq
    have hq : (s.callers q).clears = some nonce' := by rwa [← callers_turn_of_ne hne]
    refine ownerCrashed_turn ?_ (h.cleared q nonce' hq)
    intro hcrashed
    rw [hcrashed] at hunlinks
    cases hunlinks
  checked _ _ _ _ hfile := by cases hfile

theorem step (h : Consistent s) {action : LockAction Process Nonce}
    (hstep : s.step action = some t) (hsettled : ClearsSettled s t) : Consistent t := by
  cases action with
  | create p nonce =>
    simp only [LockSystem.step] at hstep
    split at hstep
    · rename_i hcan
      obtain rfl := Option.some.inj hstep
      have hfile := Option.isNone_iff_eq_none.mp hcan.2.1
      exact h.create hcan.1 hfile hcan.2.2 (hsettled hfile (by simp))
    · cases hstep
  | write p valid =>
    simp only [LockSystem.step] at hstep
    split at hstep
    · obtain rfl := Option.some.inj hstep
      exact h.write ‹_› valid
    · cases hstep
  | readForRelease p =>
    simp only [LockSystem.step] at hstep
    split at hstep
    · rename_i nonce hp
      obtain rfl := Option.some.inj hstep
      split <;> refine h.turn (by simp [hp]) ?_ ?_ ?_ <;> simp [hp, Caller.acquired, Caller.clears]
    · rename_i nonce hp
      obtain rfl := Option.some.inj hstep
      have hcleared := h.cleared p nonce (by rw [hp]; rfl)
      split <;> refine h.turn (by simp [hp]) ?_ ?_ ?_ <;>
        simp_all [Caller.acquired, Caller.clears]
    · cases hstep
  | unlink p =>
    simp only [LockSystem.step] at hstep
    split at hstep
    · obtain rfl := Option.some.inj hstep
      exact h.unlink ‹_›
    · cases hstep
  | clear p nonce =>
    simp only [LockSystem.step] at hstep
    split at hstep
    · rename_i hcan
      obtain rfl := Option.some.inj hstep
      exact h.turn (by simp [hcan.1]) (by simp [Caller.acquired])
        (by simpa [Caller.clears] using hcan.2) (by simp)
    · cases hstep
  | readMetadata p =>
    simp only [LockSystem.step] at hstep
    split at hstep
    · rename_i nonce hp
      obtain rfl := Option.some.inj hstep
      have hcleared := h.cleared p nonce (by rw [hp]; rfl)
      split <;> refine h.turn (by simp [hp]) ?_ ?_ ?_ <;>
        simp_all [Caller.acquired, Caller.clears]
    · cases hstep
  | crash p =>
    obtain rfl := Option.some.inj hstep
    exact h.turn (fun _ ↦ rfl) (by simp [Caller.acquired]) (by simp [Caller.clears]) (by simp)

end Consistent

theorem consistent_initial : Consistent (initial : LockSystem Process Nonce) := by
  constructor <;> simp [initial, Caller.acquired, Caller.clears]

theorem consistent_preserved :
    Preserves (Guarded ClearsSettled Step) (Consistent : LockSystem Process Nonce → Prop) := by
  refine .guarded ?_
  rintro s t hsettled h ⟨action, hstep⟩
  exact h.step hstep hsettled

/-- Only `tryAcquire` makes the lock file. -/
theorem create_of_made {action : LockAction Process Nonce} (hstep : s.step action = some t)
    (hfile : s.file = none) (hmade : t.file ≠ none) :
    ∃ p nonce, s.callers p = .idle ∧ s.owner nonce = none ∧
      t = { s.turn p (.created nonce) with
        file := some ⟨nonce, false⟩
        owner := Function.update s.owner nonce (some p) } := by
  cases action with
  | create p nonce =>
    simp only [step] at hstep
    split at hstep
    · rename_i hcan
      exact ⟨p, nonce, hcan.1, hcan.2.2, (Option.some.inj hstep).symm⟩
    · cases hstep
  | crash p =>
    obtain rfl := Option.some.inj hstep
    exact absurd hfile hmade
  | write | readForRelease | unlink | clear | readMetadata =>
    simp only [step, hfile, Option.map_none] at hstep
    split at hstep <;> cases hstep <;> first | exact absurd rfl hmade | exact absurd hfile hmade

/-- A lock file that is made while a clear is about to unlink one is not the one it was asked for. -/
theorem not_safe_of_unsettled (h : Consistent s) (hstep : Step s t) (hnot : ¬ ClearsSettled s t) :
    ¬ t.Safe := by
  simp only [ClearsSettled, not_forall, not_not] at hnot
  obtain ⟨hfile, hmade, q, nonce, hq⟩ := hnot
  obtain ⟨action, hstep⟩ := hstep
  obtain ⟨p, nonce', hidle, hfresh, rfl⟩ := create_of_made hstep hfile hmade
  intro hsafe
  have hne : q ≠ p := by
    rintro rfl
    cases hidle.symm.trans hq
  have hunlinks : ((s.turn p (.created nonce')).callers q).unlinks = some nonce := by
    rw [callers_turn_of_ne hne, hq]
    rfl
  obtain rfl : nonce' = nonce := hsafe.asked q nonce _ hunlinks rfl
  obtain ⟨r, howner, -⟩ := ownerCrashed_iff.mp (h.cleared q nonce' (by rw [hq]; rfl))
  cases hfresh.symm.trans howner

/-- In every run that makes the lock file only while no clear is between its last read and its unlink,
at most one live caller has a handle, and nobody unlinks the file of another nonce; the first step
that does otherwise ends that. -/
theorem lock_safe (hrun : ReflTransGen (Guarded ClearsSettled Step) initial s) :
    s.Safe ∧ ∀ t, Step s t → (t.Safe ↔ ClearsSettled s t) := by
  have h := consistent_preserved.run hrun consistent_initial
  refine ⟨h.safe, fun t hstep ↦ ⟨fun hsafe ↦ ?_, fun hsettled ↦ ?_⟩⟩
  · by_contra hnot
    exact not_safe_of_unsettled h hstep hnot hsafe
  · obtain ⟨action, hstep⟩ := hstep
    exact (h.step hstep hsettled).safe

theorem steps_of_run (actions : List (LockAction Process Nonce)) (h : s.run actions = some t) :
    ReflTransGen Step s t := by
  induction actions generalizing s with
  | nil =>
    obtain rfl := Option.some.inj h
    exact .refl
  | cons action actions ih =>
    obtain ⟨s', hstep, hrun⟩ := Option.bind_eq_some_iff.mp h
    exact .head ⟨action, hstep⟩ (ih hrun)

/-- One process has created the lock file. -/
def sampleCreated : LockSystem ℕ ℕ where
  file := some ⟨0, false⟩
  callers := Function.update (fun _ ↦ .idle) 0 (.created 0)
  owner := Function.update (fun _ ↦ none) 0 (some 0)

theorem lock_safe_held : ∃ s : LockSystem ℕ ℕ, s.callers 0 = .holding 0 ∧ s.Safe := by
  have hcreate : Guarded ClearsSettled Step initial sampleCreated :=
    ⟨fun _ _ p nonce ↦ by simp [initial], .create 0 0, rfl⟩
  have hwrite : Guarded ClearsSettled Step sampleCreated _ :=
    ⟨fun hnone ↦ (by cases hnone), .write 0 true, rfl⟩
  exact ⟨_, rfl, (lock_safe (.tail (.single hcreate) hwrite)).1⟩

/-- Two clears of the nonce of a dead process: the second unlinks the file that was made after the first
one's unlink, and two live processes have a handle. -/
theorem two_clears_two_holders :
    ∃ s : LockSystem ℕ ℕ, ReflTransGen Step initial s ∧
      s.callers 3 = .holding 1 ∧ s.callers 4 = .holding 2 :=
  ⟨_, steps_of_run [.create 0 0, .write 0 true, .crash 0, .clear 1 0, .readMetadata 1,
    .readForRelease 1, .clear 2 0, .readMetadata 2, .readForRelease 2, .unlink 1, .create 3 1,
    .write 3 true, .unlink 2, .create 4 2, .write 4 true] rfl, rfl, rfl⟩

end LockSystem

end OmpLazy.State

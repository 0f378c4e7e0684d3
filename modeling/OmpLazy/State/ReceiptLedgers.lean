import Mathlib.Data.List.Nodup
import OmpLazy.State.ReceiptAuthority

namespace OmpLazy.State

inductive TaskFactKind where
  | taskReserved
  | taskIdentitiesBound
  | taskControlAuthorized
  | taskReceiptObserved
  | asyncCapabilityObserved
  deriving DecidableEq, Repr

/-- A task fact, as far as the generation of the tasks depends on it. -/
structure TaskLedgerEntry where
  sequence : ℕ
  ownerSessionId : String
  ownerEpoch : ℕ
  fact : TaskFactKind
  deriving DecidableEq, Repr

/-- The file of a run's rejections, which only counts in its second version. -/
inductive RejectionLedger where
  | missing
  | v1
  | v2 (entries : List RejectionEntry)
  deriving DecidableEq, Repr

/-- The sidecar ledgers of a run. -/
structure ReceiptLedgers where
  tasks : List TaskLedgerEntry
  acceptances : List ScopedWorkerAcceptanceEvent
  rejections : RejectionLedger
  deriving DecidableEq, Repr

namespace ReceiptLedgers

def currentOwnerEntries (ledgers : ReceiptLedgers) (run : AnyRun) : List TaskLedgerEntry :=
  ledgers.tasks.filter fun entry ↦
    entry.ownerSessionId = run.owner.sessionId && entry.ownerEpoch = run.owner.epoch

def taskGeneration (ledgers : ReceiptLedgers) (run : AnyRun) : ℕ :=
  match ReceiptAuthority.findLast
      (fun entry ↦ entry.fact = .taskReserved || entry.fact = .taskIdentitiesBound)
      (ledgers.currentOwnerEntries run) with
  | none => 0
  | some entry => entry.sequence

def rejected (ledgers : ReceiptLedgers) : List RejectionEntry :=
  match ledgers.rejections with
  | .missing | .v1 => []
  | .v2 entries => entries

def readReceiptAuthority (ledgers : ReceiptLedgers) (run : AnyRun) : ReceiptAuthority where
  taskGeneration := ledgers.taskGeneration run
  accepted := ledgers.acceptances
  rejected := ledgers.rejected

/-- Acceptances are added and never taken back, and no two of them have one key. -/
structure Grown (ledgers later : ReceiptLedgers) : Prop where
  kept : ∀ entry ∈ ledgers.acceptances, entry ∈ later.acceptances
  keys : (later.acceptances.map (·.idempotencyKey)).Nodup

theorem Grown.unique {ledgers later : ReceiptLedgers} (h : ledgers.Grown later)
    {entry entry' : ScopedWorkerAcceptanceEvent} (hentry : entry ∈ later.acceptances)
    (hentry' : entry' ∈ later.acceptances) (hkey : entry.idempotencyKey = entry'.idempotencyKey) :
    entry = entry' := List.inj_on_of_nodup_map h.keys hentry hentry' hkey

end ReceiptLedgers

namespace ReceiptAuthority

variable {run : AnyRun} {authority : ReceiptAuthority} {taskId : String}

theorem findLast_eq_some {α : Type} {test : α → Bool} {values : List α} {value : α}
    (h : findLast test values = some value) : value ∈ values ∧ test value = true :=
  ⟨List.mem_reverse.mp (List.mem_of_find?_eq_some h), List.find?_some h⟩

theorem findLast_ne_none {α : Type} {test : α → Bool} {values : List α} :
    findLast test values ≠ none ↔ ∃ value ∈ values, test value = true := by
  rw [findLast, ne_eq, List.find?_eq_none]
  simp

theorem findLast_append {α : Type} {test : α → Bool} (values values' : List α) :
    findLast test (values ++ values') = (findLast test values').or (findLast test values) := by
  rw [findLast, List.reverse_append, List.find?_append, findLast, findLast]

/-- The acceptance is one of a task by the session and in the epoch that own the run, at its head. -/
structure Certifies (run : AnyRun) (taskId : String) (entry : ScopedWorkerAcceptanceEvent) : Prop where
  taskId : entry.taskId = some taskId
  ownerSessionId : entry.ownerSessionId = run.owner.sessionId
  ownerEpoch : entry.ownerEpoch = run.owner.epoch
  expectedHead : ∃ packetHash, run.version = .v2 packetHash (some entry.captureCommit)

theorem certifies_of_matches {entry : ScopedWorkerAcceptanceEvent}
    (h : (matchesRun run entry && entry.taskId = some taskId) = true) : Certifies run taskId entry := by
  obtain ⟨hmatches, htask⟩ := Bool.and_eq_true_iff.mp h
  unfold matchesRun at hmatches
  split at hmatches
  · rename_i packetHash expectedHead hversion
    simp only [Bool.and_eq_true, decide_eq_true_eq] at hmatches
    obtain ⟨⟨⟨-, hsession⟩, hepoch⟩, hhead⟩ := hmatches
    exact ⟨of_decide_eq_true htask, hsession, hepoch, packetHash, hhead ▸ hversion⟩
  · cases hmatches

theorem currentAcceptance_eq_some {entry : ScopedWorkerAcceptanceEvent}
    (h : currentAcceptance run authority taskId = some entry) :
    entry ∈ authority.accepted ∧ Certifies run taskId entry ∧
      entry.taskGeneration = authority.taskGeneration ∧ entry.attempt = run.progressRevision := by
  unfold currentAcceptance at h
  split at h
  · cases h
  · obtain ⟨hmem, htest⟩ := findLast_eq_some h
    simp only [Bool.and_eq_true, decide_eq_true_eq] at htest
    obtain ⟨⟨⟨hmatches, htask⟩, hgeneration⟩, hattempt⟩ := htest
    exact ⟨hmem, certifies_of_matches (by simp [hmatches, htask]), hgeneration, hattempt⟩

theorem selected_eq_some {entry : ScopedWorkerAcceptanceEvent}
    (h : selected run authority taskId = some entry) :
    entry ∈ authority.accepted ∧ Certifies run taskId entry := by
  obtain ⟨hmem, htest⟩ := findLast_eq_some h
  exact ⟨hmem, certifies_of_matches htest⟩

/-- An id that stands for an acceptance of the task. -/
def Certified (run : AnyRun) (authority : ReceiptAuthority) (taskId acceptanceId : String) : Prop :=
  ∃ entry ∈ authority.accepted, entry.idempotencyKey = acceptanceId ∧ Certifies run taskId entry

theorem selected_certified {taskIds : List String} {entries : List ScopedWorkerAcceptanceEvent}
    (h : taskIds.mapM (selected run authority) = some entries) :
    List.Forall₂ (Certified run authority) taskIds (entries.map (·.idempotencyKey)) := by
  rw [List.forall₂_map_right_iff]
  refine (Foundation.Schema.mapM_eq_some.mp h).imp fun taskId entry hentry ↦ ?_
  obtain ⟨hmem, hcertifies⟩ := selected_eq_some hentry
  exact ⟨entry, hmem, rfl, hcertifies⟩

theorem startCompletionAcceptanceIds_certified {plan : Plan} {acceptanceIds : List String}
    (h : startCompletionAcceptanceIds run plan authority = some acceptanceIds) :
    List.Forall₂ (Certified run authority) plan.taskIds acceptanceIds := by
  unfold startCompletionAcceptanceIds at h
  split at h
  · cases h
  · split at h
    · cases h
    · obtain ⟨entries, hentries, rfl⟩ := Option.map_eq_some_iff.mp h
      exact selected_certified hentries

/-- The task that has used up its attempts in the current epoch and generation. -/
structure Exhausted (run : AnyRun) (authority : ReceiptAuthority) (entry : RejectionEntry) : Prop where
  recorded : entry ∈ authority.rejected
  ownerEpoch : entry.ownerEpoch = run.owner.epoch
  taskGeneration : entry.taskGeneration = authority.taskGeneration
  count : entry.count = 3
  status : entry.status = .needsParentDecision
  unaccepted : currentAcceptance run authority entry.taskId = none

theorem exhaustedTaskId_eq_some (h : exhaustedTaskId run authority = some taskId) :
    ∃ entry, Exhausted run authority entry ∧ entry.taskId = taskId := by
  unfold exhaustedTaskId at h
  split at h
  · cases h
  · obtain ⟨entry, hentry, rfl⟩ := Option.map_eq_some_iff.mp h
    obtain ⟨hmem, htest⟩ := findLast_eq_some hentry
    simp only [Bool.and_eq_true, decide_eq_true_eq] at htest
    obtain ⟨⟨⟨⟨hepoch, hgeneration⟩, hcount⟩, hstatus⟩, hunaccepted⟩ := htest
    exact ⟨entry, ⟨hmem, hepoch, hgeneration, hcount, hstatus, hunaccepted⟩, rfl⟩

end ReceiptAuthority

end OmpLazy.State

import OmpLazy.State.CommitLaws
import OmpLazy.State.IndexClosure

namespace OmpLazy.State

open OmpLazy.Foundation OmpLazy.Foundation.Schema EventStore Action Store

inductive RecoveryInspection where
  | healthy (revision : ℕ)
  | repairable (eventSequence : ℕ)
  | multipleEventsAhead
  | indexAhead
  | corrupt
  deriving DecidableEq, Repr

/-- Whatever cannot be read makes the root corrupt. -/
def inspectRecovery (disk : Disk) : RecoveryInspection :=
  match readIndex disk, readEvents disk with
  | .ok index, .ok events =>
    if highestSequence events = index.revision then .healthy index.revision
    else if highestSequence events = index.revision + 1 then .repairable (highestSequence events)
    else if highestSequence events > index.revision then .multipleEventsAhead
    else .indexAhead
  | _, _ => .corrupt

inductive RepairErrorCode where
  | transaction (code : TransactionErrorCode)
  | notRepairable
  | indexRevisionConflict
  | runConflict
  | transition (code : TransitionErrorCode)
  deriving DecidableEq, Repr

/-- What `repairState` decides from the files, before it writes. -/
inductive RepairDecision where
  | refused (code : RepairErrorCode)
  | publish (run : AnyRun) (runPublished : Bool) (index : ActiveIndex)
  deriving DecidableEq

/-- A snapshot that is stamped with the event was published before the crash. -/
def repairEvent (disk : Disk) (index : ActiveIndex) (event : PersistedStateEvent)
    (current : Option AnyRun) : Except Thrown RepairDecision :=
  match current.filter (·.transactionRevision = event.sequence) with
  | some run =>
    if run.runId ≠ event.runId ∨ run.workflow ≠ event.workflow then .ok (.refused .runConflict)
    else .ok (.publish run true (deriveIndex index run event.sequence))
  | none => do
    let authority ← readAuthority disk event current
    match prepareTransition index current event authority with
    | .error code => return .refused (.transition code)
    | .ok prepared =>
      return .publish prepared.run false (deriveIndex index prepared.run event.sequence)

def decideRepair (root : StateRoot) (disk : Disk) : Except Thrown RepairDecision := do
  let index ← readIndex disk
  let events ← readEvents disk
  match events.getLast? with
  | none => return .refused .notRepairable
  | some event =>
    if event.sequence ≠ index.revision + 1 then return .refused .notRepairable
    else if event.expected.indexRevision ≠ index.revision then return .refused .indexRevisionConflict
    else repairEvent disk index event (← readRun root disk event.runId)

structure Repaired where
  run : AnyRun
  index : ActiveIndex
  deriving DecidableEq

def repairState (root : StateRoot) (options : CallOptions) : Store (Except RepairErrorCode Repaired) := do
  if !(← isValid) then return .error (.transaction .deadlineExpired)
  if let some code := options.escape then return .error (.transaction code)
  if !(← tryAcquire options.free options.waits) then return .error (.transaction .lockTimeout)
  match decideRepair root (← get).disk with
  | .error error => throw error
  | .ok (.refused code) => return .error code
  | .ok (.publish run runPublished index) => do
    if !(← isValid) then return .error (.transaction .deadlineExpired)
    if !runPublished then atomicReplace (·.writeRun run)
    if !(← isValid) then return .error (.transaction .deadlineExpired)
    atomicReplace (·.writeIndex index)
    return .ok ⟨run, index⟩

/-- What a decision does to the files. -/
def RepairDecision.written (disk : Disk) : RepairDecision → Disk
  | .refused _ => disk
  | .publish run runPublished index =>
    (if runPublished then disk else disk.writeRun run).writeIndex index

section Inspection

variable {disk : Disk} {index : ActiveIndex} {events : List PersistedStateEvent}

theorem inspectRecovery_of_read (hindex : readIndex disk = .ok index)
    (hevents : readEvents disk = .ok events) :
    inspectRecovery disk =
      if events.length = index.revision then .healthy index.revision
      else if events.length = index.revision + 1 then .repairable events.length
      else if events.length > index.revision then .multipleEventsAhead
      else .indexAhead := by
  rw [inspectRecovery, hindex, hevents]
  simp only [highestSequence_eq (readEvents_eq_ok.mp hevents)]

/-- The index and the log of a healthy root can be read. -/
theorem read_of_healthy {revision : ℕ} (h : inspectRecovery disk = .healthy revision) :
    ∃ index events, readIndex disk = .ok index ∧ readEvents disk = .ok events := by
  rw [inspectRecovery] at h
  split at h
  · exact ⟨_, _, ‹_›, ‹_›⟩
  · cases h

end Inspection

section Repair

variable {disk : Disk} {index next : ActiveIndex} {event : PersistedStateEvent} {current : Option AnyRun}
  {run : AnyRun} {published : Bool}

/-- A repair publishes the snapshot that is there already, or the result of the transition. -/
theorem repairEvent_publish : repairEvent disk index event current = .ok (.publish run published next) ↔
    next = deriveIndex index run event.sequence ∧
      ((published = true ∧ current = some run ∧ run.transactionRevision = event.sequence ∧
        run.runId = event.runId ∧ run.workflow = event.workflow) ∨
      (published = false ∧ current.filter (·.transactionRevision = event.sequence) = none ∧
        ∃ authority prepared, readAuthority disk event current = .ok authority ∧
          prepareTransition index current event authority = .ok prepared ∧ prepared.run = run)) := by
  rw [repairEvent]
  cases hfilter : current.filter (·.transactionRevision = event.sequence) with
  | some run' =>
    obtain ⟨rfl, hstamp⟩ := Option.filter_eq_some_iff.mp hfilter
    dsimp only
    by_cases hids : run'.runId ≠ event.runId ∨ run'.workflow ≠ event.workflow
    · simp only [if_pos hids, Except.ok.injEq, reduceCtorEq, false_and, and_false, or_false, false_iff]
      rintro ⟨-, -, hrun, -, hid, hworkflow⟩
      obtain rfl := Option.some.inj hrun
      simp [hid, hworkflow] at hids
    · rw [if_neg hids]
      simp only [ne_eq, not_or, not_not] at hids
      simp only [Except.ok.injEq, RepairDecision.publish.injEq, Option.some.injEq, reduceCtorEq, false_and,
        and_false, or_false]
      constructor
      · rintro ⟨rfl, rfl, rfl⟩
        exact ⟨rfl, rfl, rfl, by simpa using hstamp, hids⟩
      · rintro ⟨rfl, rfl, rfl, -⟩
        exact ⟨rfl, rfl, rfl⟩
  | none =>
    have hnot : ¬ (current = some run ∧ run.transactionRevision = event.sequence) := by
      rintro ⟨rfl, hstamp⟩
      simp [Option.filter, hstamp] at hfilter
    cases hauthority : readAuthority disk event current with
    | error error =>
      simp only [bind, Except.bind, reduceCtorEq, false_and, exists_false, and_false, or_false, false_iff]
      rintro ⟨-, -, hrun, hstamp, -⟩
      exact hnot ⟨hrun, hstamp⟩
    | ok authority =>
      cases hprepared : prepareTransition index current event authority with
      | error code =>
        simp only [bind, Except.bind, hprepared, pure, Except.pure, Except.ok.injEq, reduceCtorEq, false_iff]
        rintro ⟨-, ⟨-, hrun, hstamp, -⟩ | ⟨-, -, _, _, rfl, h, -⟩⟩
        · exact hnot ⟨hrun, hstamp⟩
        · cases hprepared.symm.trans h
      | ok prepared =>
        simp only [bind, Except.bind, hprepared, pure, Except.pure, Except.ok.injEq,
          RepairDecision.publish.injEq]
        constructor
        · rintro ⟨rfl, rfl, rfl⟩
          exact ⟨rfl, .inr ⟨rfl, trivial, authority, prepared, rfl, hprepared, rfl⟩⟩
        · rintro ⟨rfl, ⟨-, hrun, hstamp, -⟩ | ⟨rfl, -, _, _, rfl, h, rfl⟩⟩
          · exact absurd ⟨hrun, hstamp⟩ hnot
          · obtain rfl := Except.ok.inj (hprepared.symm.trans h)
            exact ⟨rfl, rfl, rfl⟩

end Repair

/-- Without a deadline and with the lock free, a repair writes what it decided. -/
theorem disk_repairState {root : StateRoot} {options : CallOptions} {disk : Disk}
    {decision : RepairDecision} (hescape : options.escape = none) (hfree : options.free = true)
    (h : decideRepair root disk = .ok decision) :
    (exec (repairState root options) ⟨disk, none⟩).2.disk = decision.written disk := by
  simp only [repairState, exec_bind, exec_get, exec_isValid_none, hescape, hfree, exec_tryAcquire_none,
    Bool.not_true, Bool.false_eq_true, if_false, h]
  cases decision with
  | refused code => rfl
  | publish run runPublished index => cases runPublished <;> rfl

theorem disk_repairState_of_error {root : StateRoot} {options : CallOptions} {disk : Disk}
    {error : Thrown} (hescape : options.escape = none) (hfree : options.free = true)
    (h : decideRepair root disk = .error error) :
    (exec (repairState root options) ⟨disk, none⟩).2.disk = disk := by
  simp only [repairState, exec_bind, exec_get, exec_isValid_none, hescape, hfree, exec_tryAcquire_none,
    Bool.not_true, Bool.false_eq_true, if_false, h]
  rfl

end OmpLazy.State

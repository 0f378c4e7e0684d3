import OmpLazy.State.TransactionStore
import OmpLazy.State.TransitionLaws

namespace OmpLazy.State

open OmpLazy.Foundation EventStore Action Store

namespace Deadline

/-- The deadline is over at the check after `n` others. -/
def expired (deadline : Deadline) (n : ℕ) : Bool :=
  match deadline with
  | none => false
  | some checks => checks ≤ n

/-- What is left of a deadline after `n` checks. -/
def after (deadline : Deadline) (n : ℕ) : Deadline := deadline.map (· - n)

theorem after_zero (deadline : Deadline) : deadline.after 0 = deadline := by
  cases deadline <;> rfl

@[simp] theorem after_none (n : ℕ) : after none n = none := rfl

@[simp] theorem expired_none (n : ℕ) : expired none n = false := rfl

theorem expired_mono {deadline : Deadline} {n m : ℕ} (h : deadline.expired n = true) (hle : n ≤ m) :
    deadline.expired m = true := by
  cases deadline with
  | none => exact h
  | some checks =>
    simp only [expired, decide_eq_true_eq] at h ⊢
    omega

theorem after_of_expired {deadline : Deadline} {n m : ℕ} (h : deadline.expired n = true)
    (hle : n ≤ m) : deadline.after m = deadline.after n := by
  cases deadline with
  | none => rfl
  | some checks =>
    simp only [expired, decide_eq_true_eq] at h
    simp only [after, Option.map_some, Option.some.injEq]
    omega

/-- The first check that fails is the one after `n` others. -/
theorem expired_first {deadline : Deadline} {n : ℕ} :
    deadline = some (n + 1) ↔ deadline.expired n = false ∧ deadline.expired (n + 1) = true := by
  cases deadline with
  | none => simp [expired]
  | some checks =>
    simp only [Option.some.injEq, expired, decide_eq_false_iff_not, decide_eq_true_eq]
    omega

end Deadline

section Actions

variable {disk : Disk} {deadline : Deadline} {n : ℕ}

theorem exec_isValid : exec isValid ⟨disk, deadline.after n⟩ =
    (.ok (!deadline.expired n), ⟨disk, deadline.after (n + 1)⟩) := by
  cases deadline with
  | none => rfl
  | some checks =>
    cases h : checks - n with
    | zero =>
      have hexpired : Deadline.expired (some checks) n = true := by
        simp only [Deadline.expired, decide_eq_true_eq]; omega
      have hnext : checks - (n + 1) = 0 := by omega
      rw [hexpired]
      simp only [Deadline.after, Option.map_some, h, hnext]
      rfl
    | succ left =>
      have hexpired : Deadline.expired (some checks) n = false := by
        simp only [Deadline.expired, decide_eq_false_iff_not]; omega
      have hnext : checks - (n + 1) = left := by omega
      rw [hexpired]
      simp only [Deadline.after, Option.map_some, h, hnext]
      rfl

theorem exec_assertDeadline : exec assertDeadline ⟨disk, deadline.after n⟩ =
    (if deadline.expired n then .error .atomicFile else .ok (), ⟨disk, deadline.after (n + 1)⟩) := by
  rw [assertDeadline, exec_bind, exec_isValid]
  cases deadline.expired n <;> rfl

theorem exec_atomicReplace {write : Disk → Disk} : exec (atomicReplace write) ⟨disk, deadline.after n⟩ =
    if deadline.expired (n + 1) then (.error .atomicFile, ⟨disk, deadline.after (n + 2)⟩)
    else (.ok (), ⟨write disk, deadline.after (n + 2)⟩) := by
  rw [atomicReplace, exec_bind, exec_assertDeadline]
  cases hfirst : deadline.expired n with
  | true =>
    rw [Deadline.expired_mono hfirst (Nat.le_add_right n 1), Deadline.after_of_expired hfirst
      (Nat.le_add_right n 1), Deadline.after_of_expired hfirst (Nat.le_add_right n 2)]
    rfl
  | false =>
    simp only [Bool.false_eq_true, if_false, exec_bind, exec_assertDeadline]
    cases deadline.expired (n + 1) <;> rfl

theorem exec_append {event : EventObject} : exec (append event) ⟨disk, deadline.after n⟩ =
    if event.value.sequence < 1 then (.error (.eventStore .eventSequenceGap), ⟨disk, deadline.after n⟩)
    else if deadline.expired (n + 1) then (.error .atomicFile, ⟨disk, deadline.after (n + 2)⟩)
    else if eventName event.value ∈ disk.events.map (·.name) then
      (.error .fileExists, ⟨disk, deadline.after (n + 2)⟩)
    else (.ok (), ⟨disk.appendEvent event, deadline.after (n + 2)⟩) := by
  simp only [append, exec_ite, exec_bind, exec_throw, exec_get, exec_modify, exec_assertDeadline]
  cases hfirst : deadline.expired n with
  | true =>
    rw [Deadline.expired_mono hfirst (Nat.le_add_right n 1), Deadline.after_of_expired hfirst
      (Nat.le_add_right n 1), Deadline.after_of_expired hfirst (Nat.le_add_right n 2)]
    simp
  | false =>
    cases hsecond : deadline.expired (n + 1) <;>
      by_cases hname : eventName event.value ∈ disk.events.map (·.name) <;>
        simp only [exec_assertDeadline, hsecond, hname, Bool.false_eq_true, if_true, if_false]

theorem exec_tryAcquire {free : Bool} (waits : ℕ) : exec (tryAcquire free waits) ⟨disk, deadline.after n⟩ =
    (.ok (free && !deadline.expired (n + 2 * waits)), ⟨disk, deadline.after (n + 2 * waits + 1)⟩) := by
  induction waits generalizing n with
  | zero =>
    rw [tryAcquire, exec_bind, exec_isValid]
    cases deadline.expired n <;> cases free <;> rfl
  | succ waits ih =>
    have hcount : n + 2 * (waits + 1) = n + 2 + 2 * waits := by omega
    rw [tryAcquire, exec_bind, exec_isValid, hcount]
    cases hfirst : deadline.expired n with
    | true =>
      have hlast := Deadline.expired_mono hfirst (show n ≤ n + 2 + 2 * waits by omega)
      rw [hlast, Deadline.after_of_expired hfirst (show n ≤ n + 2 + 2 * waits + 1 by omega),
        Deadline.after_of_expired hfirst (show n ≤ n + 1 by omega)]
      simp
    | false =>
      simp only [Bool.not_false, if_true, exec_bind, exec_isValid]
      cases hsecond : deadline.expired (n + 1) with
      | true =>
        have hlast := Deadline.expired_mono hsecond (show n + 1 ≤ n + 2 + 2 * waits by omega)
        rw [hlast, Deadline.after_of_expired hsecond (show n + 1 ≤ n + 2 + 2 * waits + 1 by omega),
          Deadline.after_of_expired hsecond (show n + 1 ≤ n + 1 + 1 by omega)]
        simp
      | false => simp [ih]

/-! Actions that time does not limit. -/

@[simp] theorem exec_isValid_none : exec isValid ⟨disk, none⟩ = (.ok true, ⟨disk, none⟩) := rfl

@[simp] theorem exec_atomicReplace_none {write : Disk → Disk} :
    exec (atomicReplace write) ⟨disk, none⟩ = (.ok (), ⟨write disk, none⟩) := rfl

@[simp] theorem exec_tryAcquire_none {free : Bool} (waits : ℕ) :
    exec (tryAcquire free waits) ⟨disk, none⟩ = (.ok free, ⟨disk, none⟩) := by
  simpa using @exec_tryAcquire disk none 0 free waits

theorem exec_crash {crashAt : Option CrashPoint} {point : CrashPoint} {session : Session} :
    exec (crash crashAt point) session =
      (if crashAt = some point then .error (.crashed point) else .ok (), session) := by
  rw [crash, exec_ite]
  split <;> rfl

variable {crashAt : Option CrashPoint} {event : EventObject} {prepared : PreparedTransition}

theorem exec_publishIndex : exec (publishIndex crashAt prepared) ⟨disk, deadline.after n⟩ =
    if deadline.expired n then (.ok (.error .deadlineExpired), ⟨disk, deadline.after (n + 1)⟩)
    else if deadline.expired (n + 2) then (.error .atomicFile, ⟨disk, deadline.after (n + 3)⟩)
    else (if crashAt = some .afterIndex then .error (.crashed .afterIndex)
      else .ok (.ok ⟨.committed, prepared.run, prepared.index⟩),
        ⟨disk.writeIndex prepared.index, deadline.after (n + 3)⟩) := by
  simp only [publishIndex, exec_bind, exec_isValid, exec_ite, exec_pure, exec_atomicReplace, exec_crash]
  cases deadline.expired n with
  | true => rfl
  | false =>
    cases deadline.expired (n + 2) with
    | true => rfl
    | false => by_cases hcrash : crashAt = some .afterIndex <;> simp [hcrash]

theorem exec_publishRun : exec (publishRun crashAt prepared) ⟨disk, deadline.after n⟩ =
    if deadline.expired n then (.ok (.error .deadlineExpired), ⟨disk, deadline.after (n + 1)⟩)
    else if deadline.expired (n + 2) then (.error .atomicFile, ⟨disk, deadline.after (n + 3)⟩)
    else if crashAt = some .afterRun then
      (.error (.crashed .afterRun), ⟨disk.writeRun prepared.run, deadline.after (n + 3)⟩)
    else exec (publishIndex crashAt prepared) ⟨disk.writeRun prepared.run, deadline.after (n + 3)⟩ := by
  simp only [publishRun, exec_bind, exec_isValid, exec_ite, exec_pure, exec_atomicReplace, exec_crash]
  cases deadline.expired n with
  | true => rfl
  | false =>
    cases deadline.expired (n + 2) with
    | true => rfl
    | false => by_cases hcrash : crashAt = some .afterRun <;> simp [hcrash]

theorem exec_publish : exec (publish crashAt event prepared) ⟨disk, deadline.after n⟩ =
    if crashAt = some .beforeEvent then (.error (.crashed .beforeEvent), ⟨disk, deadline.after n⟩)
    else if deadline.expired n then (.ok (.error .deadlineExpired), ⟨disk, deadline.after (n + 1)⟩)
    else if event.value.sequence < 1 then
      (.error (.eventStore .eventSequenceGap), ⟨disk, deadline.after (n + 1)⟩)
    else if deadline.expired (n + 2) then (.error .atomicFile, ⟨disk, deadline.after (n + 3)⟩)
    else if eventName event.value ∈ disk.events.map (·.name) then
      (.error .fileExists, ⟨disk, deadline.after (n + 3)⟩)
    else if crashAt = some .afterEvent then
      (.error (.crashed .afterEvent), ⟨disk.appendEvent event, deadline.after (n + 3)⟩)
    else exec (publishRun crashAt prepared) ⟨disk.appendEvent event, deadline.after (n + 3)⟩ := by
  simp only [publish, exec_bind, exec_ite, exec_pure, exec_crash]
  by_cases hbefore : crashAt = some .beforeEvent
  · simp only [if_pos hbefore]
  simp only [if_neg hbefore, exec_isValid]
  cases deadline.expired n with
  | true => rfl
  | false =>
    simp only [Bool.not_false, Bool.not_true, Bool.false_eq_true, if_false, exec_append]
    by_cases hsequence : event.value.sequence < 1
    · simp only [if_pos hsequence]
    cases deadline.expired (n + 2) with
    | true => simp only [if_neg hsequence, if_true]
    | false =>
      by_cases hname : eventName event.value ∈ disk.events.map (·.name)
      · simp only [hsequence, hname, if_true, if_false, Bool.false_eq_true]
      · by_cases hafter : crashAt = some .afterEvent <;>
          simp only [hsequence, hname, hafter, if_true, if_false, Bool.false_eq_true]

/-- `commit` up to its decision; the lock is held after `2 * waits + 2` checks. -/
theorem exec_commit {root : StateRoot} {options : CommitOptions} :
    exec (commit root options event) ⟨disk, deadline⟩ =
    if deadline.expired 0 then (.ok (.error .deadlineExpired), ⟨disk, deadline.after 1⟩)
    else if Text.isUuid event.value.runId = false then (.error .invalidUuid, ⟨disk, deadline.after 1⟩)
    else
      match options.escape with
      | some code => (.ok (.error code), ⟨disk, deadline.after 1⟩)
      | none =>
        if options.free = false ∨ deadline.expired (2 * options.waits + 1) = true then
          (.ok (.error (if deadline.expired (2 * options.waits + 2) then .deadlineExpired
            else .lockTimeout)), ⟨disk, deadline.after (2 * options.waits + 3)⟩)
        else
          match decideCommit root disk event with
          | .error error => (.error error, ⟨disk, deadline.after (2 * options.waits + 2)⟩)
          | .ok (.refused code) => (.ok (.error code), ⟨disk, deadline.after (2 * options.waits + 2)⟩)
          | .ok (.replayed run index) =>
            (.ok (.ok ⟨.replayed, run, index⟩), ⟨disk, deadline.after (2 * options.waits + 2)⟩)
          | .ok (.accepted persisted prepared) =>
            exec (publish options.crash persisted prepared)
              ⟨disk, deadline.after (2 * options.waits + 2)⟩ := by
  conv_lhs => rw [← deadline.after_zero]
  simp only [commit, exec_bind, exec_ite, exec_pure, exec_throw, exec_isValid]
  cases deadline.expired 0 with
  | true => rfl
  | false =>
    simp only [Bool.not_false, Bool.not_true, Bool.false_eq_true, if_false]
    cases Text.isUuid event.value.runId with
    | false => rfl
    | true =>
      simp only [Bool.not_true, Bool.false_eq_true, if_false]
      cases options.escape with
      | some code => rfl
      | none =>
        have hcount : 0 + 1 + 2 * options.waits = 2 * options.waits + 1 := by omega
        simp only [exec_bind, exec_tryAcquire, hcount]
        have hrefused : exec (do
            return .error (if ← isValid then .lockTimeout else .deadlineExpired) : Store TransactionResult)
              ⟨disk, deadline.after (2 * options.waits + 2)⟩ =
            (.ok (.error (if deadline.expired (2 * options.waits + 2) then .deadlineExpired
              else .lockTimeout)), ⟨disk, deadline.after (2 * options.waits + 3)⟩) := by
          rw [exec_bind, exec_isValid]
          cases deadline.expired (2 * options.waits + 2) <;> rfl
        cases options.free with
        | false => exact hrefused
        | true =>
          cases deadline.expired (2 * options.waits + 1) with
          | true => exact hrefused
          | false =>
            simp only [exec_ite, exec_bind, exec_get]
            cases decideCommit root disk event with
            | error error => rfl
            | ok decision => cases decision <;> rfl

end Actions

end OmpLazy.State

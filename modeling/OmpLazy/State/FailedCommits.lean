import OmpLazy.State.CommitLaws
import OmpLazy.State.SnapshotClosure

namespace OmpLazy.State

open OmpLazy.Foundation EventStore Action Store

/-- The deadline of a call runs out at the check that follows the append, or at the one that follows
the replacement of the snapshot, and the call gets there. -/
structure ExpiresMidway (root : StateRoot) (options : CommitOptions) (disk : Disk) (deadline : Deadline)
    (event : EventObject) : Prop where
  runId : Text.isUuid event.value.runId = true
  escape : options.escape = none
  free : options.free = true
  admitted : ∃ index events current authority prepared,
    Admits root disk event index events current authority prepared ∧
      eventName (persistedEventForIndex index event).value ∉ disk.events.map (·.name)
  expiry : (deadline = some (2 * options.waits + 5) ∧
      options.crash ≠ some .beforeEvent ∧ options.crash ≠ some .afterEvent) ∨
    (deadline = some (2 * options.waits + 8) ∧ options.crash ≠ some .beforeEvent ∧
      options.crash ≠ some .afterEvent ∧ options.crash ≠ some .afterRun)

section

variable {root : StateRoot} {options : CommitOptions} {disk : Disk} {deadline : Deadline}
  {event : EventObject} {prepared : PreparedTransition} {crashAt : Option CrashPoint}
  {code : TransactionErrorCode} {session : Session} {n : ℕ}

theorem publish_failed
    (h : exec (publish crashAt event prepared) ⟨disk, deadline.after n⟩ = (.ok (.error code), session)) :
    session.disk = disk ∨ eventName event.value ∉ disk.events.map (·.name) ∧
      ((deadline = some (n + 3) ∧ crashAt ≠ some .beforeEvent ∧ crashAt ≠ some .afterEvent) ∨
        (deadline = some (n + 6) ∧ crashAt ≠ some .beforeEvent ∧ crashAt ≠ some .afterEvent ∧
          crashAt ≠ some .afterRun)) := by
  rw [exec_publish] at h
  split_ifs at h with hbefore hexpired hsequence hlate hname hafter
  · cases h
  · obtain ⟨-, rfl⟩ := Prod.mk.inj h
    exact .inl rfl
  · cases h
  · cases h
  · cases h
  · cases h
  rw [exec_publishRun] at h
  split_ifs at h with hexpired hlate' hafterRun
  · exact .inr ⟨hname, .inl ⟨Deadline.expired_first.mpr ⟨by simpa using hlate, hexpired⟩, hbefore, hafter⟩⟩
  · cases h
  · cases h
  rw [exec_publishIndex] at h
  split_ifs at h with hexpired
  · exact .inr ⟨hname, .inr ⟨Deadline.expired_first.mpr ⟨by simpa using hlate', hexpired⟩, hbefore, hafter,
      hafterRun⟩⟩
  · cases h
  · cases h
  · cases h

theorem publish_midway (hsequence : 1 ≤ event.value.sequence)
    (hname : eventName event.value ∉ disk.events.map (·.name))
    (h : (deadline = some (n + 3) ∧ crashAt ≠ some .beforeEvent ∧ crashAt ≠ some .afterEvent) ∨
      (deadline = some (n + 6) ∧ crashAt ≠ some .beforeEvent ∧ crashAt ≠ some .afterEvent ∧
        crashAt ≠ some .afterRun)) :
    ∃ session, exec (publish crashAt event prepared) ⟨disk, deadline.after n⟩ =
        (.ok (.error .deadlineExpired), session) ∧
      session.disk.events = disk.events ++ [eventFile event] := by
  have hpositive : ¬ event.value.sequence < 1 := Nat.not_lt.mpr hsequence
  obtain ⟨rfl, hbefore, hafter⟩ | ⟨rfl, hbefore, hafter, hafterRun⟩ := h
  · have hexec : exec (publish crashAt event prepared) ⟨disk, Deadline.after (some (n + 3)) n⟩ =
        (.ok (.error .deadlineExpired),
          ⟨disk.appendEvent event, Deadline.after (some (n + 3)) (n + 3 + 1)⟩) := by
      rw [exec_publish, if_neg hbefore, if_neg (by simp [Deadline.expired]), if_neg hpositive,
        if_neg (by simp [Deadline.expired]), if_neg hname, if_neg hafter, exec_publishRun,
        if_pos (by simp [Deadline.expired])]
    exact ⟨_, hexec, rfl⟩
  · have hexec : exec (publish crashAt event prepared) ⟨disk, Deadline.after (some (n + 6)) n⟩ =
        (.ok (.error .deadlineExpired), ⟨(disk.appendEvent event).writeRun prepared.run,
          Deadline.after (some (n + 6)) (n + 3 + 3 + 1)⟩) := by
      rw [exec_publish, if_neg hbefore, if_neg (by simp [Deadline.expired]), if_neg hpositive,
        if_neg (by simp [Deadline.expired]), if_neg hname, if_neg hafter, exec_publishRun,
        if_neg (by simp [Deadline.expired]), if_neg (by simp [Deadline.expired]), if_neg hafterRun,
        exec_publishIndex, if_pos (by simp [Deadline.expired])]
    exact ⟨_, hexec, rfl⟩

/-- A failed call leaves the files as they are, unless the deadline runs out midway. -/
theorem failed_commit_unchanged_iff :
    (∀ code session, exec (commit root options event) ⟨disk, deadline⟩ = (.ok (.error code), session) →
      session.disk = disk) ↔ ¬ ExpiresMidway root options disk deadline event := by
  constructor
  · intro hunchanged hmidway
    obtain ⟨index, events, current, authority, prepared, hadmits, hname⟩ := hmidway.admitted
    have htime : deadline.expired (2 * options.waits + 1) = false := by
      obtain ⟨rfl, -⟩ | ⟨rfl, -⟩ := hmidway.expiry <;> simp [Deadline.expired]
    have hsequence : 1 ≤ (persistedEventForIndex index event).value.sequence := by
      rw [hadmits.sequence]
      omega
    obtain ⟨session, hexec, hevents⟩ := publish_midway hsequence hname hmidway.expiry
    have hcommit : exec (commit root options event) ⟨disk, deadline⟩ =
        (.ok (.error .deadlineExpired), session) := by
      rw [exec_commit_unhindered ⟨hmidway.escape, hmidway.free, htime⟩ hmidway.runId,
        decideCommit_accepted.mpr ⟨index, events, current, authority, hadmits, rfl⟩]
      exact hexec
    rw [hunchanged _ _ hcommit] at hevents
    simp at hevents
  · intro hmidway code session h
    by_contra hchanged
    rw [exec_commit] at h
    split at h
    · obtain ⟨-, rfl⟩ := Prod.mk.inj h
      exact hchanged rfl
    split at h
    · cases h
    have hid := Bool.not_eq_false _ ▸ ‹¬ Text.isUuid event.value.runId = false›
    split at h
    · obtain ⟨-, rfl⟩ := Prod.mk.inj h
      exact hchanged rfl
    split at h
    · obtain ⟨-, rfl⟩ := Prod.mk.inj h
      exact hchanged rfl
    have hfree := ‹¬ (options.free = false ∨ _)›
    split at h
    · cases h
    · obtain ⟨-, rfl⟩ := Prod.mk.inj h
      exact hchanged rfl
    · cases h
    · rename_i hescape _ _ persisted prepared hdecision
      obtain ⟨index, events, current, authority, hadmits, rfl⟩ := decideCommit_accepted.mp hdecision
      obtain hsame | ⟨hname, hexpiry⟩ := publish_failed h
      · exact hchanged hsame
      · refine hmidway ⟨hid, hescape, ?_, ⟨index, events, current, authority, prepared, hadmits, hname⟩,
          hexpiry⟩
        simp only [not_or, Bool.not_eq_false] at hfree
        exact hfree.1

end

namespace Sample

/-- A root that was just initialised. -/
def initial : Disk where
  activeIndex := some (stringify (encodeActiveIndex ⟨.v2 1, 0, []⟩))
  events := []
  runs := fun _ ↦ none
  receipts := fun _ ↦ .error .unreadableReceipts

def creation : PersistedStateEvent where
  version := .v2 none none false
  eventId := "66666666-6666-4666-8666-666666666666"
  sequence := 1
  runId := runId
  workflow := .ulwLoop
  kind := .runCreated
  expected := ⟨0, none, none, none⟩
  mutation := .runCreated run
  atTime := now

/-- A call that finds the lock free at once. -/
def options : CommitOptions := ⟨⟨none, 0, true⟩, none⟩

end Sample

/-- The deadline runs out at the fifth check: the call fails, and the event stays in the log. -/
theorem failed_commit_appends :
    ∃ session, exec (commit Sample.root Sample.options (.ofValue Sample.creation))
        ⟨Sample.initial, some 5⟩ = (.ok (.error .deadlineExpired), session) ∧
      session.disk.events ≠ Sample.initial.events :=
  ⟨_, rfl, by decide⟩

end OmpLazy.State

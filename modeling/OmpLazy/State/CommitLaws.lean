import OmpLazy.State.TransactionLaws

namespace OmpLazy.State

open OmpLazy.Foundation OmpLazy.Foundation.Schema EventStore Action Store

section Reading

variable {root : StateRoot} {disk : Disk} {index : ActiveIndex} {run : AnyRun} {runId : Uuid}

theorem mapError_eq_ok {ε ε' α : Type} {f : ε → ε'} {x : Except ε α} {a : α} :
    x.mapError f = .ok a ↔ x = .ok a := by
  cases x <;> simp [Except.mapError]

theorem bind_eq_ok {ε α β : Type} {x : Except ε α} {next : α → Except ε β} {b : β} :
    (x >>= next) = .ok b ↔ ∃ a, x = .ok a ∧ next a = .ok b := by
  cases x <;> simp [bind, Except.bind]

theorem map_some_eq_ok {ε α : Type} {x : Except ε α} {a : α} :
    x.map some = .ok (some a) ↔ x = .ok a := by
  cases x <;> simp [Except.map]

theorem readIndex_eq_ok : readIndex disk = .ok index ↔
    (disk.activeIndex = none ∧ index = ⟨.v1, 0, []⟩) ∨
      ∃ bytes, disk.activeIndex = some bytes ∧ decodeActiveIndex bytes = .ok index := by
  rw [readIndex]
  cases disk.activeIndex with
  | none => simp [eq_comm]
  | some bytes => simp [mapError_eq_ok]

theorem readRun_eq_some : readRun root disk runId = .ok (some run) ↔
    Text.isUuid runId = true ∧
      ∃ bytes, disk.runs runId = some bytes ∧ decodeRun root bytes = .ok run := by
  rw [readRun]
  cases Text.isUuid runId <;> cases disk.runs runId <;>
    simp [mapError_eq_ok, map_some_eq_ok]

theorem readEvents_eq_ok {events : List PersistedStateEvent} :
    readEvents disk = .ok events ↔ readAll disk.events = .ok events := mapError_eq_ok

/-- An index that was read is valid, and its own text is read back as it is. -/
theorem readIndex_settled (h : readIndex disk = .ok index) :
    activeIndexSchema (encodeActiveIndex index) = some index ∧ index.Valid := by
  obtain ⟨-, rfl⟩ | ⟨bytes, -, hbytes⟩ := readIndex_eq_ok.mp h
  · exact ⟨rfl, ActiveIndex.validateActiveIndex_eq_ok.mp rfl⟩
  · obtain ⟨json, -, hjson, hvalid⟩ := decodeActiveIndex_eq_ok.mp hbytes
    exact ⟨ActiveIndex.reads.reread hjson, hvalid⟩

theorem readRun_settled (h : readRun root disk runId = .ok (some run)) :
    runSchema (encodeRun run) = some run ∧ planContained root run = true := by
  obtain ⟨-, bytes, -, hbytes⟩ := readRun_eq_some.mp h
  obtain ⟨json, -, hjson, hplan⟩ := decodeRun_eq_ok.mp hbytes
  exact ⟨AnyRun.reads.reread hjson, hplan⟩

theorem readAll_numbered {files : List EventFile} {events : List PersistedStateEvent}
    (h : readAll files = .ok events) : Numbered events := by
  obtain ⟨-, -, -, hnumbered⟩ := readAll_eq_ok.mp h
  exact hnumbered

theorem highestSequence_eq {files : List EventFile} {events : List PersistedStateEvent}
    (h : readAll files = .ok events) : highestSequence events = events.length :=
  (readAll_numbered h).highest

end Reading

/-- What `commit` read and derived when it accepts an event. -/
structure Admits (root : StateRoot) (disk : Disk) (event : EventObject) (index : ActiveIndex)
    (events : List PersistedStateEvent) (current : Option AnyRun)
    (authority : Option ReceiptAuthority) (prepared : PreparedTransition) : Prop where
  hindex : readIndex disk = .ok index
  hevents : readEvents disk = .ok events
  hfresh : events.find? (·.eventId = event.value.eventId) = none
  hlevel : highestSequence events = index.revision
  hcurrent : readRun root disk event.value.runId = .ok current
  hauthority : readAuthority disk (persistedEventForIndex index event).value current = .ok authority
  hprepared : prepareTransition index current (persistedEventForIndex index event).value authority =
    .ok prepared

namespace Admits

variable {root : StateRoot} {disk : Disk} {event : EventObject} {index : ActiveIndex}
  {events : List PersistedStateEvent} {current : Option AnyRun} {authority : Option ReceiptAuthority}
  {prepared : PreparedTransition}

theorem length (h : Admits root disk event index events current authority prepared) :
    events.length = index.revision := by
  rw [← h.hlevel, highestSequence_eq (readEvents_eq_ok.mp h.hevents)]

theorem sequence (h : Admits root disk event index events current authority prepared) :
    (persistedEventForIndex index event).value.sequence = index.revision + 1 :=
  (prepareTransition_eq_ok.mp h.hprepared).2.1

end Admits

/-- What `commit` read when it replays an event. -/
structure Replays (root : StateRoot) (disk : Disk) (event : EventObject) (index : ActiveIndex)
    (events : List PersistedStateEvent) (replay : PersistedStateEvent) (run : AnyRun) : Prop where
  hindex : readIndex disk = .ok index
  hevents : readEvents disk = .ok events
  hfound : events.find? (·.eventId = event.value.eventId) = some replay
  hsemantics : eventSemantics (encodeEvent replay) = eventSemantics event.object
  hrun : readRun root disk event.value.runId = .ok (some run)

section Decision

variable {root : StateRoot} {disk : Disk} {event persisted : EventObject}
  {prepared : PreparedTransition} {index : ActiveIndex} {run : AnyRun}

theorem decideCommit_accepted : decideCommit root disk event = .ok (.accepted persisted prepared) ↔
    ∃ index events current authority,
      Admits root disk event index events current authority prepared ∧
        persisted = persistedEventForIndex index event := by
  constructor
  · intro h
    simp only [decideCommit, bind_eq_ok] at h
    obtain ⟨index, hindex, events, hevents, h⟩ := h
    split at h
    · split at h
      · cases h
      · obtain ⟨run, -, h⟩ := bind_eq_ok.mp h
        cases run <;> cases h
    · rename_i hfresh
      split at h
      · cases h
      · obtain ⟨current, hcurrent, h⟩ := bind_eq_ok.mp h
        obtain ⟨authority, hauthority, h⟩ := bind_eq_ok.mp h
        split at h
        · cases h
        · cases h
          have hlevel := not_not.mp ‹¬ highestSequence events ≠ index.revision›
          exact ⟨index, events, current, authority,
            ⟨hindex, hevents, hfresh, hlevel, hcurrent, hauthority, ‹_›⟩, rfl⟩
  · rintro ⟨index, events, current, authority, h, rfl⟩
    simp [decideCommit, h.hindex, h.hevents, h.hfresh, h.hlevel, h.hcurrent, h.hauthority,
      h.hprepared, bind, Except.bind, pure, Except.pure]

theorem decideCommit_replayed : decideCommit root disk event = .ok (.replayed run index) ↔
    ∃ events replay, Replays root disk event index events replay run := by
  constructor
  · intro h
    simp only [decideCommit, bind_eq_ok] at h
    obtain ⟨index, hindex, events, hevents, h⟩ := h
    split at h
    · rename_i replay hfound
      split at h
      · cases h
      · obtain ⟨current, hcurrent, h⟩ := bind_eq_ok.mp h
        cases current with
        | none => cases h
        | some run =>
          cases h
          have hsemantics := not_not.mp ‹¬ eventSemantics (encodeEvent replay) ≠ _›
          exact ⟨events, replay, hindex, hevents, hfound, hsemantics, hcurrent⟩
    · split at h
      · cases h
      · obtain ⟨current, -, h⟩ := bind_eq_ok.mp h
        obtain ⟨authority, -, h⟩ := bind_eq_ok.mp h
        split at h <;> cases h
  · rintro ⟨events, replay, h⟩
    simp [decideCommit, h.hindex, h.hevents, h.hfound, h.hsemantics, h.hrun, bind, Except.bind, pure,
      Except.pure]

end Decision

/-- Where `publish` can end: nothing, the event, the snapshot too, or everything is written, and
only in the last case is the event reported as committed. -/
inductive Published (disk : Disk) (event : EventObject) (prepared : PreparedTransition) :
    Except Thrown TransactionResult → Disk → Prop
  | nothing (outcome) (h : ∀ done, outcome ≠ .ok (.ok done)) :
      Published disk event prepared outcome disk
  | appended (outcome) (h : ∀ done, outcome ≠ .ok (.ok done))
      (hname : eventName event.value ∉ disk.events.map (·.name)) :
      Published disk event prepared outcome (disk.appendEvent event)
  | replacedRun (outcome) (h : ∀ done, outcome ≠ .ok (.ok done))
      (hname : eventName event.value ∉ disk.events.map (·.name)) :
      Published disk event prepared outcome ((disk.appendEvent event).writeRun prepared.run)
  | crashed (hname : eventName event.value ∉ disk.events.map (·.name)) :
      Published disk event prepared (.error (.crashed .afterIndex)) (disk.publish event prepared)
  | committed (hname : eventName event.value ∉ disk.events.map (·.name)) :
      Published disk event prepared (.ok (.ok ⟨.committed, prepared.run, prepared.index⟩))
        (disk.publish event prepared)

section Effects

variable {root : StateRoot} {disk : Disk} {deadline : Deadline} {event : EventObject}
  {prepared : PreparedTransition} {options : CommitOptions} {outcome : Except Thrown TransactionResult}
  {session : Session} {n : ℕ}

theorem published_of_publishRun {crashAt : Option CrashPoint}
    (hname : eventName event.value ∉ disk.events.map (·.name))
    (h : exec (publishRun crashAt prepared) ⟨disk.appendEvent event, deadline.after n⟩ =
      (outcome, session)) : Published disk event prepared outcome session.disk := by
  rw [exec_publishRun] at h
  split_ifs at h
  · obtain ⟨rfl, rfl⟩ := Prod.mk.inj h
    exact .appended _ (by simp) hname
  · obtain ⟨rfl, rfl⟩ := Prod.mk.inj h
    exact .appended _ (by simp) hname
  · obtain ⟨rfl, rfl⟩ := Prod.mk.inj h
    exact .replacedRun _ (by simp) hname
  · rw [exec_publishIndex] at h
    split_ifs at h
    · obtain ⟨rfl, rfl⟩ := Prod.mk.inj h
      exact .replacedRun _ (by simp) hname
    · obtain ⟨rfl, rfl⟩ := Prod.mk.inj h
      exact .replacedRun _ (by simp) hname
    · obtain ⟨rfl, rfl⟩ := Prod.mk.inj h
      exact .crashed hname
    · obtain ⟨rfl, rfl⟩ := Prod.mk.inj h
      exact .committed hname

theorem published_of_publish {crashAt : Option CrashPoint}
    (h : exec (publish crashAt event prepared) ⟨disk, deadline.after n⟩ = (outcome, session)) :
    Published disk event prepared outcome session.disk := by
  rw [exec_publish] at h
  split_ifs at h with hbefore hexpired hsequence hlate hname hafter
  · obtain ⟨rfl, rfl⟩ := Prod.mk.inj h
    exact .nothing _ (by simp)
  · obtain ⟨rfl, rfl⟩ := Prod.mk.inj h
    exact .nothing _ (by simp)
  · obtain ⟨rfl, rfl⟩ := Prod.mk.inj h
    exact .nothing _ (by simp)
  · obtain ⟨rfl, rfl⟩ := Prod.mk.inj h
    exact .nothing _ (by simp)
  · obtain ⟨rfl, rfl⟩ := Prod.mk.inj h
    exact .nothing _ (by simp)
  · obtain ⟨rfl, rfl⟩ := Prod.mk.inj h
    exact .appended _ (by simp) hname
  · exact published_of_publishRun hname h

theorem Published.done {written : Disk} {done : Committed}
    (h : Published disk event prepared outcome written) (hdone : outcome = .ok (.ok done)) :
    done = ⟨.committed, prepared.run, prepared.index⟩ ∧
      eventName event.value ∉ disk.events.map (·.name) ∧ written = disk.publish event prepared := by
  cases h with
  | nothing _ hnot => exact absurd hdone (hnot _)
  | appended _ hnot => exact absurd hdone (hnot _)
  | replacedRun _ hnot => exact absurd hdone (hnot _)
  | crashed => cases hdone
  | committed hname => exact ⟨by simpa using hdone.symm, hname, rfl⟩

/-- A call of `commit` replays the event, leaves the files alone, or publishes an event that it
admits. -/
theorem commit_cases (h : exec (commit root options event) ⟨disk, deadline⟩ = (outcome, session)) :
    session.disk = disk ∧ (∀ done, outcome = .ok (.ok done) → done.status = .replayed) ∨
      Text.isUuid event.value.runId = true ∧ ∃ index events current authority prepared,
        Admits root disk event index events current authority prepared ∧
          Published disk (persistedEventForIndex index event) prepared outcome session.disk := by
  rw [exec_commit] at h
  split at h
  · obtain ⟨rfl, rfl⟩ := Prod.mk.inj h
    exact .inl ⟨rfl, by simp⟩
  split at h
  · obtain ⟨rfl, rfl⟩ := Prod.mk.inj h
    exact .inl ⟨rfl, by simp⟩
  have hid := Bool.not_eq_false _ ▸ ‹¬ Text.isUuid event.value.runId = false›
  split at h
  · obtain ⟨rfl, rfl⟩ := Prod.mk.inj h
    exact .inl ⟨rfl, by simp⟩
  split at h
  · obtain ⟨rfl, rfl⟩ := Prod.mk.inj h
    exact .inl ⟨rfl, by simp⟩
  split at h
  · obtain ⟨rfl, rfl⟩ := Prod.mk.inj h
    exact .inl ⟨rfl, by simp⟩
  · obtain ⟨rfl, rfl⟩ := Prod.mk.inj h
    exact .inl ⟨rfl, by simp⟩
  · obtain ⟨rfl, rfl⟩ := Prod.mk.inj h
    exact .inl ⟨rfl, by simp⟩
  · rename_i persisted prepared hdecision
    obtain ⟨index, events, current, authority, hadmits, rfl⟩ := decideCommit_accepted.mp hdecision
    exact .inr ⟨hid, index, events, current, authority, prepared, hadmits, published_of_publish h⟩

/-- A reported commit admitted the event and wrote everything. -/
theorem commit_committed {run : AnyRun} {index : ActiveIndex}
    (h : exec (commit root options event) ⟨disk, deadline⟩ =
      (.ok (.ok ⟨.committed, run, index⟩), session)) :
    Text.isUuid event.value.runId = true ∧ ∃ before events current authority,
      Admits root disk event before events current authority ⟨run, index⟩ ∧
        eventName (persistedEventForIndex before event).value ∉ disk.events.map (·.name) ∧
        session.disk = disk.publish (persistedEventForIndex before event) ⟨run, index⟩ := by
  obtain ⟨-, hreplayed⟩ | ⟨hid, before, events, current, authority, prepared, hadmits, hpublished⟩ :=
    commit_cases h
  · cases hreplayed _ rfl
  · obtain ⟨hdone, hname, hdisk⟩ := hpublished.done rfl
    obtain ⟨-, rfl, rfl⟩ := Committed.mk.inj hdone
    exact ⟨hid, before, events, current, authority, hadmits, hname, hdisk⟩

/-- A call that meets no obstacle before it has read the files. -/
structure Unhindered (options : CallOptions) (deadline : Deadline) : Prop where
  escape : options.escape = none
  free : options.free = true
  time : deadline.expired (2 * options.waits + 1) = false

theorem unhindered_of_done {done : Committed}
    (h : exec (commit root options event) ⟨disk, deadline⟩ = (.ok (.ok done), session)) :
    Unhindered options.toCallOptions deadline := by
  rw [exec_commit] at h
  split at h
  · cases h
  split at h
  · cases h
  split at h
  · cases h
  split at h
  · cases h
  · have hfree := ‹¬ (options.free = false ∨ _)›
    simp only [not_or, Bool.not_eq_false, Bool.not_eq_true] at hfree
    exact ⟨‹_›, hfree.1, hfree.2⟩

theorem exec_commit_unhindered (h : Unhindered options.toCallOptions deadline)
    (hid : Text.isUuid event.value.runId = true) :
    exec (commit root options event) ⟨disk, deadline⟩ =
      match decideCommit root disk event with
      | .error error => (.error error, ⟨disk, deadline.after (2 * options.waits + 2)⟩)
      | .ok (.refused code) => (.ok (.error code), ⟨disk, deadline.after (2 * options.waits + 2)⟩)
      | .ok (.replayed run index) =>
        (.ok (.ok ⟨.replayed, run, index⟩), ⟨disk, deadline.after (2 * options.waits + 2)⟩)
      | .ok (.accepted persisted prepared) =>
        exec (publish options.crash persisted prepared) ⟨disk, deadline.after (2 * options.waits + 2)⟩ := by
  have hstart : deadline.expired 0 = false := by
    cases hexpired : deadline.expired 0 with
    | false => rfl
    | true => rw [← h.time, Deadline.expired_mono hexpired (Nat.zero_le _)]
  rw [exec_commit, if_neg (by simp [hstart]), if_neg (by simp [hid]), h.escape]
  dsimp only
  exact if_neg (by simp [h.free, h.time])

end Effects

end OmpLazy.State

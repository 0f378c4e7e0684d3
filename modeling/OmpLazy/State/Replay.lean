import OmpLazy.State.CrashRecovery
import Mathlib.Logic.Relation

namespace OmpLazy.State

open OmpLazy.Foundation OmpLazy.Foundation.Schema EventStore Action Store

/-- What happens to the files of a root while its lock is passed around: calls of `commit`, whatever
their fate, that append only events that are read back, and workers that write their ledgers. -/
inductive StoreStep (root : StateRoot) : Disk → Disk → Prop
  | commit {disk : Disk} {options : CommitOptions} {event : EventObject} {deadline : Deadline}
      {outcome : Except Thrown TransactionResult} {session : Session}
      (hback : ∀ index events current authority prepared,
        Admits root disk event index events current authority prepared →
          ReadsBack (persistedEventForIndex index event))
      (hexec : exec (commit root options event) ⟨disk, deadline⟩ = (outcome, session)) :
      StoreStep root disk session.disk
  | receipts {disk : Disk} (receipts : AnyRun → Except Thrown ReceiptAuthority) :
      StoreStep root disk { disk with receipts }

/-- Any finite sequence of steps. -/
abbrev StoreSteps (root : StateRoot) : Disk → Disk → Prop := Relation.ReflTransGen (StoreStep root)

section Log

variable {root : StateRoot} {disk disk' : Disk} {event : EventObject} {index : ActiveIndex}
  {events : List PersistedStateEvent} {current : Option AnyRun} {authority : Option ReceiptAuthority}
  {prepared : PreparedTransition}

theorem Admits.readAll_append (h : Admits root disk event index events current authority prepared)
    (hback : ReadsBack (persistedEventForIndex index event)) :
    readAll (disk.events ++ [eventFile (persistedEventForIndex index event)]) =
      .ok (events ++ [(persistedEventForIndex index event).value]) :=
  EventStore.readAll_append (readEvents_eq_ok.mp h.hevents) hback (by rw [h.sequence, h.length])

theorem Published.log {outcome : Except Thrown TransactionResult}
    (h : Published disk event prepared outcome disk') :
    disk'.events = disk.events ∨ disk'.events = disk.events ++ [eventFile event] := by
  cases h with
  | nothing => exact .inl rfl
  | appended | replacedRun | crashed | committed => exact .inr rfl

/-- A step keeps the log that was read and adds to its end. -/
theorem StoreStep.readEvents (h : StoreStep root disk disk') (hevents : readEvents disk = .ok events) :
    ∃ suffix, State.readEvents disk' = .ok (events ++ suffix) := by
  cases h with
  | receipts => exact ⟨[], by rw [List.append_nil]; exact hevents⟩
  | commit hback hexec =>
    obtain ⟨hsame, -⟩ | ⟨-, index, events', current, authority, prepared, hadmits, hpublished⟩ :=
      commit_cases hexec
    · exact ⟨[], by simpa [hsame] using hevents⟩
    · obtain rfl := Except.ok.inj (hadmits.hevents.symm.trans hevents)
      obtain hsame | hadded := hpublished.log
      · exact ⟨[], by simpa [readEvents_eq_ok, hsame] using hevents⟩
      · have happend := hadmits.readAll_append (hback _ _ _ _ _ hadmits)
        rw [← hadded] at happend
        exact ⟨_, readEvents_eq_ok.mpr happend⟩

theorem StoreSteps.readEvents (h : StoreSteps root disk disk') (hevents : readEvents disk = .ok events) :
    ∃ suffix, State.readEvents disk' = .ok (events ++ suffix) := by
  induction h with
  | refl => exact ⟨[], by simpa using hevents⟩
  | tail _ hstep ih =>
    obtain ⟨suffix, hsuffix⟩ := ih
    obtain ⟨added, hadded⟩ := hstep.readEvents hsuffix
    exact ⟨suffix ++ added, by simpa using hadded⟩

/-- Once it is in the log, the event of an id is the same forever. -/
theorem Admits.find_committed
    (h : Admits root disk event index events current authority prepared)
    (suffix : List PersistedStateEvent) :
    (events ++ [(persistedEventForIndex index event).value] ++ suffix).find?
      (·.eventId = event.value.eventId) = some (persistedEventForIndex index event).value := by
  rw [List.find?_append, List.find?_append, h.hfresh]
  simp

end Log

section Semantics

theorem get?_eventSemantics (object : Json) :
    (eventSemantics object).get? "schemaVersion" = object.get? "schemaVersion" :=
  Json.get?_without (by decide) object

/-- What was upgraded for the log differs from what was submitted by its version. -/
theorem not_upgrades_of_semantics {index : ActiveIndex} {event : EventObject}
    (hvalue : eventSchema event.object = some event.value)
    (h : eventSemantics (encodeEvent (persistedEventForIndex index event).value) =
      eventSemantics event.object) : upgrades index event = false := by
  have hversion : (encodeEvent (persistedEventForIndex index event).value).get? "schemaVersion" =
      event.object.get? "schemaVersion" := by
    rw [← get?_eventSemantics, h, get?_eventSemantics]
  rw [PersistedStateEvent.version_of_eventSchema hvalue] at hversion
  have hnumber : event.value.version.number =
      (persistedEventForIndex index event).value.version.number := by
    simpa [encodeEvent, Json.get?, Json.nat, eq_comm, Int.ofNat_inj] using hversion
  unfold upgrades
  split
  · rename_i hindex hv
    simp [persistedEventForIndex, hindex, hv, EventVersion.number] at hnumber
  · rfl

end Semantics

section Replayed

variable {root : StateRoot} {disk later : Disk} {options again : CommitOptions}
  {deadline deadline' : Deadline} {event : EventObject} {run : AnyRun} {before index : ActiveIndex}
  {session : Session}

/-- A call answers `replayed` and leaves the files as they are. -/
def Replayed (root : StateRoot) (options : CommitOptions) (disk : Disk) (deadline : Deadline)
    (event : EventObject) : Prop :=
  ∃ run index left, exec (commit root options event) ⟨disk, deadline⟩ =
    (.ok (.ok ⟨.replayed, run, index⟩), ⟨disk, left⟩)

theorem replayed_iff_replays (hunhindered : Unhindered options.toCallOptions deadline)
    (hid : Text.isUuid event.value.runId = true) :
    Replayed root options disk deadline event ↔
      ∃ index events replay run, Replays root disk event index events replay run := by
  constructor
  · rintro ⟨run, index, left, h⟩
    rw [exec_commit_unhindered hunhindered hid] at h
    split at h
    · cases h
    · cases h
    · rename_i hdecision
      obtain ⟨events, replay, hreplays⟩ := decideCommit_replayed.mp hdecision
      exact ⟨_, events, replay, _, hreplays⟩
    · cases ((published_of_publish h).done rfl).1
  · rintro ⟨index, events, replay, run, h⟩
    refine ⟨run, index, deadline.after (2 * options.waits + 2), ?_⟩
    rw [exec_commit_unhindered hunhindered hid, decideCommit_replayed.mpr ⟨events, replay, h⟩]

/-- An event that was committed is replayed by the same call later, whatever happened in between,
exactly when it was stored as it was submitted and the index and the snapshot can still be read. -/
theorem replayed_iff (hvalue : eventSchema event.object = some event.value)
    (hindex : readIndex disk = .ok before) (hback : ReadsBack (persistedEventForIndex before event))
    (hcommitted : exec (commit root options event) ⟨disk, deadline⟩ =
      (.ok (.ok ⟨.committed, run, index⟩), session))
    (hsteps : StoreSteps root session.disk later) (hagain : Unhindered again.toCallOptions deadline') :
    Replayed root again later deadline' event ↔
      upgrades before event = false ∧
        eventSemantics (encodeEvent event.value) = eventSemantics event.object ∧
        (∃ index, readIndex later = .ok index) ∧
        ∃ run, readRun root later event.value.runId = .ok (some run) := by
  obtain ⟨hid, before', events, current, authority, hadmits, -, hdisk⟩ := commit_committed hcommitted
  obtain rfl := Except.ok.inj (hadmits.hindex.symm.trans hindex)
  have hafter : readEvents session.disk =
      .ok (events ++ [(persistedEventForIndex before' event).value]) := by
    rw [hdisk, readEvents_eq_ok]
    exact hadmits.readAll_append hback
  obtain ⟨suffix, hsuffix⟩ := hsteps.readEvents hafter
  have hfind := hadmits.find_committed suffix
  rw [replayed_iff_replays hagain hid]
  constructor
  · rintro ⟨index', events', replay, run', h⟩
    obtain rfl := Except.ok.inj (hsuffix.symm.trans h.hevents)
    obtain rfl := Option.some.inj (hfind.symm.trans h.hfound)
    have hsame := not_upgrades_of_semantics hvalue h.hsemantics
    have hsemantics := h.hsemantics
    rw [persistedEventForIndex_of_not_upgrades hsame] at hsemantics
    exact ⟨hsame, hsemantics, ⟨index', h.hindex⟩, run', h.hrun⟩
  · rintro ⟨hsame, hsemantics, ⟨index', hindex'⟩, run', hrun'⟩
    refine ⟨index', _, _, run', hindex', hsuffix, hfind, ?_, hrun'⟩
    rwa [persistedEventForIndex_of_not_upgrades hsame]

end Replayed

namespace Sample

/-- The same event as a version 1 client submits it. -/
def legacyCreation : PersistedStateEvent :=
  { creation with
    version := .v1
    mutation := .runCreated { run with version := .v1 } }

def legacyCreated : Disk :=
  (exec (commit root options (.ofValue legacyCreation)) ⟨initial, none⟩).2.disk

end Sample

theorem replayed_creation :
    Replayed Sample.root Sample.options Sample.created none (.ofValue Sample.creation) := by
  have hcommitted : (exec (commit Sample.root Sample.options (.ofValue Sample.creation))
      ⟨Sample.initial, none⟩).1 = .ok (.ok ⟨.committed, Sample.run, Sample.index⟩) := by decide
  have hindex : readIndex Sample.created = .ok Sample.index := by decide
  have hrun : readRun Sample.root Sample.created Sample.runId = .ok (some Sample.run) := by
    decide
  exact (replayed_iff (by decide) rfl (by decide) (Prod.ext hcommitted rfl) .refl
    ⟨rfl, rfl, rfl⟩).mpr ⟨rfl, rfl, ⟨_, hindex⟩, _, hrun⟩

/-- A version 1 event that a version 2 root has just committed conflicts with itself. -/
theorem upgraded_event_conflicts :
    eventSchema (EventObject.ofValue Sample.legacyCreation).object = some Sample.legacyCreation ∧
      ReadsBack (persistedEventForIndex ⟨.v2 1, 0, []⟩ (.ofValue Sample.legacyCreation)) ∧
      (exec (commit Sample.root Sample.options (.ofValue Sample.legacyCreation))
        ⟨Sample.initial, none⟩).1 = .ok (.ok ⟨.committed, Sample.run, Sample.index⟩) ∧
      (exec (commit Sample.root Sample.options (.ofValue Sample.legacyCreation))
        ⟨Sample.legacyCreated, none⟩).1 = .ok (.error .idempotencyConflict) := by
  decide +kernel

end OmpLazy.State

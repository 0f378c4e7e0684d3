import OmpLazy.State.RootHistory

namespace OmpLazy.State

open OmpLazy.Foundation OmpLazy.Foundation.Schema OmpLazy.Foundation.Text OmpLazy.Workflows EventStore
  Action Store Relation

/-- The entry that an index holds for a run: none once the run has ended. -/
def entryOf (run : AnyRun) (sequence : ℕ) : Option ActiveIndexEntry :=
  (statusHint run).map (indexEntry run.tidy sequence)

/-- The snapshots that were written under each id. -/
abbrev Snapshots := Uuid → Option AnyRun

def Snapshots.put (stored : Snapshots) (run : AnyRun) : Snapshots :=
  Function.update stored run.runId (some run)

/-- Under the id of each run the index holds what the snapshot says, and nothing else. -/
structure Describes (stored : Snapshots) (index : ActiveIndex) : Prop where
  settled : ∀ entry ∈ index.entries, entry.tidy = entry
  entries : ∀ id, index.entries.filter (·.runId = id) =
    ((stored id).bind fun run ↦ entryOf run run.transactionRevision).toList
  runIds : ∀ id, ∀ run ∈ stored id, run.runId = id
  revisions : ∀ id, ∀ run ∈ stored id, run.transactionRevision ≤ index.revision

/-- The files hold the text of these snapshots. -/
def Holds (disk : Disk) (stored : Snapshots) : Prop :=
  ∀ id, disk.runs id = (stored id).map fun run ↦ stringify (encodeRun run)

/-- How far the three writes of the last event have come. A root whose index or log cannot be read
stays as it is. -/
inductive Stage (disk : Disk) : Prop
  | unreadable (h : ∀ index events, readIndex disk = .ok index → readEvents disk ≠ .ok events)
  | level {index : ActiveIndex} {events : List PersistedStateEvent} {stored : Snapshots}
      (hindex : readIndex disk = .ok index) (hevents : readEvents disk = .ok events)
      (hholds : Holds disk stored) (hdescribes : Describes stored index)
      (hlevel : events.length = index.revision)
  | appended {index : ActiveIndex} {events : List PersistedStateEvent} {last : PersistedStateEvent}
      {stored : Snapshots} (hindex : readIndex disk = .ok index)
      (hevents : readEvents disk = .ok (events ++ [last]))
      (hholds : Holds disk stored) (hdescribes : Describes stored index)
      (hlevel : events.length = index.revision)
  | replaced {index : ActiveIndex} {events : List PersistedStateEvent} {last : PersistedStateEvent}
      {stored : Snapshots} {run : AnyRun} (hindex : readIndex disk = .ok index)
      (hevents : readEvents disk = .ok (events ++ [last]))
      (hholds : Holds disk (stored.put run)) (hdescribes : Describes stored index)
      (hlevel : events.length = index.revision) (hrun : run.runId = last.runId)
      (hstamp : run.transactionRevision = last.sequence)

section Describing

variable {stored : Snapshots} {index : ActiveIndex} {run : AnyRun} {disk : Disk}

theorem entryOf_stamp {sequence : ℕ} {entry : ActiveIndexEntry} (h : entry ∈ entryOf run sequence) :
    entry.runId = run.runId ∧ entry.tidy = entry := by
  obtain ⟨hint, -, rfl⟩ := Option.map_eq_some_iff.mp h
  exact ⟨rfl, by simp [ActiveIndexEntry.tidy, indexEntry, AnyRun.tidy, Owner.tidy]⟩

theorem statusHint_tidy (run : AnyRun) : statusHint run.tidy = statusHint run := by
  simp only [statusHint, AnyRun.status, AnyRun.tidy, status_tidy]

/-- The entry of a run that is read back is the entry of the run. -/
theorem entry_readBack (run : AnyRun) (sequence : ℕ) :
    ((statusHint run).map (indexEntry run sequence)).map ActiveIndexEntry.tidy = entryOf run sequence := by
  rw [entryOf, Option.map_map]
  congr 1
  funext hint
  simp [ActiveIndexEntry.tidy, indexEntry, AnyRun.tidy, Owner.tidy, AnyRun.workflow, workflow_tidy]

theorem tidy_deriveIndex (h : Describes stored index) (sequence : ℕ) :
    (deriveIndex index run sequence).tidy =
      ⟨index.version, sequence, index.entries.filter (·.runId ≠ run.runId) ++
        (entryOf run sequence).toList⟩ := by
  have hretained : (index.entries.filter (·.runId ≠ run.runId)).map ActiveIndexEntry.tidy =
      index.entries.filter (·.runId ≠ run.runId) :=
    map_eq_self.mpr fun entry hmem ↦ h.settled entry (List.mem_of_mem_filter hmem)
  have hnew : ((statusHint run).map (indexEntry run sequence)).toList.map ActiveIndexEntry.tidy =
      (entryOf run sequence).toList := by
    rw [← entry_readBack]
    cases statusHint run <;> rfl
  simp only [ActiveIndex.tidy, deriveIndex, List.map_append, hretained, hnew]

theorem deriveIndex_tidy_tidy (h : Describes stored index) (sequence : ℕ) :
    (deriveIndex index run.tidy sequence).tidy = (deriveIndex index run sequence).tidy := by
  have hentry : indexEntry run.tidy.tidy sequence = indexEntry run.tidy sequence := by
    funext hint
    simp [indexEntry, AnyRun.tidy, Owner.tidy, AnyRun.workflow, workflow_tidy]
  rw [tidy_deriveIndex h, tidy_deriveIndex h, entryOf, entryOf, statusHint_tidy, hentry]
  rfl

/-- Replacing a snapshot and its entry keeps the index describing the snapshots. -/
theorem Describes.derive (h : Describes stored index) (run : AnyRun)
    (hstamp : index.revision < run.transactionRevision) :
    Describes (stored.put run) (deriveIndex index run run.transactionRevision).tidy := by
  rw [tidy_deriveIndex h]
  have hentry : ∀ entry ∈ (entryOf run run.transactionRevision).toList, entry.runId = run.runId :=
    fun entry hmem ↦ (entryOf_stamp (Option.mem_toList.mp hmem)).1
  constructor
  · intro entry hmem
    obtain hmem | hmem := List.mem_append.mp hmem
    · exact h.settled entry (List.mem_of_mem_filter hmem)
    · exact (entryOf_stamp (Option.mem_toList.mp hmem)).2
  · intro id
    rw [List.filter_append, List.filter_filter]
    by_cases hid : id = run.runId
    · subst hid
      have hold : index.entries.filter (fun entry ↦ decide (entry.runId = run.runId) &&
          decide (entry.runId ≠ run.runId)) = [] := by
        simp
      have hnew : (entryOf run run.transactionRevision).toList.filter (·.runId = run.runId) =
          (entryOf run run.transactionRevision).toList :=
        List.filter_eq_self.mpr fun entry hmem ↦ decide_eq_true (hentry entry hmem)
      rw [hold, hnew]
      simp [Snapshots.put]
    · have hold : index.entries.filter (fun entry ↦ decide (entry.runId = id) &&
          decide (entry.runId ≠ run.runId)) = index.entries.filter (·.runId = id) := by
        refine List.filter_congr fun entry _ ↦ ?_
        by_cases hentryId : entry.runId = id
        · simp [hentryId, hid]
        · simp [hentryId]
      have hnew : (entryOf run run.transactionRevision).toList.filter (·.runId = id) = [] := by
        refine List.filter_eq_nil_iff.mpr fun entry hmem ↦ ?_
        rw [hentry entry hmem, decide_eq_true_eq]
        exact Ne.symm hid
      rw [hold, hnew, List.append_nil, h.entries, Snapshots.put, Function.update_of_ne hid]
  · intro id other hmem
    by_cases hid : id = run.runId
    · subst hid
      obtain rfl : run = other := by simpa [Snapshots.put] using hmem
      rfl
    · rw [Snapshots.put, Function.update_of_ne hid] at hmem
      exact h.runIds id other hmem
  · intro id other hmem
    by_cases hid : id = run.runId
    · subst hid
      obtain rfl : run = other := by simpa [Snapshots.put] using hmem
      exact le_rfl
    · rw [Snapshots.put, Function.update_of_ne hid] at hmem
      exact (h.revisions id other hmem).trans hstamp.le

theorem Holds.writeRun (h : Holds disk stored) (run : AnyRun) :
    Holds (disk.writeRun run) (stored.put run) := by
  intro id
  by_cases hid : id = run.runId
  · subst hid
    simp [Disk.writeRun, Snapshots.put]
  · simp [Disk.writeRun, Snapshots.put, Function.update_of_ne hid, h id]

/-- What is read of a snapshot is the snapshot with its strings trimmed. -/
theorem Holds.read {root : StateRoot} {id : Uuid} (h : Holds disk stored)
    (hread : readRun root disk id = .ok (some run)) : ∃ written ∈ stored id, run = written.tidy := by
  obtain ⟨-, bytes, hbytes, hdecode⟩ := readRun_eq_some.mp hread
  rw [h id] at hbytes
  obtain ⟨written, hwritten, rfl⟩ := Option.map_eq_some_iff.mp hbytes
  obtain ⟨json, hjson, hschema, -⟩ := decodeRun_eq_ok.mp hdecode
  obtain rfl := Option.some.inj hjson
  obtain ⟨-, rfl⟩ := (AnyRun.reads.encoded _ _).mp hschema
  exact ⟨written, hwritten, rfl⟩

end Describing

section Steps

variable {root : StateRoot} {disk left : Disk} {index index' : ActiveIndex}
  {events : List PersistedStateEvent} {stored : Snapshots} {event : EventObject}
  {last : PersistedStateEvent} {current : Option AnyRun} {authority : Option ReceiptAuthority}
  {prepared : PreparedTransition} {run : AnyRun} {runPublished : Bool}

/-- Writing the index that describes the snapshots levels the root, or makes the index unreadable. -/
theorem Stage.written (disk : Disk) (hevents : readEvents disk = .ok events) (hholds : Holds disk stored)
    (hdescribes : Describes stored index.tidy) (hlevel : events.length = index.revision) :
    Stage (disk.writeIndex index) := by
  cases hdecode : decodeActiveIndex (stringify (encodeActiveIndex index)) with
  | error error =>
    refine .unreadable fun index' events' hindex _ ↦ ?_
    rw [readIndex_writeIndex, hdecode] at hindex
    cases hindex
  | ok read =>
    obtain ⟨json, hjson, hschema, -⟩ := decodeActiveIndex_eq_ok.mp hdecode
    obtain rfl := Option.some.inj hjson
    obtain ⟨-, rfl⟩ := (ActiveIndex.reads.encoded _ _).mp hschema
    have hread : readIndex (disk.writeIndex index) = .ok index.tidy := by
      rw [readIndex_writeIndex, hdecode]
      rfl
    exact .level hread (show readEvents (disk.writeIndex index) = _ from hevents) hholds hdescribes hlevel

theorem prepared_stamp (h : prepareTransition index current last authority = .ok prepared) :
    prepared.run.transactionRevision = last.sequence := by
  obtain ⟨-, -, next, -, -, -, rfl⟩ := prepareTransition_eq_ok.mp h
  rfl

/-- From a level root a call publishes its event in stages. -/
theorem stage_published {outcome : Except Thrown TransactionResult} {read : ActiveIndex}
    {readEvents' : List PersistedStateEvent} (hevent : event.Faithful)
    (hadmits : Admits root disk event read readEvents' current authority prepared)
    (hpublished : Published disk (persistedEventForIndex read event) prepared outcome left)
    (hindex : readIndex disk = .ok index) (hevents : readEvents disk = .ok events)
    (hholds : Holds disk stored) (hdescribes : Describes stored index)
    (hlevel : events.length = index.revision) : Stage left := by
  obtain rfl := Except.ok.inj (hindex.symm.trans hadmits.hindex)
  obtain rfl := Except.ok.inj (hevents.symm.trans hadmits.hevents)
  have hsequence := hadmits.sequence
  have hstamp := prepared_stamp hadmits.hprepared
  obtain ⟨-, -, hrunId, -⟩ := prepared_cases hadmits.hprepared
  have hnext : (persistedEventForIndex index event).value.sequence = events.length + 1 := by
    rw [hsequence, hlevel]
  have hlog := readAll_appended (readEvents_eq_ok.mp hevents) (hevent.persisted index) hnext
  have hafter : ∀ disk' : Disk,
      disk'.events = disk.events ++ [eventFile (persistedEventForIndex index event)] →
        Stage disk' ∨ ∃ last, readEvents disk' = .ok (events ++ [last]) ∧
          last.runId = prepared.run.runId ∧ last.sequence = prepared.run.transactionRevision := by
    intro disk' hdisk
    obtain ⟨code, hunreadable⟩ | ⟨last, hread, hlastRun, hlastSequence⟩ := hlog
    · refine .inl (.unreadable fun _ events' _ hevents' ↦ ?_)
      rw [readEvents_eq_ok, hdisk, hunreadable] at hevents'
      cases hevents'
    · refine .inr ⟨last, ?_, hlastRun.trans hrunId.symm, hlastSequence.trans hstamp.symm⟩
      rw [readEvents_eq_ok, hdisk, hread]
  have hpublish : Stage (disk.publish (persistedEventForIndex index event) prepared) := by
    obtain hstage | ⟨last, hread, -⟩ :=
      hafter (disk.publish (persistedEventForIndex index event) prepared) rfl
    · exact hstage
    · have hderive := hdescribes.derive prepared.run (by omega)
      rw [hstamp, ← hadmits.index_eq] at hderive
      have hrevision : prepared.index.revision = events.length + 1 := by
        rw [hadmits.index_eq, ← hnext]
        rfl
      exact .written ((disk.appendEvent _).writeRun prepared.run) hread
        (Holds.writeRun hholds prepared.run) hderive (by simp [hrevision])
  cases hpublished with
  | nothing => exact .level hindex hevents hholds hdescribes hlevel
  | appended =>
    obtain hstage | ⟨last, hread, -⟩ := hafter (disk.appendEvent (persistedEventForIndex index event)) rfl
    · exact hstage
    · exact .appended (show readIndex (disk.appendEvent _) = _ from hindex) hread hholds hdescribes hlevel
  | replacedRun =>
    obtain hstage | ⟨last, hread, hlastRun, hlastSequence⟩ :=
      hafter ((disk.appendEvent (persistedEventForIndex index event)).writeRun prepared.run) rfl
    · exact hstage
    · exact .replaced (show readIndex ((disk.appendEvent _).writeRun _) = _ from hindex) hread
        (Holds.writeRun hholds prepared.run) hdescribes hlevel hlastRun.symm hlastSequence.symm
  | crashed => exact hpublish
  | committed => exact hpublish

/-- What a repair decides to publish. -/
theorem decideRepair_publish (h : decideRepair root disk = .ok (.publish run runPublished index')) :
    ∃ index events last current, readIndex disk = .ok index ∧ readEvents disk = .ok events ∧
      events.getLast? = some last ∧ last.sequence = index.revision + 1 ∧
      readRun root disk last.runId = .ok current ∧ run.runId = last.runId ∧
      run.transactionRevision = last.sequence ∧ index' = deriveIndex index run last.sequence ∧
      (runPublished = true → current = some run) := by
  simp only [decideRepair, bind_eq_ok] at h
  obtain ⟨index, hindex, events, hevents, h⟩ := h
  split at h
  · cases h
  rename_i last hlast
  split at h
  · cases h
  have hsequence := not_not.mp ‹¬ last.sequence ≠ index.revision + 1›
  split at h
  · cases h
  obtain ⟨current, hcurrent, h⟩ := bind_eq_ok.mp h
  refine ⟨index, events, last, current, hindex, hevents, hlast, hsequence, hcurrent, ?_⟩
  obtain ⟨rfl, ⟨-, rfl, hstamp, hid, -⟩ | ⟨rfl, -, authority, prepared, -, hprepared, rfl⟩⟩ :=
    repairEvent_publish.mp h
  · exact ⟨hid, hstamp, rfl, fun _ ↦ rfl⟩
  · obtain ⟨-, -, hrunId, -⟩ := prepared_cases hprepared
    exact ⟨hrunId, prepared_stamp hprepared, rfl, by simp⟩

theorem Snapshots.put_put {stored : Snapshots} {run run' : AnyRun} (h : run'.runId = run.runId) :
    (stored.put run).put run' = stored.put run' := by
  simp [Snapshots.put, h]

/-- A repair of a snapshot that is not there yet. -/
theorem stage_repaired (hleft : left = disk.writeRun run ∨ left = (disk.writeRun run).writeIndex index')
    (hindex : readIndex disk = .ok index) (hevents : readEvents disk = .ok (events ++ [last]))
    (hholds : Holds (disk.writeRun run) (stored.put run)) (hdescribes : Describes stored index)
    (hlevel : events.length = index.revision) (hrun : run.runId = last.runId)
    (hstamp : run.transactionRevision = last.sequence) (hsequence : last.sequence = index.revision + 1)
    (hderived : index' = deriveIndex index run last.sequence) : Stage left := by
  obtain rfl | rfl := hleft
  · exact .replaced (show readIndex (disk.writeRun run) = _ from hindex) hevents hholds hdescribes hlevel
      hrun hstamp
  · have hderive := hdescribes.derive run (by omega)
    rw [hstamp, ← hderived] at hderive
    have hrevision : index'.revision = events.length + 1 := by
      rw [hderived, hlevel, ← hsequence]
      rfl
    exact .written (disk.writeRun run) hevents hholds hderive (by simp [hrevision])

theorem stage_repair (h : Stage disk) (hleft : RepairLeaves root disk left) : Stage left := by
  obtain rfl | ⟨run, runPublished, index', hdecision, hleft⟩ := hleft
  · exact h
  obtain ⟨index, events, last, current, hindex, hevents, hlast, hsequence, hcurrent, hrun, hstamp,
    hderived, hpublished⟩ := decideRepair_publish hdecision
  cases h with
  | unreadable h => exact absurd hevents (h _ _ hindex)
  | level hindex' hevents' hholds hdescribes hlevel =>
    obtain rfl := Except.ok.inj (hindex.symm.trans hindex')
    obtain rfl := Except.ok.inj (hevents.symm.trans hevents')
    have hle := (readAll_numbered (readEvents_eq_ok.mp hevents)).sequence_le (List.mem_of_getLast? hlast)
    omega
  | @appended _ before last' stored hindex' hevents' hholds hdescribes hlevel =>
    obtain rfl := Except.ok.inj (hindex.symm.trans hindex')
    obtain rfl := Except.ok.inj (hevents.symm.trans hevents')
    obtain rfl : last' = last := by simpa using hlast
    cases runPublished with
    | false =>
      exact stage_repaired (by simpa using hleft) hindex hevents (hholds.writeRun run) hdescribes hlevel
        hrun hstamp hsequence hderived
    | true =>
      obtain ⟨written, hwritten, rfl⟩ := hholds.read (hpublished rfl ▸ hcurrent)
      have hold := hdescribes.revisions _ written hwritten
      have hsame : written.tidy.transactionRevision = written.transactionRevision := rfl
      omega
  | @replaced _ before last' stored replaced hindex' hevents' hholds hdescribes hlevel hreplaced
      hreplacedStamp =>
    obtain rfl := Except.ok.inj (hindex.symm.trans hindex')
    obtain rfl := Except.ok.inj (hevents.symm.trans hevents')
    obtain rfl : last' = last := by simpa using hlast
    cases runPublished with
    | false =>
      have hput := hholds.writeRun run
      rw [Snapshots.put_put (hrun.trans hreplaced.symm)] at hput
      exact stage_repaired (by simpa using hleft) hindex hevents hput hdescribes hlevel
        hrun hstamp hsequence hderived
    | true =>
      obtain ⟨written, hwritten, rfl⟩ := hholds.read (hpublished rfl ▸ hcurrent)
      obtain rfl : replaced = written := by simpa [Snapshots.put, ← hreplaced] using hwritten
      simp only [if_true] at hleft
      obtain rfl | rfl := hleft
      · exact .replaced hindex hevents hholds hdescribes hlevel hreplaced hreplacedStamp
      · have hderive := hdescribes.derive replaced (by omega)
        rw [hreplacedStamp, ← deriveIndex_tidy_tidy hdescribes, ← hderived] at hderive
        have hrevision : index'.revision = before.length + 1 := by
          rw [hderived, hlevel, ← hsequence]
          rfl
        exact .written disk hevents hholds hderive (by simp [hrevision])

theorem stage_step (h : Stage disk) (hstep : RootStep root disk left) : Stage left := by
  cases hstep with
  | repair hexec => exact stage_repair h (repair_cases hexec)
  | receipts receipts =>
    cases h with
    | unreadable h => exact .unreadable h
    | level hindex hevents hholds hdescribes hlevel =>
      exact .level hindex hevents hholds hdescribes hlevel
    | appended hindex hevents hholds hdescribes hlevel =>
      exact .appended hindex hevents hholds hdescribes hlevel
    | replaced hindex hevents hholds hdescribes hlevel hrun hstamp =>
      exact .replaced hindex hevents hholds hdescribes hlevel hrun hstamp
  | commit hevent hexec =>
    obtain ⟨hsame, -⟩ | ⟨-, index, events, current, authority, prepared, hadmits, hpublished⟩ :=
      commit_cases hexec
    · rwa [hsame]
    have hlength := hadmits.length
    cases h with
    | unreadable h => exact absurd hadmits.hevents (h _ _ hadmits.hindex)
    | level hindex hevents hholds hdescribes hlevel =>
      exact stage_published hevent hadmits hpublished hindex hevents hholds hdescribes hlevel
    | appended hindex hevents _ _ hlevel =>
      obtain rfl := Except.ok.inj (hindex.symm.trans hadmits.hindex)
      obtain rfl := Except.ok.inj (hevents.symm.trans hadmits.hevents)
      simp [hlevel] at hlength
    | replaced hindex hevents _ _ hlevel =>
      obtain rfl := Except.ok.inj (hindex.symm.trans hadmits.hindex)
      obtain rfl := Except.ok.inj (hevents.symm.trans hadmits.hevents)
      simp [hlevel] at hlength

theorem EmptyRoot.stage (h : EmptyRoot disk) : Stage disk := by
  obtain ⟨version, hindex⟩ := h.index
  have hevents : readEvents disk = .ok [] := by
    rw [readEvents_eq_ok, h.events]
    rfl
  have hholds : Holds disk fun _ ↦ none := h.runs
  refine .level hindex hevents hholds ⟨?_, ?_, ?_, ?_⟩ rfl
  all_goals simp

end Steps

/-- An index entry says of its run what the snapshot says; what was read of a session is trimmed. -/
structure Agrees (entry : ActiveIndexEntry) (run : AnyRun) : Prop where
  workflow : entry.workflow = run.workflow
  sessionId : entry.sessionId = trim run.owner.sessionId
  runId : entry.runId = run.runId
  ownerEpoch : entry.ownerEpoch = run.owner.epoch
  runRevision : entry.runRevision = run.revision
  transactionRevision : entry.transactionRevision = run.transactionRevision
  statusHint : statusHint run = some entry.statusHint

/-- The index holds exactly one entry for each run that has not ended, and that entry agrees with the
snapshot. -/
structure Coherent (stored : Snapshots) (index : ActiveIndex) : Prop where
  live : ∀ id, id ∈ index.entries.map (·.runId) ↔ ∃ run ∈ stored id, terminal run.status = false
  runIds : (index.entries.map (·.runId)).Nodup
  agrees : ∀ entry ∈ index.entries, ∃ run ∈ stored entry.runId, Agrees entry run

section Coherence

variable {root : StateRoot} {disk₀ disk : Disk} {index : ActiveIndex} {stored : Snapshots}
  {revision : ℕ}

theorem agrees_of_entryOf {run : AnyRun} {entry : ActiveIndexEntry}
    (h : entry ∈ entryOf run run.transactionRevision) : Agrees entry run := by
  obtain ⟨hint, hhint, rfl⟩ := Option.map_eq_some_iff.mp h
  exact ⟨workflow_tidy _, rfl, rfl, rfl, rfl, rfl, hhint⟩

theorem Agrees.tidy {run : AnyRun} {entry : ActiveIndexEntry} (h : Agrees entry run) :
    Agrees entry run.tidy :=
  ⟨h.workflow.trans (workflow_tidy _).symm, by simpa [AnyRun.tidy, Owner.tidy] using h.sessionId, h.runId,
    h.ownerEpoch, h.runRevision, h.transactionRevision, (statusHint_tidy run).trans h.statusHint⟩

theorem Describes.mem_iff (h : Describes stored index) (entry : ActiveIndexEntry) :
    entry ∈ index.entries ↔ ∃ run ∈ stored entry.runId, entry ∈ entryOf run run.transactionRevision := by
  have hfilter : entry ∈ index.entries ↔ entry ∈ index.entries.filter (·.runId = entry.runId) := by
    simp
  rw [hfilter, h.entries, Option.mem_toList, Option.bind_eq_some_iff]
  exact Iff.rfl

theorem Describes.coherent (h : Describes stored index) (hvalid : index.Valid) : Coherent stored index := by
  refine ⟨fun id ↦ ?_, hvalid.runIds, fun entry hmem ↦ ?_⟩
  · rw [List.mem_map]
    constructor
    · rintro ⟨entry, hmem, rfl⟩
      obtain ⟨run, hrun, hentry⟩ := (h.mem_iff entry).mp hmem
      obtain ⟨hint, hhint, -⟩ := Option.map_eq_some_iff.mp hentry
      refine ⟨run, hrun, Bool.not_eq_true _ ▸ fun hends ↦ ?_⟩
      rw [statusHint_eq_none.mpr hends] at hhint
      cases hhint
    · rintro ⟨run, hrun, hlive⟩
      obtain ⟨hint, hhint⟩ : ∃ hint, statusHint run = some hint := by
        rw [← Option.ne_none_iff_exists', ne_eq, statusHint_eq_none, hlive]
        decide
      have hid := h.runIds id run hrun
      subst hid
      refine ⟨indexEntry run.tidy run.transactionRevision hint, (h.mem_iff _).mpr ⟨run, hrun, ?_⟩, rfl⟩
      simp [entryOf, hhint]
  · obtain ⟨run, hrun, hentry⟩ := (h.mem_iff entry).mp hmem
    exact ⟨run, hrun, agrees_of_entryOf hentry⟩

theorem Describes.read_agrees {root : StateRoot} {id : Uuid} {run : AnyRun} {entry : ActiveIndexEntry}
    (h : Describes stored index) (hholds : Holds disk stored)
    (hread : readRun root disk id = .ok (some run)) (hmem : entry ∈ index.entries)
    (hid : entry.runId = id) : Agrees entry run ∧ entry.sessionId = run.owner.sessionId := by
  subst hid
  obtain ⟨written, hwritten, rfl⟩ := hholds.read hread
  obtain ⟨run, hrun, hentry⟩ := (h.mem_iff entry).mp hmem
  obtain rfl : written = run := Option.mem_unique hwritten hrun
  have hagrees := agrees_of_entryOf hentry
  exact ⟨hagrees.tidy, hagrees.sessionId⟩

/-- A healthy root that began empty is level. -/
theorem level_of_healthy (hempty : EmptyRoot disk₀) (hrun : ReflTransGen (RootStep root) disk₀ disk)
    (hhealthy : inspectRecovery disk = .healthy revision) :
    ∃ index events stored, readIndex disk = .ok index ∧ readEvents disk = .ok events ∧
      Holds disk stored ∧ Describes stored index ∧ index.revision = revision ∧
      events.length = revision := by
  have hpreserved : Preserves (RootStep root) Stage := fun _ _ h hstep ↦ stage_step h hstep
  have hahead : ∀ {index : ActiveIndex} {events : List PersistedStateEvent} {last : PersistedStateEvent},
      readIndex disk = .ok index → readEvents disk = .ok (events ++ [last]) →
        events.length ≠ index.revision := by
    intro index events last hindex hevents hlevel
    rw [inspectRecovery_of_read hindex hevents] at hhealthy
    simp [hlevel] at hhealthy
  obtain h | ⟨hindex, hevents, hholds, hdescribes, hlevel⟩ | ⟨hindex, hevents, -, -, hlevel⟩ |
    ⟨hindex, hevents, -, -, hlevel, -, -⟩ := hpreserved.run hrun hempty.stage
  · obtain ⟨index, events, hindex, hevents⟩ := read_of_healthy hhealthy
    exact absurd hevents (h _ _ hindex)
  · rw [inspectRecovery_of_read hindex hevents, if_pos hlevel] at hhealthy
    obtain rfl := RecoveryInspection.healthy.inj hhealthy
    exact ⟨_, _, _, hindex, hevents, hholds, hdescribes, rfl, hlevel⟩
  · exact absurd hlevel (hahead hindex hevents)
  · exact absurd hlevel (hahead hindex hevents)

/-- In every healthy state of a root that began empty, the index is coherent with the snapshots, those
that can be read included, and its revision counts the events. -/
theorem healthy_coherent (hempty : EmptyRoot disk₀) (hrun : ReflTransGen (RootStep root) disk₀ disk)
    (hhealthy : inspectRecovery disk = .healthy revision) :
    ∃ index events stored, readIndex disk = .ok index ∧ readEvents disk = .ok events ∧
      Holds disk stored ∧ Coherent stored index ∧
      (∀ id run, readRun root disk id = .ok (some run) → ∀ entry ∈ index.entries, entry.runId = id →
        Agrees entry run ∧ entry.sessionId = run.owner.sessionId) ∧
      index.revision = revision ∧ events.length = revision ∧ highestSequence events = revision := by
  obtain ⟨index, events, stored, hindex, hevents, hholds, hdescribes, hrevision, hlength⟩ :=
    level_of_healthy hempty hrun hhealthy
  have hvalid := (readIndex_settled hindex).2
  have hhighest := highestSequence_eq (readEvents_eq_ok.mp hevents)
  exact ⟨index, events, stored, hindex, hevents, hholds, hdescribes.coherent hvalid,
    fun id run hread entry hmem hid ↦ hdescribes.read_agrees hholds hread hmem hid, hrevision, hlength,
    hhighest.trans hlength⟩

end Coherence

namespace Sample

/-- Another session creates a run of its own. -/
def otherCreation : PersistedStateEvent :=
  { secondCreation with mutation := .runCreated otherRun }

/-- The root of two sessions, each with a live run. -/
def shared : Disk := (exec (commit root options (.ofValue otherCreation)) ⟨created, none⟩).2.disk

theorem initial_empty : EmptyRoot initial := ⟨⟨.v2 1, by decide⟩, rfl, fun _ ↦ rfl⟩

theorem created_reachable : ReflTransGen (RootStep root) initial created := by
  have hfaithful : (EventObject.ofValue creation).Faithful := EventObject.faithful_ofValue (by decide)
  have hexec : exec (commit root options (.ofValue creation)) ⟨initial, none⟩ = (_, _) :=
    Prod.mk.eta.symm
  exact .single (.commit hfaithful hexec)

theorem shared_reachable : ReflTransGen (RootStep root) initial shared := by
  have hfaithful : (EventObject.ofValue otherCreation).Faithful :=
    EventObject.faithful_ofValue (by decide)
  have hexec : exec (commit root options (.ofValue otherCreation)) ⟨created, none⟩ = (_, _) :=
    Prod.mk.eta.symm
  exact created_reachable.tail (.commit hfaithful hexec)

end Sample

theorem created_coherent :
    ∃ index events stored, readIndex Sample.created = .ok index ∧
      readEvents Sample.created = .ok events ∧ Holds Sample.created stored ∧ Coherent stored index ∧
      index.revision = 1 ∧ events.length = 1 := by
  have hhealthy : inspectRecovery Sample.created = .healthy 1 := by decide
  obtain ⟨index, events, stored, hindex, hevents, hholds, hcoherent, -, hrevision, hlength, -⟩ :=
    healthy_coherent Sample.initial_empty Sample.created_reachable hhealthy
  exact ⟨index, events, stored, hindex, hevents, hholds, hcoherent, hrevision, hlength⟩

end OmpLazy.State

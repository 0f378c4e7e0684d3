import OmpLazy.State.Recovery
import OmpLazy.State.FailedCommits

namespace OmpLazy.State

open OmpLazy.Foundation OmpLazy.Foundation.Schema OmpLazy.Foundation.Text EventStore Action Store

/-- The files that a call of `commit` leaves when it crashes at a point. -/
def crashed (root : StateRoot) (options : CallOptions) (disk : Disk) (event : EventObject)
    (point : CrashPoint) : Disk :=
  (exec (commit root ⟨options, some point⟩ event) ⟨disk, none⟩).2.disk

/-- A repair, when the inspection says that one is possible. -/
def recovered (root : StateRoot) (options : CallOptions) (disk : Disk) : Disk :=
  match inspectRecovery disk with
  | .repairable _ => (exec (repairState root options) ⟨disk, none⟩).2.disk
  | _ => disk

/-- When a crash can be repaired: the derived index is valid; when only the event was written, the
snapshot is not stamped with it already, or is what the event leaves; when the snapshot was written
too, it can be read back. -/
def Recoverable (root : StateRoot) (disk : Disk) (index : ActiveIndex) (current : Option AnyRun)
    (event : PersistedStateEvent) : CrashPoint → Prop
  | .beforeEvent => True
  | .afterEvent => KeepsIndex index current event ∧
      ∀ run ∈ current, run.transactionRevision = event.sequence →
        event.legacyNoop = true ∧ disk.runs event.runId = some (stringify (encodeRun run))
  | .afterRun => KeepsIndex index current event ∧
      ∀ run ∈ sourceRun current event, planContained root run = true
  | .afterIndex => KeepsIndex index current event

section Transition

variable {index : ActiveIndex} {current : Option AnyRun} {run next : AnyRun}
  {event : PersistedStateEvent} {authority : Option ReceiptAuthority} {prepared : PreparedTransition}

theorem controlled_revision (h : Controlled run event authority next) :
    (event.legacyNoop = true ∧ next = run) ∨
      (event.legacyNoop = false ∧ next.revision = run.revision + 1) := by
  cases h with
  | unchanged hlegacy hkind =>
    exact .inl ⟨by simpa [PersistedStateEvent.legacyNoop, hlegacy] using hkind, rfl⟩
  | _ => right; simp_all [PersistedStateEvent.legacyNoop, StateMutation.kind, setRunStatus]

/-- What a transition makes of a snapshot that it starts from. -/
theorem prepared_of_current (h : prepareTransition index (some run) event authority = .ok prepared) :
    run.runId = event.runId ∧ run.workflow = event.workflow ∧
      ((event.legacyNoop = true ∧ prepared.run = run.stamped event.sequence) ∨
        (event.legacyNoop = false ∧ prepared.run.revision = run.revision + 1)) := by
  obtain ⟨-, -, next, hnext, hid, hworkflow, rfl⟩ := prepareTransition_eq_ok.mp h
  obtain ⟨-, hnone, -⟩ | ⟨run', hrun, -, -, -, -, -, -, hcontrol⟩ := nextRun_cases hnext
  · cases hnone
  · obtain rfl := Option.some.inj hrun
    have hcontrolled := controlRun_cases hcontrol
    have hsame := hcontrolled.sameIdentity
    refine ⟨hsame.runId.symm.trans hid, hsame.workflow.symm.trans hworkflow, ?_⟩
    obtain ⟨hnoop, rfl⟩ | ⟨hnoop, hrevision⟩ := controlled_revision hcontrolled
    · exact .inl ⟨hnoop, rfl⟩
    · exact .inr ⟨hnoop, hrevision⟩

theorem status_tidy (payload : Payload) : payload.tidy.status = payload.status := by
  cases payload <;> rfl

theorem workflow_tidy (payload : Payload) : payload.tidy.workflow = payload.workflow := by
  cases payload <;> rfl

theorem deriveIndex_tidy (h : trim run.owner.sessionId = run.owner.sessionId) (sequence : ℕ) :
    deriveIndex index run.tidy sequence = deriveIndex index run sequence := by
  have hstatus : statusHint run.tidy = statusHint run := by
    simp only [statusHint, AnyRun.status, AnyRun.tidy, status_tidy]
  have hentry : indexEntry run.tidy sequence = indexEntry run sequence := by
    funext hint
    simp [indexEntry, AnyRun.workflow, AnyRun.tidy, workflow_tidy, Owner.tidy, h]
  rw [deriveIndex, deriveIndex, hstatus, hentry]
  rfl

theorem sourceRun_tidy (hcurrent : ∀ run ∈ current, run.tidy = run) (hevent : event.tidy = event) :
    ∀ run ∈ sourceRun current event, run.tidy = run := by
  intro run hmem
  have hmutation : event.mutation.tidy = event.mutation := congrArg PersistedStateEvent.mutation hevent
  cases hm : event.mutation with
  | runCreated created =>
    rw [hm] at hmutation
    obtain rfl : created = run := by simpa [sourceRun, hm] using hmem
    exact StateMutation.runCreated.inj hmutation
  | _ => exact hcurrent run (by simpa [sourceRun, hm] using hmem)

end Transition

section Stages

variable {root : StateRoot} {disk : Disk} {event : EventObject} {before : ActiveIndex}
  {events : List PersistedStateEvent} {current : Option AnyRun} {authority : Option ReceiptAuthority}
  {prepared : PreparedTransition} {options : CallOptions}

/-- The files after a crash, by what had been written. -/
theorem crashed_eq (h : Admits root disk event before events current authority prepared)
    (hid : isUuid event.value.runId = true)
    (hname : eventName (persistedEventForIndex before event).value ∉ disk.events.map (·.name))
    (hescape : options.escape = none) (hfree : options.free = true) (point : CrashPoint) :
    crashed root options disk event point =
      match point with
      | .beforeEvent => disk
      | .afterEvent => disk.appendEvent (persistedEventForIndex before event)
      | .afterRun => (disk.appendEvent (persistedEventForIndex before event)).writeRun prepared.run
      | .afterIndex => disk.publish (persistedEventForIndex before event) prepared := by
  have hsequence : ¬ (persistedEventForIndex before event).value.sequence < 1 := by
    rw [h.sequence]
    omega
  have hunhindered : Unhindered options none := ⟨hescape, hfree, rfl⟩
  rw [crashed, exec_commit_unhindered hunhindered hid,
    decideCommit_accepted.mpr ⟨before, events, current, authority, h, rfl⟩]
  simp only [exec_publish, exec_publishRun, exec_publishIndex, if_neg hsequence, if_neg hname]
  cases point <;> simp [Disk.publish]

theorem Admits.readEvents_appended
    (h : Admits root disk event before events current authority prepared)
    (hback : ReadsBack (persistedEventForIndex before event)) {disk' : Disk}
    (hdisk : disk'.events = disk.events ++ [eventFile (persistedEventForIndex before event)]) :
    readEvents disk' = .ok (events ++ [(persistedEventForIndex before event).value]) := by
  rw [readEvents_eq_ok, hdisk]
  exact readAll_append (readEvents_eq_ok.mp h.hevents) hback (by rw [h.sequence, h.length])

theorem Admits.index_eq (h : Admits root disk event before events current authority prepared) :
    prepared.index =
      deriveIndex before prepared.run (persistedEventForIndex before event).value.sequence := by
  obtain ⟨-, -, -, -, hindex, -⟩ := prepared_cases h.hprepared
  exact hindex

theorem Admits.inspect (h : Admits root disk event before events current authority prepared) :
    inspectRecovery disk = .healthy before.revision := by
  rw [inspectRecovery_of_read h.hindex h.hevents, if_pos h.length]

/-- The event is one ahead until the index is written. -/
theorem Admits.inspect_ahead (h : Admits root disk event before events current authority prepared)
    (hback : ReadsBack (persistedEventForIndex before event)) {disk' : Disk}
    (hdisk : disk'.events = disk.events ++ [eventFile (persistedEventForIndex before event)])
    (hindex : disk'.activeIndex = disk.activeIndex) :
    inspectRecovery disk' = .repairable (before.revision + 1) := by
  have hread : readIndex disk' = .ok before := by
    rw [← h.hindex, readIndex, readIndex, hindex]
  rw [inspectRecovery_of_read hread (h.readEvents_appended hback hdisk)]
  simp [h.length]

theorem readIndex_writeIndex {index : ActiveIndex} (disk : Disk) :
    readIndex (disk.writeIndex index) =
      (decodeActiveIndex (stringify (encodeActiveIndex index))).mapError .decode := rfl

/-- All that was read for an accepted event is what its own text is read back as. -/
theorem Admits.settled (h : Admits root disk event before events current authority prepared)
    (hback : ReadsBack (persistedEventForIndex before event)) :
    (∀ run ∈ current, runSchema (encodeRun run) = some run) ∧
      eventSchema (encodeEvent (persistedEventForIndex before event).value) =
        some (persistedEventForIndex before event).value := by
  constructor
  · rintro run rfl
    exact (readRun_settled h.hcurrent).1
  · obtain ⟨json, -, hjson⟩ := decodeStateEvent_eq_ok.mp (decode_of_readEventFile hback)
    exact PersistedStateEvent.reads.reread hjson

/-- After all three writes the root is healthy if the event keeps the index, and corrupt if not. -/
theorem Admits.inspect_published (h : Admits root disk event before events current authority prepared)
    (hback : ReadsBack (persistedEventForIndex before event)) (haccepted : prepared.run.Accepted) :
    (KeepsIndex before current (persistedEventForIndex before event).value →
      inspectRecovery (disk.publish (persistedEventForIndex before event) prepared) =
        .healthy (before.revision + 1)) ∧
    (¬ KeepsIndex before current (persistedEventForIndex before event).value →
      inspectRecovery (disk.publish (persistedEventForIndex before event) prepared) = .corrupt) := by
  obtain ⟨hindex, hvalid⟩ := readIndex_settled h.hindex
  obtain ⟨hcurrent, hevent⟩ := h.settled hback
  have hiff := (index_readable_iff (ActiveIndex.validateActiveIndex_eq_ok.mpr hvalid) h.hprepared).2
    hindex hcurrent hevent haccepted
  have hevents : readEvents (disk.publish (persistedEventForIndex before event) prepared) =
      .ok (events ++ [(persistedEventForIndex before event).value]) := h.readEvents_appended hback rfl
  constructor
  · intro hkeeps
    have hread : readIndex (disk.publish (persistedEventForIndex before event) prepared) =
        .ok prepared.index := by
      rw [Disk.publish, readIndex_writeIndex, hiff.mpr hkeeps]
      rfl
    have hrevision : prepared.index.revision = before.revision + 1 := by
      rw [h.index_eq, ← h.sequence]
      rfl
    rw [inspectRecovery_of_read hread hevents, hrevision]
    simp [h.length]
  · intro hnot
    rw [inspectRecovery]
    split
    · rename_i index _ hread _
      rw [Disk.publish, readIndex_writeIndex, mapError_eq_ok] at hread
      obtain ⟨json, hjson, hschema, -⟩ := decodeActiveIndex_eq_ok.mp hread
      obtain rfl := Option.some.inj hjson
      have hsettled := prepared_index_settled hindex hcurrent hevent h.hprepared haccepted
      obtain rfl := Option.some.inj (hschema.symm.trans hsettled)
      exact absurd (hiff.mp hread) hnot
    · rfl

/-- With the event one ahead, a repair takes up that event. -/
theorem Admits.decideRepair_ahead (h : Admits root disk event before events current authority prepared)
    (hback : ReadsBack (persistedEventForIndex before event)) {disk' : Disk}
    (hdisk : disk'.events = disk.events ++ [eventFile (persistedEventForIndex before event)])
    (hindex : disk'.activeIndex = disk.activeIndex) :
    decideRepair root disk' = readRun root disk' event.value.runId >>=
      repairEvent disk' before (persistedEventForIndex before event).value := by
  have hread : readIndex disk' = .ok before := by
    rw [← h.hindex, readIndex, readIndex, hindex]
  have hexpected : event.value.expected.indexRevision = before.revision := by
    simpa using (prepareTransition_eq_ok.mp h.hprepared).1
  have hsequence : event.value.sequence = before.revision + 1 := by simpa using h.sequence
  simp [decideRepair, hread, h.readEvents_appended hback hdisk, hsequence, hexpected, bind, Except.bind]

theorem Admits.decideRepair_appended
    (h : Admits root disk event before events current authority prepared)
    (hback : ReadsBack (persistedEventForIndex before event)) :
    decideRepair root (disk.appendEvent (persistedEventForIndex before event)) =
      .ok (match current.filter
        (·.transactionRevision = (persistedEventForIndex before event).value.sequence) with
      | some run => .publish run true
          (deriveIndex before run (persistedEventForIndex before event).value.sequence)
      | none => .publish prepared.run false prepared.index) := by
  have hrun : readRun root (disk.appendEvent (persistedEventForIndex before event)) event.value.runId =
      .ok current := h.hcurrent
  have hauthority : readAuthority (disk.appendEvent (persistedEventForIndex before event))
      (persistedEventForIndex before event).value current = .ok authority := h.hauthority
  have hahead := h.decideRepair_ahead hback
    (show (disk.appendEvent (persistedEventForIndex before event)).events = _ from rfl) rfl
  rw [hahead, hrun]
  simp only [bind, Except.bind, repairEvent]
  cases hstamped : current.filter
      (·.transactionRevision = (persistedEventForIndex before event).value.sequence) with
  | none =>
    simp only [hauthority, h.hprepared, h.index_eq]
    rfl
  | some run =>
    obtain ⟨rfl, -⟩ := Option.filter_eq_some_iff.mp hstamped
    obtain ⟨hid, hworkflow, -⟩ := prepared_of_current h.hprepared
    simp [hid, hworkflow]

/-- The snapshot that `commit` wrote, as it is read back. -/
theorem readRun_writeRun {run : AnyRun} (disk : Disk) (hid : isUuid run.runId = true)
    (haccepted : run.Accepted) :
    readRun root (disk.writeRun run) run.runId =
      if planContained root run.tidy then .ok (some run.tidy) else .error (.decode .pathMismatch) := by
  have hwritten : (disk.writeRun run).runs run.runId = some (stringify (encodeRun run)) := by
    simp [Disk.writeRun]
  have hschema := (AnyRun.reads.encoded run run.tidy).mpr ⟨AnyRun.accepted_iff.mp haccepted, rfl⟩
  rw [readRun, if_pos hid, hwritten]
  simp only [decodeRun, stringify, parseJson, bind, Except.bind, hschema]
  split <;> rfl

theorem Admits.decideRepair_replaced
    (h : Admits root disk event before events current authority prepared)
    (hid : isUuid event.value.runId = true)
    (hback : ReadsBack (persistedEventForIndex before event)) (haccepted : prepared.run.Accepted) :
    decideRepair root ((disk.appendEvent (persistedEventForIndex before event)).writeRun prepared.run) =
      if planContained root prepared.run.tidy then
        .ok (.publish prepared.run.tidy true prepared.index)
      else .error (.decode .pathMismatch) := by
  obtain ⟨run, hsource, hrunId, hworkflow, hindex, -⟩ := prepared_cases h.hprepared
  rw [runId_persisted] at hrunId
  have hahead := h.decideRepair_ahead hback
    (show ((disk.appendEvent (persistedEventForIndex before event)).writeRun prepared.run).events = _
      from rfl) rfl
  rw [hahead, ← hrunId, readRun_writeRun _ (hrunId ▸ hid) haccepted]
  split
  · have hstamp : prepared.run.tidy.transactionRevision =
        (persistedEventForIndex before event).value.sequence := by
      obtain ⟨-, -, next, -, -, -, rfl⟩ := prepareTransition_eq_ok.mp h.hprepared
      rfl
    have hidTidy : prepared.run.tidy.runId = (persistedEventForIndex before event).value.runId := by
      rw [runId_persisted]
      exact hrunId
    have hworkflowTidy : prepared.run.tidy.workflow =
        (persistedEventForIndex before event).value.workflow := by
      rw [← hworkflow]
      exact workflow_tidy _
    obtain ⟨hcurrent, hevent⟩ := h.settled hback
    have hsession := prepared_session_trimmed
      (fun run hmem ↦ ((AnyRun.reads.fixed_iff run).mp (hcurrent run hmem)).2)
      ((PersistedStateEvent.reads.fixed_iff _).mp hevent).2 h.hprepared
    simp only [bind, Except.bind, repairEvent, Option.filter_some, hstamp, decide_true, if_true, hidTidy,
      hworkflowTidy, ne_eq, not_true_eq_false, or_self, if_false, deriveIndex_tidy hsession, ← hindex]
  · rfl

/-- A repair that only writes the index ends where `commit` does exactly when the snapshot is there
already. -/
theorem Admits.stamped_iff {run : AnyRun}
    (h : Admits root disk event before events (some run) authority prepared)
    (hstamp : run.transactionRevision = (persistedEventForIndex before event).value.sequence) :
    (disk.appendEvent (persistedEventForIndex before event)).writeIndex
        (deriveIndex before run (persistedEventForIndex before event).value.sequence) =
      disk.publish (persistedEventForIndex before event) prepared ↔
    (persistedEventForIndex before event).value.legacyNoop = true ∧
      disk.runs (persistedEventForIndex before event).value.runId = some (stringify (encodeRun run)) := by
  obtain ⟨-, -, hrunId, -⟩ := prepared_cases h.hprepared
  obtain ⟨-, -, hnext⟩ := prepared_of_current h.hprepared
  have hsame : run.stamped (persistedEventForIndex before event).value.sequence = run := by
    rw [← hstamp]
    rfl
  constructor
  · intro hequal
    have hwritten : disk.runs prepared.run.runId = some (stringify (encodeRun prepared.run)) := by
      have hruns := congrFun (congrArg Disk.runs hequal) prepared.run.runId
      simpa [Disk.publish, Disk.writeRun, Disk.writeIndex, Disk.appendEvent] using hruns
    rw [hrunId, runId_persisted] at hwritten
    obtain ⟨hnoop, hrun⟩ | ⟨-, hrevision⟩ := hnext
    · rw [hrun.trans hsame] at hwritten
      exact ⟨hnoop, by rw [runId_persisted]; exact hwritten⟩
    · obtain ⟨-, bytes, hbytes, hdecode⟩ := readRun_eq_some.mp h.hcurrent
      obtain rfl := Option.some.inj (hwritten.symm.trans hbytes)
      obtain ⟨json, hjson, hschema, -⟩ := decodeRun_eq_ok.mp hdecode
      obtain rfl := Option.some.inj hjson
      obtain ⟨-, rfl⟩ := (AnyRun.reads.encoded _ _).mp hschema
      exact absurd (show prepared.run.revision = prepared.run.revision + 1 from hrevision) (by omega)
  · rintro ⟨hnoop, hwritten⟩
    have hrun : prepared.run = run := by
      obtain ⟨-, hrun⟩ | ⟨hnot, -⟩ := hnext
      · exact hrun.trans hsame
      · rw [hnoop] at hnot
        cases hnot
    rw [Disk.publish, h.index_eq, hrun]
    have hupdate : Function.update disk.runs run.runId (some (stringify (encodeRun run))) = disk.runs := by
      rw [Function.update_eq_self_iff, ← hrun, hrunId, hwritten, hrun]
    simp only [Disk.writeIndex, Disk.writeRun, Disk.appendEvent, hupdate]

theorem Admits.planContained_tidy
    (h : Admits root disk event before events current authority prepared)
    (hback : ReadsBack (persistedEventForIndex before event)) :
    planContained root prepared.run.tidy = true ↔
      ∀ run ∈ sourceRun current (persistedEventForIndex before event).value,
        planContained root run = true := by
  obtain ⟨hcurrent, hevent⟩ := h.settled hback
  have htidy := sourceRun_tidy (fun run hmem ↦ ((AnyRun.reads.fixed_iff run).mp (hcurrent run hmem)).2)
    ((PersistedStateEvent.reads.fixed_iff _).mp hevent).2
  rw [planContained_prepared h.hprepared]
  exact forall₂_congr fun run hmem ↦ by rw [htidy run hmem]

end Stages

section Recovery

variable {root : StateRoot} {disk : Disk} {event : EventObject} {before index : ActiveIndex}
  {current : Option AnyRun} {run : AnyRun} {session : Session} {options repair : CallOptions}

theorem recovered_of_decision {ahead : ℕ} {decision : RepairDecision}
    (hinspect : inspectRecovery disk = .repairable ahead) (hescape : repair.escape = none)
    (hfree : repair.free = true) (hdecision : decideRepair root disk = .ok decision) :
    recovered root repair disk = decision.written disk := by
  rw [recovered, hinspect]
  exact disk_repairState hescape hfree hdecision

theorem recovered_of_error {ahead : ℕ} {error : Thrown}
    (hinspect : inspectRecovery disk = .repairable ahead) (hescape : repair.escape = none)
    (hfree : repair.free = true) (hdecision : decideRepair root disk = .error error) :
    recovered root repair disk = disk := by
  rw [recovered, hinspect]
  exact disk_repairState_of_error hescape hfree hdecision

/-- A crash at a point, and then a repair if one is possible, leave what the call would have left
without the crash, or what was there before it if it crashed before the event. -/
def Recovers (root : StateRoot) (options repair : CallOptions) (disk : Disk) (event : EventObject)
    (committed : Disk) (point : CrashPoint) : Prop :=
  recovered root repair (crashed root options disk event point) =
      (if point = .beforeEvent then disk else committed) ∧
    ∃ revision, inspectRecovery (recovered root repair (crashed root options disk event point)) =
      .healthy revision

theorem recovers_iff (hindex : readIndex disk = .ok before)
    (hcurrent : readRun root disk event.value.runId = .ok current)
    (hback : ReadsBack (persistedEventForIndex before event))
    (hcommit : exec (commit root ⟨options, none⟩ event) ⟨disk, none⟩ =
      (.ok (.ok ⟨.committed, run, index⟩), session))
    (haccepted : run.Accepted) (hescape : repair.escape = none) (hfree : repair.free = true)
    (point : CrashPoint) :
    Recovers root options repair disk event session.disk point ↔
      Recoverable root disk before current (persistedEventForIndex before event).value point := by
  obtain ⟨hoptions, hlock, -⟩ := unhindered_of_done hcommit
  obtain ⟨hid, before', events, current', authority, h, hname, hdisk⟩ := commit_committed hcommit
  obtain rfl := Except.ok.inj (hindex.symm.trans h.hindex)
  obtain rfl := Except.ok.inj (hcurrent.symm.trans h.hcurrent)
  obtain ⟨hhealthy, hcorrupt⟩ := h.inspect_published hback haccepted
  have hpublished : (∃ revision, inspectRecovery
      (disk.publish (persistedEventForIndex before event) ⟨run, index⟩) = .healthy revision) ↔
        KeepsIndex before current (persistedEventForIndex before event).value := by
    by_cases hkeeps : KeepsIndex before current (persistedEventForIndex before event).value
    · simp [hkeeps, hhealthy hkeeps]
    · simp [hkeeps, hcorrupt hkeeps]
  rw [Recovers, crashed_eq h hid hname hoptions hlock, hdisk]
  cases point with
  | beforeEvent =>
    have hsame : recovered root repair disk = disk := by rw [recovered, h.inspect]
    simp [Recoverable, hsame, h.inspect]
  | afterEvent =>
    have hahead : inspectRecovery (disk.appendEvent (persistedEventForIndex before event)) = _ :=
      h.inspect_ahead hback rfl rfl
    have hdecision := h.decideRepair_appended hback
    cases hstamped : current.filter
        (·.transactionRevision = (persistedEventForIndex before event).value.sequence) with
    | none =>
      rw [hstamped] at hdecision
      have hwritten : recovered root repair (disk.appendEvent (persistedEventForIndex before event)) =
          disk.publish (persistedEventForIndex before event) ⟨run, index⟩ :=
        recovered_of_decision hahead hescape hfree hdecision
      have hunstamped : ∀ run ∈ current, run.transactionRevision ≠
          (persistedEventForIndex before event).value.sequence := by
        simpa [Option.filter_eq_none_iff] using hstamped
      simp only [reduceCtorEq, if_false, hwritten, true_and, hpublished, Recoverable]
      exact ⟨fun hkeeps ↦ ⟨hkeeps, fun run hmem hstamp ↦ absurd hstamp (hunstamped run hmem)⟩, And.left⟩
    | some stamped =>
      rw [hstamped] at hdecision
      obtain ⟨rfl, hstamp⟩ := Option.filter_eq_some_iff.mp hstamped
      have hiff := h.stamped_iff (of_decide_eq_true hstamp)
      have hwritten := recovered_of_decision hahead hescape hfree hdecision
      simp only [RepairDecision.written, if_true] at hwritten
      simp only [reduceCtorEq, if_false, hwritten, Recoverable, Option.mem_some_iff, forall_eq',
        of_decide_eq_true hstamp, forall_const, ← hiff]
      constructor
      · rintro ⟨hequal, hrevision⟩
        rw [hequal] at hrevision
        exact ⟨hpublished.mp hrevision, hequal⟩
      · rintro ⟨hkeeps, hequal⟩
        rw [hequal]
        exact ⟨rfl, hpublished.mpr hkeeps⟩
  | afterRun =>
    have hahead : inspectRecovery
        ((disk.appendEvent (persistedEventForIndex before event)).writeRun run) = _ :=
      h.inspect_ahead hback rfl rfl
    have hdecision := h.decideRepair_replaced hid hback haccepted
    have hplan := h.planContained_tidy hback
    by_cases hcontained : planContained root run.tidy = true
    · rw [if_pos hcontained] at hdecision
      have hwritten : recovered root repair
          ((disk.appendEvent (persistedEventForIndex before event)).writeRun run) =
            disk.publish (persistedEventForIndex before event) ⟨run, index⟩ :=
        recovered_of_decision hahead hescape hfree hdecision
      simp only [reduceCtorEq, if_false, hwritten, true_and, hpublished, Recoverable]
      exact ⟨fun hkeeps ↦ ⟨hkeeps, hplan.mp hcontained⟩, And.left⟩
    · rw [if_neg hcontained] at hdecision
      simp only [recovered_of_error hahead hescape hfree hdecision, hahead, reduceCtorEq, exists_const,
        and_false, Recoverable, ← hplan, hcontained]
  | afterIndex =>
    have hsame : recovered root repair
        (disk.publish (persistedEventForIndex before event) ⟨run, index⟩) =
          disk.publish (persistedEventForIndex before event) ⟨run, index⟩ := by
      by_cases hkeeps : KeepsIndex before current (persistedEventForIndex before event).value
      · rw [recovered, hhealthy hkeeps]
      · rw [recovered, hcorrupt hkeeps]
    simp only [reduceCtorEq, if_false, Recoverable, hsame, true_and]
    exact hpublished

end Recovery

namespace Sample

/-- The root after the first run was created. -/
def created : Disk := (exec (commit root options (.ofValue creation)) ⟨initial, none⟩).2.disk

/-- The same session creates a second run. -/
def secondRun : AnyRun := { run with runId := "22222222-2222-4222-8222-222222222222" }

def secondCreation : PersistedStateEvent :=
  { creation with
    eventId := eventId
    sequence := 2
    runId := secondRun.runId
    expected := ⟨1, none, none, none⟩
    mutation := .runCreated secondRun }

end Sample

theorem recovers_creation :
    Recovers Sample.root Sample.options.toCallOptions Sample.options.toCallOptions Sample.initial
      (.ofValue Sample.creation) Sample.created .afterEvent := by
  have hcommitted : (exec (commit Sample.root Sample.options (.ofValue Sample.creation))
      ⟨Sample.initial, none⟩).1 = .ok (.ok ⟨.committed, Sample.run, Sample.index⟩) := by decide
  exact (recovers_iff rfl rfl (by decide) (Prod.ext hcommitted rfl) (by decide) rfl rfl _).mpr
    ⟨by simp [KeepsIndex], by simp⟩

/-- A session creates a second run: whether the call crashes or not, the root ends corrupt. -/
theorem repaired_root_corrupt :
    (exec (commit Sample.root Sample.options (.ofValue Sample.secondCreation))
        ⟨Sample.created, none⟩).1 = .ok (.ok ⟨.committed, Sample.secondRun.stamped 2,
          deriveIndex Sample.index (Sample.secondRun.stamped 2) 2⟩) ∧
      (Sample.secondRun.stamped 2).Accepted ∧ ReadsBack (.ofValue Sample.secondCreation) ∧
      inspectRecovery Sample.created = .healthy 1 ∧
      inspectRecovery (recovered Sample.root Sample.options.toCallOptions
        (crashed Sample.root Sample.options.toCallOptions Sample.created
          (.ofValue Sample.secondCreation) .afterEvent)) = .corrupt := by
  decide +kernel

end OmpLazy.State

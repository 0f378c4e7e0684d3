import OmpLazy.State.SnapshotClosure

namespace OmpLazy.State

open OmpLazy.Foundation OmpLazy.Foundation.Schema OmpLazy.Foundation.Text OmpLazy.Workflows

/-- A derived index is valid exactly when the run is left out or no other run holds its key. -/
theorem deriveIndex_valid_iff {index : ActiveIndex} (hvalid : index.Valid) (run : AnyRun)
    (sequence : ℕ) :
    (deriveIndex index run sequence).Valid ↔ statusHint run = none ∨
      ∀ entry ∈ index.entries, entry.runId ≠ run.runId → entry.workflow = run.workflow →
        entry.sessionId ≠ run.owner.sessionId := by
  have hsub : (index.entries.filter (·.runId ≠ run.runId)).Sublist index.entries := List.filter_sublist
  have hkeys := hvalid.keys.sublist (hsub.map fun entry ↦ (entry.workflow, entry.sessionId))
  have hruns := hvalid.runIds.sublist (hsub.map (·.runId))
  cases hhint : statusHint run with
  | none =>
    simp only [true_or, iff_true]
    constructor
    · simpa [deriveIndex, hhint] using hkeys
    · simpa [deriveIndex, hhint] using hruns
  | some hint =>
    have hvalid_iff : (deriveIndex index run sequence).Valid ↔
        (run.workflow, run.owner.sessionId) ∉ (index.entries.filter (·.runId ≠ run.runId)).map
          fun entry ↦ (entry.workflow, entry.sessionId) := by
      constructor
      · rintro ⟨h, -⟩
        simp only [deriveIndex, hhint, Option.map_some, Option.toList_some, List.map_append] at h
        exact fun hmem ↦ List.disjoint_of_nodup_append h hmem (by simp [indexEntry])
      · intro h
        constructor
        · simp only [deriveIndex, hhint, Option.map_some, Option.toList_some, List.map_append]
          refine hkeys.append (by simp) ?_
          simpa [indexEntry] using h
        · simp only [deriveIndex, hhint, Option.map_some, Option.toList_some, List.map_append]
          refine hruns.append (by simp) ?_
          simp [indexEntry]
    rw [hvalid_iff]
    simp only [reduceCtorEq, false_or, List.mem_map, List.mem_filter, decide_eq_true_eq, not_exists,
      not_and, Prod.mk.injEq, and_imp]

/-- A transition after which the run is no longer in the index. -/
def endsRun (run : AnyRun) (event : PersistedStateEvent) : Bool :=
  match event.mutation with
  | .workflowControlled .cancel | .workflowTerminal .. => true
  | .workflowControlled _ | .ownerAdopted _ | .planReconciled .. | .continuationStuck _ => false
  | .criterionSettled settlement =>
    terminal run.status ||
      match run.payload with
      | .startWork _ => false
      | .ulwLoop payload => !event.legacyUnbound && payload.finishes settlement
  | _ => terminal run.status

/-- The session that owns the run after the transition. -/
def resultingSession (run : AnyRun) (event : PersistedStateEvent) : String :=
  match event.mutation with
  | .ownerAdopted sessionId => sessionId
  | _ => run.owner.sessionId

/-- No other run of the event's workflow is in the index under the session that will own the run,
unless the run leaves the index. -/
def KeepsIndex (index : ActiveIndex) (current : Option AnyRun) (event : PersistedStateEvent) : Prop :=
  ∀ run ∈ sourceRun current event, endsRun run event = false → ∀ entry ∈ index.entries,
    entry.runId ≠ event.runId → entry.workflow = event.workflow →
      entry.sessionId ≠ resultingSession run event

theorem statusHint_eq_none {run : AnyRun} : statusHint run = none ↔ terminal run.status = true := by
  cases h : run.status <;> simp [statusHint, terminal, h]

section Closure

variable {index : ActiveIndex} {current : Option AnyRun} {event : PersistedStateEvent}
  {authority : Option ReceiptAuthority} {prepared : PreparedTransition} {run next : AnyRun}

/-- A status set alike in both workflows ends the run or not, whatever the payload. -/
theorem terminal_withStatus (payload : Payload) (start : RunStatus) (ulw : UlwLoopStatus)
    (h : ulw.toRunStatus = start) : terminal (payload.withStatus start ulw).status = terminal start := by
  cases payload with
  | startWork payload => rfl
  | ulwLoop payload => exact congrArg terminal h

theorem controlled_leaves_iff (h : Controlled run event authority next) :
    terminal next.status = true ↔ endsRun run event = true := by
  cases h with
  | unchanged hlegacy hkind =>
    cases hm : event.mutation <;> simp_all [endsRun, StateMutation.kind]
    cases run.payload <;> simp
  | paused hm _ =>
    simp only [endsRun, hm, AnyRun.status, terminal_withStatus run.payload .paused .paused rfl]
    decide
  | resumed hm _ | adopted _ hm _ =>
    simp only [endsRun, hm, AnyRun.status, terminal_withStatus run.payload .active .active rfl]
    decide
  | cancelled hm _ =>
    simp only [endsRun, hm, AnyRun.status, terminal_withStatus run.payload .cancelled .cancelled rfl]
    decide
  | reconciled _ _ _ _ hm _ _ => simp [endsRun, hm, AnyRun.status, Payload.status, terminal]
  | steered _ _ _ _ hm hpayload _ _ => simp [endsRun, hm, AnyRun.status, Payload.status, hpayload]
  | settled settlement payload hm hlegacy hpayload _ =>
    have hall := UlwLoopPayload.all_settledGoals payload settlement
    cases hfinish : payload.finishes settlement <;>
      simp [endsRun, hm, AnyRun.status, Payload.status, hpayload, hlegacy, settledPayload, hall,
        hfinish, terminal, UlwLoopStatus.toRunStatus]
  | evidenceAccepted _ _ hm => simp [endsRun, hm, AnyRun.status]
  | failed _ _ hm =>
    simp only [endsRun, hm, AnyRun.status, setRunStatus, StoppedStatus.run, StoppedStatus.ulw,
      terminal_withStatus run.payload .failed .failed rfl]
    decide
  | completed _ _ _ hm _ => simp [endsRun, hm, AnyRun.status, Payload.status, terminal]
  | attempted _ _ hm => simp [endsRun, hm, AnyRun.status]
  | stopped _ hm =>
    simp only [endsRun, hm, AnyRun.status, setRunStatus, StoppedStatus.run, StoppedStatus.ulw,
      terminal_withStatus run.payload .stuck .stuck rfl]
    decide
  | cycled _ _ _ hm _ hpayload _ _ => simp [endsRun, hm, AnyRun.status, Payload.status, hpayload]
  | failureRecorded _ _ _ _ _ _ hm _ hpayload _ _ _ =>
    simp [endsRun, hm, AnyRun.status, Payload.status, hpayload]

theorem controlled_session (h : Controlled run event authority next) :
    next.owner.sessionId = resultingSession run event := by
  cases h with
  | unchanged _ hkind =>
    cases hm : event.mutation <;> simp_all [resultingSession, StateMutation.kind]
  | _ => simp_all [resultingSession, setRunStatus]

/-- What a prepared transition publishes, by what it starts from. -/
theorem prepared_cases (h : prepareTransition index current event authority = .ok prepared) :
    ∃ run, sourceRun current event = some run ∧ prepared.run.runId = event.runId ∧
      prepared.run.workflow = event.workflow ∧
      prepared.index = deriveIndex index prepared.run event.sequence ∧
      prepared.run.owner.sessionId = resultingSession run event ∧
      (terminal prepared.run.status = true ↔ endsRun run event = true) := by
  obtain ⟨-, -, next, hnext, hid, hworkflow, rfl⟩ := prepareTransition_eq_ok.mp h
  obtain ⟨hcreated, rfl, -⟩ | ⟨run, rfl, hkind, -, -, -, -, -, hcontrol⟩ := nextRun_cases hnext
  · refine ⟨next, by simp [sourceRun, hcreated], hid, hworkflow, rfl, ?_, ?_⟩
    · simp [resultingSession, hcreated, AnyRun.stamped]
    · rw [endsRun, hcreated]
      exact Iff.rfl
  · have hcontrolled := controlRun_cases hcontrol
    have hsource : sourceRun (some run) event = some run := by
      cases hm : event.mutation <;> simp_all [sourceRun, StateMutation.kind]
    have hsession : next.owner.sessionId = resultingSession run event := controlled_session hcontrolled
    have hends : terminal next.status = true ↔ endsRun run event = true :=
      controlled_leaves_iff hcontrolled
    exact ⟨run, hsource, hid, hworkflow, rfl, hsession, hends⟩

theorem prepared_valid_iff (hvalid : index.Valid)
    (h : prepareTransition index current event authority = .ok prepared) :
    prepared.index.Valid ↔ KeepsIndex index current event := by
  obtain ⟨run, hsource, hid, hworkflow, hindex, hsession, hends⟩ := prepared_cases h
  rw [hindex, deriveIndex_valid_iff hvalid, statusHint_eq_none, hends, hid, hworkflow, hsession,
    KeepsIndex, hsource]
  simp only [Option.mem_some_iff, forall_eq']
  cases endsRun run event <;> simp

theorem session_of_tidy (h : run.tidy = run) : trim run.owner.sessionId = run.owner.sessionId :=
  congrArg (·.owner.sessionId) h

/-- The owner of a run that a transition publishes is trimmed when all it reads is. -/
theorem prepared_session_trimmed (hcurrent : ∀ run ∈ current, run.tidy = run)
    (hevent : event.tidy = event)
    (h : prepareTransition index current event authority = .ok prepared) :
    trim prepared.run.owner.sessionId = prepared.run.owner.sessionId := by
  obtain ⟨run, hsource, -, -, -, hsession, -⟩ := prepared_cases h
  have hmutation : event.mutation.tidy = event.mutation := congrArg PersistedStateEvent.mutation hevent
  rw [hsession]
  cases hm : event.mutation with
  | ownerAdopted sessionId =>
    rw [hm] at hmutation
    simpa [resultingSession, hm] using StateMutation.ownerAdopted.inj hmutation
  | runCreated created =>
    rw [hm] at hmutation
    obtain rfl : created = run := by simpa [sourceRun, hm] using hsource
    simpa [resultingSession, hm] using session_of_tidy (StateMutation.runCreated.inj hmutation)
  | _ =>
    have htidy := hcurrent run (by simpa [sourceRun, hm] using hsource)
    simpa [resultingSession, hm] using session_of_tidy htidy

theorem map_eq_self {α : Type} {f : α → α} {xs : List α} : xs.map f = xs ↔ ∀ x ∈ xs, f x = x := by
  conv_lhs => rhs; rw [← List.map_id xs]
  exact List.map_inj_left

/-- An index made from what was read is read back as it is, when the run is. -/
theorem prepared_index_settled (hindex : activeIndexSchema (encodeActiveIndex index) = some index)
    (hcurrent : ∀ run ∈ current, runSchema (encodeRun run) = some run)
    (hevent : eventSchema (encodeEvent event) = some event)
    (h : prepareTransition index current event authority = .ok prepared) (hrun : prepared.run.Accepted) :
    activeIndexSchema (encodeActiveIndex prepared.index) = some prepared.index := by
  have hindex := (ActiveIndex.reads.fixed_iff index).mp hindex
  have hevent := (PersistedStateEvent.reads.fixed_iff event).mp hevent
  have hrun := AnyRun.accepted_iff.mp hrun
  have hsession := prepared_session_trimmed
    (fun run hmem ↦ ((AnyRun.reads.fixed_iff run).mp (hcurrent run hmem)).2) hevent.2 h
  obtain ⟨run, -, -, -, hderived, -⟩ := prepared_cases h
  have hentries : ∀ entry ∈ index.entries, entry.tidy = entry := by
    have htidy := congrArg ActiveIndex.entries hindex.2
    exact map_eq_self.mp htidy
  rw [ActiveIndex.reads.fixed_iff, hderived]
  refine ⟨⟨hindex.1.version, hevent.1.fields.sequence, fun entry hmem ↦ ?_⟩, ?_⟩
  · obtain hmem | hmem := List.mem_append.mp hmem
    · exact hindex.1.entries entry (List.mem_of_mem_filter hmem)
    · obtain ⟨hint, -, rfl⟩ : ∃ hint, statusHint prepared.run = some hint ∧
          indexEntry prepared.run event.sequence hint = entry := by simpa using hmem
      exact ⟨hrun.owner.sessionId, hrun.runId, hrun.owner.epoch, hrun.revision,
        hevent.1.fields.sequence⟩
  · have hretained : (index.entries.filter (·.runId ≠ prepared.run.runId)).map
        ActiveIndexEntry.tidy = index.entries.filter (·.runId ≠ prepared.run.runId) :=
      map_eq_self.mpr fun entry hmem ↦ hentries entry (List.mem_of_mem_filter hmem)
    have hnew : (((statusHint prepared.run).map (indexEntry prepared.run event.sequence)).toList).map
        ActiveIndexEntry.tidy =
          ((statusHint prepared.run).map (indexEntry prepared.run event.sequence)).toList := by
      cases statusHint prepared.run <;> simp [ActiveIndexEntry.tidy, indexEntry, hsession]
    simp only [ActiveIndex.tidy, deriveIndex, List.map_append, hretained, hnew]

/-- The derived index is valid exactly when the event keeps the index, and among states that were
read back it can be read back in exactly the same case. -/
theorem index_readable_iff (hvalid : index.validateActiveIndex = .ok ())
    (h : prepareTransition index current event authority = .ok prepared) :
    (prepared.index.validateActiveIndex = .ok () ↔ KeepsIndex index current event) ∧
      (activeIndexSchema (encodeActiveIndex index) = some index →
        (∀ run ∈ current, runSchema (encodeRun run) = some run) →
        eventSchema (encodeEvent event) = some event → prepared.run.Accepted →
        (decodeActiveIndex (stringify (encodeActiveIndex prepared.index)) = .ok prepared.index ↔
          KeepsIndex index current event)) := by
  have hiff := prepared_valid_iff (ActiveIndex.validateActiveIndex_eq_ok.mp hvalid) h
  refine ⟨ActiveIndex.validateActiveIndex_eq_ok.trans hiff, fun hindex hcurrent hevent hrun ↦ ?_⟩
  have hsettled := prepared_index_settled hindex hcurrent hevent h hrun
  rw [← hiff, decodeActiveIndex_eq_ok]
  constructor
  · rintro ⟨-, -, -, hread⟩
    exact hread
  · exact fun hread ↦ ⟨_, rfl, hsettled, hread⟩

end Closure

namespace Sample

/-- A second run, which its own session has paused. -/
def otherRun : AnyRun :=
  { run with
    runId := "22222222-2222-4222-8222-222222222222"
    owner := ⟨"other", 1⟩
    payload := .ulwLoop { payload with status := .paused } }

def bothIndex : ActiveIndex :=
  { index with entries := [indexEntry run 1 .active, indexEntry otherRun 1 .paused] }

def adoption : PersistedStateEvent :=
  { event none (.ownerAdopted "session") with
    runId := otherRun.runId
    expected := ⟨1, some 1, some "other", some 1⟩ }

end Sample

theorem index_readable_paused :
    ∃ prepared, prepareTransition Sample.index (some Sample.run)
        (Sample.event none (.workflowControlled .pause)) none = .ok prepared ∧
      (prepared.index.validateActiveIndex = .ok () ↔
        KeepsIndex Sample.index (some Sample.run) (Sample.event none (.workflowControlled .pause))) := by
  obtain ⟨prepared, h⟩ : ∃ prepared, prepareTransition Sample.index (some Sample.run)
      (Sample.event none (.workflowControlled .pause)) none = .ok prepared := ⟨_, rfl⟩
  exact ⟨prepared, h, (index_readable_iff (by decide) h).1⟩

/-- A session that owns an active run adopts another one: the derived index has its key twice. -/
theorem adoption_duplicates_key :
    ∃ prepared, Sample.bothIndex.validateActiveIndex = .ok () ∧ Sample.otherRun.Accepted ∧
      Sample.adoption.Accepted ∧
      prepareTransition Sample.bothIndex (some Sample.otherRun) Sample.adoption none = .ok prepared ∧
      prepared.index.validateActiveIndex = .error .duplicateActiveKey :=
  ⟨_, by decide, by decide, by decide, rfl, by decide⟩

end OmpLazy.State

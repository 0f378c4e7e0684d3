import OmpLazy.State.CompletionGates
import OmpLazy.State.ReceiptLaws
import OmpLazy.State.ReceiptLedgers
import OmpLazy.State.StuckCoherence

namespace OmpLazy.State

open OmpLazy.Foundation OmpLazy.Workflows ReceiptAuthority

/-- The criterion at a place has passed. -/
def PassAt (run : AnyRun) (i j : ℕ) : Prop :=
  ∃ goal criterion, run.goals[i]? = some goal ∧ goal.criteria[j]? = some criterion ∧
    criterion.status = .pass

def TurnsPass (run next : AnyRun) : Prop := ∃ i j, PassAt next i j ∧ ¬ PassAt run i j

/-- What counts as progress of a run. -/
def Progresses (run next : AnyRun) : Prop :=
  run.progressRevision < next.progressRevision ∨ TurnsPass run next ∨
    next.status = .completed ∧ run.status ≠ .completed

/-- The task and the acceptance id of a settlement. -/
def settles (event : PersistedStateEvent) : Option (String × String) :=
  if event.legacyUnbound then none
  else
    match event.mutation with
    | .criterionSettled settlement => settlement.acceptanceId.map (settlement.criterionId, ·)
    | .taskEvidenceAccepted taskId acceptanceId => some (taskId, acceptanceId)
    | _ => none

/-- Each acceptance that the event names belongs to its task. -/
def Receipted (run : AnyRun) (event : PersistedStateEvent) (authority : ReceiptAuthority) : Prop :=
  match event.mutation with
  | .criterionSettled settlement => ∃ acceptanceId, settlement.acceptanceId = some acceptanceId ∧
      Certified run authority settlement.criterionId acceptanceId
  | .taskEvidenceAccepted taskId acceptanceId => Certified run authority taskId acceptanceId
  | .workflowTerminal .completed acceptanceIds _ => ∃ plan ids, run.payload.plan = some plan ∧
      acceptanceIds = some ids ∧ List.Forall₂ (Certified run authority) plan.taskIds ids
  | _ => False

/-- The progress of an event is backed by the receipts of the moment. -/
structure Earned (run : AnyRun) (event : PersistedStateEvent) (authority : ReceiptAuthority)
    (next : AnyRun) : Prop where
  progress : Progresses run next →
    event.version ≠ .v1 ∧ event.legacyUnbound = false ∧ Receipted run event authority
  settlement : ∀ taskId acceptanceId, settles event = some (taskId, acceptanceId) →
    next.progressRevision = run.progressRevision + 1 ∧
      ∃ entry ∈ authority.accepted, entry.idempotencyKey = acceptanceId ∧ Certifies run taskId entry ∧
        entry.taskGeneration = authority.taskGeneration ∧ entry.attempt = run.progressRevision
  failure : next.status = .failed → run.status ≠ .failed → ∃ entry, Exhausted run authority entry

section Passes

variable {run next : AnyRun} {goalId : String} {f : Goal → Goal}

theorem not_turnsPass_of_same (hgoals : next.goals = run.goals) : ¬ TurnsPass run next := by
  rintro ⟨i, j, ⟨goal, criterion, hgoal, hcriterion, hpass⟩, hnot⟩
  exact hnot ⟨goal, criterion, hgoals ▸ hgoal, hcriterion, hpass⟩

theorem not_turnsPass_of_update (hgoals : next.goals = updateGoal goalId f run.goals)
    (hf : ∀ goal ∈ run.goals, goal.id = goalId → ∀ (j : ℕ) criterion,
      (f goal).criteria[j]? = some criterion → criterion.status = .pass →
        ∃ before, goal.criteria[j]? = some before ∧ before.status = .pass) : ¬ TurnsPass run next := by
  rintro ⟨i, j, ⟨goal, criterion, hgoal, hcriterion, hpass⟩, hnot⟩
  rw [hgoals, updateGoal, List.getElem?_map] at hgoal
  obtain ⟨before, hbefore, rfl⟩ := Option.map_eq_some_iff.mp hgoal
  split at hcriterion
  · obtain ⟨old, hold, holdPass⟩ :=
      hf before (List.mem_of_getElem? hbefore) ‹_› j criterion hcriterion hpass
    exact hnot ⟨before, old, hbefore, hold, holdPass⟩
  · exact hnot ⟨before, criterion, hbefore, hcriterion, hpass⟩

end Passes

/-- The goals of a run have different ids. -/
def UniqueGoals (run : AnyRun) : Prop := (run.goals.map (·.id)).Nodup

theorem Controlled.goalIds {run next : AnyRun} {event : PersistedStateEvent}
    {authority : Option ReceiptAuthority} (h : Controlled run event authority next) :
    next.goals.map (·.id) = run.goals.map (·.id) := by
  cases h with
  | unchanged | evidenceAccepted | attempted => rfl
  | paused | cancelled | resumed | adopted | failed | stopped => rw [(goals_withStatus rfl).1]
  | reconciled _ _ _ _ _ hpayload | completed _ _ _ _ hpayload =>
    rw [(AnyRun.goals_of_start hpayload).1]
    rfl
  | steered _ _ payload _ _ hpayload =>
    rw [(AnyRun.goals_of_ulw hpayload).1]
    exact UlwLoopPayload.map_updateGoal payload.goals fun _ _ _ ↦ rfl
  | settled settlement payload _ _ hpayload =>
    rw [(AnyRun.goals_of_ulw hpayload).1]
    exact UlwLoopPayload.map_updateGoal payload.goals fun _ _ _ ↦ rfl
  | cycled _ payload _ _ _ hpayload =>
    rw [(AnyRun.goals_of_ulw hpayload).1]
    exact UlwLoopPayload.map_updateGoal payload.goals fun _ _ _ ↦ rfl
  | failureRecorded _ _ _ payload _ _ _ _ hpayload =>
    rw [(AnyRun.goals_of_ulw hpayload).1]
    exact UlwLoopPayload.map_updateGoal payload.goals fun _ _ _ ↦ rfl

/-- A step that makes no progress and fails no run. -/
structure Idle (run next : AnyRun) : Prop where
  progressRevision : next.progressRevision = run.progressRevision
  passes : ¬ TurnsPass run next
  completed : next.status = .completed → run.status = .completed
  failed : next.status = .failed → run.status = .failed

theorem Idle.of_same {run next : AnyRun} (hprogress : next.progressRevision = run.progressRevision)
    (hgoals : next.goals = run.goals) (hstatus : next.status = run.status) : Idle run next :=
  ⟨hprogress, not_turnsPass_of_same hgoals, fun h ↦ hstatus ▸ h, fun h ↦ hstatus ▸ h⟩

theorem Idle.of_withStatus {run next : AnyRun} {start : RunStatus} {ulw : UlwLoopStatus}
    (hpayload : next.payload = run.payload.withStatus start ulw) (halike : ulw.toRunStatus = start)
    (hprogress : next.progressRevision = run.progressRevision) (hcompleted : start ≠ .completed)
    (hfailed : start ≠ .failed) : Idle run next := by
  have hstatus := AnyRun.status_withStatus hpayload halike
  exact ⟨hprogress, not_turnsPass_of_same (goals_withStatus hpayload).1,
    fun h ↦ absurd (hstatus.symm.trans h) hcompleted, fun h ↦ absurd (hstatus.symm.trans h) hfailed⟩

/-- A rewrite of one goal that passes none of its criteria. -/
theorem Idle.of_update {run next : AnyRun} {payload updated : UlwLoopPayload} {goalId : String}
    {f : Goal → Goal} (hpayload : run.payload = .ulwLoop payload)
    (hupdated : next.payload = .ulwLoop updated) (hstatus : updated.status = payload.status)
    (hprogress : next.progressRevision = run.progressRevision)
    (hgoals : updated.goals = updateGoal goalId f payload.goals)
    (hf : ∀ goal ∈ payload.goals, goal.id = goalId → ∀ (j : ℕ) criterion,
      (f goal).criteria[j]? = some criterion → criterion.status = .pass →
        ∃ before, goal.criteria[j]? = some before ∧ before.status = .pass) : Idle run next := by
  have hsame : next.status = run.status := by
    simp only [AnyRun.status, hpayload, hupdated, Payload.status, hstatus]
  obtain ⟨hrunGoals, -⟩ := AnyRun.goals_of_ulw hpayload
  obtain ⟨hnextGoals, -⟩ := AnyRun.goals_of_ulw hupdated
  refine ⟨hprogress, ?_, fun h ↦ hsame ▸ h, fun h ↦ hsame ▸ h⟩
  rw [← hrunGoals] at hgoals hf
  exact not_turnsPass_of_update (hnextGoals.trans hgoals) hf

theorem Idle.not_progresses {run next : AnyRun} (h : Idle run next) : ¬ Progresses run next := by
  rintro (hraised | hpass | ⟨hcompleted, hopen⟩)
  · exact absurd hraised (by rw [h.progressRevision]; exact lt_irrefl _)
  · exact h.passes hpass
  · exact hopen (h.completed hcompleted)

theorem Idle.earned {run next : AnyRun} {event : PersistedStateEvent} {authority : ReceiptAuthority}
    (h : Idle run next) (hsettles : settles event = none) : Earned run event authority next where
  progress := fun hprogress ↦ absurd hprogress h.not_progresses
  settlement := fun taskId acceptanceId hsome ↦ by rw [hsettles] at hsome; cases hsome
  failure := fun hfailed hopen ↦ absurd (h.failed hfailed) hopen

/-- The kinds of events that settle, accept evidence or end a run by receipts. -/
def ReceiptBound (kind : MutationKind) : Prop :=
  kind = .criterionSettled ∨ kind = .taskEvidenceAccepted ∨ kind = .workflowTerminal

/-- Other events make no progress. -/
theorem Controlled.idle {run next : AnyRun} {event : PersistedStateEvent}
    {authority : Option ReceiptAuthority} (hrun : UniqueGoals run)
    (h : Controlled run event authority next) (hother : ¬ ReceiptBound event.mutation.kind) :
    Idle run next := by
  cases h with
  | unchanged | attempted => exact .of_same rfl rfl rfl
  | paused | cancelled | resumed | adopted | stopped =>
    exact .of_withStatus rfl (by rfl) rfl (by decide) (by decide)
  | settled _ _ hm => exact absurd (.inl (by rw [hm]; rfl)) hother
  | evidenceAccepted _ _ hm => exact absurd (.inr (.inl (by rw [hm]; rfl))) hother
  | failed _ _ hm => exact absurd (.inr (.inr (by rw [hm]; rfl))) hother
  | completed _ _ _ hm => exact absurd (.inr (.inr (by rw [hm]; rfl))) hother
  | reconciled _ _ _ _ _ hpayload hstatus =>
    refine ⟨rfl, not_turnsPass_of_same (AnyRun.goals_of_start hpayload).1.symm, ?_, ?_⟩
    · exact fun h ↦ by cases h
    · exact fun h ↦ by cases h
  | steered criteria _ payload activeGoalId _ hpayload =>
    refine .of_update hpayload rfl rfl rfl rfl fun goal _ _ j criterion hcriterion hpass ↦ ?_
    by_cases hold : j < goal.criteria.length
    · exact ⟨criterion, by rwa [steeredGoal, List.getElem?_append_left hold] at hcriterion, hpass⟩
    · rw [steeredGoal, List.getElem?_append_right (by omega)] at hcriterion
      obtain ⟨added, -, rfl⟩ := List.mem_map.mp (List.mem_of_getElem? hcriterion)
      cases hpass
  | cycled goalId payload goal _ _ hpayload =>
    exact .of_update hpayload rfl rfl rfl rfl fun goal _ _ j criterion hcriterion hpass ↦
      ⟨criterion, hcriterion, hpass⟩
  | failureRecorded goalId criterionId fingerprint payload goal criterion _ _ hpayload hgoal =>
    refine .of_update hpayload rfl rfl rfl rfl fun candidate hmem hid j item hitem hpass ↦ ?_
    obtain ⟨hgoals, -⟩ := AnyRun.goals_of_ulw hpayload
    have hname : goal.id = goalId := by simpa using List.find?_some hgoal
    obtain rfl : candidate = goal :=
      eq_of_map_nodup (hgoals ▸ hrun) hmem (List.mem_of_find?_eq_some hgoal) (hid.trans hname.symm)
    rw [updateCriterion, List.getElem?_map] at hitem
    obtain ⟨before, hbefore, rfl⟩ := Option.map_eq_some_iff.mp hitem
    split at hpass
    · cases hpass
    · exact ⟨before, hbefore, hpass⟩

theorem settles_eq_none {event : PersistedStateEvent} (hother : ¬ ReceiptBound event.mutation.kind) :
    settles event = none := by
  unfold settles
  cases hm : event.mutation <;> simp_all [ReceiptBound, StateMutation.kind]

section Earnings

variable {run next : AnyRun} {event : PersistedStateEvent} {read : Option ReceiptAuthority}
  {authority : ReceiptAuthority}

theorem controlRun_receiptBound (hkind : ReceiptBound event.mutation.kind) :
    controlRun run event read = reduceRuntimeProgress run event read := by
  unfold controlRun controlMutation
  cases hm : event.mutation <;> simp_all [ReceiptBound, StateMutation.kind]

/-- What binds a receipt is the authority that was read. -/
theorem bound_eq (hread : ∀ bound ∈ read, bound = authority) {bound : ReceiptAuthority}
    (h : receiptBinding event read = some bound) :
    bound = authority ∧ event.version ≠ .v1 ∧ event.legacyUnbound = false := by
  obtain ⟨hversion, hlegacy, hsome⟩ := receiptBinding_eq_some.mp h
  exact ⟨hread bound hsome, hversion, hlegacy⟩

theorem settlementAccepted_eq_true {settlement : Settlement}
    (h : settlementAccepted run event settlement authority = true) :
    ∃ acceptanceId entry, settlement.acceptanceId = some acceptanceId ∧
      currentAcceptance run authority settlement.criterionId = some entry ∧
      entry.idempotencyKey = acceptanceId := by
  unfold settlementAccepted at h
  split at h
  · rename_i acceptanceId entry hid hentry
    simp only [Bool.and_eq_true, decide_eq_true_eq] at h
    exact ⟨acceptanceId, entry, hid, hentry, h.1.1.1⟩
  · cases h

/-- A settlement by the current acceptance of its task. -/
theorem Earned.of_settlement {taskId acceptanceId : String} {entry : ScopedWorkerAcceptanceEvent}
    (hversion : event.version ≠ .v1) (hlegacy : event.legacyUnbound = false)
    (hsettles : settles event = some (taskId, acceptanceId))
    (hentry : currentAcceptance run authority taskId = some entry)
    (hkey : entry.idempotencyKey = acceptanceId)
    (hreceipted : Certified run authority taskId acceptanceId → Receipted run event authority)
    (hraised : next.progressRevision = run.progressRevision + 1)
    (hfailed : next.status = .failed → run.status = .failed) : Earned run event authority next := by
  obtain ⟨hmem, hcertifies, hgeneration, hattempt⟩ := currentAcceptance_eq_some hentry
  refine ⟨fun _ ↦ ⟨hversion, hlegacy, hreceipted ⟨entry, hmem, hkey, hcertifies⟩⟩,
    fun task id hsome ↦ ?_, fun hnext hopen ↦ absurd (hfailed hnext) hopen⟩
  obtain ⟨rfl, rfl⟩ : taskId = task ∧ acceptanceId = id := by
    rw [hsettles] at hsome
    simpa using hsome
  exact ⟨hraised, entry, hmem, hkey, hcertifies, hgeneration, hattempt⟩

theorem criterionSettled_earned {settlement : Settlement}
    (hread : ∀ bound ∈ read, bound = authority) (hm : event.mutation = .criterionSettled settlement)
    (h : settleCriterion run event settlement read = some next) : Earned run event authority next := by
  obtain ⟨payload, hpayload, hoption⟩ := settleCriterion_eq_some.mp h
  rcases hoption with ⟨hlegacy, rfl⟩ | ⟨bound, hbound, haccepted, hpending, rfl⟩
  · exact (Idle.of_same rfl rfl rfl).earned (if_pos hlegacy)
  · obtain ⟨rfl, hversion, hlegacy⟩ := bound_eq hread hbound
    obtain ⟨acceptanceId, entry, hid, hentry, hkey⟩ := settlementAccepted_eq_true haccepted
    refine .of_settlement hversion hlegacy ?_ hentry hkey (fun hcertified ↦ ?_) rfl ?_
    · simp [settles, hlegacy, hm, hid]
    · rw [Receipted, hm]
      exact ⟨acceptanceId, hid, hcertified⟩
    · rw [AnyRun.status, AnyRun.status, hpayload]
      intro hfailed
      rcases status_settledPayload settlement payload with hstatus | hstatus
      · simpa only [Payload.status, hstatus] using hfailed
      · simp only [Payload.status, hstatus] at hfailed
        cases hfailed

theorem taskEvidenceAccepted_earned {taskId acceptanceId : String}
    (hread : ∀ bound ∈ read, bound = authority)
    (hm : event.mutation = .taskEvidenceAccepted taskId acceptanceId)
    (h : acceptTaskEvidence run event taskId acceptanceId read = some next) :
    Earned run event authority next := by
  obtain ⟨hworkflow, bound, entry, hbound, hentry, hkey, hgeneration, rfl⟩ :=
    acceptTaskEvidence_eq_some.mp h
  obtain ⟨rfl, hversion, hlegacy⟩ := bound_eq hread hbound
  refine .of_settlement hversion hlegacy ?_ hentry hkey (fun hcertified ↦ ?_) rfl id
  · simp [settles, hlegacy, hm]
  · rw [Receipted, hm]
    exact hcertified

theorem workflowTerminal_earned {status : TerminalStatus} {acceptanceIds : Option (List String)}
    {taskId : Option String} (hread : ∀ bound ∈ read, bound = authority)
    (hm : event.mutation = .workflowTerminal status acceptanceIds taskId)
    (h : terminalRun run event status acceptanceIds taskId read = some next) :
    Earned run event authority next := by
  have hnone {task id : String} : settles event ≠ some (task, id) := by simp [settles, hm]
  obtain ⟨bound, hbound, hgeneration, hend⟩ := terminalRun_eq_some.mp h
  obtain ⟨rfl, hversion, hlegacy⟩ := bound_eq hread hbound
  cases status with
  | failed =>
    obtain ⟨htask, hexhausted, rfl⟩ := hend
    have hstatus : (setRunStatus run .failed).status = .failed := AnyRun.status_withStatus rfl (by rfl)
    obtain ⟨task, rfl⟩ := Option.ne_none_iff_exists'.mp htask
    obtain ⟨entry, hentry, -⟩ := exhaustedTaskId_eq_some hexhausted
    refine ⟨?_, fun _ _ hsome ↦ absurd hsome hnone, fun _ _ ↦ ⟨entry, hentry⟩⟩
    rintro (hraised | hpass | ⟨hcompleted, -⟩)
    · exact absurd hraised (lt_irrefl _)
    · exact absurd hpass (not_turnsPass_of_same (goals_withStatus rfl).1)
    · rw [hstatus] at hcompleted
      cases hcompleted
  | completed =>
    obtain ⟨payload, hpayload, hsome, hids, rfl⟩ := hend
    obtain ⟨ids, rfl⟩ := Option.ne_none_iff_exists'.mp hsome
    refine ⟨fun _ ↦ ⟨hversion, hlegacy, ?_⟩, fun _ _ hsome ↦ absurd hsome hnone,
      fun hfailed ↦ absurd hfailed (by simp [AnyRun.status, Payload.status])⟩
    rw [Receipted, hm]
    exact ⟨payload.plan, ids, by rw [hpayload]; rfl, rfl, startCompletionAcceptanceIds_certified hids⟩

theorem earned_of_control (hrun : UniqueGoals run) (hread : ∀ bound ∈ read, bound = authority)
    (h : controlRun run event read = some next) : Earned run event authority next := by
  by_cases hkind : ReceiptBound event.mutation.kind
  · rw [controlRun_receiptBound hkind] at h
    unfold reduceRuntimeProgress at h
    cases hm : event.mutation <;> simp only [hm] at h
    case criterionSettled settlement => exact criterionSettled_earned hread hm h
    case taskEvidenceAccepted taskId acceptanceId => exact taskEvidenceAccepted_earned hread hm h
    case workflowTerminal status acceptanceIds taskId => exact workflowTerminal_earned hread hm h
    all_goals simp [hm, ReceiptBound, StateMutation.kind] at hkind
  · exact ((controlRun_cases h).idle hrun hkind).earned (settles_eq_none hkind)

end Earnings

/-- One accepted event of a history, with the ledgers it was decided on. -/
structure Record where
  run : AnyRun
  ledgers : ReceiptLedgers
  event : PersistedStateEvent
  next : AnyRun

def Record.authority (record : Record) : ReceiptAuthority :=
  record.ledgers.readReceiptAuthority record.run

/-- The ledgers grow, and then an event is accepted under the authority read from them; it is not read
for the kinds of events that are not bound to receipts. -/
def Earns (state : AnyRun × ReceiptLedgers) (record : Record) (after : AnyRun × ReceiptLedgers) : Prop :=
  record.run = state.1 ∧ state.2.Grown record.ledgers ∧ after = (record.next, record.ledgers) ∧
    ∃ index authority prepared, (∀ bound ∈ authority, bound = record.authority) ∧
      prepareTransition index (some record.run) record.event authority = .ok prepared ∧
      prepared.run = record.next

/-- What has been settled so far is in the ledger with an attempt that is over. -/
structure Spent (records : List Record) (state : AnyRun × ReceiptLedgers) : Prop where
  goals : UniqueGoals state.1
  earned : ∀ record ∈ records, Earned record.run record.event record.authority record.next
  settled : ∀ record ∈ records, ∀ taskId acceptanceId, settles record.event = some (taskId, acceptanceId) →
    ∃ entry ∈ state.2.acceptances, entry.idempotencyKey = acceptanceId ∧
      entry.attempt < state.1.progressRevision
  once : (records.filterMap fun record ↦ (settles record.event).map (·.2)).Nodup

theorem Earned.stamped {run next : AnyRun} {event : PersistedStateEvent} {authority : ReceiptAuthority}
    (h : Earned run event authority next) (sequence : ℕ) :
    Earned run event authority (next.stamped sequence) := ⟨h.progress, h.settlement, h.failure⟩

/-- The id of an earlier settlement does not settle again: the counter has moved past its attempt. -/
theorem Spent.fresh {records : List Record} {state : AnyRun × ReceiptLedgers} (h : Spent records state)
    {ledgers : ReceiptLedgers} (hgrown : state.2.Grown ledgers) {entry : ScopedWorkerAcceptanceEvent}
    (hentry : entry ∈ ledgers.acceptances) (hattempt : entry.attempt = state.1.progressRevision) :
    entry.idempotencyKey ∉ records.filterMap fun record ↦ (settles record.event).map (·.2) := by
  intro hmem
  obtain ⟨record, hrecord, hid⟩ := List.mem_filterMap.mp hmem
  obtain ⟨⟨taskId, acceptanceId⟩, hsettles, rfl⟩ := Option.map_eq_some_iff.mp hid
  obtain ⟨earlier, hearlier, hkey, hspent⟩ := h.settled record hrecord _ _ hsettles
  obtain rfl := hgrown.unique (hgrown.kept earlier hearlier) hentry hkey
  omega

theorem Spent.snoc {records : List Record} {state after : AnyRun × ReceiptLedgers} {record : Record}
    (h : Spent records state) (hstep : Earns state record after) : Spent (records ++ [record]) after := by
  obtain ⟨run, ledgers⟩ := state
  obtain ⟨current, grown, event, next⟩ := record
  obtain ⟨rfl, hgrown, rfl, index, read, prepared, hread, hprepared, rfl⟩ := hstep
  have hframed := Accepts.framed ⟨index, read, prepared, hprepared, rfl⟩
  obtain ⟨unstamped, hcontrol, hrun⟩ := prepared_controlled hprepared
  have hearned : Earned current event (grown.readReceiptAuthority current) prepared.run :=
    hrun ▸ (earned_of_control h.goals hread hcontrol).stamped _
  refine ⟨?_, ?_, ?_, ?_⟩
  · have hids := (controlRun_cases hcontrol).goalIds
    change (prepared.run.goals.map (·.id)).Nodup
    rw [hrun]
    exact hids ▸ h.goals
  · intro record hrecord
    rcases List.mem_append.mp hrecord with hold | hnew
    · exact h.earned record hold
    · obtain rfl := List.mem_singleton.mp hnew
      exact hearned
  · intro record hrecord taskId acceptanceId hsettles
    rcases List.mem_append.mp hrecord with hold | hnew
    · obtain ⟨entry, hentry, hkey, hspent⟩ := h.settled record hold taskId acceptanceId hsettles
      exact ⟨entry, hgrown.kept entry hentry, hkey, lt_of_lt_of_le hspent hframed.progressRevision⟩
    · obtain rfl := List.mem_singleton.mp hnew
      obtain ⟨hraised, entry, hentry, hkey, -, -, hattempt⟩ := hearned.settlement _ _ hsettles
      exact ⟨entry, hentry, hkey, by simp only [hraised]; omega⟩
  · rw [List.filterMap_append]
    cases hsettles : settles event with
    | none => simpa [hsettles] using h.once
    | some pair =>
      obtain ⟨taskId, acceptanceId⟩ := pair
      obtain ⟨-, entry, hentry, rfl, -, -, hattempt⟩ := hearned.settlement _ _ hsettles
      have hfresh := h.fresh hgrown hentry hattempt
      simp only [List.filterMap_cons, List.filterMap_nil, hsettles, Option.map_some]
      exact List.nodup_append.mpr ⟨h.once, List.nodup_singleton _, fun id hid other hother heq ↦
        hfresh (by rw [← List.mem_singleton.mp hother, ← heq]; exact hid)⟩

/-- Along every history of a run, progress is backed by receipts of the moment, and no acceptance
settles twice. -/
theorem progress_earned {start : AnyRun} {ledgers : ReceiptLedgers} {records : List Record}
    {last : AnyRun × ReceiptLedgers} (hstart : start.Accepted)
    (h : Recorded Earns (start, ledgers) records last) :
    (∀ record ∈ records, Earned record.run record.event record.authority record.next) ∧
      (records.filterMap fun record ↦ (settles record.event).map (·.2)).Nodup := by
  have hspent : Spent records last := by
    induction h with
    | nil =>
      refine ⟨hstart.uniqueGoals, ?_, ?_, List.nodup_nil⟩
      · simp
      · simp
    | snoc _ hstep ih => exact ih.snoc hstep
  exact ⟨hspent.earned, hspent.once⟩

namespace Sample

/-- One task reserved by the owner, and its worker's acceptance. -/
def ledgers : ReceiptLedgers where
  tasks := [⟨1, "session", 1, .taskReserved⟩]
  acceptances := [acceptance]
  rejections := .missing

def settling : PersistedStateEvent := eventOn boundRun (some 1) (.criterionSettled settlement)

end Sample

theorem progress_earned_settled :
    ∃ next, Sample.gates next = [(.complete, [.pass])] ∧
      Earned Sample.boundRun Sample.settling (Sample.ledgers.readReceiptAuthority Sample.boundRun) next := by
  obtain ⟨prepared, hprepared, hgates⟩ : ∃ prepared,
      prepareTransition ⟨.v2 1, 1, []⟩ (some Sample.boundRun) Sample.settling
          (some (Sample.ledgers.readReceiptAuthority Sample.boundRun)) = .ok prepared ∧
        Sample.gates prepared.run = [(.complete, [.pass])] := ⟨_, rfl, by decide⟩
  have hstart : Sample.boundRun.Accepted := by decide
  have hgrown : Sample.ledgers.Grown Sample.ledgers := ⟨fun _ h ↦ h, by decide⟩
  have hstep : Earns (Sample.boundRun, Sample.ledgers)
      ⟨Sample.boundRun, Sample.ledgers, Sample.settling, prepared.run⟩ (prepared.run, Sample.ledgers) :=
    ⟨rfl, hgrown, rfl, _, _, prepared, fun _ hbound ↦ (Option.some.inj hbound).symm, hprepared, rfl⟩
  obtain ⟨hearned, -⟩ := progress_earned hstart (.snoc .nil hstep)
  exact ⟨prepared.run, hgates, hearned _ List.mem_cons_self⟩

end OmpLazy.State

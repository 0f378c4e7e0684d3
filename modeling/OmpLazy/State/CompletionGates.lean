import OmpLazy.Foundation.Growth
import OmpLazy.State.History

namespace OmpLazy.State

open OmpLazy.Foundation OmpLazy.Workflows Relation

def AnyRun.goals (run : AnyRun) : List Goal :=
  match run.payload with
  | .startWork _ => []
  | .ulwLoop payload => payload.goals

def AnyRun.activeGoalId (run : AnyRun) : Option String :=
  match run.payload with
  | .startWork _ => none
  | .ulwLoop payload => payload.activeGoalId

/-- The criterion is the same one, and a pass stays with its evidence and its capture. -/
structure CriterionKept (criterion next : Criterion) : Prop where
  id : next.id = criterion.id
  pass : criterion.status = .pass → next.status = .pass ∧ next.evidenceRef = criterion.evidenceRef ∧
    next.captureRevision = criterion.captureRevision ∧ next.captureCommit = criterion.captureCommit

/-- The goal is the same one with its criteria in order; only the active goal gets more. -/
structure GoalKept (activeGoalId : Option String) (goal next : Goal) : Prop where
  id : next.id = goal.id
  criteria : Grows CriterionKept goal.criteria next.criteria
  added : goal.criteria.length < next.criteria.length → activeGoalId = some goal.id

/-- No goal and no criterion is lost on the way from one run to another. -/
structure GatesKept (run next : AnyRun) : Prop where
  length : next.goals.length = run.goals.length
  goals : Grows (GoalKept run.activeGoalId) run.goals next.goals
  active : next.activeGoalId = run.activeGoalId ∨ next.activeGoalId = none

/-- Criteria of a goal under one id have passed all or none. -/
def Goal.Agrees (goal : Goal) : Prop :=
  ∀ criterion ∈ goal.criteria, ∀ other ∈ goal.criteria, criterion.id = other.id →
    criterion.status = .pass → other.status = .pass

/-- A goal is complete only if all its criteria have passed. -/
def AnyRun.CompletePassed (run : AnyRun) : Prop :=
  ∀ goal ∈ run.goals, goal.status = .complete → goal.allPass = true

/-- Besides, the names are told apart as far as the reducers need it. -/
structure Gated (run : AnyRun) : Prop where
  goalIds : (run.goals.map (·.id)).Nodup
  agrees : ∀ goal ∈ run.goals, goal.Agrees
  complete : run.CompletePassed

/-- A failure is recorded only of a criterion that has not passed, and the active goal is steered only
while it is not complete. -/
def KeepsGates (run : AnyRun) (event : PersistedStateEvent) : Prop :=
  match event.mutation with
  | .workflowSteered criteria _ => criteria = [] ∨ ∀ goal ∈ run.goals,
      run.activeGoalId = some goal.id → goal.status ≠ .complete
  | .criterionFailureRecorded goalId criterionId _ => event.legacyUnbound = true ∨
      ∀ goal ∈ run.goals, goal.id = goalId → ∀ criterion ∈ goal.criteria,
        criterion.id = criterionId → criterion.status ≠ .pass
  | _ => True

namespace CriterionKept

theorem refl (criterion : Criterion) : CriterionKept criterion criterion :=
  ⟨rfl, fun h ↦ ⟨h, rfl, rfl, rfl⟩⟩

theorem trans ⦃a b c : Criterion⦄ (h : CriterionKept a b) (h' : CriterionKept b c) :
    CriterionKept a c := by
  refine ⟨h'.id.trans h.id, fun ha ↦ ?_⟩
  obtain ⟨hb, hevidence, hrevision, hcommit⟩ := h.pass ha
  obtain ⟨hc, hevidence', hrevision', hcommit'⟩ := h'.pass hb
  exact ⟨hc, hevidence'.trans hevidence, hrevision'.trans hrevision, hcommit'.trans hcommit⟩

theorem of_open {criterion next : Criterion} (hid : next.id = criterion.id)
    (hopen : criterion.status ≠ .pass) : CriterionKept criterion next :=
  ⟨hid, fun h ↦ absurd h hopen⟩

end CriterionKept

namespace GoalKept

variable {activeGoalId : Option String} {goal next : Goal}

theorem of_map {f : Criterion → Criterion} (hid : next.id = goal.id)
    (hcriteria : next.criteria = goal.criteria.map f)
    (hf : ∀ criterion ∈ goal.criteria, CriterionKept criterion (f criterion)) :
    GoalKept activeGoalId goal next := by
  refine ⟨hid, hcriteria ▸ .map hf, fun hlonger ↦ ?_⟩
  rw [hcriteria, List.length_map] at hlonger
  exact absurd hlonger (lt_irrefl _)

theorem of_same (hid : next.id = goal.id) (hcriteria : next.criteria = goal.criteria) :
    GoalKept activeGoalId goal next :=
  of_map hid (hcriteria.trans (List.map_id _).symm) fun criterion _ ↦ .refl criterion

theorem trans ⦃a b c : Goal⦄ (h : GoalKept activeGoalId a b) (h' : GoalKept activeGoalId b c) :
    GoalKept activeGoalId a c := by
  refine ⟨h'.id.trans h.id, h.criteria.trans CriterionKept.trans h'.criteria, fun hlonger ↦ ?_⟩
  by_cases hfirst : a.criteria.length < b.criteria.length
  · exact h.added hfirst
  · exact (h'.added (by omega)).trans (congrArg some h.id)

end GoalKept

namespace GatesKept

theorem of_same {run next : AnyRun} (hgoals : next.goals = run.goals)
    (hactive : next.activeGoalId = run.activeGoalId) : GatesKept run next :=
  ⟨by rw [hgoals], hgoals ▸ .refl (fun _ ↦ .of_same rfl rfl) _, .inl hactive⟩

theorem of_map {run next : AnyRun} {f : Goal → Goal} (hgoals : next.goals = run.goals.map f)
    (hf : ∀ goal ∈ run.goals, GoalKept run.activeGoalId goal (f goal))
    (hactive : next.activeGoalId = run.activeGoalId ∨ next.activeGoalId = none) : GatesKept run next :=
  ⟨by rw [hgoals, List.length_map], hgoals ▸ .map hf, hactive⟩

theorem trans ⦃a b c : AnyRun⦄ (h : GatesKept a b) (h' : GatesKept b c) : GatesKept a c := by
  refine ⟨h'.length.trans h.length, ?_, ?_⟩
  · refine h.goals.trans (fun _ _ _ h h' ↦ GoalKept.trans h h') (h'.goals.mono fun goal _ next hkept ↦ ?_)
    refine ⟨hkept.id, hkept.criteria, fun hlonger ↦ ?_⟩
    rcases h.active with hactive | hactive
    · exact hactive ▸ hkept.added hlonger
    · have hnone := hkept.added hlonger
      rw [hactive] at hnone
      cases hnone
  · rcases h'.active with hactive | hactive
    · exact hactive ▸ h.active
    · exact .inr hactive

end GatesKept

namespace Goal.Agrees

variable {goal : Goal}

theorem update (hgoal : goal.Agrees) {criterionId : String} {f : Criterion → Criterion}
    {status : CriterionStatus} (hid : ∀ criterion, (f criterion).id = criterion.id)
    (hstatus : ∀ criterion, (f criterion).status = status) {next : Goal}
    (hnext : next.criteria = updateCriterion criterionId f goal.criteria) : next.Agrees := by
  intro criterion hcriterion other hother hsame hpass
  rw [hnext] at hcriterion hother
  obtain ⟨before, hbefore, rfl⟩ := List.mem_map.mp hcriterion
  obtain ⟨before', hbefore', rfl⟩ := List.mem_map.mp hother
  have hids : before.id = before'.id := by
    split at hsame <;> split at hsame <;> simpa only [hid] using hsame
  by_cases hnamed : before.id = criterionId
  · have hnamed' := hids ▸ hnamed
    rw [if_pos hnamed, hstatus] at hpass
    rw [if_pos hnamed', hstatus, hpass]
  · have hnamed' : before'.id ≠ criterionId := fun h ↦ hnamed (hids.trans h)
    rw [if_neg hnamed] at hpass
    rw [if_neg hnamed']
    exact hgoal before hbefore before' hbefore' hids hpass

theorem steered (hgoal : goal.Agrees) {criteria : List SteeredCriterion}
    (hnew : ∀ criterion ∈ criteria, criterion.id ∉ goal.criterionIds) :
    (steeredGoal criteria goal).Agrees := by
  intro criterion hcriterion other hother hsame hpass
  rcases List.mem_append.mp hcriterion with hold | hadded
  · rcases List.mem_append.mp hother with hold' | hadded'
    · exact hgoal criterion hold other hold' hsame hpass
    · obtain ⟨added, hadded, rfl⟩ := List.mem_map.mp hadded'
      exact absurd (List.mem_map.mpr ⟨criterion, hold, hsame⟩) (hnew added hadded)
  · obtain ⟨added, -, rfl⟩ := List.mem_map.mp hadded
    cases hpass

end Goal.Agrees

section Updates

variable {run next : AnyRun} {goalId : String} {f : Goal → Goal}

theorem GatesKept.update (hgoals : next.goals = updateGoal goalId f run.goals)
    (hf : ∀ goal ∈ run.goals, goal.id = goalId → GoalKept run.activeGoalId goal (f goal))
    (hactive : next.activeGoalId = run.activeGoalId ∨ next.activeGoalId = none) : GatesKept run next := by
  refine .of_map hgoals (fun goal hgoal ↦ ?_) hactive
  split
  · exact hf goal hgoal ‹_›
  · exact .of_same rfl rfl

theorem Gated.of_same (hrun : Gated run) (hgoals : next.goals = run.goals) : Gated next := by
  refine ⟨?_, ?_, ?_⟩
  · exact hgoals ▸ hrun.goalIds
  · exact hgoals ▸ hrun.agrees
  · unfold AnyRun.CompletePassed
    exact hgoals ▸ hrun.complete

theorem Gated.update (hrun : Gated run) (hgoals : next.goals = updateGoal goalId f run.goals)
    (hid : ∀ goal, (f goal).id = goal.id)
    (hagrees : ∀ goal ∈ run.goals, goal.id = goalId → (f goal).Agrees)
    (hcomplete : ∀ goal ∈ run.goals, goal.id = goalId → (f goal).status = .complete →
      (f goal).allPass = true) : Gated next := by
  refine ⟨?_, ?_, ?_⟩
  · rw [hgoals, UlwLoopPayload.map_updateGoal run.goals fun goal _ _ ↦ hid goal]
    exact hrun.goalIds
  · intro goal hgoal
    rw [hgoals] at hgoal
    obtain ⟨before, hbefore, rfl⟩ := List.mem_map.mp hgoal
    split
    · exact hagrees before hbefore ‹_›
    · exact hrun.agrees before hbefore
  · intro goal hgoal
    rw [hgoals] at hgoal
    obtain ⟨before, hbefore, rfl⟩ := List.mem_map.mp hgoal
    split
    · exact hcomplete before hbefore ‹_›
    · exact hrun.complete before hbefore

theorem goals_withStatus {start : RunStatus} {ulw : UlwLoopStatus}
    (hpayload : next.payload = run.payload.withStatus start ulw) :
    next.goals = run.goals ∧ next.activeGoalId = run.activeGoalId := by
  unfold AnyRun.goals AnyRun.activeGoalId
  rw [hpayload]
  cases run.payload <;> exact ⟨rfl, rfl⟩

/-- The goal that a name finds is the only one with the name. -/
theorem Gated.goal_unique (hrun : Gated run) {goal found : Goal} (hgoal : goal ∈ run.goals)
    (hid : goal.id = goalId) (hfound : run.goals.find? (·.id = goalId) = some found) : goal = found := by
  have hname : found.id = goalId := by simpa using List.find?_some hfound
  exact eq_of_map_nodup hrun.goalIds hgoal (List.mem_of_find?_eq_some hfound) (hid.trans hname.symm)

end Updates

theorem AnyRun.goals_of_ulw {run : AnyRun} {payload : UlwLoopPayload}
    (hpayload : run.payload = .ulwLoop payload) :
    run.goals = payload.goals ∧ run.activeGoalId = payload.activeGoalId := by
  unfold AnyRun.goals AnyRun.activeGoalId
  rw [hpayload]
  exact ⟨rfl, rfl⟩

theorem AnyRun.goals_of_start {run : AnyRun} {payload : StartWorkPayload}
    (hpayload : run.payload = .startWork payload) : run.goals = [] ∧ run.activeGoalId = none := by
  unfold AnyRun.goals AnyRun.activeGoalId
  rw [hpayload]
  exact ⟨rfl, rfl⟩

section Steps

variable {run : AnyRun} {goal : Goal}

/-- The criterion that a pending settlement names has not passed, and no other of its name has. -/
theorem Gated.settling (hrun : Gated run) {payload : UlwLoopPayload} {settlement : Settlement}
    (hpayload : run.payload = .ulwLoop payload) (hpending : settlementPending payload settlement = true)
    (hgoal : goal ∈ run.goals) (hid : goal.id = settlement.goalId) :
    ∀ criterion ∈ goal.criteria, criterion.id = settlement.criterionId → criterion.status ≠ .pass := by
  unfold settlementPending at hpending
  rw [← (AnyRun.goals_of_ulw hpayload).1] at hpending
  split at hpending
  · cases hpending
  · rename_i found hfound
    obtain rfl := hrun.goal_unique hgoal hid hfound
    split at hpending
    · cases hpending
    · rename_i first hfirst
      intro criterion hcriterion hname hpass
      have hfirstName : first.id = settlement.criterionId := by simpa using List.find?_some hfirst
      have hfirstPass := hrun.agrees goal hgoal criterion hcriterion first
        (List.mem_of_find?_eq_some hfirst) (hname.trans hfirstName.symm) hpass
      simp [hfirstPass] at hpending

theorem GoalKept.updateCriterion {activeGoalId : Option String} {next : Goal} {criterionId : String}
    {f : Criterion → Criterion} (hid : next.id = goal.id)
    (hnext : next.criteria = updateCriterion criterionId f goal.criteria)
    (hf : ∀ criterion, (f criterion).id = criterion.id)
    (hopen : ∀ criterion ∈ goal.criteria, criterion.id = criterionId → criterion.status ≠ .pass) :
    GoalKept activeGoalId goal next := by
  refine .of_map hid hnext fun criterion hcriterion ↦ ?_
  split
  · exact .of_open (hf criterion) (hopen criterion hcriterion ‹_›)
  · exact .refl criterion

theorem GoalKept.steered {criteria : List SteeredCriterion} :
    GoalKept (some goal.id) goal (steeredGoal criteria goal) :=
  ⟨rfl, (Grows.refl CriterionKept.refl goal.criteria).append _, fun _ ↦ rfl⟩

/-- A goal that is complete has passed all, and what is settled in it stays so. -/
theorem Gated.settled_complete (hrun : Gated run) {settlement : Settlement} (hgoal : goal ∈ run.goals)
    (hcomplete : (settledGoal settlement goal).status = .complete) :
    (settledGoal settlement goal).allPass = true := by
  have hstatus : (settledGoal settlement goal).status =
      if (settledGoal settlement goal).allPass then .complete else goal.status := rfl
  rw [hstatus] at hcomplete
  split at hcomplete
  · assumption
  · have hall := List.all_eq_true.mp (hrun.complete goal hgoal hcomplete)
    refine List.all_eq_true.mpr fun criterion hcriterion ↦ ?_
    obtain ⟨before, hbefore, rfl⟩ := List.mem_map.mp hcriterion
    split
    · rfl
    · exact hall before hbefore

end Steps

/-- An accepted event that meets the condition keeps every gate and every pass. -/
theorem Controlled.gates {run next : AnyRun} {event : PersistedStateEvent}
    {authority : Option ReceiptAuthority} (hrun : Gated run) (hkeeps : KeepsGates run event)
    (h : Controlled run event authority next) : GatesKept run next ∧ Gated next := by
  have hsame {next : AnyRun} (hnext : next.goals = run.goals ∧ next.activeGoalId = run.activeGoalId) :
      GatesKept run next ∧ Gated next := ⟨.of_same hnext.1 hnext.2, hrun.of_same hnext.1⟩
  cases h with
  | unchanged | evidenceAccepted | attempted => exact hsame ⟨rfl, rfl⟩
  | paused | cancelled | resumed | adopted | failed | stopped => exact hsame (goals_withStatus rfl)
  | reconciled _ _ _ _ _ hpayload | completed _ _ _ _ hpayload =>
    obtain ⟨hgoals, hactive⟩ := AnyRun.goals_of_start hpayload
    exact hsame ⟨hgoals.symm, hactive.symm⟩
  | cycled goalId payload goal hm hlegacy hpayload hgoal hcycles =>
    obtain ⟨hgoals, hactive⟩ := AnyRun.goals_of_ulw hpayload
    have hnext : (payload.goals.map fun goal ↦ if goal.id = goalId then cycledGoal goal else goal) =
        updateGoal goalId cycledGoal run.goals := by rw [hgoals]; rfl
    exact ⟨.update hnext (fun _ _ _ ↦ .of_same rfl rfl) (.inl hactive.symm),
      hrun.update hnext (fun _ ↦ rfl) (fun goal hgoal _ ↦ hrun.agrees goal hgoal)
        fun goal hgoal _ ↦ hrun.complete goal hgoal⟩
  | steered criteria annotationText payload activeGoalId hm hpayload hactive hnew =>
    obtain ⟨hgoals, hrunActive⟩ := AnyRun.goals_of_ulw hpayload
    rw [KeepsGates, hm] at hkeeps
    rw [hactive] at hrunActive
    have hnext : steeredGoals activeGoalId criteria payload.goals =
        updateGoal activeGoalId (steeredGoal criteria) run.goals := by rw [hgoals]; rfl
    refine ⟨.update hnext (fun goal _ hid ↦ ?_) (.inl (hactive ▸ hrunActive.symm)),
      hrun.update hnext (fun _ ↦ rfl) (fun goal hgoal _ ↦ ?_) fun goal hgoal hid hcomplete ↦ ?_⟩
    · rw [hrunActive, ← hid]
      exact .steered
    · refine (hrun.agrees goal hgoal).steered fun criterion hcriterion hold ↦ ?_
      exact hnew criterion hcriterion (List.mem_flatMap.mpr ⟨goal, hgoals ▸ hgoal, hold⟩)
    · rcases hkeeps with rfl | hopen
      · have hall := hrun.complete goal hgoal hcomplete
        simpa [steeredGoal, Goal.allPass] using hall
      · exact absurd hcomplete (hopen goal hgoal (hid ▸ hrunActive))
  | settled settlement payload hm hlegacy hpayload hpending =>
    obtain ⟨hgoals, hrunActive⟩ := AnyRun.goals_of_ulw hpayload
    have hnext : (settledPayload settlement payload).goals =
        updateGoal settlement.goalId (settledGoal settlement) run.goals := by rw [hgoals]; rfl
    have hopen : ∀ goal ∈ run.goals, goal.id = settlement.goalId → ∀ criterion ∈ goal.criteria,
        criterion.id = settlement.criterionId → criterion.status ≠ .pass :=
      fun _ hgoal hid ↦ hrun.settling hpayload hpending hgoal hid
    refine ⟨.update hnext (fun goal hgoal hid ↦ ?_) ?_,
      hrun.update hnext (fun _ ↦ rfl) (fun goal hgoal hid ↦ ?_) fun goal hgoal hid ↦ ?_⟩
    · exact .updateCriterion rfl rfl (fun _ ↦ rfl) (hopen goal hgoal hid)
    · rw [hrunActive]
      change (settledPayload settlement payload).activeGoalId = _ ∨
        (settledPayload settlement payload).activeGoalId = none
      unfold settledPayload
      by_cases hall : (settledGoals settlement payload.goals).all (·.allPass) = true
      · exact .inr (if_pos hall)
      · exact .inl (if_neg hall)
    · exact (hrun.agrees goal hgoal).update (f := settledCriterion settlement) (fun _ ↦ rfl)
        (fun _ ↦ rfl) rfl
    · exact hrun.settled_complete hgoal
  | failureRecorded goalId criterionId fingerprint payload goal criterion hm hlegacy hpayload hgoal
      hcriterion hlimit =>
    obtain ⟨hgoals, hrunActive⟩ := AnyRun.goals_of_ulw hpayload
    rw [KeepsGates, hm] at hkeeps
    have hopen := hkeeps.resolve_left (by rw [hlegacy]; decide)
    rw [← hgoals] at hgoal
    have hnext : failedGoals goalId criterionId fingerprint
          (criterion.identicalFailureFingerprint = some fingerprint) goal payload.goals =
        updateGoal goalId (fun candidate ↦ { candidate with
          criteria := updateCriterion criterionId (failedCriterion fingerprint
            (criterion.identicalFailureFingerprint = some fingerprint)) goal.criteria }) run.goals := by
      rw [hgoals]; rfl
    refine ⟨.update hnext (fun candidate hmem hid ↦ ?_) (.inl hrunActive.symm),
      hrun.update hnext (fun _ ↦ rfl) (fun candidate hmem hid ↦ ?_)
        fun candidate hmem hid hcomplete ↦ ?_⟩
    · obtain rfl := hrun.goal_unique hmem hid hgoal
      exact .updateCriterion rfl rfl (fun _ ↦ rfl) (hopen candidate hmem hid)
    · obtain rfl := hrun.goal_unique hmem hid hgoal
      exact (hrun.agrees candidate hmem).update (f := failedCriterion fingerprint _) (fun _ ↦ rfl)
        (fun _ ↦ rfl) rfl
    · obtain rfl := hrun.goal_unique hmem hid hgoal
      have hpass := List.all_eq_true.mp (hrun.complete candidate hmem hcomplete) criterion
        (List.mem_of_find?_eq_some hcriterion)
      have hname : criterion.id = criterionId := by simpa using List.find?_some hcriterion
      exact absurd (of_decide_eq_true hpass)
        (hopen candidate hmem hid criterion (List.mem_of_find?_eq_some hcriterion) hname)

/-- An accepted event that does not meet the condition reopens a pass or a complete goal. -/
theorem Controlled.gates_broken {run next : AnyRun} {event : PersistedStateEvent}
    {authority : Option ReceiptAuthority} (h : Controlled run event authority next)
    (hkept : GatesKept run next) (hnext : next.CompletePassed) : KeepsGates run event := by
  cases h with
  | steered criteria annotationText payload activeGoalId hm hpayload hactive hnew =>
    obtain ⟨hgoals, hrunActive⟩ := AnyRun.goals_of_ulw hpayload
    rw [KeepsGates, hm]
    refine or_iff_not_imp_left.mpr fun hsome goal hgoal hid hcomplete ↦ ?_
    rw [hrunActive, hactive] at hid
    have hmem : steeredGoal criteria goal ∈ steeredGoals activeGoalId criteria payload.goals :=
      List.mem_map.mpr ⟨goal, hgoals ▸ hgoal, if_pos (Option.some.inj hid).symm⟩
    obtain ⟨criterion, hcriterion⟩ := List.exists_mem_of_ne_nil criteria hsome
    have hpass := List.all_eq_true.mp (hnext _ hmem hcomplete) criterion.pending
      (List.mem_append_right _ (List.mem_map_of_mem hcriterion))
    exact absurd (of_decide_eq_true hpass) (by simp [SteeredCriterion.pending])
  | failureRecorded goalId criterionId fingerprint payload goal criterion hm hlegacy hpayload hgoal
      hcriterion hlimit =>
    rw [KeepsGates, hm]
    refine .inr fun candidate hmem hid item hitem hname hpass ↦ ?_
    obtain ⟨after, hafter, hcandidate⟩ := hkept.goals.exists_of_mem hmem
    obtain ⟨before, -, rfl⟩ := List.mem_map.mp hafter
    have hbefore : before.id = goalId := by
      have hsame := hcandidate.id
      split at hsame <;> exact hsame.trans hid
    rw [if_pos hbefore] at hcandidate
    obtain ⟨failed, hfailed, hitemKept⟩ := hcandidate.criteria.exists_of_mem hitem
    obtain ⟨old, -, rfl⟩ := List.mem_map.mp hfailed
    have hold : old.id = criterionId := by
      have hsame := hitemKept.id
      split at hsame <;> exact hsame.trans hname
    have hstatus := (hitemKept.pass hpass).1
    rw [if_pos hold] at hstatus
    cases hstatus
  | unchanged hlegacy hkind =>
    unfold KeepsGates
    split
    · rename_i hm
      simp [hm, StateMutation.kind] at hkind
    · exact .inl hlegacy
    · trivial
  | _ => simp_all [KeepsGates]

theorem Accepts.gates {run next : AnyRun} {event : PersistedStateEvent} (hrun : Gated run)
    (h : Accepts run event next) (hkeeps : KeepsGates run event) : GatesKept run next ∧ Gated next := by
  obtain ⟨authority, unstamped, hcontrolled, rfl⟩ := h.controlled
  obtain ⟨hkept, hnext⟩ := hcontrolled.gates hrun hkeeps
  exact ⟨⟨hkept.length, hkept.goals, hkept.active⟩, hnext.of_same rfl⟩

theorem Accepts.gates_iff {run next : AnyRun} {event : PersistedStateEvent} (hrun : Gated run)
    (h : Accepts run event next) : GatesKept run next ∧ next.CompletePassed ↔ KeepsGates run event := by
  constructor
  · rintro ⟨hkept, hnext⟩
    obtain ⟨authority, unstamped, hcontrolled, rfl⟩ := h.controlled
    exact hcontrolled.gates_broken ⟨hkept.length, hkept.goals, hkept.active⟩ hnext
  · intro hkeeps
    obtain ⟨hkept, hnext⟩ := h.gates hrun hkeeps
    exact ⟨hkept, hnext.complete⟩

theorem gates_run {run next : AnyRun} (hrun : Gated run)
    (h : ReflTransGen (Evolves KeepsGates) run next) : GatesKept run next ∧ Gated next := by
  induction h with
  | refl => exact ⟨.of_same rfl rfl, hrun⟩
  | tail _ hstep ih =>
    obtain ⟨event, hkeeps, haccepts⟩ := hstep
    obtain ⟨hkept, hnext⟩ := haccepts.gates ih.2 hkeeps
    exact ⟨ih.1.trans hkept, hnext⟩

/-- A run that the schema accepts tells its goals and criteria apart. -/
theorem AnyRun.Accepted.uniqueGoals {run : AnyRun} (haccepted : run.Accepted) :
    (run.goals.map (·.id)).Nodup := by
  have hok := (AnyRun.accepted_iff.mp haccepted).payload
  cases hpayload : run.payload with
  | startWork payload =>
    rw [(AnyRun.goals_of_start hpayload).1]
    exact List.nodup_nil
  | ulwLoop payload =>
    rw [hpayload] at hok
    have hok : payload.Ok := hok
    rw [(AnyRun.goals_of_ulw hpayload).1]
    exact nodup_of_trimmed hok.refined.goalIds

theorem AnyRun.Accepted.gated {run : AnyRun} (haccepted : run.Accepted)
    (hcomplete : run.CompletePassed) : Gated run := by
  refine ⟨haccepted.uniqueGoals, ?_, hcomplete⟩
  have hok := (AnyRun.accepted_iff.mp haccepted).payload
  cases hpayload : run.payload with
  | startWork payload =>
    rw [(AnyRun.goals_of_start hpayload).1]
    simp
  | ulwLoop payload =>
    rw [hpayload] at hok
    have hok : payload.Ok := hok
    rw [(AnyRun.goals_of_ulw hpayload).1]
    intro goal hgoal criterion hcriterion other hother hid hpass
    have hunique := (hok.fields.goals goal hgoal).criterion_unique hcriterion hother hid
    exact hunique ▸ hpass

/-- From an acceptable run whose complete goals have passed on, no gate is lost between any two states
of a history that meets the condition, and the next event keeps them all exactly when it meets it. -/
theorem gates_monotone {start run next : AnyRun} (haccepted : start.Accepted)
    (hcomplete : start.CompletePassed) (hrun : ReflTransGen (Evolves KeepsGates) start run)
    (hnext : ReflTransGen (Evolves KeepsGates) run next) :
    GatesKept run next ∧ next.CompletePassed ∧ ∀ event after, Accepts next event after →
      (GatesKept next after ∧ after.CompletePassed ↔ KeepsGates next event) := by
  have hgated := (gates_run (haccepted.gated hcomplete) hrun).2
  obtain ⟨hkept, hlast⟩ := gates_run hgated hnext
  exact ⟨hkept, hlast.complete, fun event after haccepts ↦ haccepts.gates_iff hlast⟩

namespace Sample

/-- A run bound to a head, as it is created. -/
def boundRun : AnyRun := { run with version := .v2 none (some "head") }

/-- The worker's acceptance of the first criterion. -/
def acceptance : ScopedWorkerAcceptanceEvent where
  idempotencyKey := "acceptance-1"
  attempt := 1
  runRevision := 1
  ownerSessionId := "session"
  ownerEpoch := 1
  taskGeneration := 1
  captureCommit := "head"
  receiptPath := "receipts/1.json"
  taskId := some "criterion-1"

def authority : ReceiptAuthority := ⟨1, [acceptance], []⟩

def settlement : Settlement where
  goalId := "goal-1"
  criterionId := "criterion-1"
  acceptanceId := some "acceptance-1"
  evidenceRef := "evidence"
  captureRevision := 1
  captureCommit := "head"

/-- What the gates of a run show. -/
def gates (run : AnyRun) : List (GoalStatus × List CriterionStatus) :=
  run.goals.map fun goal ↦ (goal.status, goal.criteria.map (·.status))

end Sample

/-- A failure recorded after the settlement reopens the criterion, and the goal stays complete. -/
theorem failure_reopens_pass :
    ∃ passed reopened, Sample.boundRun.Accepted ∧ Sample.boundRun.CompletePassed ∧
      ReflTransGen (Evolves fun _ event ↦ event.Accepted) Sample.boundRun passed ∧
      ReflTransGen (Evolves fun _ event ↦ event.Accepted) passed reopened ∧
      Sample.gates passed = [(.complete, [.pass])] ∧ Sample.gates reopened = [(.complete, [.fail])] := by
  obtain ⟨passed, hpassed, reopened, hreopened, hgates⟩ :
      ∃ passed, Sample.follow (some Sample.authority) Sample.boundRun
          [(some 1, .criterionSettled Sample.settlement)] = some passed ∧
        ∃ reopened, Sample.follow none passed
            [(some 1, .criterionFailureRecorded "goal-1" "criterion-1" "fingerprint")] = some reopened ∧
          Sample.gates passed = [(.complete, [.pass])] ∧
          Sample.gates reopened = [(.complete, [.fail])] :=
    ⟨_, rfl, _, rfl, by decide, by decide⟩
  exact ⟨passed, reopened, by decide, by unfold AnyRun.CompletePassed; decide,
    Sample.evolves_of_follow hpassed, Sample.evolves_of_follow hreopened, hgates⟩

theorem gates_monotone_settled :
    ∃ next, GatesKept Sample.boundRun next ∧ next.CompletePassed ∧
      Sample.gates next = [(.complete, [.pass])] := by
  obtain ⟨prepared, hprepared, hgates⟩ : ∃ prepared,
      prepareTransition ⟨.v2 1, 1, []⟩ (some Sample.boundRun)
          (Sample.eventOn Sample.boundRun (some 1) (.criterionSettled Sample.settlement))
          (some Sample.authority) = .ok prepared ∧
        Sample.gates prepared.run = [(.complete, [.pass])] := ⟨_, rfl, by decide⟩
  have hstart : Sample.boundRun.Accepted := by decide
  have hcomplete : Sample.boundRun.CompletePassed := by unfold AnyRun.CompletePassed; decide
  have hstep : Evolves KeepsGates Sample.boundRun prepared.run :=
    ⟨Sample.eventOn Sample.boundRun (some 1) (.criterionSettled Sample.settlement), trivial, _, _,
      prepared, hprepared, rfl⟩
  obtain ⟨hkept, hnext, -⟩ := gates_monotone hstart hcomplete .refl (.single hstep)
  exact ⟨prepared.run, hkept, hnext, hgates⟩

end OmpLazy.State

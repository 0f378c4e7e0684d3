import OmpLazy.State.Codec
import OmpLazy.State.TransitionLaws
import Mathlib.Data.List.Nodup

namespace OmpLazy.State

open OmpLazy.Foundation OmpLazy.Foundation.Schema OmpLazy.Foundation.Text OmpLazy.Workflows

namespace Criterion

theorem ok_settled {criterion : Criterion} {settlement : Settlement} (hok : criterion.Ok)
    (hsettlement : settlement.Ok) : (settledCriterion settlement criterion).Ok where
  id := hok.id
  scenario := hok.scenario
  observable := hok.observable
  evidenceLogicalId := hok.evidenceLogicalId
  identicalFailureFingerprint := hok.identicalFailureFingerprint
  identicalFailureCount := hok.identicalFailureCount
  evidenceRef := by simpa [settledCriterion] using hsettlement.evidenceRef
  captureRevision := by simpa [settledCriterion] using hsettlement.captureRevision
  captureCommit := by simpa [settledCriterion] using hsettlement.captureCommit

theorem ok_pending {criterion : SteeredCriterion} (hok : criterion.Ok) : criterion.pending.Ok where
  id := hok.id
  scenario := by simpa [SteeredCriterion.pending] using hok.scenario
  observable := by simpa [SteeredCriterion.pending] using hok.observable
  evidenceLogicalId := by simpa [SteeredCriterion.pending] using hok.evidenceLogicalId
  identicalFailureFingerprint := by simp [SteeredCriterion.pending]
  identicalFailureCount := by simp [SteeredCriterion.pending]
  evidenceRef := by simp [SteeredCriterion.pending]
  captureRevision := by simp [SteeredCriterion.pending]
  captureCommit := by simp [SteeredCriterion.pending]

end Criterion

theorem map_id_updateCriterion (criterionId : String) {update : Criterion → Criterion}
    (hid : ∀ criterion, (update criterion).id = criterion.id) (criteria : List Criterion) :
    (updateCriterion criterionId update criteria).map (·.id) = criteria.map (·.id) := by
  simp only [updateCriterion, List.map_map]
  refine List.map_congr_left fun criterion _ ↦ ?_
  by_cases h : criterion.id = criterionId <;> simp [h, hid]

theorem eq_of_map_nodup {α β : Type} {f : α → β} {xs : List α} (h : (xs.map f).Nodup) {x y : α}
    (hx : x ∈ xs) (hy : y ∈ xs) (hxy : f x = f y) : x = y :=
  List.inj_on_of_nodup_map h hx hy hxy

theorem nodup_of_trimmed {values : List String} (h : (values.map trim).Nodup) : values.Nodup :=
  List.Nodup.of_map _ h

namespace Goal.Ok

variable {goal : Goal}

theorem criterion_unique (hok : goal.Ok) {criterion criterion' : Criterion}
    (h : criterion ∈ goal.criteria) (h' : criterion' ∈ goal.criteria)
    (hid : criterion.id = criterion'.id) : criterion = criterion' :=
  eq_of_map_nodup (nodup_of_trimmed hok.criterionIds) h h' hid

/-- Rewriting the criteria with an id keeps a goal acceptable when it keeps those criteria so. -/
theorem update (hok : goal.Ok) {criterionId : String} {f : Criterion → Criterion}
    (hid : ∀ criterion, (f criterion).id = criterion.id) (status : GoalStatus)
    (hf : ∀ criterion ∈ goal.criteria, criterion.id = criterionId → (f criterion).Ok) :
    Goal.Ok { goal with status, criteria := updateCriterion criterionId f goal.criteria } where
  id := hok.id
  cycleCount := hok.cycleCount
  criteria := by
    intro criterion hmem
    obtain ⟨original, horiginal, rfl⟩ := List.mem_map.mp hmem
    split
    · exact hf original horiginal ‹_›
    · exact hok.criteria original horiginal
  criterionIds := by
    have h := map_id_updateCriterion criterionId hid goal.criteria
    simpa only [Goal.criterionIds, h] using hok.criterionIds

end Goal.Ok

namespace UlwLoopPayload

variable {payload : UlwLoopPayload} {goalId : String} {f : Goal → Goal}

theorem Ok.goal_unique (hok : payload.Ok) {goal goal' : Goal} (h : goal ∈ payload.goals)
    (h' : goal' ∈ payload.goals) (hid : goal.id = goal'.id) : goal = goal' :=
  eq_of_map_nodup (nodup_of_trimmed hok.refined.goalIds) h h' hid

theorem goals_updateGoal (goals : List Goal) (hok : ∀ goal ∈ goals, goal.Ok)
    (hf : ∀ goal ∈ goals, goal.id = goalId → (f goal).Ok) :
    ∀ goal ∈ updateGoal goalId f goals, goal.Ok := by
  intro goal hmem
  obtain ⟨original, horiginal, rfl⟩ := List.mem_map.mp hmem
  split
  · exact hf original horiginal ‹_›
  · exact hok original horiginal

theorem map_updateGoal {β : Type} {g : Goal → β} (goals : List Goal)
    (hf : ∀ goal ∈ goals, goal.id = goalId → g (f goal) = g goal) :
    (updateGoal goalId f goals).map g = goals.map g := by
  simp only [updateGoal, List.map_map]
  refine List.map_congr_left fun goal hgoal ↦ ?_
  by_cases h : goal.id = goalId
  · simp [h, hf goal hgoal h]
  · simp [h]

theorem flatMap_updateGoal {β : Type} {g : Goal → List β} (goals : List Goal)
    (hf : ∀ goal ∈ goals, goal.id = goalId → g (f goal) = g goal) :
    (updateGoal goalId f goals).flatMap g = goals.flatMap g := by
  rw [List.flatMap_def, List.flatMap_def, map_updateGoal goals hf]

/-- The goals in progress after an update are those that `keep` says, under the same ids. -/
theorem inProgress_updateGoal (keep : Goal → Bool) (goals : List Goal)
    (hid : ∀ goal, (f goal).id = goal.id)
    (hupdated : ∀ goal ∈ goals, goal.id = goalId → decide ((f goal).status = .inProgress) = keep goal)
    (hother : ∀ goal ∈ goals, goal.id ≠ goalId → decide (goal.status = .inProgress) = keep goal) :
    ((updateGoal goalId f goals).filter (·.status = .inProgress)).map (fun goal ↦ trim goal.id) =
      (goals.filter keep).map fun goal ↦ trim goal.id := by
  induction goals with
  | nil => rfl
  | cons goal goals ih =>
    have ih := ih (fun g hg ↦ hupdated g (List.mem_cons_of_mem _ hg))
      fun g hg ↦ hother g (List.mem_cons_of_mem _ hg)
    simp only [updateGoal] at ih
    by_cases h : goal.id = goalId
    · have hkeep := hupdated goal List.mem_cons_self h
      simp only [updateGoal, List.map_cons, if_pos h, List.filter_cons, hkeep]
      cases keep goal <;> simp [ih, hid]
    · have hkeep := hother goal List.mem_cons_self h
      simp only [updateGoal, List.map_cons, if_neg h, List.filter_cons, hkeep]
      cases keep goal <;> simp [ih]

/-- An update that keeps the ids and the status of the goal it rewrites keeps the payload. -/
theorem Ok.update (hok : payload.Ok) (hid : ∀ goal, (f goal).id = goal.id)
    (hstatus : ∀ goal, (f goal).status = goal.status)
    (hcriteria : ∀ goal ∈ payload.goals, goal.id = goalId → (f goal).criterionIds = goal.criterionIds)
    (hf : ∀ goal ∈ payload.goals, goal.id = goalId → (f goal).Ok) :
    UlwLoopPayload.Ok { payload with goals := updateGoal goalId f payload.goals } where
  fields :=
    { objective := hok.fields.objective
      annotationText := hok.fields.annotationText
      activeGoalId := hok.fields.activeGoalId
      goals := goals_updateGoal payload.goals hok.fields.goals hf }
  refined :=
    { goalIds := by
        have h := map_updateGoal (g := (·.id)) payload.goals fun goal _ (_ : goal.id = goalId) ↦ hid goal
        simpa only [goalIds, h] using hok.refined.goalIds
      criterionIds := by
        have h := flatMap_updateGoal payload.goals hcriteria
        simpa only [criterionIds, h] using hok.refined.criterionIds
      activeGoal := by
        have h := inProgress_updateGoal (fun goal ↦ goal.status = .inProgress) payload.goals hid
          (fun goal _ (_ : goal.id = goalId) ↦ by rw [hstatus]) fun _ _ _ ↦ rfl
        rw [inProgress, h]
        exact hok.refined.activeGoal }

/-! Steering. -/

theorem steeredGoals_of_not_mem {activeGoalId : String} {criteria : List SteeredCriterion}
    {goals : List Goal} (h : ∀ goal ∈ goals, goal.id ≠ activeGoalId) :
    steeredGoals activeGoalId criteria goals = goals := by
  conv_rhs => rw [← List.map_id goals]
  exact List.map_congr_left fun goal hgoal ↦ if_neg (h goal hgoal)

theorem criterionIds_steered (activeGoalId : String) (criteria : List SteeredCriterion)
    {goals : List Goal} (hnodup : (goals.map (·.id)).Nodup)
    (hactive : ∃ goal ∈ goals, goal.id = activeGoalId) :
    ((steeredGoals activeGoalId criteria goals).flatMap (·.criterionIds)).Perm
      (goals.flatMap (·.criterionIds) ++ criteria.map (·.id)) := by
  induction goals with
  | nil => simp at hactive
  | cons goal goals ih =>
    obtain ⟨hnot, hnodup⟩ := List.nodup_cons.mp hnodup
    by_cases h : goal.id = activeGoalId
    · have hrest : steeredGoals activeGoalId criteria goals = goals :=
        steeredGoals_of_not_mem fun g hg hid ↦ hnot (List.mem_map.mpr ⟨g, hg, hid.trans h.symm⟩)
      have hfirst : steeredGoals activeGoalId criteria (goal :: goals) =
          steeredGoal criteria goal :: goals := by
        conv_rhs => rw [← hrest]
        simp [steeredGoals, updateGoal, h]
      rw [hfirst, List.flatMap_cons, List.flatMap_cons]
      simp only [steeredGoal, Goal.criterionIds, List.map_append, List.map_map, List.append_assoc]
      exact (List.perm_append_comm).append_left _
    · have hrest : ∃ g ∈ goals, g.id = activeGoalId := by simpa [h] using hactive
      have hfirst : steeredGoals activeGoalId criteria (goal :: goals) =
          goal :: steeredGoals activeGoalId criteria goals := by
        simp [steeredGoals, updateGoal, h]
      rw [hfirst, List.flatMap_cons, List.flatMap_cons, List.append_assoc]
      exact (ih hnodup hrest).append_left _

/-- The new ids and the old ones stay distinct once trimmed, if there is a goal to add to. -/
def SteersCleanly (payload : UlwLoopPayload) (criteria : List SteeredCriterion) : Prop :=
  (∃ goal ∈ payload.goals, some goal.id = payload.activeGoalId) →
    ((payload.criterionIds ++ criteria.map (·.id)).map trim).Nodup

theorem ok_steered_iff (hok : payload.Ok) {activeGoalId : String} {criteria : List SteeredCriterion}
    {annotationText : Option String} (hactive : payload.activeGoalId = some activeGoalId)
    (hcriteria : ∀ criterion ∈ criteria, criterion.Ok)
    (htext : ∀ s ∈ annotationText, utf16Length s ≤ 512) :
    UlwLoopPayload.Ok { payload with
      annotationText := annotationText.or payload.annotationText
      goals := steeredGoals activeGoalId criteria payload.goals } ↔ payload.SteersCleanly criteria := by
  have hclean : payload.SteersCleanly criteria ↔ ((∃ goal ∈ payload.goals, goal.id = activeGoalId) →
      ((payload.criterionIds ++ criteria.map (·.id)).map trim).Nodup) := by
    simp only [SteersCleanly, hactive, Option.some.injEq]
  rw [hclean]
  have hids : (steeredGoals activeGoalId criteria payload.goals).map (·.id) = payload.goalIds :=
    map_updateGoal payload.goals fun _ _ _ ↦ rfl
  have hperm := criterionIds_steered activeGoalId criteria (nodup_of_trimmed hok.refined.goalIds)
  constructor
  · intro h hactive
    exact ((hperm hactive).map trim).nodup_iff.mp h.refined.criterionIds
  · intro h
    by_cases hactive : ∃ goal ∈ payload.goals, goal.id = activeGoalId
    · have hnodup := ((hperm hactive).map trim).nodup_iff.mpr (h hactive)
      have hgoals : ∀ goal ∈ steeredGoals activeGoalId criteria payload.goals,
          (goal.criterionIds.map trim).Nodup := by
        rw [List.map_flatMap] at hnodup
        exact (List.nodup_flatMap.mp hnodup).1
      refine ⟨⟨hok.fields.objective, ?_, hok.fields.activeGoalId, ?_⟩, ⟨?_, hnodup, ?_⟩⟩
      · intro s hs
        obtain h | ⟨-, h⟩ := Option.or_eq_some_iff.mp hs
        · exact htext s h
        · exact hok.fields.annotationText s h
      · intro goal hgoal
        have hids := hgoals goal hgoal
        obtain ⟨original, horiginal, rfl⟩ := List.mem_map.mp hgoal
        have hgoal := hok.fields.goals original horiginal
        split at hids
        · rw [if_pos ‹_›]
          refine ⟨hgoal.id, hgoal.cycleCount, fun criterion hmem ↦ ?_, hids⟩
          obtain hmem | hmem := List.mem_append.mp hmem
          · exact hgoal.criteria criterion hmem
          · obtain ⟨new, hnew, rfl⟩ := List.mem_map.mp hmem
            exact Criterion.ok_pending (hcriteria new hnew)
        · rw [if_neg ‹_›]
          exact hgoal
      · rw [goalIds, hids]
        exact hok.refined.goalIds
      · have h : ((steeredGoals activeGoalId criteria payload.goals).filter
            (·.status = .inProgress)).map (fun goal ↦ trim goal.id) =
              payload.inProgress.map fun goal ↦ trim goal.id :=
          inProgress_updateGoal (fun goal ↦ goal.status = .inProgress) payload.goals (fun _ ↦ rfl)
            (fun _ _ _ ↦ rfl) fun _ _ _ ↦ rfl
        exact h.trans hok.refined.activeGoal
    · rw [steeredGoals_of_not_mem (by simpa using hactive)]
      refine ⟨⟨hok.fields.objective, ?_, hok.fields.activeGoalId, hok.fields.goals⟩,
        ⟨hok.refined.goalIds, hok.refined.criterionIds, hok.refined.activeGoal⟩⟩
      intro s hs
      obtain h | ⟨-, h⟩ := Option.or_eq_some_iff.mp hs
      · exact htext s h
      · exact hok.fields.annotationText s h

end UlwLoopPayload

/-! Settlement. -/

/-- The named criterion is the only one of the goal that may not have passed. -/
def Goal.finishes (settlement : Settlement) (goal : Goal) : Bool :=
  goal.criteria.all fun criterion ↦ criterion.id = settlement.criterionId || criterion.status = .pass

theorem Goal.allPass_settledGoal (settlement : Settlement) (goal : Goal) :
    (settledGoal settlement goal).allPass = goal.finishes settlement := by
  simp only [Goal.allPass, settledGoal, updateCriterion, List.all_map, Goal.finishes]
  congr 1
  funext criterion
  by_cases h : criterion.id = settlement.criterionId <;> simp [h, settledCriterion]

namespace UlwLoopPayload

variable {payload : UlwLoopPayload} {settlement : Settlement}

/-- The settlement passes the last criterion of the run. -/
def finishes (settlement : Settlement) (payload : UlwLoopPayload) : Bool :=
  payload.goals.all fun goal ↦
    if goal.id = settlement.goalId then goal.finishes settlement else goal.allPass

/-- Every goal in progress is the settled one when the run finishes; when the settled goal finishes
without the run, it is not in progress. -/
def SettlesCleanly (payload : UlwLoopPayload) (settlement : Settlement) : Prop :=
  if payload.finishes settlement then ∀ goal ∈ payload.inProgress, goal.id = settlement.goalId
  else ∀ goal ∈ payload.inProgress, goal.id = settlement.goalId → goal.finishes settlement = false

theorem all_settledGoals (payload : UlwLoopPayload) (settlement : Settlement) :
    (settledGoals settlement payload.goals).all (·.allPass) = payload.finishes settlement := by
  simp only [settledGoals, updateGoal, List.all_map, finishes]
  congr 1
  funext goal
  by_cases h : goal.id = settlement.goalId
  · simp [h, Goal.allPass_settledGoal]
  · simp [h]

theorem inProgress_settledPayload (payload : UlwLoopPayload) (settlement : Settlement) :
    (settledPayload settlement payload).inProgress.map (fun goal ↦ trim goal.id) =
      (payload.inProgress.filter fun goal ↦
        !(goal.id = settlement.goalId && goal.finishes settlement)).map fun goal ↦ trim goal.id := by
  have h : ((settledGoals settlement payload.goals).filter (·.status = .inProgress)).map
      (fun goal ↦ trim goal.id) = (payload.goals.filter fun goal ↦
        !(goal.id = settlement.goalId && goal.finishes settlement) && goal.status = .inProgress).map
          fun goal ↦ trim goal.id := by
    refine inProgress_updateGoal _ payload.goals (fun _ ↦ rfl) (fun goal _ hid ↦ ?_)
      fun goal _ hid ↦ by simp [hid]
    have hall : (updateCriterion settlement.criterionId (settledCriterion settlement)
        goal.criteria).all (·.status = .pass) = goal.finishes settlement :=
      Goal.allPass_settledGoal settlement goal
    cases hfinish : goal.finishes settlement <;> simp [settledGoal, hall, hid, hfinish]
  rw [inProgress, inProgress, List.filter_filter]
  exact h

theorem id_settledCriterion (settlement : Settlement) (criterion : Criterion) :
    (settledCriterion settlement criterion).id = criterion.id := rfl

theorem settledGoals_ok (hok : payload.Ok) (hsettlement : settlement.Ok) :
    ∀ goal ∈ settledGoals settlement payload.goals, goal.Ok :=
  goals_updateGoal payload.goals hok.fields.goals fun goal hgoal _ ↦
    (hok.fields.goals goal hgoal).update (id_settledCriterion settlement) _ fun criterion hcriterion _ ↦
      Criterion.ok_settled ((hok.fields.goals goal hgoal).criteria criterion hcriterion) hsettlement

/-- Of the refinement only the active goal depends on the settlement. -/
theorem ok_settledPayload (hok : payload.Ok) (hsettlement : settlement.Ok) :
    (settledPayload settlement payload).Ok ↔
      ((payload.inProgress.filter fun goal ↦
        !(goal.id = settlement.goalId && goal.finishes settlement)).map fun goal ↦ trim goal.id) =
        (((settledPayload settlement payload).activeGoalId).map trim).toList := by
  rw [← inProgress_settledPayload]
  refine ⟨fun h ↦ h.refined.activeGoal, fun hactive ↦ ⟨⟨hok.fields.objective, hok.fields.annotationText,
    fun s hs ↦ ?_, settledGoals_ok hok hsettlement⟩, ⟨?_, ?_, hactive⟩⟩⟩
  · have hs : (if (settledGoals settlement payload.goals).all (·.allPass) then none
        else payload.activeGoalId) = some s := hs
    split at hs
    · cases hs
    · exact hok.fields.activeGoalId s hs
  · have h : (settledGoals settlement payload.goals).map (·.id) = payload.goalIds :=
      map_updateGoal payload.goals fun _ _ _ ↦ rfl
    simpa only [goalIds, settledPayload, h] using hok.refined.goalIds
  · have h : (settledGoals settlement payload.goals).flatMap (·.criterionIds) = payload.criterionIds :=
      flatMap_updateGoal payload.goals fun goal _ _ ↦
        map_id_updateCriterion settlement.criterionId (id_settledCriterion settlement) goal.criteria
    simpa only [criterionIds, settledPayload, h] using hok.refined.criterionIds

theorem ok_settled_iff (hok : payload.Ok) (hsettlement : settlement.Ok) :
    (settledPayload settlement payload).Ok ↔ payload.SettlesCleanly settlement := by
  have hactive : (settledPayload settlement payload).activeGoalId =
      if payload.finishes settlement then none else payload.activeGoalId := by
    rw [← all_settledGoals]
    rfl
  rw [ok_settledPayload hok hsettlement, hactive, SettlesCleanly]
  cases hfinish : payload.finishes settlement with
  | true =>
    have hgoal : ∀ goal ∈ payload.inProgress, goal.id = settlement.goalId →
        goal.finishes settlement = true := fun goal hgoal hid ↦ by
      have h := List.all_eq_true.mp hfinish goal (List.mem_of_mem_filter hgoal)
      rwa [if_pos hid] at h
    simp only [if_true, Option.map_none, Option.toList_none, List.map_eq_nil_iff,
      List.filter_eq_nil_iff]
    refine forall_congr' fun goal ↦ forall_congr' fun hmem ↦ ?_
    by_cases hid : goal.id = settlement.goalId
    · simp [hid, hgoal goal hmem hid]
    · simp [hid]
  | false =>
    rw [if_neg (by simp), if_neg (by simp), ← hok.refined.activeGoal]
    constructor
    · intro h goal hmem hid
      have hlength := congrArg List.length h
      rw [List.length_map, List.length_map, List.length_filter_eq_length_iff] at hlength
      simpa [hid] using hlength goal hmem
    · intro h
      rw [List.filter_eq_self.mpr]
      intro goal hmem
      by_cases hid : goal.id = settlement.goalId
      · simp [hid, h goal hmem hid]
      · simp [hid]

end UlwLoopPayload

end OmpLazy.State

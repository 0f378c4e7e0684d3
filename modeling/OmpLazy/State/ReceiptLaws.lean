import OmpLazy.State.TransitionLaws

namespace OmpLazy.State

open OmpLazy.Workflows ReceiptAuthority

theorem settlementPending_eq_true {payload : UlwLoopPayload} {settlement : Settlement}
    (h : settlementPending payload settlement = true) :
    ∃ goal ∈ payload.goals, goal.id = settlement.goalId ∧
      ∃ criterion ∈ goal.criteria, criterion.id = settlement.criterionId ∧ criterion.status ≠ .pass := by
  unfold settlementPending at h
  split at h
  · cases h
  rename_i goal hgoal
  split at h
  · cases h
  rename_i criterion hcriterion
  exact ⟨goal, List.mem_of_find?_eq_some hgoal, by simpa using List.find?_some hgoal, criterion,
    List.mem_of_find?_eq_some hcriterion, by simpa using List.find?_some hcriterion, by simpa using h⟩

section Reducers

variable {run next : AnyRun} {event : PersistedStateEvent} {authority : Option ReceiptAuthority}

theorem receiptBinding_eq_some {bound : ReceiptAuthority} :
    receiptBinding event authority = some bound ↔
      event.version ≠ .v1 ∧ event.legacyUnbound = false ∧ authority = some bound := by
  unfold receiptBinding PersistedStateEvent.legacyUnbound
  cases event.version with
  | v1 => simp
  | v2 head generation legacy => cases legacy <;> simp

theorem settleCriterion_eq_some {settlement : Settlement} :
    settleCriterion run event settlement authority = some next ↔
      ∃ payload, run.payload = .ulwLoop payload ∧
        (event.legacyUnbound = true ∧ run = next ∨
          ∃ bound, receiptBinding event authority = some bound ∧
            settlementAccepted run event settlement bound = true ∧
            settlementPending payload settlement = true ∧
            { run with
              revision := run.revision + 1
              progressRevision := run.progressRevision + 1
              payload := .ulwLoop (settledPayload settlement payload) } = next) := by
  unfold settleCriterion
  cases hpayload : run.payload with
  | startWork payload => simp
  | ulwLoop payload =>
    by_cases hlegacy : event.legacyUnbound = true
    · simp [hlegacy, receiptBinding_eq_some]
    · simp only [hlegacy, Payload.ulwLoop.injEq, exists_eq_left', receiptBinding_eq_some]
      cases hversion : event.version with
      | v1 => simp
      | v2 head generation legacy =>
        cases authority with
        | none => simp
        | some bound => simp [and_assoc]

theorem acceptTaskEvidence_eq_some {taskId acceptanceId : String} :
    acceptTaskEvidence run event taskId acceptanceId authority = some next ↔
      run.workflow = .startWork ∧ ∃ bound accepted, receiptBinding event authority = some bound ∧
        currentAcceptance run bound taskId = some accepted ∧
        accepted.idempotencyKey = acceptanceId ∧
        some accepted.taskGeneration = event.taskGeneration ∧
        { run with
          revision := run.revision + 1
          progressRevision := run.progressRevision + 1 } = next := by
  unfold acceptTaskEvidence AnyRun.workflow
  cases hpayload : run.payload with
  | ulwLoop payload => simp [Payload.workflow]
  | startWork payload =>
    simp only [Payload.workflow, true_and, Option.bind_eq_bind, Option.bind_eq_some_iff,
      Option.ite_none_right_eq_some, Option.some.injEq, ← hpayload]
    constructor
    · rintro ⟨bound, hbound, accepted, haccepted, ⟨hkey, hgeneration⟩, hnext⟩
      exact ⟨bound, accepted, hbound, haccepted, hkey, hgeneration, hnext⟩
    · rintro ⟨bound, accepted, hbound, haccepted, hkey, hgeneration, hnext⟩
      exact ⟨bound, hbound, accepted, haccepted, ⟨hkey, hgeneration⟩, hnext⟩

/-- A run ends failed for the task that has used up its attempts, and completed for the acceptances of
all the tasks of its plan. -/
theorem terminalRun_eq_some {status : TerminalStatus} {acceptanceIds : Option (List String)}
    {taskId : Option String} :
    terminalRun run event status acceptanceIds taskId authority = some next ↔
      ∃ bound, receiptBinding event authority = some bound ∧
        event.taskGeneration = some bound.taskGeneration ∧
        match status with
        | .failed => taskId ≠ none ∧ exhaustedTaskId run bound = taskId ∧
            setRunStatus run .failed = next
        | .completed => ∃ payload, run.payload = .startWork payload ∧ acceptanceIds ≠ none ∧
            startCompletionAcceptanceIds run payload.plan bound = acceptanceIds ∧
            { run with
              revision := run.revision + 1
              progressRevision := run.progressRevision + 1
              payload := .startWork { payload with status := .completed } } = next := by
  simp only [terminalRun, Option.bind_eq_bind, Option.bind_eq_some_iff]
  refine exists_congr fun bound ↦ and_congr_right fun _ ↦ ?_
  by_cases hgeneration : event.taskGeneration = some bound.taskGeneration
  · rw [if_neg (not_not.mpr hgeneration)]
    simp only [hgeneration, true_and]
    cases status with
    | failed => simp [not_or, and_assoc]
    | completed =>
      cases hpayload : run.payload with
      | ulwLoop payload => simp
      | startWork payload =>
        simp only [Payload.startWork.injEq, exists_eq_left', Option.ite_none_left_eq_some, not_or,
          not_not, ne_eq, Option.some.injEq]
        constructor
        · rintro ⟨⟨hsome, hids⟩, hnext⟩
          exact ⟨hids ▸ hsome, hids, hnext⟩
        · rintro ⟨hsome, hids, hnext⟩
          exact ⟨⟨hids ▸ hsome, hids⟩, hnext⟩
  · rw [if_pos hgeneration]
    simp [hgeneration]

end Reducers

end OmpLazy.State

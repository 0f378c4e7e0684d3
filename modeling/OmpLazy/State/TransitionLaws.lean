import OmpLazy.State.StateTransition

namespace OmpLazy.State

open OmpLazy.Workflows ReceiptAuthority

/-- What a control transition can do to a run: one constructor for each way to succeed. -/
inductive Controlled (run : AnyRun) (event : PersistedStateEvent) (authority : Option ReceiptAuthority) :
    AnyRun → Prop
  | unchanged (hlegacy : event.legacyUnbound = true)
      (hkind : event.mutation.kind ∈
        [.goalCycleStarted, .criterionFailureRecorded, .criterionSettled]) :
      Controlled run event authority run
  | paused (hmutation : event.mutation = .workflowControlled .pause) (hstatus : run.status = .active) :
      Controlled run event authority { run with
        revision := run.revision + 1
        payload := run.payload.withStatus .paused .paused }
  | cancelled (hmutation : event.mutation = .workflowControlled .cancel)
      (hstatus : terminal run.status = false) :
      Controlled run event authority { run with
        revision := run.revision + 1
        payload := run.payload.withStatus .cancelled .cancelled }
  | resumed (hmutation : event.mutation = .workflowControlled .resume)
      (hstatus : terminal run.status = false) :
      Controlled run event authority { run with
        revision := run.revision + 1
        continuation := resetContinuation run
        payload := run.payload.withStatus .active .active }
  | adopted (sessionId : String) (hmutation : event.mutation = .ownerAdopted sessionId)
      (hstatus : adoptable run.status = true) :
      Controlled run event authority { run with
        revision := run.revision + 1
        owner := ⟨sessionId, run.owner.epoch + 1⟩
        continuation := resetContinuation run
        payload := run.payload.withStatus .active .active }
  | reconciled (taskIds : List String) (remainingTaskIds : Option (List String))
      (taskFingerprint : String) (payload : StartWorkPayload)
      (hmutation : event.mutation = .planReconciled taskIds remainingTaskIds taskFingerprint)
      (hpayload : run.payload = .startWork payload) (hstatus : terminal payload.status = false) :
      Controlled run event authority { run with
        revision := run.revision + 1
        payload := .startWork { payload with
          status := .active
          plan := { payload.plan with taskIds, taskFingerprint } } }
  | steered (criteria : List SteeredCriterion) (annotationText : Option String)
      (payload : UlwLoopPayload) (activeGoalId : String)
      (hmutation : event.mutation = .workflowSteered criteria annotationText)
      (hpayload : run.payload = .ulwLoop payload) (hactive : payload.activeGoalId = some activeGoalId)
      (hnew : ∀ criterion ∈ criteria, criterion.id ∉ payload.criterionIds) :
      Controlled run event authority { run with
        revision := run.revision + 1
        payload := .ulwLoop { payload with
          annotationText := annotationText.or payload.annotationText
          goals := steeredGoals activeGoalId criteria payload.goals } }
  | settled (settlement : Settlement) (payload : UlwLoopPayload)
      (hmutation : event.mutation = .criterionSettled settlement)
      (hlegacy : event.legacyUnbound = false) (hpayload : run.payload = .ulwLoop payload)
      (hpending : settlementPending payload settlement = true) :
      Controlled run event authority { run with
        revision := run.revision + 1
        progressRevision := run.progressRevision + 1
        payload := .ulwLoop (settledPayload settlement payload) }
  | evidenceAccepted (taskId acceptanceId : String)
      (hmutation : event.mutation = .taskEvidenceAccepted taskId acceptanceId) :
      Controlled run event authority { run with
        revision := run.revision + 1
        progressRevision := run.progressRevision + 1 }
  | failed (acceptanceIds : Option (List String)) (taskId : Option String)
      (hmutation : event.mutation = .workflowTerminal .failed acceptanceIds taskId) :
      Controlled run event authority (setRunStatus run .failed)
  | completed (acceptanceIds : Option (List String)) (taskId : Option String)
      (payload : StartWorkPayload)
      (hmutation : event.mutation = .workflowTerminal .completed acceptanceIds taskId)
      (hpayload : run.payload = .startWork payload) :
      Controlled run event authority { run with
        revision := run.revision + 1
        progressRevision := run.progressRevision + 1
        payload := .startWork { payload with status := .completed } }
  | attempted (leafId : String) (progressRevision : ℕ)
      (hmutation : event.mutation = .continuationAttempted leafId progressRevision) :
      Controlled run event authority { run with
        revision := run.revision + 1
        continuation :=
          { lastProcessedLeafId := some leafId
            progressRevisionSeen := run.progressRevision
            noProgressAttempts :=
              if run.continuation.progressRevisionSeen ≠ run.progressRevision then 1
              else run.continuation.noProgressAttempts + 1
            stuck := false } }
  | stopped (leafId : String) (hmutation : event.mutation = .continuationStuck leafId) :
      Controlled run event authority { setRunStatus run .stuck with
        continuation := { run.continuation with
          lastProcessedLeafId := some leafId
          stuck := true } }
  | cycled (goalId : String) (payload : UlwLoopPayload) (goal : Goal)
      (hmutation : event.mutation = .goalCycleStarted goalId)
      (hlegacy : event.legacyUnbound = false) (hpayload : run.payload = .ulwLoop payload)
      (hgoal : payload.goals.find? (·.id = goalId) = some goal) (hcycles : goal.cycleCount < 5) :
      Controlled run event authority { run with
        revision := run.revision + 1
        payload := .ulwLoop { payload with
          goals := updateGoal goalId cycledGoal payload.goals } }
  | failureRecorded (goalId criterionId fingerprint : String) (payload : UlwLoopPayload) (goal : Goal)
      (criterion : Criterion)
      (hmutation : event.mutation = .criterionFailureRecorded goalId criterionId fingerprint)
      (hlegacy : event.legacyUnbound = false) (hpayload : run.payload = .ulwLoop payload)
      (hgoal : payload.goals.find? (·.id = goalId) = some goal)
      (hcriterion : goal.criteria.find? (·.id = criterionId) = some criterion)
      (hlimit : ¬ (criterion.identicalFailureFingerprint = some fingerprint ∧
        3 ≤ criterion.identicalFailureCount)) :
      Controlled run event authority { run with
        revision := run.revision + 1
        payload := .ulwLoop { payload with
          goals := failedGoals goalId criterionId fingerprint
            (criterion.identicalFailureFingerprint = some fingerprint) goal payload.goals } }

/-- The members of a run that no control transition touches. -/
structure SameIdentity (run next : AnyRun) : Prop where
  version : next.version = run.version
  runId : next.runId = run.runId
  createdAt : next.createdAt = run.createdAt
  updatedAt : next.updatedAt = run.updatedAt
  workflow : next.workflow = run.workflow

@[simp] theorem Payload.workflow_withStatus (payload : Payload) (start : RunStatus)
    (ulw : UlwLoopStatus) : (payload.withStatus start ulw).workflow = payload.workflow := by
  cases payload <;> rfl

theorem Controlled.sameIdentity {run next : AnyRun} {event : PersistedStateEvent}
    {authority : Option ReceiptAuthority} (h : Controlled run event authority next) :
    SameIdentity run next := by
  cases h <;> refine ⟨rfl, rfl, rfl, rfl, ?_⟩ <;> simp [AnyRun.workflow, setRunStatus] <;>
    simp_all [Payload.workflow]

section Inversion

variable {run next : AnyRun} {event : PersistedStateEvent} {authority : Option ReceiptAuthority}

theorem toOption_eq_some {ε α : Type} {x : Except ε α} {a : α} :
    x.toOption = some a ↔ x = .ok a := by
  cases x <;> simp [Except.toOption]

theorem workflowControlled_cases {control : Control}
    (hmutation : event.mutation = .workflowControlled control)
    (h : controlMutation run event authority = some next) : Controlled run event authority next := by
  simp only [controlMutation, hmutation] at h
  rw [toOption_eq_some, reduceWorkflowControl_shared (.inr rfl) rfl (by cases control <;> simp)] at h
  cases control <;> simp only [reduceShared] at h <;> split at h
  · obtain rfl := Except.ok.inj h
    exact .paused hmutation ‹_›
  · cases h
  · cases h
  · split at h
    · cases h
    · obtain rfl := Except.ok.inj h
      exact .resumed hmutation (by simpa using ‹¬ terminal run.status = true›)
  · cases h
  · obtain rfl := Except.ok.inj h
    exact .cancelled hmutation (by simpa using ‹¬ terminal run.status = true›)

theorem ownerAdopted_cases {sessionId : String} (hmutation : event.mutation = .ownerAdopted sessionId)
    (h : controlMutation run event authority = some next) : Controlled run event authority next := by
  simp only [controlMutation, hmutation] at h
  rw [toOption_eq_some, reduceWorkflowControl_shared (.inl rfl) rfl (by simp)] at h
  simp only [reduceShared] at h
  split at h
  · cases h
  split at h
  · cases h
  obtain rfl := Except.ok.inj h
  exact .adopted sessionId hmutation (by simpa using ‹¬ (!adoptable run.status) = true›)

theorem planReconciled_cases {taskIds : List String} {remainingTaskIds : Option (List String)}
    {taskFingerprint : String}
    (hmutation : event.mutation = .planReconciled taskIds remainingTaskIds taskFingerprint)
    (h : controlMutation run event authority = some next) : Controlled run event authority next := by
  simp only [controlMutation, hmutation] at h
  cases hpayload : run.payload with
  | ulwLoop payload => simp [hpayload] at h
  | startWork payload =>
    simp only [hpayload, toOption_eq_some, reduceWorkflowControl] at h
    rw [precheck_own (.inr rfl) rfl] at h
    simp only [bind, Except.bind, reduceStart] at h
    split at h
    · cases h
    · obtain rfl := Except.ok.inj h
      exact .reconciled taskIds remainingTaskIds taskFingerprint payload hmutation hpayload
        (by simpa using ‹¬ terminal payload.status = true›)

theorem workflowSteered_cases {criteria : List SteeredCriterion} {annotationText : Option String}
    (hmutation : event.mutation = .workflowSteered criteria annotationText)
    (h : controlMutation run event authority = some next) : Controlled run event authority next := by
  simp only [controlMutation, hmutation, steerRun] at h
  cases hpayload : run.payload with
  | startWork payload => simp [hpayload] at h
  | ulwLoop payload =>
    cases hactive : payload.activeGoalId with
    | none => simp [hpayload, hactive] at h
    | some activeGoalId =>
      simp only [hpayload, hactive] at h
      split at h
      · cases h
      · rename_i hnew
        obtain rfl := Option.some.inj h
        rw [← hactive]
        exact .steered criteria annotationText payload activeGoalId hmutation hpayload hactive
          (by simpa using hnew)

theorem criterionSettled_cases {settlement : Settlement}
    (hmutation : event.mutation = .criterionSettled settlement)
    (h : controlMutation run event authority = some next) : Controlled run event authority next := by
  simp only [controlMutation, reduceRuntimeProgress, hmutation, settleCriterion] at h
  cases hpayload : run.payload with
  | startWork payload => simp [hpayload] at h
  | ulwLoop payload =>
    simp only [hpayload] at h
    split at h
    · obtain rfl := Option.some.inj h
      exact .unchanged ‹_› (by simp [hmutation, StateMutation.kind])
    · split at h
      · split at h
        · obtain rfl := Option.some.inj h
          have hboth := ‹(_ && _) = true›
          exact .settled settlement payload hmutation (by simpa using ‹¬ event.legacyUnbound = true›)
            hpayload (Bool.and_eq_true_iff.mp hboth).2
        · cases h
      · cases h

theorem taskEvidenceAccepted_cases {taskId acceptanceId : String}
    (hmutation : event.mutation = .taskEvidenceAccepted taskId acceptanceId)
    (h : controlMutation run event authority = some next) : Controlled run event authority next := by
  simp only [controlMutation, reduceRuntimeProgress, hmutation, acceptTaskEvidence] at h
  cases hpayload : run.payload with
  | ulwLoop payload => simp [hpayload] at h
  | startWork payload =>
    simp only [hpayload, Option.bind_eq_bind, Option.bind_eq_some_iff] at h
    obtain ⟨_, -, _, -, h⟩ := h
    split at h
    · obtain rfl := Option.some.inj h
      rw [← hpayload]
      exact .evidenceAccepted taskId acceptanceId hmutation
    · cases h

theorem workflowTerminal_cases {status : TerminalStatus} {acceptanceIds : Option (List String)}
    {taskId : Option String} (hmutation : event.mutation = .workflowTerminal status acceptanceIds taskId)
    (h : controlMutation run event authority = some next) : Controlled run event authority next := by
  simp only [controlMutation, reduceRuntimeProgress, hmutation, terminalRun, Option.bind_eq_bind,
    Option.bind_eq_some_iff] at h
  obtain ⟨_, -, h⟩ := h
  split at h
  · cases h
  cases status with
  | failed =>
    simp only at h
    split at h
    · cases h
    · obtain rfl := Option.some.inj h
      exact .failed acceptanceIds taskId hmutation
  | completed =>
    cases hpayload : run.payload with
    | ulwLoop payload => simp [hpayload] at h
    | startWork payload =>
      simp only [hpayload] at h
      split at h
      · cases h
      · obtain rfl := Option.some.inj h
        exact .completed acceptanceIds taskId payload hmutation hpayload

theorem continuation_cases
    (hkind : event.mutation.kind = .continuationAttempted ∨ event.mutation.kind = .continuationStuck)
    (h : controlMutation run event authority = some next) : Controlled run event authority next := by
  cases hmutation : event.mutation <;> simp only [hmutation, StateMutation.kind, reduceCtorEq,
    or_self, or_true, true_or] at hkind
  case continuationAttempted leafId progressRevision =>
    simp only [controlMutation, reduceRuntimeProgress, hmutation, attemptContinuation] at h
    split at h
    · cases h
    · obtain rfl := Option.some.inj h
      exact .attempted leafId progressRevision hmutation
  case continuationStuck leafId =>
    simp only [controlMutation, reduceRuntimeProgress, hmutation, stopContinuation] at h
    split at h
    · cases h
    · obtain rfl := Option.some.inj h
      exact .stopped leafId hmutation

theorem goalCycleStarted_cases {goalId : String} (hmutation : event.mutation = .goalCycleStarted goalId)
    (hlegacy : event.legacyUnbound = false)
    (h : controlMutation run event authority = some next) : Controlled run event authority next := by
  simp only [controlMutation, hmutation] at h
  cases hpayload : run.payload with
  | startWork payload => simp [hpayload] at h
  | ulwLoop payload =>
    simp only [hpayload, toOption_eq_some, startGoalCycle] at h
    split at h
    · cases h
    split at h
    · cases h
    obtain rfl := Except.ok.inj h
    exact .cycled goalId payload _ hmutation hlegacy hpayload ‹_› (Nat.lt_of_not_le ‹_›)

theorem criterionFailureRecorded_cases {goalId criterionId fingerprint : String}
    (hmutation : event.mutation = .criterionFailureRecorded goalId criterionId fingerprint)
    (hlegacy : event.legacyUnbound = false)
    (h : controlMutation run event authority = some next) : Controlled run event authority next := by
  simp only [controlMutation, hmutation] at h
  cases hpayload : run.payload with
  | startWork payload => simp [hpayload] at h
  | ulwLoop payload =>
    simp only [hpayload, toOption_eq_some, recordCriterionFailure] at h
    split at h
    · cases h
    split at h
    · cases h
    split at h
    · cases h
    obtain rfl := Except.ok.inj h
    exact .failureRecorded goalId criterionId fingerprint payload _ _ hmutation hlegacy hpayload ‹_›
      ‹_› ‹_›

/-- A run that a control transition accepts is one of the listed outcomes. -/
theorem controlRun_cases (h : controlRun run event authority = some next) :
    Controlled run event authority next := by
  rw [controlRun] at h
  split at h
  · obtain rfl := Option.some.inj h
    obtain ⟨hlegacy, hkind | hkind⟩ := ‹_ ∧ _›
    · exact .unchanged hlegacy (by simp [hkind])
    · exact .unchanged hlegacy (by simp [hkind])
  · have hnoop := ‹¬ (_ ∧ _)›
    have hlegacy : ∀ kind, event.mutation.kind = kind →
        kind = .goalCycleStarted ∨ kind = .criterionFailureRecorded → event.legacyUnbound = false := by
      rintro kind rfl hkind
      exact Bool.eq_false_iff.mpr fun hl ↦ hnoop ⟨hl, hkind⟩
    cases hmutation : event.mutation with
    | runCreated run => simp [controlMutation, hmutation] at h
    | workflowControlled control => exact workflowControlled_cases hmutation h
    | ownerAdopted sessionId => exact ownerAdopted_cases hmutation h
    | planReconciled taskIds remaining fingerprint => exact planReconciled_cases hmutation h
    | workflowSteered criteria annotationText => exact workflowSteered_cases hmutation h
    | criterionSettled settlement => exact criterionSettled_cases hmutation h
    | taskEvidenceAccepted taskId acceptanceId => exact taskEvidenceAccepted_cases hmutation h
    | workflowTerminal status acceptanceIds taskId => exact workflowTerminal_cases hmutation h
    | continuationAttempted leafId progress =>
      exact continuation_cases (.inl (by rw [hmutation]; rfl)) h
    | continuationStuck leafId => exact continuation_cases (.inr (by rw [hmutation]; rfl)) h
    | goalCycleStarted goalId =>
      exact goalCycleStarted_cases hmutation (hlegacy _ (by rw [hmutation]; rfl) (.inl rfl)) h
    | criterionFailureRecorded goalId criterionId fingerprint =>
      exact criterionFailureRecorded_cases hmutation (hlegacy _ (by rw [hmutation]; rfl) (.inr rfl)) h

end Inversion

section Preparation

variable {index : ActiveIndex} {current : Option AnyRun} {event : PersistedStateEvent}
  {authority : Option ReceiptAuthority}

theorem prepareTransition_eq_ok {prepared : PreparedTransition} :
    prepareTransition index current event authority = .ok prepared ↔
      event.expected.indexRevision = index.revision ∧ event.sequence = index.revision + 1 ∧
        ∃ next, nextRun current event authority = .ok (some next) ∧ next.runId = event.runId ∧
          next.workflow = event.workflow ∧
          prepared = ⟨next.stamped event.sequence,
            deriveIndex index (next.stamped event.sequence) event.sequence⟩ := by
  rw [prepareTransition]
  split
  · simp_all
  split
  · simp_all
  have hindex := not_not.mp ‹¬ event.expected.indexRevision ≠ index.revision›
  have hsequence := not_not.mp ‹¬ event.sequence ≠ index.revision + 1›
  cases hnext : nextRun current event authority with
  | error code => simp
  | ok next? =>
    cases next? with
    | none => simp
    | some next =>
      simp only [hindex, hsequence, true_and, Except.ok.injEq, Option.some.injEq, exists_eq_left']
      by_cases hids : next.runId ≠ event.runId ∨ next.workflow ≠ event.workflow
      · simp only [if_pos hids, reduceCtorEq, false_iff, not_and]
        intro hid hworkflow
        exact absurd hids (by simp [hid, hworkflow])
      · rw [if_neg hids]
        simp only [ne_eq, not_or, not_not] at hids
        simp only [hids, true_and, Except.ok.injEq]
        exact eq_comm

/-- A transition either creates the run that its mutation carries or controls the current one. -/
theorem nextRun_cases {next : AnyRun} (h : nextRun current event authority = .ok (some next)) :
    (event.mutation = .runCreated next ∧ current = none ∧ event.expected.runRevision = none ∧
      event.expected.ownerSessionId = none ∧ event.expected.ownerEpoch = none) ∨
      ∃ run, current = some run ∧ event.mutation.kind ≠ .runCreated ∧
        event.expected.runRevision = some run.revision ∧
        event.expected.ownerSessionId = some run.owner.sessionId ∧
        event.expected.ownerEpoch = some run.owner.epoch ∧
        headConflicts run event.version = false ∧ scopeConflicts event = false ∧
        controlRun run event authority = some next := by
  unfold nextRun at h
  split at h
  · rename_i run hmutation
    split at h
    · cases h
    split at h
    · cases h
    · rename_i hrevision howner
      obtain rfl : run = next := by simpa using h
      simp only [not_or, Bool.not_eq_true, Option.isSome_eq_false_iff, Option.isNone_iff_eq_none]
        at hrevision howner
      exact .inl ⟨hmutation, hrevision.1, hrevision.2, howner.1, howner.2⟩
  · rename_i hmutation
    split at h
    · cases h
    · rename_i run
      split at h
      · cases h
      split at h
      · cases h
      split at h
      · cases h
      split at h
      · cases h
      split at h
      · cases h
      have hkind : event.mutation.kind ≠ .runCreated := by
        cases hm : event.mutation <;> simp_all [StateMutation.kind]
      refine .inr ⟨run, rfl, hkind, ?_⟩
      simp_all

end Preparation

end OmpLazy.State

import OmpLazy.State.IndexClosure
import OmpLazy.State.ReceiptLaws
import OmpLazy.State.StuckCoherence

namespace OmpLazy.State

open OmpLazy.Foundation OmpLazy.Workflows ReceiptAuthority Relation

/-- The event expects the index and the run as they are. -/
structure Addressed (index : ActiveIndex) (run : AnyRun) (event : PersistedStateEvent) : Prop where
  indexRevision : event.expected.indexRevision = index.revision
  sequence : event.sequence = index.revision + 1
  runRevision : event.expected.runRevision = some run.revision
  ownerSessionId : event.expected.ownerSessionId = some run.owner.sessionId
  ownerEpoch : event.expected.ownerEpoch = some run.owner.epoch
  head : headConflicts run event.version = false
  scope : scopeConflicts event = false
  runId : run.runId = event.runId
  workflow : run.workflow = event.workflow

/-- What the reducers that never look at the status of the run ask of an event. The kinds whose
reducers do ask for a run that is not over are out. -/
def Unguarded (run : AnyRun) (event : PersistedStateEvent) (authority : Option ReceiptAuthority) : Prop :=
  match event.mutation with
  | .runCreated _ | .workflowControlled _ | .ownerAdopted _ | .planReconciled .. => False
  | .workflowSteered criteria _ => ∃ payload, run.payload = .ulwLoop payload ∧
      payload.activeGoalId ≠ none ∧ ∀ criterion ∈ criteria, criterion.id ∉ payload.criterionIds
  | .criterionSettled settlement => ∃ payload, run.payload = .ulwLoop payload ∧
      (event.legacyUnbound = true ∨ ∃ bound, receiptBinding event authority = some bound ∧
        settlementAccepted run event settlement bound = true ∧
        settlementPending payload settlement = true)
  | .taskEvidenceAccepted taskId acceptanceId => run.workflow = .startWork ∧
      ∃ bound accepted, receiptBinding event authority = some bound ∧
        currentAcceptance run bound taskId = some accepted ∧
        accepted.idempotencyKey = acceptanceId ∧ some accepted.taskGeneration = event.taskGeneration
  | .workflowTerminal status acceptanceIds taskId => ∃ bound,
      receiptBinding event authority = some bound ∧ event.taskGeneration = some bound.taskGeneration ∧
        match status with
        | .failed => taskId ≠ none ∧ exhaustedTaskId run bound = taskId
        | .completed => ∃ payload, run.payload = .startWork payload ∧ acceptanceIds ≠ none ∧
            startCompletionAcceptanceIds run payload.plan bound = acceptanceIds
  | .continuationAttempted leafId progressRevision =>
      run.continuation.lastProcessedLeafId ≠ some leafId ∧ progressRevision = run.progressRevision
  | .continuationStuck leafId => run.continuation.lastProcessedLeafId ≠ some leafId ∧
      run.continuation.progressRevisionSeen = run.progressRevision ∧
      2 ≤ run.continuation.noProgressAttempts
  | .goalCycleStarted goalId => event.legacyUnbound = true ∨ ∃ payload goal,
      run.payload = .ulwLoop payload ∧ payload.goals.find? (·.id = goalId) = some goal ∧
        goal.cycleCount < 5
  | .criterionFailureRecorded goalId criterionId fingerprint => event.legacyUnbound = true ∨
      ∃ payload goal criterion, run.payload = .ulwLoop payload ∧
        payload.goals.find? (·.id = goalId) = some goal ∧
        goal.criteria.find? (·.id = criterionId) = some criterion ∧
        ¬ (criterion.identicalFailureFingerprint = some fingerprint ∧
          3 ≤ criterion.identicalFailureCount)

section Inversion

variable {index : ActiveIndex} {run : AnyRun} {event : PersistedStateEvent}
  {authority : Option ReceiptAuthority}

theorem nextRun_control (hkind : event.mutation.kind ≠ .runCreated) {next : AnyRun}
    (hrevision : event.expected.runRevision = some run.revision)
    (hsession : event.expected.ownerSessionId = some run.owner.sessionId)
    (hepoch : event.expected.ownerEpoch = some run.owner.epoch)
    (hhead : headConflicts run event.version = false) (hscope : scopeConflicts event = false)
    (hcontrol : controlRun run event authority = some next) :
    nextRun (some run) event authority = .ok (some next) := by
  unfold nextRun
  split
  · rename_i created hm
    rw [hm] at hkind
    exact absurd rfl hkind
  · simp [hrevision, hsession, hepoch, hhead, hscope, hcontrol]

/-- On a run that exists, a transition succeeds exactly when it is addressed to the run and its reducer
accepts it. -/
theorem prepareTransition_isOk_iff (hkind : event.mutation.kind ≠ .runCreated) :
    (∃ prepared, prepareTransition index (some run) event authority = .ok prepared) ↔
      Addressed index run event ∧ ∃ next, controlRun run event authority = some next := by
  constructor
  · rintro ⟨prepared, h⟩
    obtain ⟨hindex, hsequence, next, hnext, hid, hworkflow, -⟩ := prepareTransition_eq_ok.mp h
    obtain ⟨-, habsent, -⟩ | ⟨current, hrun, -, hrevision, hsession, hepoch, hhead, hscope, hcontrol⟩ :=
      nextRun_cases hnext
    · cases habsent
    · obtain rfl := Option.some.inj hrun
      have hsame := (controlRun_cases hcontrol).sameIdentity
      exact ⟨⟨hindex, hsequence, hrevision, hsession, hepoch, hhead, hscope, hsame.runId ▸ hid,
        hsame.workflow ▸ hworkflow⟩, next, hcontrol⟩
  · rintro ⟨h, next, hcontrol⟩
    have hsame := (controlRun_cases hcontrol).sameIdentity
    have hnext := nextRun_control hkind h.runRevision h.ownerSessionId h.ownerEpoch h.head h.scope hcontrol
    exact ⟨_, prepareTransition_eq_ok.mpr ⟨h.indexRevision, h.sequence, next, hnext,
      hsame.runId.trans h.runId, hsame.workflow.trans h.workflow, rfl⟩⟩

theorem exists_eq_some_iff {α : Type} {p : Prop} [Decidable p] {a : α} :
    (∃ b, (if p then none else some a) = some b) ↔ ¬ p := by
  split <;> simp_all

theorem startGoalCycle_isSome {payload : UlwLoopPayload} {goalId : String} :
    (∃ next, (startGoalCycle run payload goalId).toOption = some next) ↔
      ∃ goal, payload.goals.find? (·.id = goalId) = some goal ∧ goal.cycleCount < 5 := by
  unfold startGoalCycle
  cases payload.goals.find? (·.id = goalId) with
  | none => simp [Except.toOption]
  | some goal =>
    by_cases hcycles : 5 ≤ goal.cycleCount
    · simp [hcycles, Except.toOption]
    · simp [hcycles, Except.toOption, Nat.lt_of_not_le hcycles]

theorem recordCriterionFailure_isSome {payload : UlwLoopPayload}
    {goalId criterionId fingerprint : String} :
    (∃ next, (recordCriterionFailure run payload goalId criterionId fingerprint).toOption = some next) ↔
      ∃ goal criterion, payload.goals.find? (·.id = goalId) = some goal ∧
        goal.criteria.find? (·.id = criterionId) = some criterion ∧
        ¬ (criterion.identicalFailureFingerprint = some fingerprint ∧
          3 ≤ criterion.identicalFailureCount) := by
  unfold recordCriterionFailure
  cases payload.goals.find? (·.id = goalId) with
  | none => simp [Except.toOption]
  | some goal =>
    cases hcriterion : goal.criteria.find? (·.id = criterionId) with
    | none => simp [hcriterion, Except.toOption]
    | some criterion =>
      by_cases hlimit : criterion.identicalFailureFingerprint = some fingerprint ∧
          3 ≤ criterion.identicalFailureCount
      · simp [hcriterion, hlimit, Except.toOption]
      · refine ⟨fun _ ↦ ⟨goal, criterion, rfl, hcriterion, hlimit⟩, fun _ ↦ ?_⟩
        simp only [hcriterion, if_neg hlimit]
        exact ⟨_, rfl⟩

theorem steerRun_isSome {criteria : List SteeredCriterion} {annotationText : Option String} :
    (∃ next, steerRun run criteria annotationText = some next) ↔
      ∃ payload, run.payload = .ulwLoop payload ∧ payload.activeGoalId ≠ none ∧
        ∀ criterion ∈ criteria, criterion.id ∉ payload.criterionIds := by
  unfold steerRun
  cases hpayload : run.payload with
  | startWork payload => simp
  | ulwLoop payload =>
    cases hactive : payload.activeGoalId with
    | none => simp [hactive]
    | some activeGoalId => simp [hactive]

/-- A control command that needs an open run finds none. -/
theorem reduceShared_terminal (hterminal : terminal run.status = true) (command : ControlCommand) :
    (reduceShared run command).toOption = none := by
  have hactive : run.status ≠ .active := by
    intro h
    rw [h] at hterminal
    cases hterminal
  unfold reduceShared
  split <;> simp [hterminal, hactive, Except.toOption]

theorem controlMutation_unguarded (hterminal : terminal run.status = true)
    (hlegacy : event.mutation.kind = .goalCycleStarted ∨
      event.mutation.kind = .criterionFailureRecorded → event.legacyUnbound = false) :
    (∃ next, controlMutation run event authority = some next) ↔ Unguarded run event authority := by
  unfold controlMutation Unguarded
  cases hm : event.mutation with
  | runCreated run => simp
  | workflowControlled control =>
    simp only [iff_false, not_exists]
    intro next
    rw [reduceWorkflowControl_shared (.inr rfl) rfl (by cases control <;> simp),
      reduceShared_terminal hterminal]
    simp
  | ownerAdopted sessionId =>
    simp only [iff_false, not_exists]
    intro next
    rw [reduceWorkflowControl_shared (.inl rfl) rfl (by simp), reduceShared_terminal hterminal]
    simp
  | planReconciled taskIds remaining fingerprint =>
    simp only [iff_false, not_exists]
    intro next
    cases hpayload : run.payload with
    | ulwLoop payload => simp
    | startWork payload =>
      have hterminal : terminal payload.status = true := by
        rwa [AnyRun.status, hpayload] at hterminal
      simp only [reduceWorkflowControl, hpayload]
      rw [precheck_own (.inr rfl) rfl]
      simp [bind, Except.bind, reduceStart, hterminal, Except.toOption]
  | workflowSteered criteria annotationText => exact steerRun_isSome
  | criterionSettled settlement =>
    simp only [reduceRuntimeProgress, hm, settleCriterion_eq_some]
    constructor
    · rintro ⟨next, payload, hpayload, ⟨hlegacy, -⟩ | ⟨bound, hbound, haccepted, hpending, -⟩⟩
      · exact ⟨payload, hpayload, .inl hlegacy⟩
      · exact ⟨payload, hpayload, .inr ⟨bound, hbound, haccepted, hpending⟩⟩
    · rintro ⟨payload, hpayload, hlegacy | ⟨bound, hbound, haccepted, hpending⟩⟩
      · exact ⟨run, payload, hpayload, .inl ⟨hlegacy, rfl⟩⟩
      · exact ⟨_, payload, hpayload, .inr ⟨bound, hbound, haccepted, hpending, rfl⟩⟩
  | taskEvidenceAccepted taskId acceptanceId =>
    simp only [reduceRuntimeProgress, hm, acceptTaskEvidence_eq_some]
    constructor
    · rintro ⟨next, hworkflow, bound, accepted, hbound, haccepted, hkey, hgeneration, -⟩
      exact ⟨hworkflow, bound, accepted, hbound, haccepted, hkey, hgeneration⟩
    · rintro ⟨hworkflow, bound, accepted, hbound, haccepted, hkey, hgeneration⟩
      exact ⟨_, hworkflow, bound, accepted, hbound, haccepted, hkey, hgeneration, rfl⟩
  | workflowTerminal status acceptanceIds taskId =>
    simp only [reduceRuntimeProgress, hm, terminalRun_eq_some]
    cases status with
    | failed =>
      constructor
      · rintro ⟨next, bound, hbound, hgeneration, htask, hexhausted, -⟩
        exact ⟨bound, hbound, hgeneration, htask, hexhausted⟩
      · rintro ⟨bound, hbound, hgeneration, htask, hexhausted⟩
        exact ⟨_, bound, hbound, hgeneration, htask, hexhausted, rfl⟩
    | completed =>
      constructor
      · rintro ⟨next, bound, hbound, hgeneration, payload, hpayload, hsome, hids, -⟩
        exact ⟨bound, hbound, hgeneration, payload, hpayload, hsome, hids⟩
      · rintro ⟨bound, hbound, hgeneration, payload, hpayload, hsome, hids⟩
        exact ⟨_, bound, hbound, hgeneration, payload, hpayload, hsome, hids, rfl⟩
  | continuationAttempted leafId progressRevision =>
    simp only [reduceRuntimeProgress, hm, attemptContinuation, exists_eq_some_iff]
    simp [not_or]
  | continuationStuck leafId =>
    simp only [reduceRuntimeProgress, hm, stopContinuation, exists_eq_some_iff]
    rw [not_or, not_or, not_not, not_lt]
  | goalCycleStarted goalId =>
    have hbound : event.legacyUnbound = false := hlegacy (.inl (by rw [hm]; rfl))
    cases hpayload : run.payload with
    | startWork payload => simp [hbound]
    | ulwLoop payload => simp [hbound, startGoalCycle_isSome]
  | criterionFailureRecorded goalId criterionId fingerprint =>
    have hbound : event.legacyUnbound = false := hlegacy (.inr (by rw [hm]; rfl))
    cases hpayload : run.payload with
    | startWork payload => simp [hbound]
    | ulwLoop payload =>
      simp only [recordCriterionFailure_isSome, hbound]
      simp

theorem controlRun_unguarded (hterminal : terminal run.status = true) :
    (∃ next, controlRun run event authority = some next) ↔ Unguarded run event authority := by
  unfold controlRun
  split
  · rename_i hnoop
    refine ⟨fun _ ↦ ?_, fun _ ↦ ⟨run, rfl⟩⟩
    obtain ⟨hlegacy, hkind⟩ := hnoop
    unfold Unguarded
    cases hm : event.mutation <;> simp [hm, StateMutation.kind] at hkind
    · exact .inl hlegacy
    · exact .inl hlegacy
  · rename_i hnoop
    refine controlMutation_unguarded hterminal fun hkind ↦ ?_
    exact Bool.eq_false_iff.mpr fun hlegacy ↦ hnoop ⟨hlegacy, hkind⟩

/-- A run that is over rejects every later event but those that are addressed to it and of which no
reducer asks whether the run is over. -/
theorem terminal_frozen_iff (hterminal : terminal run.status = true)
    (hkind : event.mutation.kind ≠ .runCreated) :
    (∀ prepared, prepareTransition index (some run) event authority ≠ .ok prepared) ↔
      ¬ (Addressed index run event ∧ Unguarded run event authority) := by
  rw [← controlRun_unguarded hterminal, ← prepareTransition_isOk_iff hkind, not_exists]

/-- Of the events that a run which is over accepts, only the stop of its continuation opens it again. -/
theorem terminal_reopened_iff (hterminal : terminal run.status = true) {next : AnyRun}
    (h : Accepts run event next) :
    terminal next.status = false ↔ event.mutation.kind = .continuationStuck := by
  obtain ⟨authority, unstamped, hcontrolled, rfl⟩ := h.controlled
  change terminal unstamped.status = false ↔ _
  have hstays {next : AnyRun} (hstatus : terminal next.status = true)
      (hother : event.mutation.kind ≠ .continuationStuck) :
      terminal next.status = false ↔ event.mutation.kind = .continuationStuck :=
    ⟨fun h ↦ absurd (hstatus.symm.trans h) (by decide), fun h ↦ absurd h hother⟩
  cases hcontrolled with
  | unchanged _ hlegacy => exact hstays hterminal fun h ↦ by simp [h] at hlegacy
  | paused _ hstatus => rw [hstatus] at hterminal; cases hterminal
  | cancelled _ hstatus | resumed _ hstatus => rw [hstatus] at hterminal; cases hterminal
  | adopted _ _ hstatus => cases hrun : run.status <;> simp_all [terminal, adoptable]
  | reconciled _ _ _ _ _ hpayload hstatus =>
    rw [AnyRun.status, hpayload] at hterminal
    exact absurd hterminal (by rw [Payload.status, hstatus]; decide)
  | steered _ _ _ _ hm hpayload | cycled _ _ _ hm _ hpayload | failureRecorded _ _ _ _ _ _ hm _ hpayload =>
    refine hstays ?_ (by simp [hm, StateMutation.kind])
    rw [AnyRun.status, hpayload] at hterminal
    exact hterminal
  | settled settlement payload hm _ hpayload =>
    refine hstays ?_ (by simp [hm, StateMutation.kind])
    rw [AnyRun.status, hpayload] at hterminal
    rcases status_settledPayload settlement payload with hstatus | hstatus
    · simpa only [AnyRun.status, Payload.status, hstatus] using hterminal
    · simp only [AnyRun.status, Payload.status, hstatus]
      rfl
  | evidenceAccepted _ _ hm | attempted _ _ hm =>
    exact hstays hterminal (by simp [hm, StateMutation.kind])
  | failed _ _ hm =>
    exact hstays (by rw [AnyRun.status_withStatus rfl (by rfl)]; rfl) (by simp [hm, StateMutation.kind])
  | completed _ _ _ hm => exact hstays rfl (by simp [hm, StateMutation.kind])
  | stopped _ hm =>
    refine ⟨fun _ ↦ by rw [hm]; rfl, fun _ ↦ ?_⟩
    have hstuck : AnyRun.status { setRunStatus run .stuck with
        continuation := run.continuation } = .stuck := AnyRun.status_withStatus rfl (by rfl)
    rw [AnyRun.status] at hstuck ⊢
    rw [hstuck]
    rfl

end Inversion

namespace Sample

/-- Two idle turns, and the owner gives up. -/
def givenUp : List (Option ℕ × StateMutation) :=
  [(none, .continuationAttempted "leaf-1" 1), (none, .continuationAttempted "leaf-2" 1),
    (none, .workflowControlled .cancel)]

def cancelledRun : AnyRun :=
  { run with
    revision := 4
    transactionRevision := 4
    continuation := ⟨some "leaf-2", 1, 2, false⟩
    payload := .ulwLoop { payload with status := .cancelled } }

end Sample

/-- The last idle turn is reported late: the cancelled run is stuck and in the index again. -/
theorem cancelled_run_returns :
    ∃ prepared, ReflTransGen (Evolves fun _ event ↦ event.Accepted) Sample.run Sample.cancelledRun ∧
      terminal Sample.cancelledRun.status = true ∧
      (Sample.eventOn Sample.cancelledRun none (.continuationStuck "leaf-3")).Accepted ∧
      prepareTransition ⟨.v2 1, 4, []⟩ (some Sample.cancelledRun)
        (Sample.eventOn Sample.cancelledRun none (.continuationStuck "leaf-3")) none = .ok prepared ∧
      prepared.run.status = .stuck ∧ prepared.index.entries.map (·.runId) = [Sample.cancelledRun.runId] := by
  have hfollow : Sample.follow none Sample.run Sample.givenUp = some Sample.cancelledRun := by
    decide
  exact ⟨_, Sample.evolves_of_follow hfollow, by decide, by decide, rfl, by decide, by decide⟩

theorem terminal_frozen_paused :
    ¬ ∃ prepared, prepareTransition ⟨.v2 1, 4, []⟩ (some Sample.cancelledRun)
      (Sample.eventOn Sample.cancelledRun none (.workflowControlled .pause)) none = .ok prepared :=
  not_exists.mpr ((terminal_frozen_iff (by decide) (by decide)).mpr fun h ↦ h.2)

end OmpLazy.State

import OmpLazy.Continuation.DurableContinuation
import OmpLazy.Continuation.Resolvers

namespace OmpLazy.Continuation

open OmpLazy.State OmpLazy.Workflows ReceiptAuthority

section Resolved

variable {index : ActiveIndex} {runs : List AnyRun} {workflow : WorkflowKind} {sessionId : String}
  {run : AnyRun}

/-- A run that was found has an entry of the session that agrees with it. -/
theorem resolveWorkflow_found (h : resolveWorkflow index runs workflow sessionId = .found run) :
    run ∈ runs ∧ ∃ entry ∈ index.entries, entry.runId = run.runId ∧ Matches entry run ∧
      entry.workflow = workflow ∧ entry.sessionId = sessionId := by
  unfold resolveWorkflow at h
  split at h
  · cases h
  rename_i entry hentry
  have hkey := List.find?_some hentry
  simp only [decide_eq_true_eq] at hkey
  split at h
  · cases h
  rename_i found hfound
  have hid : found.runId = entry.runId := by simpa using List.find?_some hfound
  split at h
  · cases h
  rename_i hcoherent
  obtain rfl := ResolvedWorkflow.found.inj h
  simp only [ne_eq, not_or, not_not, Bool.not_eq_true', Bool.not_eq_false, hintMatches_iff] at hcoherent
  obtain ⟨hworkflow, hsession, hepoch, hrevision, htransaction, hhint⟩ := hcoherent
  exact ⟨List.mem_of_find?_eq_some hfound, entry, List.mem_of_find?_eq_some hentry, hid.symm,
    ⟨hworkflow, hsession, hepoch, hrevision, htransaction, hhint⟩, hkey.1, hkey.2⟩

end Resolved

/-- What the coordinator has found in the ledgers of a run when it decides on it. -/
inductive Warranted (authority : ReceiptAuthority) (leafId : String) (run : AnyRun) :
    ContinuationDecision → Prop
  | completed {payload : StartWorkPayload} {acceptanceIds : List String}
      (hpayload : run.payload = .startWork payload)
      (hids : startCompletionAcceptanceIds run payload.plan authority = some acceptanceIds) :
      Warranted authority leafId run
        (.settled run (.workflowTerminal .completed (some acceptanceIds) none) authority.taskGeneration)
  | exhausted {taskId : String} (htask : exhaustedTaskId run authority = some taskId) :
      Warranted authority leafId run
        (.settled run (.workflowTerminal .failed none (some taskId)) authority.taskGeneration)
  | evidence {taskId : String} {accepted : ScopedWorkerAcceptanceEvent}
      (hworkflow : run.workflow = .startWork)
      (haccepted : currentAcceptance run authority taskId = some accepted) :
      Warranted authority leafId run
        (.settled run (.taskEvidenceAccepted taskId accepted.idempotencyKey) authority.taskGeneration)
  | criterion {payload : UlwLoopPayload} {goal : Goal} {criterion : Criterion} {settlement : Settlement}
      (hpayload : run.payload = .ulwLoop payload)
      (hgoal : payload.goals.find? (·.id = goal.id) = some goal)
      (hcriterion : goal.criteria.find? (·.status ≠ .pass) = some criterion)
      (hsettlement : pendingSettlement run authority goal criterion = some settlement) :
      Warranted authority leafId run
        (.settled run (.criterionSettled settlement) authority.taskGeneration)
  | stuck (hbound : hasReachedNoProgressBound run = true) :
      Warranted authority leafId run (.stuck run (.continuationStuck leafId))
  | continued {additionalContext : String} (hbound : hasReachedNoProgressBound run = false) :
      Warranted authority leafId run
        (.continued run additionalContext (.continuationAttempted leafId run.progressRevision))

section Deciding

variable {sessionId leafId : String} {snapshot : ContinuationSnapshot} {run : AnyRun}
  {authority : ReceiptAuthority} {decision : ContinuationDecision}

theorem warranted_attemptOrStop (additionalContext : String) :
    Warranted authority leafId run (attemptOrStop leafId run additionalContext) := by
  unfold attemptOrStop
  split
  · exact .stuck ‹_›
  · exact .continued (Bool.eq_false_iff.mpr ‹_›)

theorem warranted_exhaustion (h : exhaustionDecision run authority = some decision) :
    Warranted authority leafId run decision := by
  obtain ⟨taskId, htask, rfl⟩ := Option.map_eq_some_iff.mp h
  exact .exhausted htask

theorem warranted_completion {payload : StartWorkPayload} (hpayload : run.payload = .startWork payload)
    {eligibility : Except StartWorkRefusal String}
    (h : completionDecision run authority payload eligibility = some decision) :
    Warranted authority leafId run decision := by
  unfold completionDecision at h
  split at h
  · obtain ⟨acceptanceIds, hids, rfl⟩ := Option.map_eq_some_iff.mp h
    exact .completed hpayload hids
  · cases h

theorem warranted_nextTask (hworkflow : run.workflow = .startWork) (nextTaskId : String) :
    Warranted authority leafId run (nextTaskDecision leafId run authority nextTaskId) := by
  unfold nextTaskDecision
  split
  · exact .evidence hworkflow ‹_›
  · exact warranted_attemptOrStop _

theorem warranted_startWork {payload : StartWorkPayload} (hpayload : run.payload = .startWork payload)
    {observed : PlanSnapshot}
    (h : startWorkDecision leafId run authority payload observed = some decision) :
    Warranted authority leafId run decision := by
  simp only [startWorkDecision, Option.orElse_eq_orElse, Option.orElse_eq_or, Option.or_eq_some_iff] at h
  obtain h | ⟨-, h | ⟨-, h⟩⟩ := h
  · exact warranted_completion hpayload h
  · exact warranted_exhaustion h
  · obtain ⟨nextTaskId, -, rfl⟩ := Option.map_eq_some_iff.mp h
    exact warranted_nextTask (by rw [AnyRun.workflow, hpayload]; rfl) nextTaskId

theorem warranted_goal {payload : UlwLoopPayload} (hpayload : run.payload = .ulwLoop payload)
    {goal : Goal} (hgoal : payload.goals.find? (·.id = goal.id) = some goal) :
    Warranted authority leafId run (goalDecision leafId run authority goal) := by
  unfold goalDecision
  dsimp only
  split
  · rename_i settlement hsettlement
    obtain ⟨criterion, hcriterion, hsettlement⟩ := Option.bind_eq_some_iff.mp hsettlement
    exact .criterion hpayload hgoal hcriterion hsettlement
  · exact warranted_attemptOrStop _

theorem warranted_activeGoal {payload : UlwLoopPayload} (hpayload : run.payload = .ulwLoop payload)
    (hdecision : activeGoalDecision leafId run authority payload ≠ .quiet) :
    Warranted authority leafId run (activeGoalDecision leafId run authority payload) := by
  unfold activeGoalDecision at hdecision ⊢
  cases heligible : evaluateUlwContinuation payload with
  | error refusal => simp [heligible] at hdecision
  | ok goalId =>
    simp only [heligible] at hdecision ⊢
    cases hgoal : payload.goals.find? (·.id = goalId) with
    | none => simp [hgoal] at hdecision
    | some goal =>
      simp only [hgoal] at hdecision ⊢
      split at hdecision
      · rename_i hstatus
        rw [if_pos hstatus]
        have hid : goal.id = goalId := by simpa using List.find?_some hgoal
        exact warranted_goal hpayload (hid ▸ hgoal)
      · exact absurd rfl hdecision

theorem warranted_ulwLoop {payload : UlwLoopPayload} (hpayload : run.payload = .ulwLoop payload)
    (hdecision : ulwLoopDecision leafId run authority payload ≠ .quiet) :
    Warranted authority leafId run (ulwLoopDecision leafId run authority payload) := by
  unfold ulwLoopDecision at hdecision ⊢
  cases hexhausted : exhaustionDecision run authority with
  | some exhausted => exact warranted_exhaustion hexhausted
  | none =>
    rw [hexhausted] at hdecision
    exact warranted_activeGoal hpayload hdecision

/-- The run on which the coordinator decides: one of the session that has not yet seen the leaf. -/
structure Decided (sessionId leafId : String) (snapshot : ContinuationSnapshot) (run : AnyRun)
    (decision : ContinuationDecision) : Prop where
  found : ∃ workflow, resolveWorkflow snapshot.index snapshot.runs workflow sessionId = .found run
  leaf : run.continuation.lastProcessedLeafId ≠ some leafId
  warranted : Warranted (authorityFor snapshot run) leafId run decision

theorem decided_loop {loop : ResolvedWorkflow}
    (hloop : resolveWorkflow snapshot.index snapshot.runs .ulwLoop sessionId = loop)
    (hdecision : decideLoop leafId snapshot loop ≠ .quiet) :
    ∃ run, Decided sessionId leafId snapshot run (decideLoop leafId snapshot loop) := by
  cases loop with
  | absent | conflict => exact absurd rfl hdecision
  | found run =>
    refine ⟨run, ?_⟩
    unfold decideLoop at hdecision ⊢
    cases hpayload : run.payload with
    | startWork payload => simp [hpayload] at hdecision
    | ulwLoop payload =>
      simp only [hpayload] at hdecision ⊢
      split at hdecision
      · exact absurd rfl hdecision
      · rename_i hleaf
        rw [if_neg hleaf]
        exact ⟨⟨_, hloop⟩, hleaf, warranted_ulwLoop hpayload hdecision⟩

/-- Every decision that is not quiet is one on a run of the session, by what its ledgers warrant. -/
theorem decideContinuation_decided (hdecision : decideContinuation sessionId leafId snapshot ≠ .quiet) :
    snapshot.index.Valid ∧
      ∃ run, Decided sessionId leafId snapshot run (decideContinuation sessionId leafId snapshot) := by
  unfold decideContinuation at hdecision ⊢
  split at hdecision
  · exact absurd rfl hdecision
  rename_i hvalid
  rw [if_neg hvalid]
  refine ⟨ActiveIndex.validateActiveIndex_eq_ok.mp (not_not.mp hvalid), ?_⟩
  dsimp only at hdecision ⊢
  split at hdecision
  · exact absurd rfl hdecision
  rename_i hconflict
  rw [if_neg hconflict]
  cases hstart : resolveWorkflow snapshot.index snapshot.runs .startWork sessionId with
  | absent | conflict =>
    rw [hstart] at hdecision
    exact decided_loop rfl hdecision
  | found run =>
    simp only [hstart] at hdecision ⊢
    cases hpayload : run.payload with
    | ulwLoop payload => simp [hpayload] at hdecision
    | startWork payload =>
      simp only [hpayload] at hdecision ⊢
      split at hdecision
      · exact absurd rfl hdecision
      rename_i hleaf
      rw [if_neg hleaf]
      cases hdecided : (snapshot.plans.find? (·.runId = run.runId)).bind fun observed ↦
          startWorkDecision leafId run (authorityFor snapshot run) payload observed.snapshot with
      | none =>
        rw [hdecided] at hdecision
        exact decided_loop rfl hdecision
      | some decision =>
        obtain ⟨observed, -, hdecided⟩ := Option.bind_eq_some_iff.mp hdecided
        exact ⟨run, ⟨_, hstart⟩, hleaf, warranted_startWork hpayload hdecided⟩

end Deciding

end OmpLazy.Continuation

import OmpLazy.Continuation.DecisionLaws
import OmpLazy.Foundation.Keys
import OmpLazy.State.CompletionGates
import OmpLazy.State.ReceiptLedgers
import OmpLazy.State.TerminalRuns

namespace OmpLazy.Continuation

open OmpLazy.Foundation OmpLazy.State OmpLazy.State.Sample OmpLazy.Workflows ReceiptAuthority

/-- The runs are version 2 runs that their schema accepts. -/
structure Coherent (snapshot : ContinuationSnapshot) : Prop where
  version : ∀ run ∈ snapshot.runs, run.version ≠ .v1
  accepted : ∀ run ∈ snapshot.runs, run.Accepted

section Wrapping

variable {proposal : Proposal} {index : ActiveIndex} {eventId : Uuid} {atTime : String}
  {authority : ReceiptAuthority}

theorem Proposal.version_eq (hversion : proposal.run.version ≠ .v1) :
    ∃ packetHash expectedHead, proposal.run.version = .v2 packetHash expectedHead ∧
      proposal.version = .v2 (if proposal.taskGeneration.isSome then expectedHead else none)
        proposal.taskGeneration false := by
  unfold Proposal.version
  cases hrun : proposal.run.version with
  | v1 => exact absurd hrun hversion
  | v2 packetHash expectedHead => exact ⟨packetHash, expectedHead, rfl, rfl⟩

/-- A version 2 run is addressed as it is. -/
theorem Proposal.addressed (hversion : proposal.run.version ≠ .v1)
    (hscope : taskScoped proposal.mutation.kind = proposal.taskGeneration.isSome) :
    Addressed index proposal.run (proposal.event index eventId atTime) := by
  obtain ⟨packetHash, expectedHead, hrun, hevent⟩ := version_eq hversion
  refine ⟨rfl, rfl, rfl, rfl, rfl, ?_, ?_, rfl, rfl⟩
  · change headConflicts proposal.run proposal.version = false
    rw [hevent]
    cases proposal.taskGeneration with
    | none => rfl
    | some generation => cases expectedHead <;> simp [headConflicts, hrun]
  · simp only [scopeConflicts, event, hevent, hscope, bne_self_eq_false]

theorem Proposal.receiptBinding_event (hversion : proposal.run.version ≠ .v1) :
    receiptBinding (proposal.event index eventId atTime) = id := by
  obtain ⟨packetHash, expectedHead, -, hevent⟩ := version_eq hversion
  funext given
  simp only [receiptBinding, event, hevent, id]

theorem Proposal.taskGeneration_event (hversion : proposal.run.version ≠ .v1) :
    (proposal.event index eventId atTime).taskGeneration = proposal.taskGeneration := by
  obtain ⟨packetHash, expectedHead, -, hevent⟩ := version_eq hversion
  simp only [PersistedStateEvent.taskGeneration, event, hevent]

end Wrapping

section Accepting

variable {authority : ReceiptAuthority} {leafId : String} {run : AnyRun}

/-- Of the criteria of a goal that was read, the first that is not passed is the one with its id. -/
theorem settlementPending_first {payload : UlwLoopPayload} (hok : payload.Ok) {goal : Goal}
    (hgoal : payload.goals.find? (·.id = goal.id) = some goal) {criterion : Criterion}
    (hcriterion : goal.criteria.find? (·.status ≠ .pass) = some criterion) {settlement : Settlement}
    (hsettlement : pendingSettlement run authority goal criterion = some settlement) :
    settlementPending payload settlement = true := by
  obtain ⟨accepted, -, rfl⟩ := Option.map_eq_some_iff.mp hsettlement
  have hnodup := nodup_of_trimmed (hok.fields.goals goal (List.mem_of_find?_eq_some hgoal)).criterionIds
  have hmem := List.mem_of_find?_eq_some hcriterion
  have hfound : goal.criteria.find? (·.id = criterion.id) = some criterion := find?_key hnodup hmem
  have hstatus := List.find?_some hcriterion
  simpa only [settlementPending, hgoal, hfound] using hstatus

theorem settlementAccepted_pending {event : PersistedStateEvent} {goal : Goal} {criterion : Criterion}
    {settlement : Settlement} (hsettlement : pendingSettlement run authority goal criterion = some settlement)
    (hgeneration : event.taskGeneration = some authority.taskGeneration) :
    settlementAccepted run event settlement authority = true := by
  obtain ⟨accepted, haccepted, rfl⟩ := Option.map_eq_some_iff.mp hsettlement
  obtain ⟨-, -, hcurrent, -⟩ := currentAcceptance_eq_some haccepted
  simp [settlementAccepted, haccepted, hcurrent, hgeneration]

/-- What the coordinator finds in the ledgers is what the reducer asks of them. The receipts are read
for the kinds that are bound to them only. -/
theorem Warranted.reduced {decision : ContinuationDecision} (h : Warranted authority leafId run decision)
    (hok : run.Ok) (hleaf : run.continuation.lastProcessedLeafId ≠ some leafId) :
    ∃ proposal, decision.proposal = some proposal ∧ proposal.run = run ∧
      taskScoped proposal.mutation.kind = proposal.taskGeneration.isSome ∧
      ∀ (event : PersistedStateEvent) (given : Option ReceiptAuthority),
        event.mutation = proposal.mutation →
        (receiptBound proposal.mutation.kind = true → receiptBinding event given = some authority) →
        event.taskGeneration = proposal.taskGeneration →
        ∃ next, reduceRuntimeProgress run event given = some next := by
  cases h with
  | completed hpayload hids =>
    refine ⟨_, rfl, rfl, rfl, fun event given hmutation hbinding hgeneration ↦ ?_⟩
    simp only [reduceRuntimeProgress, hmutation, terminalRun_eq_some]
    exact ⟨_, authority, hbinding rfl, hgeneration, _, hpayload, by simp, hids, rfl⟩
  | exhausted htask =>
    refine ⟨_, rfl, rfl, rfl, fun event given hmutation hbinding hgeneration ↦ ?_⟩
    simp only [reduceRuntimeProgress, hmutation, terminalRun_eq_some]
    exact ⟨_, authority, hbinding rfl, hgeneration, by simp, htask, rfl⟩
  | evidence hworkflow haccepted =>
    obtain ⟨-, -, hcurrent, -⟩ := currentAcceptance_eq_some haccepted
    refine ⟨_, rfl, rfl, rfl, fun event given hmutation hbinding hgeneration ↦ ?_⟩
    simp only [reduceRuntimeProgress, hmutation, acceptTaskEvidence_eq_some]
    exact ⟨_, hworkflow, authority, _, hbinding rfl, haccepted, rfl, by rw [hcurrent, hgeneration], rfl⟩
  | @criterion payload _ _ _ hpayload hgoal hcriterion hsettlement =>
    have hpayloadOk : Payload.Ok (.ulwLoop payload) := hpayload ▸ hok.payload
    refine ⟨_, rfl, rfl, rfl, fun event given hmutation hbinding hgeneration ↦ ?_⟩
    simp only [reduceRuntimeProgress, hmutation, settleCriterion_eq_some]
    exact ⟨_, payload, hpayload, .inr ⟨authority, hbinding rfl, settlementAccepted_pending hsettlement hgeneration,
      settlementPending_first hpayloadOk hgoal hcriterion hsettlement, rfl⟩⟩
  | stuck hbound =>
    simp only [hasReachedNoProgressBound, Bool.and_eq_true, decide_eq_true_eq] at hbound
    refine ⟨_, rfl, rfl, rfl, fun event given hmutation _ _ ↦ ?_⟩
    simp only [reduceRuntimeProgress, hmutation, stopContinuation]
    rw [exists_eq_some_iff, not_or, not_or, not_not, not_lt]
    exact ⟨hleaf, hbound⟩
  | continued hbound =>
    refine ⟨_, rfl, rfl, rfl, fun event given hmutation _ _ ↦ ?_⟩
    simp only [reduceRuntimeProgress, hmutation, attemptContinuation]
    rw [exists_eq_some_iff, not_or, not_not]
    exact ⟨hleaf, rfl⟩

/-- The kinds of the reducers of runtime progress go to them. -/
theorem controlRun_progress {event : PersistedStateEvent} {given : Option ReceiptAuthority} {next : AnyRun}
    (h : reduceRuntimeProgress run event given = some next) : controlRun run event given = some next := by
  have hmutation := h
  unfold reduceRuntimeProgress at hmutation
  unfold controlRun controlMutation
  cases hm : event.mutation <;> simp only [hm, reduceCtorEq] at hmutation <;>
    simp [StateMutation.kind, h]

theorem progress_kind {event : PersistedStateEvent} {given : Option ReceiptAuthority} {next : AnyRun}
    (h : reduceRuntimeProgress run event given = some next) : event.mutation.kind ≠ .runCreated := by
  unfold reduceRuntimeProgress at h
  cases hm : event.mutation <;> simp [hm, StateMutation.kind] at h ⊢

end Accepting

section Committing

variable {snapshot : ContinuationSnapshot} {sessionId leafId : String}

/-- What the transition makes of a decision when it is given the receipts that the kind is bound to. -/
theorem proposal_accepted (hsnapshot : Coherent snapshot)
    (hdecision : decideContinuation sessionId leafId snapshot ≠ .quiet) :
    ∃ proposal, (decideContinuation sessionId leafId snapshot).proposal = some proposal ∧
      proposal.run ∈ snapshot.runs ∧ ∀ eventId atTime given,
        (receiptBound proposal.mutation.kind = true → given = some (authorityFor snapshot proposal.run)) →
        ∃ prepared, prepareTransition snapshot.index (some proposal.run)
          (proposal.event snapshot.index eventId atTime) given = .ok prepared := by
  obtain ⟨-, run, ⟨workflow, hfound⟩, hleaf, hwarranted⟩ := decideContinuation_decided hdecision
  have hrun := (resolveWorkflow_found hfound).1
  have hversion := hsnapshot.version run hrun
  have hok := AnyRun.accepted_iff.mp (hsnapshot.accepted run hrun)
  obtain ⟨proposal, hproposal, rfl, hscope, hreduced⟩ := hwarranted.reduced hok hleaf
  refine ⟨proposal, hproposal, hrun, fun eventId atTime given hgiven ↦ ?_⟩
  obtain ⟨next, hnext⟩ := hreduced (proposal.event snapshot.index eventId atTime) given rfl
    (fun hbound ↦ by rw [hgiven hbound, proposal.receiptBinding_event hversion, id])
    (proposal.taskGeneration_event hversion)
  exact (prepareTransition_isOk_iff (progress_kind hnext)).mpr
    ⟨proposal.addressed hversion hscope, next, controlRun_progress hnext⟩

/-- Every decision of the coordinator that is not quiet, wrapped into an event, is accepted by the
transition on the index, the run and the receipts on which it was made. -/
theorem decision_accepted (hsnapshot : Coherent snapshot)
    (hdecision : decideContinuation sessionId leafId snapshot ≠ .quiet) (eventId : Uuid) (atTime : String) :
    ∃ proposal prepared, (decideContinuation sessionId leafId snapshot).proposal = some proposal ∧
      proposal.run ∈ snapshot.runs ∧
      prepareTransition snapshot.index (some proposal.run) (proposal.event snapshot.index eventId atTime)
        (some (authorityFor snapshot proposal.run)) = .ok prepared := by
  obtain ⟨proposal, hproposal, hrun, haccepted⟩ := proposal_accepted hsnapshot hdecision
  obtain ⟨prepared, hprepared⟩ := haccepted eventId atTime _ fun _ ↦ rfl
  exact ⟨proposal, prepared, hproposal, hrun, hprepared⟩

end Committing

/-- A run whose only criterion a worker has passed. -/
def passingSnapshot : ContinuationSnapshot where
  index := Sample.index
  runs := [boundRun]
  plans := []
  authorities := [⟨runId, authority⟩]

theorem decision_accepted_passing :
    ∃ proposal prepared, (decideContinuation "session" "leaf" passingSnapshot).proposal = some proposal ∧
      proposal.mutation.kind = .criterionSettled ∧
      prepareTransition Sample.index (some proposal.run) (proposal.event Sample.index eventId now)
        (some (authorityFor passingSnapshot proposal.run)) = .ok prepared := by
  have hsnapshot : Coherent passingSnapshot := ⟨by decide, by decide⟩
  have hdecision : decideContinuation "session" "leaf" passingSnapshot ≠ .quiet := by decide
  have hkind : (decideContinuation "session" "leaf" passingSnapshot).proposal.map (·.mutation.kind) =
      some .criterionSettled := by decide
  obtain ⟨proposal, prepared, hproposal, -, hprepared⟩ :=
    decision_accepted hsnapshot hdecision eventId now
  rw [hproposal, Option.map_some, Option.some.injEq] at hkind
  exact ⟨proposal, prepared, hproposal, hkind, hprepared⟩

end OmpLazy.Continuation

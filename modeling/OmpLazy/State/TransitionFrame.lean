import OmpLazy.State.SnapshotClosure

namespace OmpLazy.State

open OmpLazy.Workflows

def Payload.plan : Payload → Option Plan
  | .startWork payload => some payload.plan
  | .ulwLoop _ => none

/-- The owner that a mutation leaves. -/
def Owner.after (owner : Owner) : StateMutation → Owner
  | .ownerAdopted sessionId => ⟨sessionId, owner.epoch + 1⟩
  | _ => owner

/-- The plan that a mutation leaves: its paths stay, and only a reconciliation gives it other tasks. -/
def Plan.after (plan : Plan) : StateMutation → Plan
  | .planReconciled taskIds _ taskFingerprint => { plan with taskIds, taskFingerprint }
  | _ => plan

/-- What a transition does to the counters, the owner and the identity of a run. -/
structure Framed (run : AnyRun) (event : PersistedStateEvent) (next : AnyRun) : Prop where
  revision : next.revision = if event.legacyNoop then run.revision else run.revision + 1
  progressRevision : run.progressRevision ≤ next.progressRevision
  owner : next.owner = run.owner.after event.mutation
  runId : next.runId = run.runId
  workflow : next.workflow = run.workflow
  version : next.version = run.version
  createdAt : next.createdAt = run.createdAt
  plan : next.payload.plan = run.payload.plan.map (·.after event.mutation)

namespace Framed

variable {run next : AnyRun} {event : PersistedStateEvent}

theorem stamped (h : Framed run event next) (sequence : ℕ) : Framed run event (next.stamped sequence) :=
  ⟨h.revision, h.progressRevision, h.owner, h.runId, h.workflow, h.version, h.createdAt, h.plan⟩

end Framed

@[simp] theorem Payload.plan_withStatus (payload : Payload) (start : RunStatus) (ulw : UlwLoopStatus) :
    (payload.withStatus start ulw).plan = payload.plan := by
  cases payload <;> rfl

theorem Controlled.framed {run next : AnyRun} {event : PersistedStateEvent}
    {authority : Option ReceiptAuthority} (h : Controlled run event authority next) :
    Framed run event next := by
  have hsame := h.sameIdentity
  have hframe : (next.revision = if event.legacyNoop then run.revision else run.revision + 1) ∧
      run.progressRevision ≤ next.progressRevision ∧ next.owner = run.owner.after event.mutation ∧
      next.payload.plan = run.payload.plan.map (·.after event.mutation) := by
    cases h with
    | unchanged hlegacy hkind =>
      have hnoop : event.legacyNoop = true := by
        simpa [PersistedStateEvent.legacyNoop, hlegacy] using hkind
      rw [if_pos hnoop]
      cases hm : event.mutation <;> simp_all [StateMutation.kind, Owner.after, Plan.after]
    | reconciled taskIds remaining fingerprint payload hm hpayload _ =>
      rw [PersistedStateEvent.legacyNoop, hm, hpayload]
      simp [StateMutation.kind, Owner.after, Plan.after, Payload.plan]
    | settled settlement payload hm hlegacy hpayload _ =>
      rw [PersistedStateEvent.legacyNoop, hm, hlegacy, hpayload]
      simp [Owner.after, Payload.plan]
    | completed acceptanceIds taskId payload hm hpayload =>
      rw [PersistedStateEvent.legacyNoop, hm, hpayload]
      simp [StateMutation.kind, Owner.after, Plan.after, Payload.plan]
    | steered criteria annotationText payload activeGoalId hm hpayload _ _ =>
      rw [PersistedStateEvent.legacyNoop, hm, hpayload]
      simp [StateMutation.kind, Owner.after, Payload.plan]
    | cycled goalId payload goal hm hlegacy hpayload _ _ =>
      rw [PersistedStateEvent.legacyNoop, hm, hlegacy, hpayload]
      simp [Owner.after, Payload.plan]
    | failureRecorded goalId criterionId fingerprint payload goal criterion hm hlegacy hpayload _ _ _ =>
      rw [PersistedStateEvent.legacyNoop, hm, hlegacy, hpayload]
      simp [Owner.after, Payload.plan]
    | paused hm | cancelled hm | resumed hm | adopted _ hm | evidenceAccepted _ _ hm | failed _ _ hm
    | attempted _ _ hm | stopped _ hm =>
      rw [PersistedStateEvent.legacyNoop, hm]
      simp [StateMutation.kind, Owner.after, Plan.after, setRunStatus]
  obtain ⟨hrevision, hprogress, howner, hplan⟩ := hframe
  exact ⟨hrevision, hprogress, howner, hsame.runId, hsame.workflow, hsame.version, hsame.createdAt, hplan⟩

/-- A transition other than a creation advances the log by one, and keeps the frame of the run. -/
theorem transition_framed {index : ActiveIndex} {current : Option AnyRun} {event : PersistedStateEvent}
    {authority : Option ReceiptAuthority} {prepared : PreparedTransition}
    (hkind : event.mutation.kind ≠ .runCreated)
    (h : prepareTransition index current event authority = .ok prepared) :
    ∃ run, current = some run ∧ event.sequence = index.revision + 1 ∧
      prepared.run.transactionRevision = index.revision + 1 ∧
      prepared.index.revision = index.revision + 1 ∧ Framed run event prepared.run := by
  obtain ⟨-, hsequence, next, hnext, -, -, rfl⟩ := prepareTransition_eq_ok.mp h
  obtain ⟨hcreated, -⟩ | ⟨run, rfl, -, -, -, -, -, -, hcontrol⟩ := nextRun_cases hnext
  · rw [hcreated] at hkind
    exact absurd rfl hkind
  · exact ⟨run, rfl, hsequence, hsequence, hsequence, (controlRun_cases hcontrol).framed.stamped _⟩

theorem transition_framed_paused :
    ∃ prepared, prepareTransition Sample.index (some Sample.run)
        (Sample.event none (.workflowControlled .pause)) none = .ok prepared ∧
      prepared.run.transactionRevision = 2 ∧
      Framed Sample.run (Sample.event none (.workflowControlled .pause)) prepared.run := by
  obtain ⟨prepared, h⟩ : ∃ prepared, prepareTransition Sample.index (some Sample.run)
      (Sample.event none (.workflowControlled .pause)) none = .ok prepared := ⟨_, rfl⟩
  obtain ⟨run, hrun, -, htransaction, -, hframed⟩ := transition_framed (by decide) h
  obtain rfl := Option.some.inj hrun
  exact ⟨prepared, h, htransaction, hframed⟩

end OmpLazy.State

import OmpLazy.Commands.SettlementPaths
import OmpLazy.Commands.WorkflowCommands

/-! What a command can commit. -/

namespace OmpLazy.Commands

open OmpLazy.Foundation OmpLazy.State OmpLazy.Workflows

variable {platform : PathPlatform} {context : WorkflowContext platform} {workflow : WorkflowKind} {run : AnyRun}
  {event : PersistedStateEvent} {operation : Operation}

theorem lookupRun_read {target : Option Uuid} {adoption : Bool} (h : context.lookupRun workflow target adoption = .ok run) :
    ∃ id, context.readRun id = some run := by
  unfold CommandContext.lookupRun at h
  split at h
  · split at h
    · cases h
    rename_i hread
    split at h
    · cases h
    split at h
    · cases h
    · obtain rfl := Except.ok.inj h
      exact ⟨_, hread⟩
  · split at h
    · cases h
    · split at h
      · cases h
      · rename_i hread
        obtain rfl := Except.ok.inj h
        exact ⟨_, hread⟩
    · cases h

theorem map_eq_ok {ε α β : Type} {x : Except ε α} {f : α → β} {b : β} : x.map f = .ok b ↔ ∃ a, x = .ok a ∧ f a = b := by
  cases x with
  | error code =>
    constructor
    · intro h
      cases h
    · rintro ⟨_, h, -⟩
      cases h
  | ok a =>
    constructor
    · intro h
      exact ⟨a, rfl, Except.ok.inj h⟩
    · rintro ⟨_, h, rfl⟩
      obtain rfl := Except.ok.inj h
      rfl

def controlMutationOf (context : WorkflowContext platform) : ControlKind → Option StateMutation
  | .pause => some (.workflowControlled .pause)
  | .resume => some (.workflowControlled .resume)
  | .cancel => some (.workflowControlled .cancel)
  | .adopt => some (.ownerAdopted context.sessionId)
  | .reconcilePlan _ => none

theorem control_owner {kind : ControlKind} {next : AnyRun} (hkind : kind ≠ .adopt)
    (h : reduceWorkflowControl run ⟨kind, context.sessionId, run.owner.epoch⟩ = .ok next) :
    run.owner.sessionId = context.sessionId := by
  by_contra howner
  have hprecheck : precheck run ⟨kind, context.sessionId, run.owner.epoch⟩ = .error .ownerMismatch :=
    if_pos ⟨hkind, howner⟩
  rw [reduceWorkflowControl, hprecheck] at h
  cases h

/-- The events that commands commit, with what they have checked. -/
inductive Issues (context : WorkflowContext platform) : PersistedStateEvent → Prop
  | controlled {id : Uuid} {run next : AnyRun} {kind : ControlKind} {mutation : StateMutation}
      (read : context.readRun id = some run) (mutates : controlMutationOf context kind = some mutation)
      (reduces : reduceWorkflowControl run ⟨kind, context.sessionId, run.owner.epoch⟩ = .ok next) :
      Issues context (context.mutationEvent run mutation none none none)
  | steered {run : AnyRun} {path head : String} {input : SteeringInput}
      (found : context.lookupRun .ulwLoop context.target false = .ok run) (loop : run.workflow = .ulwLoop)
      (file : context.tree.readSteeringInput path = .ok input) (addressed : input.runId = run.runId)
      (git : context.git = .ok head) (bound : input.expectedHead = head) :
      Issues context (context.mutationEvent run (.workflowSteered input.addCriteria input.annotationText) (some head)
        (some run.progressRevision) (some input.idempotencyKey))
  | reconciled {run : AnyRun} {payload : StartWorkPayload} {path head : String} {plan : ContainedPlan}
      (found : context.lookupRun .startWork context.target false = .ok run) (start : run.payload = .startWork payload)
      (file : context.tree.readContainedPlan context.texts path = .ok plan)
      (same : payload.plan.taskFingerprint = plan.normalized.fingerprint) (git : context.git = .ok head) :
      Issues context (context.mutationEvent run (.planReconciled plan.normalized.taskIds
        (some plan.normalized.remainingTaskIds) plan.normalized.fingerprint) (some head) (some run.progressRevision) none)
  | checkpointed {id : Uuid} {checkpoint : CommandContext.Checkpoint} (read : context.readRun id = some checkpoint.run)
      (checked : context.checkpointUlwRun = .ok checkpoint) : Issues context (context.checkpointEvent checkpoint)
  | createdLoop {head objective : String} (git : context.git = .ok head) :
      Issues context (context.creation head (.ulwLoop (createdLoop objective)))
  | createdStart {head path : String} {plan : ContainedPlan} {payload : StartWorkPayload} (git : context.git = .ok head)
      (file : context.tree.readContainedPlan context.texts path = .ok plan)
      (approved : context.planIsApproved plan.hash = true) (plans : payload.plan = {
        planId := context.planId
        canonicalPath := plan.canonicalPath
        displayPath := plan.displayPath
        allowedRoot := context.canonicalRoot.canonicalPath
        allowedRootDisplay := context.canonicalRoot.displayPath
        taskFingerprint := plan.normalized.fingerprint
        taskIds := plan.normalized.taskIds }) :
      Issues context (context.creation head (.startWork payload))

theorem control_commits (h : context.control workflow operation = .ok (.commits event)) :
    ∃ id run next kind mutation, context.readRun id = some run ∧ controlMutationOf context kind = some mutation ∧
      reduceWorkflowControl run ⟨kind, context.sessionId, run.owner.epoch⟩ = .ok next ∧
        event = context.mutationEvent run mutation none none none := by
  unfold WorkflowContext.control at h
  dsimp only at h
  split at h
  · cases h
  rename_i run hlookup
  obtain ⟨id, hread⟩ := lookupRun_read hlookup
  split at h
  · cases h
  rename_i next hreduces
  obtain rfl := Outcome.commits.inj (Except.ok.inj h)
  refine ⟨id, run, next, _, _, hread, ?_, hreduces, rfl⟩
  cases operation <;> rfl

theorem control_issues (h : context.control workflow operation = .ok (.commits event)) : Issues context event := by
  obtain ⟨id, run, next, kind, mutation, hread, hmutates, hreduces, rfl⟩ := control_commits h
  exact .controlled hread hmutates hreduces

theorem createUnless_commits {same : AnyRun → Bool} {payload : Payload}
    (h : context.createUnless workflow same payload = .ok (.commits event)) :
    ∃ head, context.git = .ok head ∧ event = context.creation head payload := by
  have hcreated : ∀ {outcome}, (context.git.map fun head ↦ Outcome.commits (context.creation head payload)) = .ok outcome →
      outcome = .commits event → ∃ head, context.git = .ok head ∧ event = context.creation head payload := by
    intro outcome hmap houtcome
    obtain ⟨head, hgit, rfl⟩ := map_eq_ok.mp hmap
    exact ⟨head, hgit, (Outcome.commits.inj houtcome).symm⟩
  unfold WorkflowContext.createUnless at h
  split at h
  · split at h
    · split at h
      · cases h
      · cases h
    · exact hcreated h rfl
  · split at h
    · cases h
    · exact hcreated h rfl

theorem steerUlwRun_issues (h : context.steerUlwRun = .ok (.commits event)) : Issues context event := by
  unfold WorkflowContext.steerUlwRun at h
  split at h
  · cases h
  rename_i run hlookup
  split at h
  · cases h
  rename_i hloop
  split at h
  · cases h
  rename_i input hfile
  unfold WorkflowContext.steering at h
  dsimp only at h
  split at h
  · cases h
  rename_i haddressed
  split at h
  · cases h
  split at h
  · cases h
  rename_i head hgit
  split at h
  · cases h
  rename_i hbound
  obtain rfl := Outcome.commits.inj (Except.ok.inj h)
  exact .steered hlookup (not_not.mp hloop) hfile (not_not.mp haddressed) hgit (not_not.mp hbound)

theorem reconcileStartWork_issues (h : context.reconcileStartWork = .ok (.commits event)) : Issues context event := by
  unfold WorkflowContext.reconcileStartWork at h
  split at h
  · cases h
  rename_i run hlookup
  split at h
  · cases h
  rename_i payload hpayload
  split at h
  · cases h
  rename_i plan hfile
  unfold WorkflowContext.reconciliation at h
  split at h
  · cases h
  rename_i hsame
  rw [not_or, not_not] at hsame
  obtain ⟨head, hgit, houtcome⟩ := map_eq_ok.mp h
  obtain rfl := Outcome.commits.inj houtcome
  exact .reconciled hlookup hpayload hfile hsame.1 hgit

theorem checkpoint_issues
    (h : context.checkpointUlwRun.map (fun checkpoint ↦ Outcome.commits (context.checkpointEvent checkpoint)) =
      .ok (.commits event)) : Issues context event := by
  obtain ⟨checkpoint, hchecked, houtcome⟩ := map_eq_ok.mp h
  obtain rfl := Outcome.commits.inj houtcome
  obtain ⟨id, hread⟩ := lookupRun_read (checkpointUlwRun_names hchecked).1
  exact .checkpointed hread hchecked

theorem createStartWork_issues (h : context.createStartWork = .ok (.commits event)) : Issues context event := by
  unfold WorkflowContext.createStartWork at h
  split at h
  · cases h
  rename_i plan hfile
  dsimp only at h
  split at h
  · cases h
  rename_i happroved
  obtain ⟨head, hgit, rfl⟩ := createUnless_commits h
  refine .createdStart hgit hfile ?_ rfl
  rw [Bool.not_eq_true', Bool.not_eq_false] at happroved
  exact happroved

theorem showStatus_ne : context.showStatus workflow ≠ .ok (.commits event) := by
  intro h
  obtain ⟨_, -, houtcome⟩ := map_eq_ok.mp h
  cases houtcome

theorem execute_issues (h : context.execute workflow operation = .ok (.commits event)) : Issues context event := by
  have hcreate : context.createUlwRun = .ok (.commits event) → Issues context event := by
    intro hcreate
    obtain ⟨head, hgit, rfl⟩ := createUnless_commits hcreate
    exact .createdLoop hgit
  cases workflow with
  | ulwLoop =>
    cases operation with
    | pause | resume | cancel | adopt => exact control_issues h
    | status => exact absurd h showStatus_ne
    | create => exact hcreate h
    | steer => exact steerUlwRun_issues h
    | _ => exact checkpoint_issues h
  | startWork =>
    cases operation with
    | pause | resume | cancel | adopt => exact control_issues h
    | status => exact absurd h showStatus_ne
    | reconcile => exact reconcileStartWork_issues h
    | _ => exact createStartWork_issues h

end OmpLazy.Commands

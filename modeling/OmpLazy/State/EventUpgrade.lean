import OmpLazy.State.PersistedEvent
import OmpLazy.State.TerminalRuns

namespace OmpLazy.State

open OmpLazy.Workflows

/-! The second version of a run and of an index that a transition reads. -/

def AnyRun.versioned (version : RunVersion) (run : AnyRun) : AnyRun := { run with version }

/-- A run of the first version as the second has it, with no packet and no head. -/
def AnyRun.upgraded (run : AnyRun) : AnyRun :=
  match run.version with
  | .v1 => run.versioned (.v2 none none)
  | .v2 _ _ => run

def ActiveIndex.upgraded (migrationRevision : ℕ) (index : ActiveIndex) : ActiveIndex :=
  { index with version := .v2 migrationRevision }

def PreparedTransition.upgraded (migrationRevision : ℕ) (prepared : PreparedTransition) :
    PreparedTransition :=
  ⟨prepared.run.upgraded, prepared.index.upgraded migrationRevision⟩

section Runs

variable {run next : AnyRun} {version : RunVersion}

theorem AnyRun.upgraded_v1 (h : run.version = .v1) : run.upgraded = run.versioned (.v2 none none) := by
  rw [AnyRun.upgraded, h]

@[simp] theorem AnyRun.workflow_versioned : (run.versioned version).workflow = run.workflow := rfl

@[simp] theorem AnyRun.status_versioned : (run.versioned version).status = run.status := rfl

/-- The upgrade changes nothing but the version. -/
theorem AnyRun.upgraded_versioned (run : AnyRun) : ∃ version, run.upgraded = run.versioned version := by
  unfold AnyRun.upgraded
  split
  · exact ⟨_, rfl⟩
  · exact ⟨run.version, rfl⟩

@[simp] theorem AnyRun.runId_upgraded (run : AnyRun) : run.upgraded.runId = run.runId := by
  obtain ⟨_, h⟩ := run.upgraded_versioned
  rw [h]
  rfl

@[simp] theorem AnyRun.workflow_upgraded (run : AnyRun) : run.upgraded.workflow = run.workflow := by
  obtain ⟨_, h⟩ := run.upgraded_versioned
  rw [h]
  rfl

theorem AnyRun.upgraded_stamped (run : AnyRun) (sequence : ℕ) :
    (run.stamped sequence).upgraded = run.upgraded.stamped sequence := by
  simp only [AnyRun.upgraded, AnyRun.stamped]
  split <;> rfl

theorem deriveIndex_upgraded (migrationRevision : ℕ) (index : ActiveIndex) (run : AnyRun) (sequence : ℕ) :
    deriveIndex (index.upgraded migrationRevision) run.upgraded sequence =
      (deriveIndex index run sequence).upgraded migrationRevision := by
  obtain ⟨_, h⟩ := run.upgraded_versioned
  rw [h]
  rfl

end Runs

/-! No reducer reads the version of a run. -/

section Reducers

variable {run next : AnyRun} {version : RunVersion}

theorem reduceShared_versioned (run : AnyRun) (version : RunVersion) (command : ControlCommand) :
    reduceShared (run.versioned version) command =
      (reduceShared run command).map (AnyRun.versioned version) := by
  unfold reduceShared
  cases command.kind with
  | reconcilePlan plan => rfl
  | _ =>
    simp only [apply_ite (Except.map (AnyRun.versioned version))]
    rfl

theorem reduceWorkflowControl_versioned (run : AnyRun) (version : RunVersion) (command : ControlCommand) :
    reduceWorkflowControl (run.versioned version) command =
      (reduceWorkflowControl run command).map (AnyRun.versioned version) := by
  have hprecheck : precheck (run.versioned version) command = precheck run command := rfl
  have hpayload : (run.versioned version).payload = run.payload := rfl
  simp only [reduceWorkflowControl, hprecheck, hpayload]
  cases precheck run command with
  | error code => rfl
  | ok _ =>
    cases run.payload with
    | ulwLoop payload => exact reduceShared_versioned run version command
    | startWork payload =>
      simp only [bind, Except.bind, reduceStart]
      cases command.kind with
      | reconcilePlan plan =>
        dsimp only
        split_ifs <;> rfl
      | _ => exact reduceShared_versioned run version command

theorem steerRun_versioned (run : AnyRun) (version : RunVersion) (criteria : List SteeredCriterion)
    (annotationText : Option String) :
    steerRun (run.versioned version) criteria annotationText =
      (steerRun run criteria annotationText).map (AnyRun.versioned version) := by
  have hpayload : (run.versioned version).payload = run.payload := rfl
  simp only [steerRun, hpayload]
  cases run.payload with
  | startWork payload => rfl
  | ulwLoop payload =>
    dsimp only
    cases payload.activeGoalId with
    | none => rfl
    | some activeGoalId =>
      simp only [apply_ite (Option.map (AnyRun.versioned version))]
      rfl

theorem startGoalCycle_versioned (run : AnyRun) (version : RunVersion) (payload : UlwLoopPayload)
    (goalId : String) : startGoalCycle (run.versioned version) payload goalId =
      (startGoalCycle run payload goalId).map (AnyRun.versioned version) := by
  simp only [startGoalCycle]
  split
  · rfl
  · split_ifs <;> rfl

theorem recordCriterionFailure_versioned (run : AnyRun) (version : RunVersion) (payload : UlwLoopPayload)
    (goalId criterionId fingerprint : String) :
    recordCriterionFailure (run.versioned version) payload goalId criterionId fingerprint =
      (recordCriterionFailure run payload goalId criterionId fingerprint).map (AnyRun.versioned version) := by
  simp only [recordCriterionFailure]
  split
  · rfl
  · split
    · rfl
    · split_ifs <;> rfl

theorem attemptContinuation_versioned (run : AnyRun) (version : RunVersion) (leafId : String)
    (progressRevision : ℕ) : attemptContinuation (run.versioned version) leafId progressRevision =
      (attemptContinuation run leafId progressRevision).map (AnyRun.versioned version) := by
  simp only [attemptContinuation, apply_ite (Option.map (AnyRun.versioned version))]
  rfl

theorem stopContinuation_versioned (run : AnyRun) (version : RunVersion) (leafId : String) :
    stopContinuation (run.versioned version) leafId =
      (stopContinuation run leafId).map (AnyRun.versioned version) := by
  simp only [stopContinuation, apply_ite (Option.map (AnyRun.versioned version))]
  rfl

/-- A version 1 event binds no receipt. -/
theorem reduceRuntimeProgress_v1 {event : PersistedStateEvent} {authority : Option ReceiptAuthority}
    (hversion : event.version = .v1) (hbound : event.mutation.kind ∈
      [.criterionSettled, .taskEvidenceAccepted, .workflowTerminal]) :
    reduceRuntimeProgress run event authority = none := by
  have hbinding : receiptBinding event authority = none := by rw [receiptBinding, hversion]
  rw [reduceRuntimeProgress]
  cases hmutation : event.mutation with
  | criterionSettled settlement =>
    simp only [settleCriterion, PersistedStateEvent.legacyUnbound, hversion]
    split <;> rfl
  | taskEvidenceAccepted taskId acceptanceId =>
    simp only [acceptTaskEvidence, hbinding]
    split <;> rfl
  | workflowTerminal status acceptanceIds taskId => simp only [terminalRun, hbinding]; rfl
  | _ => simp [hmutation, StateMutation.kind] at hbound

theorem not_receipt_of_v1 {event : PersistedStateEvent} {authority : Option ReceiptAuthority}
    (hversion : event.version = .v1) (h : controlMutation run event authority = some next) :
    event.mutation.kind ∉ [.criterionSettled, .taskEvidenceAccepted, .workflowTerminal] := by
  intro hkind
  have hnone : reduceRuntimeProgress run event authority = none := reduceRuntimeProgress_v1 hversion hkind
  cases hm : event.mutation with
  | criterionSettled _ | taskEvidenceAccepted _ _ | workflowTerminal _ _ _ =>
    rw [controlMutation, hm] at h
    cases h.symm.trans hnone
  | _ => simp [hm, StateMutation.kind] at hkind

/-- What a version 1 event does to a run, an event of any version with its mutation does to the run in
any version. -/
theorem controlMutation_versioned {event event' : PersistedStateEvent}
    {authority authority' : Option ReceiptAuthority} (hversion : event.version = .v1)
    (hmutation : event'.mutation = event.mutation)
    (h : controlMutation run event authority = some next) :
    controlMutation (run.versioned version) event' authority' = some (next.versioned version) := by
  have hpayload : (run.versioned version).payload = run.payload := rfl
  have howner : (run.versioned version).owner = run.owner := rfl
  have hreceipts := not_receipt_of_v1 hversion h
  cases hm : event.mutation with
  | runCreated run => simp [controlMutation, hm] at h
  | workflowControlled control =>
    simp only [controlMutation, hm, hmutation, howner, reduceWorkflowControl_versioned] at h ⊢
    rw [toOption_eq_some] at h ⊢
    rw [h]
    rfl
  | ownerAdopted sessionId =>
    simp only [controlMutation, hm, hmutation, howner, reduceWorkflowControl_versioned] at h ⊢
    rw [toOption_eq_some] at h ⊢
    rw [h]
    rfl
  | planReconciled taskIds remaining fingerprint =>
    simp only [controlMutation, hm, hmutation, hpayload, howner, reduceWorkflowControl_versioned] at h ⊢
    cases hrun : run.payload with
    | ulwLoop payload => simp [hrun] at h
    | startWork payload =>
      simp only [hrun] at h ⊢
      rw [toOption_eq_some] at h ⊢
      rw [h]
      rfl
  | workflowSteered criteria annotationText =>
    simp only [controlMutation, hm, hmutation, steerRun_versioned] at h ⊢
    rw [h]
    rfl
  | criterionSettled _ | taskEvidenceAccepted _ _ | workflowTerminal _ _ _ =>
    exact absurd (by simp [hm, StateMutation.kind]) hreceipts
  | continuationAttempted leafId progressRevision =>
    simp only [controlMutation, reduceRuntimeProgress, hm, hmutation, attemptContinuation_versioned] at h ⊢
    rw [h]
    rfl
  | continuationStuck leafId =>
    simp only [controlMutation, reduceRuntimeProgress, hm, hmutation, stopContinuation_versioned] at h ⊢
    rw [h]
    rfl
  | goalCycleStarted goalId =>
    simp only [controlMutation, hm, hmutation, hpayload] at h ⊢
    cases hrun : run.payload with
    | startWork payload => simp [hrun] at h
    | ulwLoop payload =>
      simp only [hrun, startGoalCycle_versioned] at h ⊢
      rw [toOption_eq_some] at h ⊢
      rw [h]
      rfl
  | criterionFailureRecorded goalId criterionId fingerprint =>
    simp only [controlMutation, hm, hmutation, hpayload] at h ⊢
    cases hrun : run.payload with
    | startWork payload => simp [hrun] at h
    | ulwLoop payload =>
      simp only [hrun, recordCriterionFailure_versioned] at h ⊢
      rw [toOption_eq_some] at h ⊢
      rw [h]
      rfl

theorem controlRun_bound {event : PersistedStateEvent} {authority : Option ReceiptAuthority}
    (h : event.legacyUnbound = false) : controlRun run event authority = controlMutation run event authority := by
  rw [controlRun, if_neg]
  rintro ⟨hlegacy, -⟩
  rw [h] at hlegacy
  cases hlegacy

end Reducers

section Transitions

variable {index : ActiveIndex} {current : Option AnyRun} {run next : AnyRun} {event : PersistedStateEvent}
  {authority : Option ReceiptAuthority} {prepared : PreparedTransition} {migrationRevision : ℕ}

/-- The result of a transition of the run `next`. -/
def PersistedStateEvent.publishes (event : PersistedStateEvent) (index : ActiveIndex) (next : AnyRun) :
    PreparedTransition :=
  ⟨next.stamped event.sequence, deriveIndex index (next.stamped event.sequence) event.sequence⟩

theorem PersistedStateEvent.publishes_upgraded (event : PersistedStateEvent) (index : ActiveIndex)
    (next : AnyRun) : event.publishes (index.upgraded migrationRevision) next.upgraded =
      (event.publishes index next).upgraded migrationRevision := by
  simp only [publishes, PreparedTransition.upgraded, AnyRun.upgraded_stamped, ← deriveIndex_upgraded]

theorem Addressed.publishes (h : Addressed index run event) (hkind : event.mutation.kind ≠ .runCreated)
    (hcontrol : controlRun run event authority = some next) :
    prepareTransition index (some run) event authority = .ok (event.publishes index next) := by
  have hsame := (controlRun_cases hcontrol).sameIdentity
  have hnext := nextRun_control hkind h.runRevision h.ownerSessionId h.ownerEpoch h.head h.scope hcontrol
  exact prepareTransition_eq_ok.mpr ⟨h.indexRevision, h.sequence, next, hnext,
    hsame.runId.trans h.runId, hsame.workflow.trans h.workflow, rfl⟩

/-- A transition creates the run that its event carries or controls the one that the event addresses. -/
theorem prepareTransition_cases (h : prepareTransition index current event authority = .ok prepared) :
    (∃ created, event.mutation = .runCreated created ∧ current = none ∧
      prepared = event.publishes index created) ∨
      ∃ run next, current = some run ∧ event.mutation.kind ≠ .runCreated ∧ Addressed index run event ∧
        controlRun run event authority = some next ∧ prepared = event.publishes index next := by
  obtain ⟨hindex, hsequence, next, hnext, hid, hworkflow, rfl⟩ := prepareTransition_eq_ok.mp h
  obtain ⟨hcreated, hnone, -⟩ | ⟨run, hrun, hkind, hrevision, hsession, hepoch, hhead, hscope, hcontrol⟩ :=
    nextRun_cases hnext
  · exact .inl ⟨next, hcreated, hnone, rfl⟩
  · have hsame := (controlRun_cases hcontrol).sameIdentity
    exact .inr ⟨run, next, hrun, hkind, ⟨hindex, hsequence, hrevision, hsession, hepoch, hhead, hscope,
      hsame.runId ▸ hid, hsame.workflow ▸ hworkflow⟩, hcontrol, rfl⟩

/-- The event of the second version that binds no head. -/
def PersistedStateEvent.unbound (event : PersistedStateEvent) (generation : Option ℕ) (legacy : Bool) :
    PersistedStateEvent := { event with version := .v2 none generation legacy }

/-- Where an event may act on a run, its second version may act on the run in any version if it binds a
generation exactly where its kind asks for one. -/
theorem Addressed.unbound (h : Addressed index run event) {index' : ActiveIndex}
    (hrevision : index'.revision = index.revision) {generation : Option ℕ} (legacy : Bool)
    (version : RunVersion) (hscope : State.taskScoped event.kind = generation.isSome) :
    Addressed index' (run.versioned version) (event.unbound generation legacy) where
  indexRevision := hrevision ▸ h.indexRevision
  sequence := hrevision ▸ h.sequence
  runRevision := h.runRevision
  ownerSessionId := h.ownerSessionId
  ownerEpoch := h.ownerEpoch
  head := rfl
  scope := bne_eq_false_iff_eq.mpr hscope
  runId := h.runId
  workflow := h.workflow

theorem Addressed.taskScoped {generation : Option ℕ} {legacy : Bool}
    (h : Addressed index run (event.unbound generation legacy)) :
    State.taskScoped event.kind = generation.isSome :=
  bne_eq_false_iff_eq.mp h.scope

end Transitions

section Upgrade

variable {index : ActiveIndex} {current : Option AnyRun} {event : EventObject}
  {authority : Option ReceiptAuthority} {prepared : PreparedTransition} {migrationRevision : ℕ}

/-- The upgrade binds a generation in all the kinds that a transition binds one in, but for steering. -/
theorem upgradedGeneration_isSome (kind : MutationKind) :
    taskScoped kind = (upgradedGeneration kind).isSome ↔ kind ≠ .workflowSteered := by
  cases kind <;> decide

theorem upgradedMutation_of_ne {mutation : StateMutation} (h : mutation.kind ≠ .runCreated) :
    upgradedMutation mutation = mutation := by
  cases mutation <;> first | rfl | exact absurd rfl h

theorem upgradedMutation_created (created : AnyRun) :
    upgradedMutation (.runCreated created) = .runCreated created.upgraded := by
  cases hversion : created.version with
  | v1 =>
    simp only [upgradedMutation, AnyRun.upgraded, hversion]
    rfl
  | v2 _ _ => simp only [upgradedMutation, AnyRun.upgraded, hversion]

theorem persistedEventForIndex_v1 (hevent : event.value.version = .v1) :
    (persistedEventForIndex (index.upgraded migrationRevision) event).value =
      { event.value with
        version := .v2 none (upgradedGeneration event.value.kind) false
        mutation := upgradedMutation event.value.mutation } := by
  simp only [persistedEventForIndex, ActiveIndex.upgraded, hevent]

/-- A version 1 transition carried out in the second version: the upgraded event is accepted and gives
the upgraded result unless it steers a run. -/
theorem upgrade_simulates_iff (hcurrent : ∀ run ∈ current, run.version = .v1)
    (hevent : event.value.version = .v1)
    (h : prepareTransition index current event.value authority = .ok prepared) :
    prepareTransition (index.upgraded migrationRevision) (current.map AnyRun.upgraded)
        (persistedEventForIndex (index.upgraded migrationRevision) event).value authority =
      .ok (prepared.upgraded migrationRevision) ↔
    (event.value.kind = .workflowSteered → event.value.mutation.kind = .runCreated) := by
  rw [persistedEventForIndex_v1 hevent]
  obtain ⟨created, hcreated, rfl, rfl⟩ | ⟨run, next, rfl, hkind, haddressed, hcontrol, rfl⟩ :=
    prepareTransition_cases h
  · obtain ⟨hindex, hsequence, next, hnext, hid, hworkflow, -⟩ := prepareTransition_eq_ok.mp h
    obtain ⟨hmutation, -, hrevision, hsession, hepoch⟩ | ⟨_, hnone, -⟩ := nextRun_cases hnext
    · obtain rfl := StateMutation.runCreated.inj (hcreated.symm.trans hmutation)
      rw [hcreated, upgradedMutation_created, ← PersistedStateEvent.publishes_upgraded]
      refine iff_of_true (prepareTransition_eq_ok.mpr ⟨hindex, hsequence, created.upgraded, ?_, ?_, ?_, rfl⟩)
        fun _ ↦ rfl
      · simp [nextRun, hrevision, hsession, hepoch]
      · rw [AnyRun.runId_upgraded, hid]
      · rw [AnyRun.workflow_upgraded, hworkflow]
    · cases hnone
  · rw [upgradedMutation_of_ne hkind, Option.map_some, AnyRun.upgraded_v1 (hcurrent run rfl)]
    change prepareTransition _ _ (event.value.unbound (upgradedGeneration event.value.kind) false) _ = _ ↔ _
    constructor
    · intro hprepared hsteered
      have hkind' : (event.value.unbound (upgradedGeneration event.value.kind) false).mutation.kind ≠
          .runCreated := hkind
      obtain ⟨haddressed', -⟩ := (prepareTransition_isOk_iff hkind').mp ⟨_, hprepared⟩
      exact absurd hsteered ((upgradedGeneration_isSome _).mp haddressed'.taskScoped)
    · intro hsteered
      have hscope := (upgradedGeneration_isSome _).mpr fun hs ↦ hkind (hsteered hs)
      have hnext : next.version = .v1 := (controlRun_cases hcontrol).sameIdentity.version.trans
        (hcurrent run rfl)
      rw [← PersistedStateEvent.publishes_upgraded, AnyRun.upgraded_v1 hnext]
      rw [controlRun_bound (by rw [PersistedStateEvent.legacyUnbound, hevent])] at hcontrol
      have hrevision : (index.upgraded migrationRevision).revision = index.revision := rfl
      refine (haddressed.unbound hrevision false _ hscope).publishes hkind ?_
      rw [controlRun_bound rfl]
      exact controlMutation_versioned hevent rfl hcontrol

end Upgrade

/-! A store of the first version. -/

namespace Sample

def legacyRun : AnyRun := run.versioned .v1

def legacyIndex : ActiveIndex := { index with version := .v1 }

def legacyEvent (mutation : StateMutation) : PersistedStateEvent :=
  { event none mutation with version := .v1 }

end Sample

theorem upgrade_simulates_paused :
    ∃ prepared, prepareTransition Sample.legacyIndex (some Sample.legacyRun)
        (Sample.legacyEvent (.workflowControlled .pause)) none = .ok prepared ∧
      (prepareTransition (Sample.legacyIndex.upgraded 1) (some Sample.legacyRun.upgraded)
          (persistedEventForIndex (Sample.legacyIndex.upgraded 1)
            (.ofValue (Sample.legacyEvent (.workflowControlled .pause)))).value none =
          .ok (prepared.upgraded 1) ↔
        (MutationKind.workflowControlled = .workflowSteered → MutationKind.workflowControlled = .runCreated)) := by
  obtain ⟨prepared, h⟩ : ∃ prepared, prepareTransition Sample.legacyIndex (some Sample.legacyRun)
      (Sample.legacyEvent (.workflowControlled .pause)) none = .ok prepared := ⟨_, rfl⟩
  have hrun : ∀ run ∈ some Sample.legacyRun, run.version = .v1 := by
    rintro run ⟨⟩
    rfl
  exact ⟨prepared, h, upgrade_simulates_iff hrun rfl h⟩

/-- Steering is accepted in the first version and refused in the second. -/
theorem upgraded_steering_refused :
    (∃ prepared, prepareTransition Sample.legacyIndex (some Sample.legacyRun)
      (Sample.legacyEvent (.workflowSteered [Sample.steered "new"] none)) none = .ok prepared) ∧
      prepareTransition (Sample.legacyIndex.upgraded 1) (some Sample.legacyRun.upgraded)
        (persistedEventForIndex (Sample.legacyIndex.upgraded 1)
          (.ofValue (Sample.legacyEvent (.workflowSteered [Sample.steered "new"] none)))).value none =
        .error .taskScopeMismatch :=
  ⟨⟨_, rfl⟩, rfl⟩

end OmpLazy.State

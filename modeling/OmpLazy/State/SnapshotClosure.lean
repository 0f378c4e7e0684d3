import OmpLazy.State.PayloadLaws

namespace OmpLazy.State

open OmpLazy.Foundation OmpLazy.Foundation.Schema OmpLazy.Foundation.Text OmpLazy.Workflows

namespace Payload

theorem ok_withStatus {payload : Payload} (hok : payload.Ok) (start : RunStatus) (ulw : UlwLoopStatus) :
    (payload.withStatus start ulw).Ok := by
  cases payload with
  | startWork payload => exact hok
  | ulwLoop payload =>
    obtain ⟨hfields, hrefined⟩ := hok
    exact ⟨⟨hfields.objective, hfields.annotationText, hfields.activeGoalId, hfields.goals⟩,
      ⟨hrefined.goalIds, hrefined.criterionIds, hrefined.activeGoal⟩⟩

end Payload

theorem Plan.ok_reconciled {plan : Plan} (hok : plan.Ok) {taskIds : List String}
    {taskFingerprint : String} (htasks : UniqueStrings taskIds)
    (hfingerprint : isLowerHexOf 64 taskFingerprint = true) :
    Plan.Ok { plan with taskIds, taskFingerprint } :=
  ⟨hok.planId, hok.canonicalPath, hok.displayPath, hok.allowedRoot, hok.allowedRootDisplay,
    hfingerprint, htasks⟩

theorem Continuation.ok_reset {run : AnyRun} (hok : run.Ok) : (resetContinuation run).Ok :=
  ⟨hok.continuation.lastProcessedLeafId, hok.progressRevision, Nat.zero_le _⟩

theorem id_failedCriterion (fingerprint : String) (repeated : Bool) (criterion : Criterion) :
    (failedCriterion fingerprint repeated criterion).id = criterion.id := rfl

namespace UlwLoopPayload.Ok

variable {payload : UlwLoopPayload}

theorem cycled (hok : payload.Ok) {goalId : String} {goal : Goal}
    (hgoal : payload.goals.find? (·.id = goalId) = some goal) (hcycles : goal.cycleCount < 5) :
    UlwLoopPayload.Ok { payload with goals := updateGoal goalId cycledGoal payload.goals } := by
  refine hok.update (fun _ ↦ rfl) (fun _ ↦ rfl) (fun _ _ _ ↦ rfl) fun candidate hmem hid ↦ ?_
  have hfound : goal.id = goalId := by simpa using List.find?_some hgoal
  obtain rfl : candidate = goal :=
    hok.goal_unique hmem (List.mem_of_find?_eq_some hgoal) (hid.trans hfound.symm)
  have hcandidate := hok.fields.goals candidate hmem
  refine ⟨hcandidate.id, ⟨?_, hcycles⟩, hcandidate.criteria, hcandidate.criterionIds⟩
  exact le_trans hcycles (by decide)

theorem failureRecorded (hok : payload.Ok) {goalId criterionId fingerprint : String} {goal : Goal}
    {criterion : Criterion} (hfingerprint : trim fingerprint ≠ "")
    (hgoal : payload.goals.find? (·.id = goalId) = some goal)
    (hcriterion : goal.criteria.find? (·.id = criterionId) = some criterion)
    (hlimit : ¬ (criterion.identicalFailureFingerprint = some fingerprint ∧
      3 ≤ criterion.identicalFailureCount)) :
    UlwLoopPayload.Ok { payload with
      goals := failedGoals goalId criterionId fingerprint
        (criterion.identicalFailureFingerprint = some fingerprint) goal payload.goals } := by
  have hfound : goal.id = goalId := by simpa using List.find?_some hgoal
  have hfoundCriterion : criterion.id = criterionId := by simpa using List.find?_some hcriterion
  have hgoalMem := List.mem_of_find?_eq_some hgoal
  have hunique : ∀ candidate ∈ payload.goals, candidate.id = goalId → candidate = goal :=
    fun candidate hmem hid ↦ hok.goal_unique hmem hgoalMem (hid.trans hfound.symm)
  refine hok.update (fun _ ↦ rfl) (fun _ ↦ rfl) (fun candidate hmem hid ↦ ?_)
    fun candidate hmem hid ↦ ?_
  · obtain rfl := hunique candidate hmem hid
    exact map_id_updateCriterion criterionId (id_failedCriterion _ _) candidate.criteria
  · obtain rfl := hunique candidate hmem hid
    have hcandidate := hok.fields.goals candidate hmem
    refine hcandidate.update (id_failedCriterion _ _) candidate.status fun item hitem hitemId ↦ ?_
    obtain rfl : item = criterion := hcandidate.criterion_unique hitem
      (List.mem_of_find?_eq_some hcriterion) (hitemId.trans hfoundCriterion.symm)
    have hitem := hcandidate.criteria item hitem
    have hcount : (failedCriterion fingerprint
        (item.identicalFailureFingerprint = some fingerprint) item).identicalFailureCount ≤ 3 := by
      by_cases hrepeated : item.identicalFailureFingerprint = some fingerprint
      · have h : ¬ 3 ≤ item.identicalFailureCount := fun h ↦ hlimit ⟨hrepeated, h⟩
        simp only [failedCriterion, hrepeated, decide_true, if_true]
        omega
      · simp [failedCriterion, hrepeated]
    exact ⟨hitem.id, hitem.scenario, hitem.observable, hitem.evidenceLogicalId,
      by simpa [failedCriterion] using hfingerprint, ⟨hcount.trans (by decide), hcount⟩, hitem.evidenceRef,
      hitem.captureRevision, hitem.captureCommit⟩

end UlwLoopPayload.Ok

/-- The values that the schema accepts. -/
def AnyRun.Accepted (run : AnyRun) : Prop := (runSchema (encodeRun run)).isSome = true

instance (run : AnyRun) : Decidable run.Accepted := inferInstanceAs (Decidable (_ = true))

def PersistedStateEvent.Accepted (event : PersistedStateEvent) : Prop :=
  (eventSchema (encodeEvent event)).isSome = true

instance (event : PersistedStateEvent) : Decidable event.Accepted :=
  inferInstanceAs (Decidable (_ = true))

theorem AnyRun.accepted_iff {run : AnyRun} : run.Accepted ↔ run.Ok := AnyRun.reads.isSome_iff run

theorem PersistedStateEvent.accepted_iff {event : PersistedStateEvent} : event.Accepted ↔ event.Ok :=
  PersistedStateEvent.reads.isSome_iff event

namespace PersistedStateEvent

/-- A legacy event that leaves the run as it is. -/
def legacyNoop (event : PersistedStateEvent) : Bool :=
  event.legacyUnbound &&
    event.mutation.kind ∈ [.goalCycleStarted, .criterionFailureRecorded, .criterionSettled]

end PersistedStateEvent

/-- The transition keeps the snapshot readable: the counters it increments stay safe integers, the
criteria it adds are new, and the goal it completes leaves the active goal consistent. -/
def KeepsRun (run : AnyRun) (mutation : StateMutation) : Prop :=
  run.revision + 1 ≤ maxSafeInteger ∧
    match mutation with
    | .ownerAdopted _ => run.owner.epoch + 1 ≤ maxSafeInteger
    | .workflowSteered criteria _ =>
        ∀ payload, run.payload = .ulwLoop payload → payload.SteersCleanly criteria
    | .criterionSettled settlement => run.progressRevision + 1 ≤ maxSafeInteger ∧
        ∀ payload, run.payload = .ulwLoop payload → payload.SettlesCleanly settlement
    | .taskEvidenceAccepted .. | .workflowTerminal .completed .. =>
        run.progressRevision + 1 ≤ maxSafeInteger
    | .continuationAttempted .. => run.continuation.progressRevisionSeen = run.progressRevision →
        run.continuation.noProgressAttempts + 1 ≤ maxSafeInteger
    | _ => True

def KeepsSnapshot (current : Option AnyRun) (event : PersistedStateEvent) : Prop :=
  ∀ run ∈ current, event.legacyNoop = false → KeepsRun run event.mutation

/-- Of a run that keeps its identity, a transition can only spoil what it rewrites. -/
theorem AnyRun.Ok.stamped_iff {run next : AnyRun} (hrun : run.Ok) {sequence : ℕ}
    (hsequence : sequence ≤ maxSafeInteger) (hsame : SameIdentity run next) :
    (next.stamped sequence).Ok ↔ next.revision ≤ maxSafeInteger ∧ next.owner.Ok ∧
      next.progressRevision ≤ maxSafeInteger ∧ next.continuation.Ok ∧ next.payload.Ok := by
  rw [AnyRun.ok_iff]
  simp only [AnyRun.stamped, hsame.version, hsame.runId, hsame.createdAt, hsame.updatedAt, hrun.version, hrun.runId,
    hrun.createdAt, hrun.updatedAt, hsequence, true_and]

theorem controlled_ok_iff {run next : AnyRun} {event : PersistedStateEvent}
    {authority : Option ReceiptAuthority} (hrun : run.Ok) (hevent : event.Ok)
    (h : Controlled run event authority next) :
    (next.stamped event.sequence).Ok ↔ (event.legacyNoop = false → KeepsRun run event.mutation) := by
  have hsequence := hevent.fields.sequence
  have hmutation := hevent.fields.mutation.1
  rw [hrun.stamped_iff hsequence h.sameIdentity]
  cases h with
  | unchanged hlegacy hkind =>
    have hnoop : event.legacyNoop = true := by
      simpa [PersistedStateEvent.legacyNoop, hlegacy] using hkind
    rw [hnoop]
    simp [hrun.revision, hrun.owner, hrun.progressRevision, hrun.continuation, hrun.payload]
  | paused hm _ =>
    rw [PersistedStateEvent.legacyNoop, hm]
    simp [StateMutation.kind, KeepsRun, hrun.owner, hrun.progressRevision, hrun.continuation,
      Payload.ok_withStatus hrun.payload]
  | cancelled hm _ =>
    rw [PersistedStateEvent.legacyNoop, hm]
    simp [StateMutation.kind, KeepsRun, hrun.owner, hrun.progressRevision, hrun.continuation,
      Payload.ok_withStatus hrun.payload]
  | resumed hm _ =>
    rw [PersistedStateEvent.legacyNoop, hm]
    simp [StateMutation.kind, KeepsRun, hrun.owner, hrun.progressRevision,
      Continuation.ok_reset hrun, Payload.ok_withStatus hrun.payload]
  | adopted sessionId hm _ =>
    rw [hm] at hmutation
    rw [PersistedStateEvent.legacyNoop, hm]
    have hsession : trim sessionId ≠ "" := hmutation
    simp [StateMutation.kind, KeepsRun, Owner.ok_iff, hsession, hrun.progressRevision,
      Continuation.ok_reset hrun, Payload.ok_withStatus hrun.payload]
  | reconciled taskIds remaining fingerprint payload hm hpayload _ =>
    rw [hm] at hmutation
    have hplan : payload.plan.Ok := by
      have h := hrun.payload
      rwa [hpayload] at h
    have hok := Plan.ok_reconciled hplan hmutation.1 hmutation.2.2
    rw [PersistedStateEvent.legacyNoop, hm]
    simp [StateMutation.kind, KeepsRun, hrun.owner, hrun.progressRevision, hrun.continuation,
      Payload.Ok, hok]
  | steered criteria annotationText payload activeGoalId hm hpayload hactive _ =>
    rw [hm] at hmutation
    have hok : payload.Ok := by
      have h := hrun.payload
      rwa [hpayload] at h
    have hsteered := UlwLoopPayload.ok_steered_iff hok hactive hmutation.1.1 hmutation.2
    rw [PersistedStateEvent.legacyNoop, hm]
    simp [StateMutation.kind, KeepsRun, hrun.owner, hrun.progressRevision, hrun.continuation,
      Payload.Ok, hsteered, hpayload]
  | settled settlement payload hm hlegacy hpayload _ =>
    rw [hm] at hmutation
    have hok : payload.Ok := by
      have h := hrun.payload
      rwa [hpayload] at h
    have hsettled := UlwLoopPayload.ok_settled_iff hok hmutation
    rw [PersistedStateEvent.legacyNoop, hm, hlegacy]
    simp [KeepsRun, hrun.owner, hrun.continuation, Payload.Ok, hsettled, hpayload]
  | evidenceAccepted taskId acceptanceId hm =>
    rw [PersistedStateEvent.legacyNoop, hm]
    simp [StateMutation.kind, KeepsRun, hrun.owner, hrun.continuation, hrun.payload]
  | failed acceptanceIds taskId hm =>
    rw [PersistedStateEvent.legacyNoop, hm]
    simp [StateMutation.kind, KeepsRun, setRunStatus, hrun.owner, hrun.progressRevision,
      hrun.continuation, Payload.ok_withStatus hrun.payload]
  | completed acceptanceIds taskId payload hm hpayload =>
    have hplan : payload.plan.Ok := by
      have h := hrun.payload
      rwa [hpayload] at h
    rw [PersistedStateEvent.legacyNoop, hm]
    simp [StateMutation.kind, KeepsRun, hrun.owner, hrun.continuation, Payload.Ok, hplan]
  | attempted leafId progressRevision hm =>
    rw [hm] at hmutation
    have hleaf : trim leafId ≠ "" := hmutation.1
    rw [PersistedStateEvent.legacyNoop, hm]
    by_cases hseen : run.continuation.progressRevisionSeen = run.progressRevision
    · simp [StateMutation.kind, KeepsRun, Continuation.ok_iff, hrun.owner, hrun.progressRevision,
        hrun.payload, hleaf, hseen]
    · have hone : 1 ≤ maxSafeInteger := by decide
      simp [StateMutation.kind, KeepsRun, Continuation.ok_iff, hrun.owner, hrun.progressRevision,
        hrun.payload, hleaf, hseen, hone]
  | stopped leafId hm =>
    rw [hm] at hmutation
    have hleaf : trim leafId ≠ "" := hmutation
    rw [PersistedStateEvent.legacyNoop, hm]
    simp [StateMutation.kind, KeepsRun, setRunStatus, Continuation.ok_iff, hrun.owner,
      hrun.progressRevision, hleaf, hrun.continuation.progressRevisionSeen,
      hrun.continuation.noProgressAttempts, Payload.ok_withStatus hrun.payload]
  | cycled goalId payload goal hm hlegacy hpayload hgoal hcycles =>
    have hok : payload.Ok := by
      have h := hrun.payload
      rwa [hpayload] at h
    rw [PersistedStateEvent.legacyNoop, hm, hlegacy]
    simp [KeepsRun, hrun.owner, hrun.progressRevision, hrun.continuation, Payload.Ok,
      hok.cycled hgoal hcycles]
  | failureRecorded goalId criterionId fingerprint payload goal criterion hm hlegacy hpayload hgoal
      hcriterion hlimit =>
    rw [hm] at hmutation
    have hok : payload.Ok := by
      have h := hrun.payload
      rwa [hpayload] at h
    rw [PersistedStateEvent.legacyNoop, hm, hlegacy]
    simp [KeepsRun, hrun.owner, hrun.progressRevision, hrun.continuation, Payload.Ok,
      hok.failureRecorded hmutation.2.2 hgoal hcriterion hlimit]

/-- The run whose payload a transition starts from. -/
def sourceRun (current : Option AnyRun) (event : PersistedStateEvent) : Option AnyRun :=
  match event.mutation with
  | .runCreated run => some run
  | _ => current

section Closure

variable {index : ActiveIndex} {current : Option AnyRun} {event : PersistedStateEvent}
  {authority : Option ReceiptAuthority} {prepared : PreparedTransition}

theorem prepared_ok_iff (hcurrent : ∀ run ∈ current, run.Ok) (hevent : event.Ok)
    (h : prepareTransition index current event authority = .ok prepared) :
    prepared.run.Ok ↔ KeepsSnapshot current event := by
  obtain ⟨-, -, next, hnext, -, -, rfl⟩ := prepareTransition_eq_ok.mp h
  obtain ⟨hcreated, rfl, -⟩ | ⟨run, rfl, -, -, -, -, -, -, hcontrol⟩ := nextRun_cases hnext
  · have hmutation := hevent.fields.mutation.1
    rw [hcreated] at hmutation
    have hrun : next.Ok := hmutation
    have hok : (next.stamped event.sequence).Ok :=
      { hrun with transactionRevision := hevent.fields.sequence }
    simp [hok, KeepsSnapshot]
  · rw [controlled_ok_iff (hcurrent run rfl) hevent (controlRun_cases hcontrol)]
    simp [KeepsSnapshot]

theorem planContained_controlled {root : StateRoot} {run next : AnyRun} {sequence : ℕ}
    (h : Controlled run event authority next) :
    planContained root (next.stamped sequence).tidy = planContained root run.tidy := by
  cases h <;> cases hpayload : run.payload <;>
    simp_all [planContained, AnyRun.stamped, AnyRun.tidy, Payload.tidy, StartWorkPayload.tidy, Plan.tidy,
      Payload.withStatus, setRunStatus]

theorem planContained_prepared {root : StateRoot}
    (h : prepareTransition index current event authority = .ok prepared) :
    planContained root prepared.run.tidy = true ↔
      ∀ run ∈ sourceRun current event, planContained root run.tidy = true := by
  obtain ⟨-, -, next, hnext, -, -, rfl⟩ := prepareTransition_eq_ok.mp h
  obtain ⟨hcreated, rfl, -⟩ | ⟨run, rfl, hkind, -, -, -, -, -, hcontrol⟩ := nextRun_cases hnext
  · simp only [sourceRun, hcreated, Option.mem_some_iff, forall_eq']
    rfl
  · have hsource : sourceRun (some run) event = some run := by
      cases hm : event.mutation <;> simp_all [sourceRun, StateMutation.kind]
    simp [hsource, planContained_controlled (controlRun_cases hcontrol)]

theorem decodes_iff {root : StateRoot} {run : AnyRun} :
    (∃ read, decodeRun root (stringify (encodeRun run)) = .ok read) ↔
      run.Ok ∧ planContained root run.tidy = true := by
  simp only [decodeRun_eq_ok, stringify, Option.some.injEq, exists_eq_left', AnyRun.reads.encoded]
  constructor
  · rintro ⟨_, ⟨hok, rfl⟩, hplan⟩
    exact ⟨hok, hplan⟩
  · rintro ⟨hok, hplan⟩
    exact ⟨_, ⟨hok, rfl⟩, hplan⟩

/-- The snapshot after an accepted event is one that the schema accepts exactly when the event keeps
it, and it can be read back when its plan lies in the root as well. -/
theorem snapshot_readable_iff (root : StateRoot) (hcurrent : ∀ run ∈ current, run.Accepted)
    (hevent : event.Accepted) (h : prepareTransition index current event authority = .ok prepared) :
    (prepared.run.Accepted ↔ KeepsSnapshot current event) ∧
      ((∃ read, decodeRun root (stringify (encodeRun prepared.run)) = .ok read) ↔
        KeepsSnapshot current event ∧
          ∀ run ∈ sourceRun current event, planContained root run.tidy = true) := by
  have hok := prepared_ok_iff (fun run hrun ↦ AnyRun.accepted_iff.mp (hcurrent run hrun))
    (PersistedStateEvent.accepted_iff.mp hevent) h
  exact ⟨AnyRun.accepted_iff.trans hok, by rw [decodes_iff, hok, planContained_prepared h]⟩

end Closure

/-! A store with one ULW run, which its owner has just created. -/

namespace Sample

def runId : Uuid := "11111111-1111-4111-8111-111111111111"

def eventId : Uuid := "77777777-7777-4777-8777-777777777777"

def now : String := "2026-07-22T00:00:00.000Z"

def criterion (id : String) : Criterion := ⟨id, none, none, none, .pending, none, 0, none, none, none⟩

def payload : UlwLoopPayload where
  objective := some "objective"
  annotationText := none
  status := .active
  activeGoalId := some "goal-1"
  goals := [⟨"goal-1", .inProgress, 0, [criterion "criterion-1"]⟩]

def run : AnyRun where
  version := .v2 none none
  runId := runId
  revision := 1
  transactionRevision := 1
  owner := ⟨"session", 1⟩
  progressRevision := 1
  continuation := ⟨none, 1, 0, false⟩
  createdAt := now
  updatedAt := now
  payload := .ulwLoop payload

def index : ActiveIndex where
  version := .v2 1
  revision := 1
  entries := [indexEntry run 1 .active]

/-- The next event on the run. -/
def event (taskGeneration : Option ℕ) (mutation : StateMutation) : PersistedStateEvent where
  version := .v2 none taskGeneration false
  eventId := eventId
  sequence := 2
  runId := runId
  workflow := .ulwLoop
  kind := mutation.kind
  expected := ⟨1, some 1, some "session", some 1⟩
  mutation := mutation
  atTime := now

def steered (id : String) : SteeredCriterion := ⟨id, "scenario", "observable", "evidence"⟩

def root : StateRoot := ⟨⟨"/repo", "/repo"⟩, id⟩

end Sample

theorem snapshot_readable_paused :
    ∃ prepared, prepareTransition Sample.index (some Sample.run)
        (Sample.event none (.workflowControlled .pause)) none = .ok prepared ∧
      (prepared.run.Accepted ↔
        KeepsSnapshot (some Sample.run) (Sample.event none (.workflowControlled .pause))) := by
  have hrun : Sample.run.Accepted := by decide
  have hevent : (Sample.event none (.workflowControlled .pause)).Accepted := by decide
  obtain ⟨prepared, h⟩ : ∃ prepared, prepareTransition Sample.index (some Sample.run)
      (Sample.event none (.workflowControlled .pause)) none = .ok prepared := ⟨_, rfl⟩
  exact ⟨prepared, h, (snapshot_readable_iff Sample.root (by simpa using hrun) hevent h).1⟩

/-- Two new criteria under one id: the event is accepted, and the snapshot it leaves is not. -/
theorem steering_twice_unreadable :
    ∃ prepared, Sample.run.Accepted ∧
      (Sample.event (some 1) (.workflowSteered [Sample.steered "new", Sample.steered "new"] none)).Accepted ∧
      prepareTransition Sample.index (some Sample.run) (Sample.event (some 1)
        (.workflowSteered [Sample.steered "new", Sample.steered "new"] none)) none = .ok prepared ∧
      ¬ prepared.run.Accepted :=
  ⟨_, by decide, by decide, rfl, by decide⟩

end OmpLazy.State

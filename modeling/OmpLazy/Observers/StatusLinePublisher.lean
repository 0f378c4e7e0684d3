import OmpLazy.State.CompletionConfluence
import OmpLazy.Workflows.StartWorkPlan
import OmpLazy.Foundation.JsonText
import Mathlib.Data.List.Dedup

/-! The progress that the status line shows, and the history of accepted events behind it. -/

namespace OmpLazy.Observers

open OmpLazy.Foundation OmpLazy.State OmpLazy.Workflows

/-- What is read of a run; a payload has a plan or goals by its workflow. -/
structure ProgressView where
  workflow : WorkflowKind
  status : String
  plan : Option (List String)
  goals : Option (List GoalStatus)
  progressRevision : ℕ

def statusName : RunStatus → String
  | .active => "active"
  | .paused => "paused"
  | .blocked => "blocked"
  | .needsUserDecision => "needs_user_decision"
  | .reviewBlocked => "review_blocked"
  | .stuck => "stuck"
  | .completed => "completed"
  | .cancelled => "cancelled"
  | .failed => "failed"
  | .abandoned => "abandoned"

/-- A run as it is passed to `deriveProgress`. -/
def progressView (run : AnyRun) : ProgressView where
  workflow := run.workflow
  status := statusName run.status
  plan := run.payload.plan.map (·.taskIds)
  goals :=
    match run.payload with
    | .startWork _ => none
    | .ulwLoop payload => some (payload.goals.map (·.status))
  progressRevision := run.progressRevision

def ratio (done total : ℕ) : String := done.repr ++ "/" ++ total.repr

def deriveProgress (run : ProgressView) : String :=
  match run.workflow, run.plan, run.goals with
  | .startWork, some taskIds, _ => ratio run.progressRevision taskIds.length
  | .ulwLoop, _, some goals => ratio (goals.filter (· = .complete)).length goals.length ++ " goals"
  | _, _, _ => run.status

theorem ratio_inj {done done' total : ℕ} : ratio done total = ratio done' total ↔ done = done' := by
  refine ⟨fun h ↦ ?_, fun h ↦ by rw [h]⟩
  have hrest := congrArg String.toList h
  simp only [ratio, String.toList_append, List.append_cancel_right_eq] at hrest
  exact JsonText.repr_injective (String.toList_inj.mp hrest)

section Creation

/-- A plan that was read: where it is and what it says. -/
structure ContainedPlan where
  canonicalPath : String
  displayPath : String
  normalized : NormalizedPlan

/-- The run that `createStartWork` commits. -/
def startWorkRun (root : CanonicalRoot) (plan : ContainedPlan) (runId planId : Uuid)
    (sessionId head now : String) (indexRevision : ℕ) : AnyRun where
  version := .v2 none (some head)
  runId := runId
  revision := 1
  transactionRevision := indexRevision + 1
  owner := ⟨sessionId, 1⟩
  progressRevision := 1
  continuation := ⟨none, 1, 0, false⟩
  createdAt := now
  updatedAt := now
  payload := .startWork
    { status := .active
      plan :=
        { planId
          canonicalPath := plan.canonicalPath
          displayPath := plan.displayPath
          allowedRoot := root.canonicalPath
          allowedRootDisplay := root.displayPath
          taskFingerprint := plan.normalized.fingerprint
          taskIds := plan.normalized.taskIds } }

def createEvent (eventId : Uuid) (indexRevision : ℕ) (run : AnyRun) : PersistedStateEvent where
  version := .v2 none none false
  eventId := eventId
  sequence := indexRevision + 1
  runId := run.runId
  workflow := run.workflow
  kind := .runCreated
  expected := ⟨indexRevision, none, none, none⟩
  mutation := .runCreated run
  atTime := run.createdAt

/-- The creation is accepted and publishes the run as it is. -/
theorem startWorkRun_published (index : ActiveIndex) (root : CanonicalRoot) (plan : ContainedPlan)
    (eventId runId planId : Uuid) (sessionId head now : String) :
    ∃ next, prepareTransition index none (createEvent eventId index.revision
      (startWorkRun root plan runId planId sessionId head now index.revision)) none =
        .ok ⟨startWorkRun root plan runId planId sessionId head now index.revision, next⟩ := by
  simp [prepareTransition, nextRun, createEvent, startWorkRun, AnyRun.stamped]

end Creation

section History

variable {run next : AnyRun} {event : PersistedStateEvent} {events : List PersistedStateEvent}

/-- The task whose evidence an event accepts. -/
def evidencedTask (event : PersistedStateEvent) : Option String :=
  match event.mutation with
  | .taskEvidenceAccepted taskId _ => some taskId
  | _ => none

def completes (event : PersistedStateEvent) : Bool :=
  match event.mutation with
  | .workflowTerminal .completed _ _ => true
  | _ => false

/-- The accepted events that move the progress of a run of a plan. -/
def movesProgress (event : PersistedStateEvent) : Bool := (evidencedTask event).isSome || completes event

/-- The number of a plan's tasks whose evidence has been accepted. -/
def acceptedTasks (plan : Plan) (events : List PersistedStateEvent) : ℕ :=
  ((events.filterMap evidencedTask).dedup.filter (· ∈ plan.taskIds)).length

/-- What a run of a plan shows is the number of its accepted tasks, or of all tasks once it is
completed. -/
def ShowsAccepted (events : List PersistedStateEvent) (run : AnyRun) (plan : Plan) : Prop :=
  ∃ shown ≤ plan.taskIds.length, deriveProgress (progressView run) = ratio shown plan.taskIds.length ∧
    shown = if run.status = .completed then plan.taskIds.length else acceptedTasks plan events

/-- A run of a plan whose counter has moved once for each of the events since its creation. -/
structure Counted (events : List PersistedStateEvent) (run : AnyRun) : Prop where
  planned : ∃ payload, run.payload = .startWork payload
  progress : run.progressRevision = 1 + events.countP movesProgress

theorem Counted.created (root : CanonicalRoot) (plan : ContainedPlan) (runId planId : Uuid)
    (sessionId head now : String) (indexRevision : ℕ) :
    Counted [] (startWorkRun root plan runId planId sessionId head now indexRevision) := ⟨⟨_, rfl⟩, rfl⟩

/-- A control transition leaves a run with a plan, and counts the events that move its progress. -/
theorem controlled_counts {payload : StartWorkPayload} {authority : Option ReceiptAuthority}
    (hpayload : run.payload = .startWork payload) (h : Controlled run event authority next) :
    (∃ payload, next.payload = .startWork payload) ∧
      next.progressRevision = run.progressRevision + if movesProgress event then 1 else 0 := by
  have hstill {mutation : StateMutation} (hm : event.mutation = mutation)
      (hnone : ∀ taskId acceptanceId, mutation ≠ .taskEvidenceAccepted taskId acceptanceId)
      (hopen : ∀ acceptanceIds taskId, mutation ≠ .workflowTerminal .completed acceptanceIds taskId) :
      movesProgress event = false := by
    unfold movesProgress evidencedTask completes
    rw [hm]
    split <;> split <;> simp_all
  cases h with
  | unchanged hlegacy hkind =>
    refine ⟨⟨payload, hpayload⟩, ?_⟩
    rw [hstill rfl (fun _ _ hm ↦ by simp [hm, StateMutation.kind] at hkind)
      (fun _ _ hm ↦ by simp [hm, StateMutation.kind] at hkind)]
    rfl
  | paused hm | cancelled hm | resumed hm | adopted _ hm | failed _ _ hm | stopped _ hm =>
    refine ⟨⟨_, by simp only [setRunStatus, hpayload]; rfl⟩, ?_⟩
    rw [hstill hm (by simp) (by simp)]
    rfl
  | attempted _ _ hm =>
    refine ⟨⟨payload, hpayload⟩, ?_⟩
    rw [hstill hm (by simp) (by simp)]
    rfl
  | reconciled _ _ _ _ hm =>
    refine ⟨⟨_, rfl⟩, ?_⟩
    rw [hstill hm (by simp) (by simp)]
    rfl
  | evidenceAccepted taskId acceptanceId hm =>
    exact ⟨⟨payload, hpayload⟩, by simp [movesProgress, evidencedTask, hm]⟩
  | completed acceptanceIds taskId _ hm =>
    exact ⟨⟨_, rfl⟩, by simp [movesProgress, completes, hm]⟩
  | steered _ _ _ _ _ hother | settled _ _ _ _ hother | cycled _ _ _ _ _ hother
  | failureRecorded _ _ _ _ _ _ _ _ hother => cases hpayload.symm.trans hother

theorem Counted.snoc (h : Counted events run) (haccepts : Accepts run event next) :
    Counted (events ++ [event]) next := by
  obtain ⟨payload, hpayload⟩ := h.planned
  obtain ⟨authority, unstamped, hcontrolled, rfl⟩ := haccepts.controlled
  obtain ⟨hplanned, hprogress⟩ := controlled_counts hpayload hcontrolled
  refine ⟨hplanned, ?_⟩
  change unstamped.progressRevision = _
  rw [hprogress, h.progress, List.countP_append, List.countP_singleton]
  omega

/-- Along every history of a run of a plan. -/
theorem Counted.history {start last : AnyRun} (hstart : Counted [] start)
    (h : Recorded Accepts start events last) : Counted events last := by
  induction h with
  | nil => exact hstart
  | snoc _ hstep ih => exact ih.snoc hstep

/-- No more tasks are accepted than events move the progress. -/
theorem acceptedTasks_le (plan : Plan) (events : List PersistedStateEvent) :
    acceptedTasks plan events ≤ events.countP movesProgress := by
  have hmoved (event : PersistedStateEvent) (h : (evidencedTask event).isSome = true) :
      movesProgress event = true := by rw [movesProgress, h, Bool.true_or]
  calc acceptedTasks plan events
      ≤ (events.filterMap evidencedTask).dedup.length := List.length_filter_le _ _
    _ ≤ (events.filterMap evidencedTask).length := (List.dedup_sublist _).length_le
    _ = events.countP fun event ↦ (evidencedTask event).isSome := by
      rw [List.length_filterMap_eq_countP]
    _ ≤ events.countP movesProgress := List.countP_mono_left fun event _ h ↦ hmoved event h

end History

/-- What is shown starts from one, so it is the number of accepted tasks in no run that is not
completed; a completed run shows all its tasks only after one event less than they are. -/
theorem displayed_progress_iff {root : CanonicalRoot} {contained : ContainedPlan} {runId planId : Uuid}
    {sessionId head now : String} {indexRevision : ℕ} {events : List PersistedStateEvent} {last : AnyRun}
    (h : Recorded Accepts (startWorkRun root contained runId planId sessionId head now indexRevision)
      events last) :
    ∃ plan, last.payload.plan = some plan ∧
      deriveProgress (progressView last) = ratio (1 + events.countP movesProgress) plan.taskIds.length ∧
      (ShowsAccepted events last plan ↔
        last.status = .completed ∧ 1 + events.countP movesProgress = plan.taskIds.length) := by
  have hcounted := (Counted.created root contained runId planId sessionId head now indexRevision).history h
  obtain ⟨payload, hpayload⟩ := hcounted.planned
  have htext : deriveProgress (progressView last) =
      ratio (1 + events.countP movesProgress) payload.plan.taskIds.length := by
    rw [← hcounted.progress]
    simp only [deriveProgress, progressView, AnyRun.workflow, hpayload, Payload.workflow, Payload.plan,
      Option.map_some]
  refine ⟨payload.plan, by rw [hpayload]; rfl, htext, ?_⟩
  rw [ShowsAccepted, htext]
  constructor
  · rintro ⟨shown, -, hshown, hcount⟩
    have hmoved := ratio_inj.mp hshown
    by_cases hcompleted : last.status = .completed
    · rw [if_pos hcompleted] at hcount
      exact ⟨hcompleted, hmoved.trans hcount⟩
    · rw [if_neg hcompleted] at hcount
      have hle := acceptedTasks_le payload.plan events
      omega
  · rintro ⟨hcompleted, hmoved⟩
    exact ⟨_, Nat.le_refl _, by rw [hmoved], by rw [if_pos hcompleted]⟩

namespace Sample

open State.Sample

def contained : ContainedPlan where
  canonicalPath := "/repo/plan.md"
  displayPath := "plan.md"
  normalized := ⟨⟨["task-1", "task-2"], ["task-1", "task-2"], "fingerprint"⟩, .v2⟩

/-- A run of two tasks, as it is created. -/
def created : AnyRun := startWorkRun ⟨"/repo", "."⟩ contained runId runId "session" "head" now 0

/-- The first task is accepted, and the final one after that. -/
def inTurn : ReceiptAuthority := ⟨1, [{ acceptance with taskId := some "task-1" }, repeated], []⟩

def firstEvidence : PersistedStateEvent :=
  eventOn created (some 1) (.taskEvidenceAccepted "task-1" "acceptance-1")

def settledOnce : AnyRun :=
  { created with revision := 2, progressRevision := 2, transactionRevision := 2 }

def completion (run : AnyRun) : PersistedStateEvent :=
  eventOn run (some 1) (.workflowTerminal .completed (some ["acceptance-1", "acceptance-2"]) none)

end Sample

/-- Both tasks are accepted and neither is settled: the completed run shows both. -/
theorem unsettled_completion_shown : ∃ last plan, last.status = .completed ∧ last.payload.plan = some plan ∧
    ShowsAccepted [Sample.completion Sample.created] last plan := by
  obtain ⟨prepared, hprepared, hstatus, htasks⟩ : ∃ prepared,
      prepareTransition ⟨.v2 1, 1, []⟩ (some Sample.created) (Sample.completion Sample.created)
          (some (State.Sample.workers [])) = .ok prepared ∧
        prepared.run.status = .completed ∧
        prepared.run.payload.plan.map (·.taskIds.length) = some 2 := ⟨_, rfl, by decide, by decide⟩
  obtain ⟨plan, hplan, -, hshows⟩ := displayed_progress_iff
    (.snoc .nil ⟨_, _, prepared, hprepared, rfl⟩ : Recorded Accepts Sample.created _ prepared.run)
  rw [hplan] at htasks
  exact ⟨_, plan, hstatus, hplan, hshows.mpr ⟨hstatus, (Option.some.inj htasks).symm⟩⟩

/-- A run of two tasks shows one of them at its creation, and three once both were accepted in turn. -/
theorem creation_counted : ∃ last,
    Recorded Accepts Sample.created [Sample.firstEvidence, Sample.completion Sample.settledOnce] last ∧
      last.status = .completed ∧ last.payload.plan = Sample.created.payload.plan ∧
      deriveProgress (progressView Sample.created) = "1/2" ∧ deriveProgress (progressView last) = "3/2" ∧
      ∀ plan ∈ Sample.created.payload.plan, ¬ ShowsAccepted [] Sample.created plan ∧
        ¬ ShowsAccepted [Sample.firstEvidence, Sample.completion Sample.settledOnce] last plan := by
  have hfirst : Accepts Sample.created Sample.firstEvidence Sample.settledOnce :=
    ⟨⟨.v2 1, 1, []⟩, some Sample.inTurn, _, rfl, rfl⟩
  obtain ⟨prepared, hprepared, hstatus, hplan, hshown⟩ : ∃ prepared,
      prepareTransition ⟨.v2 1, 2, []⟩ (some Sample.settledOnce) (Sample.completion Sample.settledOnce)
          (some Sample.inTurn) = .ok prepared ∧ prepared.run.status = .completed ∧
        prepared.run.payload.plan = Sample.created.payload.plan ∧
        deriveProgress (progressView prepared.run) = ratio 3 2 := ⟨_, rfl, by decide, by decide, by decide⟩
  refine ⟨prepared.run, .snoc (.snoc .nil hfirst) ⟨_, _, prepared, hprepared, rfl⟩, hstatus, hplan, by decide,
    hshown.trans (by decide), fun plan hmem ↦ ?_⟩
  obtain rfl := Option.some.inj (hmem : some _ = some plan)
  constructor
  · rintro ⟨shown, -, htext, hcount⟩
    obtain rfl : 1 = shown := ratio_inj.mp htext
    exact absurd hcount (by decide)
  · rintro ⟨shown, hle, htext, -⟩
    obtain rfl : 3 = shown := ratio_inj.mp (hshown.symm.trans htext)
    exact absurd hle (by decide)

end OmpLazy.Observers

import OmpLazy.State.CompletionGates
import OmpLazy.State.EventUpgrade
import OmpLazy.State.ReceiptLedgers

namespace OmpLazy.State

open OmpLazy.Workflows ReceiptAuthority

section Acceptances

variable {run next : AnyRun} {authority : ReceiptAuthority} {taskId : String}

/-- An acceptance is of a run by its version and its owner. -/
theorem matchesRun_congr (hversion : next.version = run.version) (howner : next.owner = run.owner) :
    matchesRun next = matchesRun run := by
  funext entry
  rw [matchesRun, matchesRun, hversion, howner]

theorem selected_congr (hversion : next.version = run.version) (howner : next.owner = run.owner) :
    selected next authority = selected run authority := by
  funext taskId
  rw [selected, selected, matchesRun_congr hversion howner]

theorem currentAcceptance_ne_none : currentAcceptance run authority taskId ≠ none ↔
    authority.taskGeneration ≠ 0 ∧ ∃ entry ∈ authority.accepted, matchesRun run entry = true ∧
      entry.taskId = some taskId ∧ entry.taskGeneration = authority.taskGeneration ∧
      entry.attempt = run.progressRevision := by
  rw [currentAcceptance]
  split
  · simp_all
  · rename_i hgeneration
    rw [findLast_ne_none]
    simp [hgeneration, and_assoc]

/-- The run completes by its final task's current acceptance and the last acceptances of all tasks. -/
theorem startCompletionAcceptanceIds_eq_some {plan : Plan} {ids : List String} :
    startCompletionAcceptanceIds run plan authority = some ids ↔
      ∃ finalTaskId, plan.taskIds.getLast? = some finalTaskId ∧
        currentAcceptance run authority finalTaskId ≠ none ∧
        (plan.taskIds.mapM (selected run authority)).map (·.map (·.idempotencyKey)) = some ids := by
  rw [startCompletionAcceptanceIds]
  cases plan.taskIds.getLast? with
  | none => simp
  | some finalTaskId => simp [Option.ite_none_left_eq_some]

end Acceptances

section Confluence

variable {index : ActiveIndex} {run : AnyRun} {event : PersistedStateEvent} {prepared : PreparedTransition}
  {authority : ReceiptAuthority} {payload : StartWorkPayload} {finalTaskId acceptanceId : String}
  {ids : List String}

/-- The settlement of a task's evidence moves the run on by one revision of its progress. -/
theorem evidence_settled (hmutation : event.mutation = .taskEvidenceAccepted finalTaskId acceptanceId)
    (h : prepareTransition index (some run) event (some authority) = .ok prepared) :
    prepared.run = { run with
      revision := run.revision + 1
      progressRevision := run.progressRevision + 1
      transactionRevision := event.sequence } := by
  obtain ⟨created, hcreated, -⟩ | ⟨_, next, hrun, -, -, hcontrol, rfl⟩ := prepareTransition_cases h
  · cases hcreated.symm.trans hmutation
  · obtain rfl := Option.some.inj hrun
    cases controlRun_cases hcontrol <;> simp_all [StateMutation.kind, PersistedStateEvent.publishes,
      AnyRun.stamped]

/-- After the evidence of the final task is settled, the run can still be completed by the same
acceptances exactly when its final task has been accepted once more, for the next revision. -/
theorem completion_confluent_iff (hpayload : run.payload = .startWork payload)
    (hfinal : payload.plan.taskIds.getLast? = some finalTaskId)
    (hids : startCompletionAcceptanceIds run payload.plan authority = some ids)
    (hmutation : event.mutation = .taskEvidenceAccepted finalTaskId acceptanceId)
    (h : prepareTransition index (some run) event (some authority) = .ok prepared) :
    (∃ payload', prepared.run.payload = .startWork payload' ∧
      startCompletionAcceptanceIds prepared.run payload'.plan authority = some ids) ↔
    ∃ entry ∈ authority.accepted, matchesRun run entry = true ∧ entry.taskId = some finalTaskId ∧
      entry.taskGeneration = authority.taskGeneration ∧ entry.attempt = run.progressRevision + 1 := by
  have hrun := evidence_settled hmutation h
  have hversion : prepared.run.version = run.version := by rw [hrun]
  have howner : prepared.run.owner = run.owner := by rw [hrun]
  have hplan : prepared.run.payload = .startWork payload := by rw [hrun, ← hpayload]
  obtain ⟨_, hlast, hcurrent, hselected⟩ := startCompletionAcceptanceIds_eq_some.mp hids
  obtain rfl := Option.some.inj (hfinal.symm.trans hlast)
  have hgeneration := (currentAcceptance_ne_none.mp hcurrent).1
  have hnext : currentAcceptance prepared.run authority finalTaskId ≠ none ↔
      ∃ entry ∈ authority.accepted, matchesRun run entry = true ∧ entry.taskId = some finalTaskId ∧
        entry.taskGeneration = authority.taskGeneration ∧ entry.attempt = run.progressRevision + 1 := by
    rw [currentAcceptance_ne_none, matchesRun_congr hversion howner, hrun]
    exact and_iff_right hgeneration
  rw [← hnext]
  constructor
  · rintro ⟨payload', hpayload', hids'⟩
    obtain rfl := Payload.startWork.inj (hplan.symm.trans hpayload')
    obtain ⟨_, hlast', hcurrent', -⟩ := startCompletionAcceptanceIds_eq_some.mp hids'
    obtain rfl := Option.some.inj (hfinal.symm.trans hlast')
    exact hcurrent'
  · intro hcurrent'
    refine ⟨payload, hplan, startCompletionAcceptanceIds_eq_some.mpr ⟨_, hfinal, hcurrent', ?_⟩⟩
    rw [selected_congr hversion howner, hselected]

end Confluence

namespace Sample

def twoTasks : Plan where
  planId := runId
  canonicalPath := "/repo/plan.md"
  displayPath := "plan.md"
  allowedRoot := "/repo"
  allowedRootDisplay := "."
  taskFingerprint := "fingerprint"
  taskIds := ["task-1", "task-2"]

def plannedRun : AnyRun := { boundRun with payload := .startWork ⟨.active, twoTasks⟩ }

/-- The acceptances of both tasks for the first revision, and what has been accepted since. -/
def workers (later : List ScopedWorkerAcceptanceEvent) : ReceiptAuthority :=
  ⟨1, [{ acceptance with taskId := some "task-1" },
    { acceptance with idempotencyKey := "acceptance-2", taskId := some "task-2" }] ++ later, []⟩

/-- The final task accepted once more, for the revision after. -/
def repeated : ScopedWorkerAcceptanceEvent :=
  { acceptance with idempotencyKey := "acceptance-2", attempt := 2, taskId := some "task-2" }

def finalEvidence : PersistedStateEvent :=
  eventOn plannedRun (some 1) (.taskEvidenceAccepted "task-2" "acceptance-2")

end Sample

theorem completion_confluent_repeated :
    ∃ prepared payload', prepareTransition ⟨.v2 1, 1, []⟩ (some Sample.plannedRun) Sample.finalEvidence
        (some (Sample.workers [Sample.repeated])) = .ok prepared ∧
      prepared.run.payload = .startWork payload' ∧
      startCompletionAcceptanceIds prepared.run payload'.plan (Sample.workers [Sample.repeated]) =
        some ["acceptance-1", "acceptance-2"] := by
  have hids : startCompletionAcceptanceIds Sample.plannedRun Sample.twoTasks
      (Sample.workers [Sample.repeated]) = some ["acceptance-1", "acceptance-2"] := by decide
  have hpayload : Sample.plannedRun.payload = .startWork ⟨.active, Sample.twoTasks⟩ := rfl
  obtain ⟨prepared, hprepared⟩ : ∃ prepared, prepareTransition ⟨.v2 1, 1, []⟩ (some Sample.plannedRun)
      Sample.finalEvidence (some (Sample.workers [Sample.repeated])) = .ok prepared := ⟨_, rfl⟩
  obtain ⟨payload', hpayload', hids'⟩ :=
    (completion_confluent_iff hpayload rfl hids rfl hprepared).mpr ⟨Sample.repeated, by decide⟩
  exact ⟨prepared, payload', hprepared, hpayload', hids'⟩

/-- Both tasks are accepted, and the run can be completed until the evidence of the second is settled. -/
theorem settled_final_evidence_blocks :
    startCompletionAcceptanceIds Sample.plannedRun Sample.twoTasks (Sample.workers []) =
        some ["acceptance-1", "acceptance-2"] ∧
      ∃ prepared, prepareTransition ⟨.v2 1, 1, []⟩ (some Sample.plannedRun) Sample.finalEvidence
          (some (Sample.workers [])) = .ok prepared ∧
        prepared.run.payload = .startWork ⟨.active, Sample.twoTasks⟩ ∧
        startCompletionAcceptanceIds prepared.run Sample.twoTasks (Sample.workers []) = none :=
  ⟨by decide, _, rfl, by decide, by decide⟩

end OmpLazy.State

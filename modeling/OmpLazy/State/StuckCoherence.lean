import OmpLazy.State.History

namespace OmpLazy.State

open OmpLazy.Foundation OmpLazy.Workflows Relation

/-- The continuation of a run that is not over bears the stuck mark exactly when its status does. -/
def StuckCoherent (run : AnyRun) : Prop :=
  terminal run.status = false → (run.continuation.stuck = true ↔ run.status = .stuck)

/-- An attempt clears the mark and leaves the status, and a reconciliation the other way round, so
neither may meet a stuck run. -/
def KeepsStuck (run : AnyRun) (event : PersistedStateEvent) : Prop :=
  run.status = .stuck →
    event.mutation.kind ≠ .continuationAttempted ∧ event.mutation.kind ≠ .planReconciled

/-- A status set alike in both workflows is the status of the run. -/
theorem AnyRun.status_withStatus {run : AnyRun} {payload : Payload} {start : RunStatus}
    {ulw : UlwLoopStatus} (hpayload : run.payload = payload.withStatus start ulw)
    (halike : ulw.toRunStatus = start) : run.status = start := by
  rw [AnyRun.status, hpayload]
  cases payload with
  | startWork payload => rfl
  | ulwLoop payload => exact halike

/-- A settlement leaves the status of the run or completes it. -/
theorem status_settledPayload (settlement : Settlement) (payload : UlwLoopPayload) :
    (settledPayload settlement payload).status = payload.status ∨
      (settledPayload settlement payload).status = .completed := by
  by_cases h : (settledGoals settlement payload.goals).all (·.allPass) = true <;>
    simp [settledPayload, h]

theorem StuckCoherent.of_same {run next : AnyRun} (hrun : StuckCoherent run)
    (hstatus : next.status = run.status) (hstuck : next.continuation.stuck = run.continuation.stuck) :
    StuckCoherent next := by
  unfold StuckCoherent
  rw [hstatus, hstuck]
  exact hrun

theorem StuckCoherent.of_terminal {run : AnyRun} (h : terminal run.status = true) :
    StuckCoherent run := by
  intro hopen
  rw [h] at hopen
  cases hopen

/-- The mark is off and the status is not stuck. -/
theorem StuckCoherent.of_clear {run : AnyRun} (hstuck : run.continuation.stuck = false)
    (hstatus : run.status ≠ .stuck) : StuckCoherent run := by
  intro _
  rw [hstuck]
  exact ⟨fun h ↦ absurd h (by decide), fun h ↦ absurd h hstatus⟩

theorem KeepsStuck.of_kind {run : AnyRun} {event : PersistedStateEvent}
    (hattempted : event.mutation.kind ≠ .continuationAttempted)
    (hreconciled : event.mutation.kind ≠ .planReconciled) : KeepsStuck run event :=
  fun _ ↦ ⟨hattempted, hreconciled⟩

/-- The transitions that write the mark and the status together, or neither. -/
theorem Controlled.stuckCoherent {run next : AnyRun} {event : PersistedStateEvent}
    {authority : Option ReceiptAuthority} (hrun : StuckCoherent run)
    (h : Controlled run event authority next)
    (hattempted : event.mutation.kind ≠ .continuationAttempted)
    (hreconciled : event.mutation.kind ≠ .planReconciled) : StuckCoherent next := by
  cases h with
  | unchanged => exact hrun
  | paused _ hstatus =>
    have hclear : run.continuation.stuck = false := by
      have hopen := hrun (by rw [hstatus]; rfl)
      rw [hstatus] at hopen
      simpa using hopen
    refine .of_clear hclear ?_
    rw [AnyRun.status_withStatus rfl (by rfl)]
    decide
  | cancelled => exact .of_terminal (by rw [AnyRun.status_withStatus rfl (by rfl)]; rfl)
  | resumed | adopted =>
    refine .of_clear rfl ?_
    rw [AnyRun.status_withStatus rfl (by rfl)]
    decide
  | reconciled _ _ _ _ hm => exact absurd (by rw [hm]; rfl) hreconciled
  | attempted _ _ hm => exact absurd (by rw [hm]; rfl) hattempted
  | settled settlement payload _ _ hpayload _ =>
    rcases status_settledPayload settlement payload with hstatus | hstatus
    · refine hrun.of_same ?_ rfl
      simp only [AnyRun.status, Payload.status, hstatus, hpayload]
    · exact .of_terminal (by simp only [AnyRun.status, Payload.status, hstatus]; rfl)
  | failed => exact .of_terminal (by rw [AnyRun.status_withStatus rfl (by rfl)]; rfl)
  | completed => exact .of_terminal rfl
  | stopped =>
    intro _
    exact ⟨fun _ ↦ AnyRun.status_withStatus rfl (by rfl), fun _ ↦ rfl⟩
  | evidenceAccepted => exact hrun.of_same rfl rfl
  | steered _ _ _ _ _ hpayload => exact hrun.of_same (by rw [AnyRun.status, AnyRun.status, hpayload]; rfl) rfl
  | cycled _ _ _ _ _ hpayload => exact hrun.of_same (by rw [AnyRun.status, AnyRun.status, hpayload]; rfl) rfl
  | failureRecorded _ _ _ _ _ _ _ _ hpayload =>
    exact hrun.of_same (by rw [AnyRun.status, AnyRun.status, hpayload]; rfl) rfl

/-- Of the transitions of a coherent run, those that may not meet a stuck one are the only ones that
leave it incoherent. -/
theorem Controlled.stuckCoherent_iff {run next : AnyRun} {event : PersistedStateEvent}
    {authority : Option ReceiptAuthority} (hrun : StuckCoherent run)
    (h : Controlled run event authority next) : StuckCoherent next ↔ KeepsStuck run event := by
  by_cases hattempted : event.mutation.kind = .continuationAttempted
  · cases h with
    | attempted leafId progressRevision hm =>
      constructor
      · intro hnext hstuck
        have hopen := (hnext (by rw [AnyRun.status] at hstuck ⊢; rw [hstuck]; rfl)).mpr hstuck
        cases hopen
      · exact fun hkeeps ↦ .of_clear rfl fun hstuck ↦ (hkeeps hstuck).1 hattempted
    | _ => simp_all [StateMutation.kind]
  · by_cases hreconciled : event.mutation.kind = .planReconciled
    · cases h with
      | reconciled taskIds remaining fingerprint payload hm hpayload hstatus =>
        have hopen : terminal run.status = false := by rwa [AnyRun.status, hpayload]
        constructor
        · intro hnext hstuck
          have hmark := (hnext rfl).mp ((hrun hopen).mpr hstuck)
          cases hmark
        · intro hkeeps
          refine .of_clear ?_ (by simp [AnyRun.status, Payload.status])
          have hstatus : run.status ≠ .stuck := fun hstuck ↦ (hkeeps hstuck).2 hreconciled
          simpa using (hrun hopen).not.mpr hstatus
      | _ => simp_all [StateMutation.kind]
    · exact ⟨fun _ ↦ .of_kind hattempted hreconciled,
        fun _ ↦ h.stuckCoherent hrun hattempted hreconciled⟩

theorem StuckCoherent.stamped {run : AnyRun} (h : StuckCoherent run) (sequence : ℕ) :
    StuckCoherent (run.stamped sequence) := h.of_same rfl rfl

theorem Accepts.stuckCoherent_iff {run next : AnyRun} {event : PersistedStateEvent}
    (hrun : StuckCoherent run) (h : Accepts run event next) :
    StuckCoherent next ↔ KeepsStuck run event := by
  obtain ⟨authority, unstamped, hcontrolled, rfl⟩ := h.controlled
  rw [← hcontrolled.stuckCoherent_iff hrun]
  exact ⟨fun hnext ↦ hnext.of_same rfl rfl, fun hnext ↦ hnext.stamped _⟩

/-- From an active run on, the mark stays coherent as long as no attempt and no reconciliation meets a
stuck run, and the first that does breaks it. -/
theorem stuck_coherent {run next : AnyRun} (hactive : run.status = .active)
    (hstuck : run.continuation.stuck = false) (h : ReflTransGen (Evolves KeepsStuck) run next) :
    StuckCoherent next ∧ ∀ event after, Accepts next event after →
      (StuckCoherent after ↔ KeepsStuck next event) := by
  have hstart : StuckCoherent run := .of_clear hstuck (by rw [hactive]; decide)
  have hkept : Preserves (Evolves KeepsStuck) StuckCoherent := by
    rintro run next hrun ⟨event, hkeeps, haccepts⟩
    exact (haccepts.stuckCoherent_iff hrun).mpr hkeeps
  have hnext := hkept.run h hstart
  exact ⟨hnext, fun event after haccepts ↦ haccepts.stuckCoherent_iff hnext⟩

theorem stuck_coherent_paused :
    ∃ next, Accepts Sample.run (Sample.event none (.workflowControlled .pause)) next ∧
      StuckCoherent next := by
  obtain ⟨prepared, h⟩ : ∃ prepared, prepareTransition Sample.index (some Sample.run)
      (Sample.event none (.workflowControlled .pause)) none = .ok prepared := ⟨_, rfl⟩
  have haccepts : Accepts Sample.run (Sample.event none (.workflowControlled .pause)) prepared.run :=
    ⟨_, _, _, h, rfl⟩
  have hkeeps : KeepsStuck Sample.run (Sample.event none (.workflowControlled .pause)) :=
    .of_kind (by decide) (by decide)
  exact ⟨_, haccepts, (stuck_coherent rfl rfl (.single ⟨_, hkeeps, haccepts⟩)).1⟩

namespace Sample

/-- Two idle turns without progress stop the run, and a third one is attempted all the same. -/
def idleTurns : List (Option ℕ × StateMutation) :=
  [(none, .continuationAttempted "leaf-1" 1), (none, .continuationAttempted "leaf-2" 1),
    (none, .continuationStuck "leaf-3"), (none, .continuationAttempted "leaf-4" 1)]

end Sample

theorem attempt_clears_stuck :
    ∃ next, Sample.run.status = .active ∧ Sample.run.continuation.stuck = false ∧
      ReflTransGen (Evolves fun _ event ↦ event.Accepted) Sample.run next ∧
      terminal next.status = false ∧ ¬ (next.continuation.stuck = true ↔ next.status = .stuck) := by
  obtain ⟨next, h, hnext⟩ : ∃ next, Sample.follow none Sample.run Sample.idleTurns = some next ∧
      terminal next.status = false ∧ ¬ (next.continuation.stuck = true ↔ next.status = .stuck) :=
    ⟨_, rfl, by decide, by decide⟩
  exact ⟨next, rfl, rfl, Sample.evolves_of_follow h, hnext⟩

end OmpLazy.State

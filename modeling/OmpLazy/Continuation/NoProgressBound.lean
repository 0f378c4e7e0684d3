import OmpLazy.Continuation.DecisionLaws
import OmpLazy.State.History

namespace OmpLazy.Continuation

open OmpLazy.Foundation OmpLazy.State OmpLazy.State.Sample OmpLazy.Workflows

/-- The events that give a run its attempts back. -/
def restores : StateMutation → Bool
  | .workflowControlled .resume => true
  | .ownerAdopted _ => true
  | _ => false

/-- An event of a run whose owner lets it work: an attempt to continue is one that the coordinator has
just decided on. -/
structure Continues (run : AnyRun) (event : PersistedStateEvent) (next : AnyRun) : Prop where
  accepts : Accepts run event next
  unrestored : restores event.mutation = false
  decided : event.mutation.kind = .continuationAttempted → ∃ sessionId leafId snapshot additionalContext,
    decideContinuation sessionId leafId snapshot = .continued run additionalContext event.mutation

def attempts (value : ℕ) (event : PersistedStateEvent) : Bool :=
  match event.mutation with
  | .continuationAttempted _ progressRevision => progressRevision = value
  | _ => false

/-- What the counters of a run say of its attempts at the current progress. -/
def noProgress (run : AnyRun) : ℕ :=
  if run.continuation.progressRevisionSeen = run.progressRevision then run.continuation.noProgressAttempts
  else 0

section Counting

variable {run next : AnyRun} {event : PersistedStateEvent}

theorem hasReachedNoProgressBound_iff : hasReachedNoProgressBound run = true ↔ 2 ≤ noProgress run := by
  unfold hasReachedNoProgressBound noProgress
  split <;> simp [*]

theorem attempts_eq_false (h : event.mutation.kind ≠ .continuationAttempted) (value : ℕ) :
    attempts value event = false := by
  unfold attempts
  split
  · rename_i hmutation
    rw [hmutation] at h
    exact absurd rfl h
  · rfl

theorem attempts_self {leafId : String} (h : event.mutation = .continuationAttempted leafId run.progressRevision)
    (value : ℕ) : attempts value event = decide (run.progressRevision = value) := by
  simp only [attempts, h]

/-- The decision to continue is one below the bound. -/
theorem continued_below {sessionId leafId additionalContext : String} {snapshot : ContinuationSnapshot}
    {mutation : StateMutation}
    (h : decideContinuation sessionId leafId snapshot = .continued run additionalContext mutation) :
    noProgress run < 2 ∧ mutation = .continuationAttempted leafId run.progressRevision := by
  obtain ⟨-, found, -, -, hwarranted⟩ := decideContinuation_decided (by rw [h]; simp)
  rw [h] at hwarranted
  cases hwarranted with
  | continued hbound =>
    refine ⟨?_, rfl⟩
    rw [← not_le, ← hasReachedNoProgressBound_iff, hbound]
    exact Bool.false_ne_true

/-- Apart from an attempt, an event that does not restore the run leaves its counters alone, and the
progress does not fall. -/
theorem controlled_counters {authority : Option ReceiptAuthority}
    (h : Controlled run event authority next) (hunrestored : restores event.mutation = false) :
    (∃ leafId progressRevision, event.mutation = .continuationAttempted leafId progressRevision ∧
      next.progressRevision = run.progressRevision ∧ noProgress next = noProgress run + 1) ∨
      event.mutation.kind ≠ .continuationAttempted ∧ run.progressRevision ≤ next.progressRevision ∧
        next.continuation.progressRevisionSeen = run.continuation.progressRevisionSeen ∧
        next.continuation.noProgressAttempts = run.continuation.noProgressAttempts := by
  cases h with
  | unchanged _ hkind =>
    refine .inr ⟨?_, le_rfl, rfl, rfl⟩
    intro h
    rw [h] at hkind
    exact absurd hkind (by decide)
  | resumed hm => simp [restores, hm] at hunrestored
  | adopted _ hm => simp [restores, hm] at hunrestored
  | attempted leafId progressRevision hm =>
    refine .inl ⟨leafId, progressRevision, hm, rfl, ?_⟩
    simp only [noProgress, if_true]
    split <;> simp_all
  | settled _ _ hm | evidenceAccepted _ _ hm | completed _ _ _ hm =>
    exact .inr ⟨by simp [hm, StateMutation.kind], Nat.le_succ _, rfl, rfl⟩
  | paused hm | cancelled hm | reconciled _ _ _ _ hm | steered _ _ _ _ hm | failed _ _ hm | stopped _ hm
  | cycled _ _ _ hm | failureRecorded _ _ _ _ _ _ hm =>
    exact .inr ⟨by simp [hm, StateMutation.kind], le_rfl, rfl, rfl⟩

/-- The attempts of a history, counted by the progress at which they were made. -/
structure Counted (events : List PersistedStateEvent) (run : AnyRun) : Prop where
  bounded : ∀ value, events.countP (attempts value) ≤ 2
  fresh : ∀ value, run.progressRevision < value → events.countP (attempts value) = 0
  counted : events.countP (attempts run.progressRevision) ≤ noProgress run

theorem Counted.snoc {events : List PersistedStateEvent} (h : Counted events run)
    (hstep : Continues run event next) : Counted (events ++ [event]) next := by
  obtain ⟨authority, unstamped, hcontrolled, rfl⟩ := hstep.accepts.controlled
  have hstamped : noProgress (unstamped.stamped event.sequence) = noProgress unstamped := rfl
  have hcount (value : ℕ) : (events ++ [event]).countP (attempts value) =
      events.countP (attempts value) + if attempts value event then 1 else 0 := by
    rw [List.countP_append, List.countP_singleton]
  obtain ⟨leafId, progressRevision, hmutation, hprogress, hraised⟩ | ⟨hkind, hprogress, hseen, hattempts⟩ :=
    controlled_counters hcontrolled hstep.unrestored
  · -- the coordinator has decided on the attempt, so it is one below the bound at the current progress
    obtain ⟨_, _, _, _, hdecision⟩ := hstep.decided (by rw [hmutation]; rfl)
    obtain ⟨hbelow, hself⟩ := continued_below hdecision
    have hcounted := h.counted
    refine ⟨fun value ↦ ?_, fun value hvalue ↦ ?_, ?_⟩
    · have hbounded := h.bounded value
      rw [hcount, attempts_self hself]
      by_cases hvalue : run.progressRevision = value
      · subst hvalue
        simp only [decide_true, if_true]
        omega
      · simpa [hvalue] using hbounded
    · change unstamped.progressRevision < value at hvalue
      rw [hcount, attempts_self hself, h.fresh value (by omega)]
      simp [show run.progressRevision ≠ value by omega]
    · change (events ++ [event]).countP (attempts unstamped.progressRevision) ≤ noProgress unstamped
      rw [hcount, attempts_self hself, hprogress]
      simp only [decide_true, if_true]
      omega
  · simp only [attempts_eq_false hkind, Bool.false_eq_true, if_false, Nat.add_zero] at hcount
    refine ⟨fun value ↦ ?_, fun value hvalue ↦ ?_, ?_⟩
    · rw [hcount]
      exact h.bounded value
    · rw [hcount]
      exact h.fresh value (lt_of_le_of_lt hprogress hvalue)
    · change (events ++ [event]).countP (attempts unstamped.progressRevision) ≤ noProgress unstamped
      rw [hcount]
      obtain hsame | hlater := hprogress.eq_or_lt
      · have hcounted := h.counted
        rwa [noProgress, hsame, ← hseen, ← hattempts] at hcounted
      · rw [h.fresh _ hlater]
        exact Nat.zero_le _

end Counting

/-- At every value of its progress a run is continued at most twice, and then no more. -/
theorem no_progress_bounded {start run : AnyRun} {events : List PersistedStateEvent}
    (hrun : Recorded Continues start events run) (value : ℕ) :
    events.countP (attempts value) ≤ 2 ∧
      (events.countP (attempts value) = 2 → run.progressRevision = value →
        ∀ sessionId leafId snapshot additionalContext mutation,
          decideContinuation sessionId leafId snapshot ≠ .continued run additionalContext mutation) := by
  have hcounted : Counted events run := by
    induction hrun with
    | nil =>
      refine ⟨?_, ?_, ?_⟩
      · simp
      · simp
      · simp
    | snoc _ hstep ih => exact ih.snoc hstep
  refine ⟨hcounted.bounded value, ?_⟩
  rintro htwice rfl sessionId leafId snapshot additionalContext mutation hdecision
  have hbelow := (continued_below hdecision).1
  have hcount := hcounted.counted
  omega

/-- A store with one live run, as the coordinator of its session reads it. -/
def idleSnapshot (run : AnyRun) : ContinuationSnapshot where
  index := ⟨.v2 1, run.transactionRevision, [indexEntry run run.transactionRevision .active]⟩
  runs := [run]
  plans := []
  authorities := []

/-- The run after idle turns without progress. -/
def idleRun (turns : ℕ) (leafId : String) : AnyRun :=
  { Sample.run with
    revision := turns + 1
    transactionRevision := turns + 1
    continuation := ⟨some leafId, 1, turns, false⟩ }

theorem continues_idle {run : AnyRun} {leafId additionalContext : String} {mutation : StateMutation}
    {prepared : PreparedTransition} (hunrestored : restores mutation = false)
    (hdecision : decideContinuation "session" leafId (idleSnapshot run) =
      .continued run additionalContext mutation)
    (hprepared : prepareTransition (idleSnapshot run).index (some run) (eventOn run none mutation) none =
      .ok prepared) : Continues run (eventOn run none mutation) prepared.run :=
  ⟨⟨_, _, prepared, hprepared, rfl⟩, hunrestored, fun _ ↦ ⟨_, _, _, _, hdecision⟩⟩

theorem no_progress_bounded_idle :
    ∃ events, Recorded Continues Sample.run events (idleRun 2 "leaf-2") ∧
      events.countP (attempts 1) = 2 ∧ ∀ sessionId leafId snapshot additionalContext mutation,
        decideContinuation sessionId leafId snapshot ≠
          .continued (idleRun 2 "leaf-2") additionalContext mutation := by
  obtain ⟨prepared, hprepared, hfirst⟩ : ∃ prepared, prepareTransition (idleSnapshot Sample.run).index
      (some Sample.run) (eventOn Sample.run none (.continuationAttempted "leaf-1" 1)) none = .ok prepared ∧
        prepared.run = idleRun 1 "leaf-1" := ⟨_, rfl, by decide⟩
  obtain ⟨prepared', hprepared', hsecond⟩ : ∃ prepared,
      prepareTransition (idleSnapshot (idleRun 1 "leaf-1")).index (some (idleRun 1 "leaf-1"))
          (eventOn (idleRun 1 "leaf-1") none (.continuationAttempted "leaf-2" 1)) none = .ok prepared ∧
        prepared.run = idleRun 2 "leaf-2" := ⟨_, rfl, by decide⟩
  have hdecision : decideContinuation "session" "leaf-1" (idleSnapshot Sample.run) =
      .continued Sample.run (ulwLoopContinuationContext "goal-1" (some "criterion-1"))
        (.continuationAttempted "leaf-1" 1) := by decide +kernel
  have hdecision' : decideContinuation "session" "leaf-2" (idleSnapshot (idleRun 1 "leaf-1")) =
      .continued (idleRun 1 "leaf-1") (ulwLoopContinuationContext "goal-1" (some "criterion-1"))
        (.continuationAttempted "leaf-2" 1) := by decide +kernel
  have hstep := continues_idle rfl hdecision hprepared
  have hstep' := continues_idle rfl hdecision' hprepared'
  rw [hfirst] at hstep
  rw [hsecond] at hstep'
  have hrun : Recorded Continues Sample.run _ (idleRun 2 "leaf-2") := .snoc (.snoc .nil hstep) hstep'
  exact ⟨_, hrun, rfl, (no_progress_bounded hrun 1).2 rfl rfl⟩

end OmpLazy.Continuation

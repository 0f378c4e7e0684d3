import OmpLazy.Continuation.StopLaws
import OmpLazy.State.IndexCoherence

namespace OmpLazy.Continuation

open OmpLazy.Foundation OmpLazy.State Relation

/-- A session: its files and counters, its turn, the runs that were continued in the turn, and the
charges so far. -/
structure StopSystem where
  disk : Disk
  counters : String → Option Bytes
  turnId : ℤ
  emitted : List Uuid
  charges : List Charge

structure StopEdge where
  input : SessionStopInput
  environment : StopEnvironment

def StopOutcome.emission : StopOutcome → Option Uuid
  | .emitted charge _ => some charge.run
  | _ => none

def StopSystem.stopped (root : StateRoot) (s : StopSystem) (edge : StopEdge) : StopSystem :=
  let stop := handleSessionStop root edge.environment edge.input
    ⟨⟨s.disk, edge.environment.deadline⟩, s.counters⟩
  { s with
    disk := stop.2.session.disk
    counters := stop.2.counters
    emitted := s.emitted ++ stop.1.emission.toList
    charges := s.charges ++ stop.1.charge.toList }

/-- A stop edge of the session that meets a condition, a new turn, or whatever others commit and count
between two edges. -/
inductive StopStep (root : StateRoot) (sessionId : String) (ok : StopSystem → StopEdge → Prop) :
    StopSystem → StopSystem → Prop
  | stop {s : StopSystem} {edge : StopEdge} (hsession : edge.input.sessionId = sessionId)
      (hturn : edge.input.diagnosticTurnId = s.turnId) (hok : ok s edge) :
      StopStep root sessionId ok s (s.stopped root edge)
  | turn {s : StopSystem} (turnId : ℤ) : StopStep root sessionId ok s { s with turnId, emitted := [] }
  | other {s : StopSystem} {disk : Disk} {counters : String → Option Bytes}
      (hdisk : RootStep root s.disk disk) (hcounters : counters sessionId = s.counters sessionId) :
      StopStep root sessionId ok s { s with disk, counters }

/-- The run that the coordinator continues is the only one of the session in the index, and the counter
is that of the run and the turn unless the run is continued for the first time in the turn. -/
def SingleRun (root : StateRoot) (s : StopSystem) (edge : StopEdge) : Prop :=
  ∀ snapshot run additionalContext mutation,
    ReadsSnapshot root edge.environment.dependencies edge.input.request s.disk snapshot →
    decideContinuation edge.input.request.sessionId edge.input.request.leafId snapshot =
      .continued run additionalContext mutation →
    SoleRun snapshot.index edge.input.sessionId run.runId ∧
      (run.runId ∈ s.emitted → ∃ counter ∈ readContinuationCounter (s.counters edge.input.sessionId),
        counter.covers run.runId s.turnId = true)

/-- In its turn a run is continued no more often than the counter says, and never over the maximum. -/
structure WithinBudget (sessionId : String) (s : StopSystem) : Prop where
  bounded : ∀ run, s.emitted.count run ≤ maxIdleContinuations
  recorded : ∀ counter ∈ readContinuationCounter (s.counters sessionId), counter.turnId = s.turnId →
    s.emitted.count counter.runId ≤ counter.count
  charges : ∀ charge ∈ s.charges, charge.charged = charge.run

section Budget

variable {root : StateRoot} {sessionId : String} {s t : StopSystem}

theorem emission_of_charge {outcome : StopOutcome} {charge : Charge} (h : outcome.charge = some charge) :
    outcome.emission = none ∨ outcome.emission = some charge.run := by
  cases outcome with
  | silent => cases h
  | charged => exact .inl rfl
  | emitted emitted additionalContext => exact .inr (by rw [← Option.some.inj h]; rfl)

theorem read_written (counters : String → Option Bytes) (counter : ContinuationCounter) :
    readContinuationCounter (written counters sessionId counter sessionId) = some counter := by
  rw [written, Function.update_self, readContinuationCounter_encoded]

/-- The counter that is found at an edge has counted the run in the turn. -/
theorem WithinBudget.count_le (h : WithinBudget sessionId s) {run : Uuid}
    (hcovered : run ∈ s.emitted → ∃ counter ∈ readContinuationCounter (s.counters sessionId),
      counter.covers run s.turnId = true) :
    s.emitted.count run ≤ counted (readContinuationCounter (s.counters sessionId)) run s.turnId := by
  by_cases hmem : run ∈ s.emitted
  · obtain ⟨counter, hcounter, hcovers⟩ := hcovered hmem
    obtain ⟨rfl, hturn⟩ := covers_iff.mp hcovers
    rw [Option.mem_def.mp hcounter, counted, if_pos hcovers]
    exact h.recorded counter hcounter hturn
  · rw [List.count_eq_zero_of_not_mem hmem]
    exact Nat.zero_le _

/-- A charge to the run that is continued keeps the session within its budget. -/
theorem WithinBudget.charged (h : WithinBudget sessionId s) {outcome : StopOutcome} {charge : Charge}
    (hcharge : outcome.charge = some charge) (hright : charge.charged = charge.run)
    (hcount : s.emitted.count charge.run ≤
      counted (readContinuationCounter (s.counters sessionId)) charge.run s.turnId)
    (hbudget : checkBudget (readContinuationCounter (s.counters sessionId)) charge.run s.turnId = .allowed)
    (disk : Disk) :
    WithinBudget sessionId { s with
      disk
      counters := written s.counters sessionId
        (incrementCounter (readContinuationCounter (s.counters sessionId)) sessionId charge.run s.turnId)
      emitted := s.emitted ++ outcome.emission.toList
      charges := s.charges ++ outcome.charge.toList } := by
  have hallowed := checkBudget_eq_allowed.mp hbudget
  have hemitted (run : Uuid) : (s.emitted ++ outcome.emission.toList).count run ≤
      s.emitted.count run + if run = charge.run then 1 else 0 := by
    rw [List.count_append]
    obtain hnone | hsome := emission_of_charge hcharge
    · simp [hnone]
    · rw [hsome, Option.toList_some, List.count_singleton]
      by_cases hrun : run = charge.run
      · simp [hrun]
      · simp [hrun, Ne.symm hrun]
  refine ⟨fun run ↦ ?_, ?_, ?_⟩
  · refine (hemitted run).trans ?_
    split
    · rename_i hrun
      subst hrun
      omega
    · exact h.bounded run
  · intro counter hcounter _
    obtain rfl := Option.some.inj ((read_written _ _).symm.trans hcounter)
    have hcovers : (incrementCounter (readContinuationCounter (s.counters sessionId)) sessionId charge.run
      s.turnId).covers charge.run s.turnId = true := incrementCounter_covers
    rw [(covers_iff.mp hcovers).1, incrementCounter_count]
    refine (hemitted charge.run).trans ?_
    rw [if_pos rfl]
    omega
  · intro other hother
    obtain hold | hnew := List.mem_append.mp hother
    · exact h.charges other hold
    · rw [hcharge, Option.toList_some, List.mem_singleton] at hnew
      exact hnew ▸ hright

theorem WithinBudget.stopped (h : WithinBudget sessionId s) {edge : StopEdge}
    (hsession : edge.input.sessionId = sessionId) (hturn : edge.input.diagnosticTurnId = s.turnId)
    (hsingle : SingleRun root s edge) : WithinBudget sessionId (s.stopped root edge) := by
  subst hsession
  have hstopped := handleSessionStop_stopped root edge.environment edge.input
    ⟨⟨s.disk, edge.environment.deadline⟩, s.counters⟩
  unfold StopSystem.stopped
  dsimp only at hstopped ⊢
  generalize handleSessionStop root edge.environment edge.input
    ⟨⟨s.disk, edge.environment.deadline⟩, s.counters⟩ = stop at hstopped ⊢
  obtain ⟨outcome, ⟨session, counters⟩⟩ := stop
  dsimp only at hstopped ⊢
  cases hstopped with
  | silent =>
    refine ⟨?_, ?_, ?_⟩
    · simpa [StopOutcome.emission] using h.bounded
    · simpa [StopOutcome.emission] using h.recorded
    · simpa [StopOutcome.charge] using h.charges
  | exhausted hbudget =>
    obtain ⟨counter, hcounter, hexhausted⟩ := exhaustedCounter_eq hbudget
    refine ⟨?_, ?_, ?_⟩
    · simpa [StopOutcome.emission] using h.bounded
    · intro later hlater hlaterTurn
      obtain rfl := Option.some.inj ((read_written _ _).symm.trans hlater)
      rw [hexhausted] at hlaterTurn ⊢
      simpa [StopOutcome.emission] using h.recorded counter hcounter hlaterTurn
    · simpa [StopOutcome.charge] using h.charges
  | charged hcharge hwarrants hbudget =>
    obtain ⟨snapshot, run, additionalContext, mutation, hreads, hdecision, hrun, hcharged⟩ :=
      hwarrants.decided
    obtain ⟨hsole, hcovered⟩ := hsingle snapshot run additionalContext mutation hreads hdecision
    have hright := (hcharged hsole).trans hrun.symm
    rw [hright, hturn] at hbudget ⊢
    exact h.charged hcharge hright (h.count_le (hrun ▸ hcovered)) hbudget session.disk

theorem withinBudget_step : Preserves (StopStep root sessionId (SingleRun root)) (WithinBudget sessionId) := by
  intro s t h hstep
  cases hstep with
  | stop hsession hturn hok => exact h.stopped hsession hturn hok
  | turn turnId => exact ⟨by simp, by simp, h.charges⟩
  | other hdisk hcounters =>
    refine ⟨h.bounded, ?_, h.charges⟩
    intro counter hcounter
    exact h.recorded counter (hcounters ▸ hcounter)

/-- In every history whose edges find no other run, no run is continued more than the maximum of times
in a turn, and every charge goes to the run that is continued. -/
theorem idle_budget (hstart : s.emitted = [] ∧ s.charges = [])
    (hrun : ReflTransGen (StopStep root sessionId (SingleRun root)) s t) :
    (∀ run, t.emitted.count run ≤ maxIdleContinuations) ∧ ∀ charge ∈ t.charges, charge.charged = charge.run := by
  have hwithin : WithinBudget sessionId s := by
    refine ⟨?_, ?_, ?_⟩
    · simp [hstart.1]
    · simp [hstart.1]
    · simp [hstart.2]
  have hlast := withinBudget_step.run hrun hwithin
  exact ⟨hlast.bounded, hlast.charges⟩

end Budget

/-! A session that has created a loop, and then starts work on a plan too. -/

def idlePlan : Plan where
  planId := "33333333-3333-4333-8333-333333333333"
  canonicalPath := "/repo/plan.md"
  displayPath := "/repo/plan.md"
  allowedRoot := "/repo"
  allowedRootDisplay := "/repo"
  taskFingerprint := String.ofList (List.replicate 64 '0')
  taskIds := ["T1"]

def plannedRun : AnyRun :=
  { Sample.run with
    runId := "22222222-2222-4222-8222-222222222222"
    payload := .startWork ⟨.active, idlePlan⟩ }

def plannedCreation : PersistedStateEvent :=
  { Sample.secondCreation with
    runId := plannedRun.runId
    workflow := .startWork
    mutation := .runCreated plannedRun }

def idleRoot : Disk := { Sample.initial with receipts := fun _ ↦ .ok .empty }

/-- The root with the loop. -/
def loopRoot : Disk := (Action.exec (commit Sample.root Sample.options (.ofValue Sample.creation))
  ⟨idleRoot, none⟩).2.disk

/-- The root with both runs. -/
def sharedRoot : Disk := (Action.exec (commit Sample.root Sample.options (.ofValue plannedCreation))
  ⟨loopRoot, none⟩).2.disk

def idleEdge : StopEdge where
  input := ⟨some 10, "session", 0, some "leaf-1", "session", false⟩
  environment := ⟨none, ⟨fun _ ↦ some ⟨["T1"], ["T1"], idlePlan.taskFingerprint⟩,
    "88888888-8888-4888-8888-888888888888", Sample.now, Sample.options⟩, true⟩

def idleSession (disk : Disk) : StopSystem := ⟨disk, fun _ ↦ none, 0, [], []⟩

theorem loopRoot_reachable : ReflTransGen (RootStep Sample.root) idleRoot loopRoot := by
  have hexec : Action.exec (commit Sample.root Sample.options (.ofValue Sample.creation))
    ⟨idleRoot, none⟩ = (_, _) := Prod.mk.eta.symm
  exact .single (.commit (EventObject.faithful_ofValue (by decide)) hexec)

theorem sharedRoot_reachable : ReflTransGen (RootStep Sample.root) idleRoot sharedRoot := by
  have hexec : Action.exec (commit Sample.root Sample.options (.ofValue plannedCreation))
    ⟨loopRoot, none⟩ = (_, _) := Prod.mk.eta.symm
  exact loopRoot_reachable.tail (.commit (EventObject.faithful_ofValue (by decide)) hexec)

/-- What others do to the root, as steps of the session. -/
theorem others_commit {root : StateRoot} {sessionId : String} {ok : StopSystem → StopEdge → Prop}
    {disk after : Disk} (hrun : ReflTransGen (RootStep root) disk after) :
    ReflTransGen (StopStep root sessionId ok) (idleSession disk) (idleSession after) := by
  induction hrun with
  | refl => exact .refl
  | tail _ hstep ih => exact ih.tail (.other hstep rfl)

/-- Two runs of the session are live: the one with the plan is continued, and the loop is charged. -/
theorem charge_misplaced :
    ∃ s t, EmptyRoot s.disk ∧ s.emitted = [] ∧ s.charges = [] ∧
      ReflTransGen (StopStep Sample.root "session" fun _ _ ↦ True) s t ∧
      ¬ ((∀ run, t.emitted.count run ≤ maxIdleContinuations) ∧
        ∀ charge ∈ t.charges, charge.charged = charge.run) := by
  have hempty : EmptyRoot idleRoot := ⟨⟨.v2 1, by decide⟩, rfl, fun _ ↦ rfl⟩
  have hstop : StopStep Sample.root "session" (fun _ _ ↦ True) (idleSession sharedRoot)
      ((idleSession sharedRoot).stopped Sample.root idleEdge) := .stop rfl rfl trivial
  have hcharges : ((idleSession sharedRoot).stopped Sample.root idleEdge).charges =
      [⟨plannedRun.runId, Sample.run.runId⟩] := by decide +kernel
  refine ⟨idleSession idleRoot, _, hempty, rfl, rfl, (others_commit sharedRoot_reachable).tail hstop, ?_⟩
  rintro ⟨-, hcharged⟩
  have hsame := hcharged _ (hcharges ▸ List.mem_singleton_self _)
  exact absurd hsame (by decide)

theorem singleRun_loopRoot : SingleRun Sample.root (idleSession loopRoot) idleEdge := by
  have hindex : readIndex loopRoot = .ok Sample.index := by decide
  intro snapshot run additionalContext mutation hreads hdecision
  have hsnapshot : Sample.index = snapshot.index := Except.ok.inj (hindex.symm.trans hreads.index)
  obtain ⟨entry, hmem, -, hid⟩ := entry_of_continued hdecision
  refine ⟨fun other hother _ ↦ ?_, fun hemitted ↦ absurd hemitted List.not_mem_nil⟩
  rw [← hsnapshot] at hmem hother
  rw [List.mem_singleton.mp hother, ← hid, List.mem_singleton.mp hmem]

theorem idle_budget_loop :
    ∃ t, ReflTransGen (StopStep Sample.root "session" (SingleRun Sample.root)) (idleSession idleRoot) t ∧
      t.emitted = [Sample.run.runId] ∧
      ((∀ run, t.emitted.count run ≤ maxIdleContinuations) ∧
        ∀ charge ∈ t.charges, charge.charged = charge.run) := by
  have hstop : StopStep Sample.root "session" (SingleRun Sample.root) (idleSession loopRoot)
      ((idleSession loopRoot).stopped Sample.root idleEdge) := .stop rfl rfl singleRun_loopRoot
  have hrun := (others_commit loopRoot_reachable).tail hstop
  exact ⟨_, hrun, by decide +kernel, idle_budget ⟨rfl, rfl⟩ hrun⟩

end OmpLazy.Continuation

import OmpLazy.Gates.TaskSpawnGuard
import OmpLazy.State.IndexCoherence

/-! The dispatcher of tool calls: it finds the run of a session, and leaves what is controlled to the guard of that run. -/

namespace OmpLazy.Gates

open OmpLazy.Foundation OmpLazy.Foundation.Text OmpLazy.Contracts OmpLazy.State Relation

inductive CurrentRunScope where
  | foreign
  | conflict
  | current (run : AnyRun)
  deriving DecidableEq

def isNonterminal (run : AnyRun) : Bool :=
  match run.status with
  | .active | .paused | .stuck | .blocked | .needsUserDecision | .reviewBlocked => true
  | .completed | .cancelled | .failed | .abandoned => false

/-- The run of a session, of a directory that has a root or none. -/
def resolveCurrentRunScope (root : Option StateRoot) (disk : Disk) (sessionId : String) : CurrentRunScope :=
  match root with
  | none => .foreign
  | some root =>
    match readIndex disk with
    | .error _ => .conflict
    | .ok index =>
      match index.validateActiveIndex with
      | .error _ => .conflict
      | .ok _ =>
        match index.entries.filter (·.sessionId = sessionId) with
        | [] => .foreign
        | [entry] =>
          match readRun root disk entry.runId with
          | .ok (some run) =>
            if !isNonterminal run ∨ run.workflow ≠ entry.workflow ∨ run.owner.sessionId ≠ entry.sessionId ∨
                run.owner.epoch ≠ entry.ownerEpoch ∨ run.revision ≠ entry.runRevision ∨
                run.transactionRevision ≠ entry.transactionRevision then
              .conflict
            else .current run
          | _ => .conflict
        | _ => .conflict

/-- The policy of the packet that the run is bound to. -/
def currentTaskSpawnPacketPolicy (scope : TaskRunScope) : Option TaskSpawnPacketPolicy :=
  match scope.run.version, scope.ledger.version with
  | .v2 runHash _, .v2 (some packetHash) (some tier) _ =>
    if runHash ≠ some packetHash then none else some ⟨packetHash, tier, tierAgentEligibility tier⟩
  | _, _ => none

def workflowConflict : TaskSpawnGuardResult := .block "omp-lazy: active workflow state conflict"

/-- The answer to a tool call. What the guard throws is not caught. -/
def dispatchToolCall (root : Option StateRoot) (disk : Disk) (store : TaskStore) (acquired : Bool) (maxFanOut : ℕ)
    (sessionId : String) : ImmutableToolAuthorization → TaskSpawnGuardResult
  | .passThrough => .passed
  | authorization =>
    match resolveCurrentRunScope root disk sessionId with
    | .foreign => .passed
    | .conflict => workflowConflict
    | .current run =>
      match store.resolve sessionId with
      | some (.scope scope) =>
        if scope.run.runId ≠ run.runId ∨ scope.run.revision ≠ run.revision ∨
            scope.run.transactionRevision ≠ run.transactionRevision ∨ scope.run.owner.sessionId ≠ sessionId ∨
            scope.run.owner.epoch ≠ run.owner.epoch then
          workflowConflict
        else TaskSpawnGuard.handleAuthorized store acquired sessionId
          ⟨maxFanOut, currentTaskSpawnPacketPolicy scope⟩ authorization
      | _ => workflowConflict

/-- The runs of a session that have not ended. -/
def LiveOf (stored : Snapshots) (sessionId : String) (id : Uuid) : Prop :=
  ∃ run ∈ stored id, isNonterminal run = true ∧ trim run.owner.sessionId = sessionId

section Reading

variable {root : StateRoot} {disk : Disk} {id : Uuid} {run : AnyRun}

def storedRun (root : StateRoot) (disk : Disk) (id : Uuid) : Option (Option AnyRun) :=
  match readRun root disk id with
  | .ok run => some run
  | .error _ => none

theorem storedRun_decoded (id : Uuid) (run : AnyRun) (h : storedRun root disk id = some (some run)) :
    runSchema (encodeRun run) = some run := by
  unfold storedRun at h
  split at h
  · rename_i hread
    obtain rfl := Option.some.inj h
    exact (readRun_settled hread).1
  · cases h

end Reading

/-- The ledgers' view of a root. -/
def taskStoreOf (root : StateRoot) (disk : Disk) (index : ActiveIndex) (ledgers : Uuid → Option Json) : TaskStore where
  index := index
  readRun := storedRun root disk
  ledgers := ledgers
  decoded := storedRun_decoded

section Dispatching

variable {root : StateRoot} {disk₀ disk : Disk} {index : ActiveIndex} {stored : Snapshots} {sessionId : String}
  {id other : Uuid} {run : AnyRun} {entry : ActiveIndexEntry}

theorem isNonterminal_iff : isNonterminal run = true ↔ ∃ hint, statusHint run = some hint := by
  unfold isNonterminal statusHint
  cases run.status <;> simp

theorem liveOf_iff (h : Describes stored index) : LiveOf stored sessionId id ↔
    ∃ entry ∈ index.entries.filter (·.sessionId = sessionId), entry.runId = id := by
  constructor
  · rintro ⟨run, hrun, hlive, hsession⟩
    obtain ⟨hint, hhint⟩ := isNonterminal_iff.mp hlive
    obtain rfl := h.runIds id run hrun
    refine ⟨indexEntry run.tidy run.transactionRevision hint, List.mem_filter.mpr ⟨?_, decide_eq_true hsession⟩, rfl⟩
    rw [h.mem_iff]
    refine ⟨run, hrun, ?_⟩
    rw [entryOf, hhint]
    exact Option.mem_some_self _
  · rintro ⟨entry, hmem, rfl⟩
    obtain ⟨hmem, hsession⟩ := List.mem_filter.mp hmem
    obtain ⟨run, hrun, hentry⟩ := (h.mem_iff entry).mp hmem
    have hagrees := agrees_of_entryOf hentry
    exact ⟨run, hrun, isNonterminal_iff.mpr ⟨_, hagrees.statusHint⟩,
      hagrees.sessionId.symm.trans (of_decide_eq_true hsession)⟩

theorem entries_foreign (h : Describes stored index) (hnone : ∀ id, ¬ LiveOf stored sessionId id) :
    index.entries.filter (·.sessionId = sessionId) = [] := by
  rw [List.eq_nil_iff_forall_not_mem]
  intro entry hmem
  exact hnone entry.runId ((liveOf_iff h).mpr ⟨entry, hmem, rfl⟩)

theorem entries_single (h : Describes stored index) (hvalid : index.Valid) (hlive : LiveOf stored sessionId id)
    (honly : ∀ other, LiveOf stored sessionId other → other = id) :
    ∃ entry, index.entries.filter (·.sessionId = sessionId) = [entry] ∧ entry.runId = id := by
  obtain ⟨entry, hmem, hid⟩ := (liveOf_iff h).mp hlive
  have hnodup : ((index.entries.filter (·.sessionId = sessionId)).map (·.runId)).Nodup :=
    hvalid.runIds.sublist (List.filter_sublist.map _)
  have hsame : ∀ entry ∈ index.entries.filter (·.sessionId = sessionId), entry.runId = id :=
    fun entry hmem ↦ honly entry.runId ((liveOf_iff h).mpr ⟨entry, hmem, rfl⟩)
  cases hentries : index.entries.filter (·.sessionId = sessionId) with
  | nil =>
    rw [hentries] at hmem
    cases hmem
  | cons first rest =>
    rw [hentries] at hnodup hsame
    cases rest with
    | nil => exact ⟨first, rfl, hsame first List.mem_cons_self⟩
    | cons second rest =>
      rw [List.map_cons, List.nodup_cons] at hnodup
      refine absurd ?_ hnodup.1
      rw [hsame first List.mem_cons_self, ← hsame second (List.mem_cons_of_mem _ List.mem_cons_self)]
      exact List.mem_cons_self

theorem entries_several (h : Describes stored index) (hlive : LiveOf stored sessionId id)
    (hother : LiveOf stored sessionId other) (hne : id ≠ other) :
    ∃ first second rest, index.entries.filter (·.sessionId = sessionId) = first :: second :: rest := by
  obtain ⟨entry, hmem, rfl⟩ := (liveOf_iff h).mp hlive
  obtain ⟨entry', hmem', rfl⟩ := (liveOf_iff h).mp hother
  cases hentries : index.entries.filter (·.sessionId = sessionId) with
  | nil =>
    rw [hentries] at hmem
    cases hmem
  | cons first rest =>
    cases rest with
    | nil =>
      rw [hentries] at hmem hmem'
      rw [List.mem_singleton.mp hmem, List.mem_singleton.mp hmem'] at hne
      exact absurd rfl hne
    | cons second rest => exact ⟨first, second, rest, rfl⟩

/-- The dispatcher finds what the index has of a session. -/
theorem resolveCurrentRunScope_eq (hindex : readIndex disk = .ok index) :
    resolveCurrentRunScope (some root) disk sessionId =
      match index.entries.filter (·.sessionId = sessionId) with
      | [] => .foreign
      | [entry] =>
        match readRun root disk entry.runId with
        | .ok (some run) =>
          if !isNonterminal run ∨ run.workflow ≠ entry.workflow ∨ run.owner.sessionId ≠ entry.sessionId ∨
              run.owner.epoch ≠ entry.ownerEpoch ∨ run.revision ≠ entry.runRevision ∨
              run.transactionRevision ≠ entry.transactionRevision then
            .conflict
          else .current run
        | _ => .conflict
      | _ => .conflict := by
  have hvalid := ActiveIndex.validateActiveIndex_eq_ok.mpr (readIndex_settled hindex).2
  rw [resolveCurrentRunScope, hindex]
  dsimp only
  rw [hvalid]

theorem scope_current (h : Describes stored index) (hholds : Holds disk stored) (hindex : readIndex disk = .ok index)
    (hentries : index.entries.filter (·.sessionId = sessionId) = [entry])
    (hread : readRun root disk entry.runId = .ok (some run)) :
    resolveCurrentRunScope (some root) disk sessionId = .current run ∧ run.runId = entry.runId ∧
      run.owner.sessionId = sessionId ∧ entryMatches entry run = true := by
  have hmem : entry ∈ index.entries.filter (·.sessionId = sessionId) := hentries ▸ List.mem_singleton_self entry
  obtain ⟨hmem, hsession⟩ := List.mem_filter.mp hmem
  have hsession : entry.sessionId = sessionId := of_decide_eq_true hsession
  obtain ⟨hagrees, howner⟩ := h.read_agrees hholds hread hmem rfl
  have hlive := isNonterminal_iff.mpr ⟨_, hagrees.statusHint⟩
  refine ⟨?_, hagrees.runId.symm, howner.symm.trans hsession, ?_⟩
  · rw [resolveCurrentRunScope_eq hindex, hentries]
    dsimp only
    rw [hread]
    dsimp only
    rw [if_neg]
    simp [hlive, hagrees.workflow, howner, hagrees.ownerEpoch, hagrees.runRevision, hagrees.transactionRevision]
  · simp [entryMatches, hagrees.workflow, howner, hagrees.ownerEpoch, hagrees.runRevision, hagrees.transactionRevision]

theorem scope_conflict (hindex : readIndex disk = .ok index)
    (hentries : index.entries.filter (·.sessionId = sessionId) = [entry])
    (hread : ∀ run, readRun root disk entry.runId ≠ .ok (some run)) :
    resolveCurrentRunScope (some root) disk sessionId = .conflict := by
  rw [resolveCurrentRunScope_eq hindex, hentries]
  dsimp only
  split
  · rename_i run hrun
    exact absurd hrun (hread run)
  · rfl

variable {ledgers : Uuid → Option Json} {acquired : Bool} {maxFanOut : ℕ} {authorization : ImmutableToolAuthorization}

theorem dispatch_scoped (hcontrolled : authorization ≠ .passThrough) (store : TaskStore) :
    dispatchToolCall (some root) disk store acquired maxFanOut sessionId authorization =
      match resolveCurrentRunScope (some root) disk sessionId with
      | .foreign => .passed
      | .conflict => workflowConflict
      | .current run =>
        match store.resolve sessionId with
        | some (.scope scope) =>
          if scope.run.runId ≠ run.runId ∨ scope.run.revision ≠ run.revision ∨
              scope.run.transactionRevision ≠ run.transactionRevision ∨ scope.run.owner.sessionId ≠ sessionId ∨
              scope.run.owner.epoch ≠ run.owner.epoch then
            workflowConflict
          else TaskSpawnGuard.handleAuthorized store acquired sessionId
            ⟨maxFanOut, currentTaskSpawnPacketPolicy scope⟩ authorization
        | _ => workflowConflict := by
  cases authorization with
  | passThrough => exact absurd rfl hcontrolled
  | _ => rfl

/-- What the dispatcher answers for a session that has one run. -/
def guardedAnswer (store : TaskStore) (acquired : Bool) (maxFanOut : ℕ) (sessionId : String) (run : AnyRun)
    (authorization : ImmutableToolAuthorization) : TaskSpawnGuardResult :=
  match readLedger run (store.ledgers run.runId) with
  | some ledger => TaskSpawnGuard.handleAuthorized store acquired sessionId
    ⟨maxFanOut, currentTaskSpawnPacketPolicy ⟨run, ledger⟩⟩ authorization
  | none => workflowConflict

theorem dispatch_current (hcontrolled : authorization ≠ .passThrough) (h : Describes stored index)
    (hholds : Holds disk stored) (hindex : readIndex disk = .ok index)
    (hentries : index.entries.filter (·.sessionId = sessionId) = [entry])
    (hread : readRun root disk entry.runId = .ok (some run)) :
    dispatchToolCall (some root) disk (taskStoreOf root disk index ledgers) acquired maxFanOut sessionId authorization =
      guardedAnswer (taskStoreOf root disk index ledgers) acquired maxFanOut sessionId run authorization := by
  obtain ⟨hcurrent, hid, howner, hmatches⟩ := scope_current h hholds hindex hentries hread
  have hstored : (taskStoreOf root disk index ledgers).readRun entry.runId = some (some run) := by
    change storedRun root disk entry.runId = _
    rw [storedRun, hread]
  have hindexed : (taskStoreOf root disk index ledgers).index.entries.filter (·.sessionId = sessionId) = [entry] := hentries
  have hresolve : (taskStoreOf root disk index ledgers).resolve sessionId =
      (readLedger run ((taskStoreOf root disk index ledgers).ledgers run.runId)).map fun ledger ↦ .scope ⟨run, ledger⟩ := by
    rw [TaskStore.resolve, hindexed]
    dsimp only
    rw [hstored]
    simp only [Option.bind_eq_bind, Option.bind_some, hmatches, if_true]
    cases readLedger run ((taskStoreOf root disk index ledgers).ledgers run.runId) <;> rfl
  rw [dispatch_scoped hcontrolled, hcurrent, guardedAnswer]
  dsimp only
  rw [hresolve]
  cases readLedger run ((taskStoreOf root disk index ledgers).ledgers run.runId) with
  | none => rfl
  | some ledger =>
    dsimp only [Option.map_some]
    rw [if_neg]
    simp [howner]

/-- In a healthy root a controlled call of a session without a run is let through, one of a session with a run is left
to the guard of that run as far as its snapshot and its ledger are read, and one of a session with two runs is blocked. -/
theorem dispatch_healthy {revision : ℕ} (hcontrolled : authorization ≠ .passThrough) (hempty : EmptyRoot disk₀)
    (hsteps : ReflTransGen (RootStep root) disk₀ disk) (hhealthy : inspectRecovery disk = .healthy revision)
    (hindex : readIndex disk = .ok index) : ∃ stored, Holds disk stored ∧ Describes stored index ∧
      ((∀ id, ¬ LiveOf stored sessionId id) →
        dispatchToolCall (some root) disk (taskStoreOf root disk index ledgers) acquired maxFanOut sessionId authorization =
          .passed) ∧
      (∀ id other, LiveOf stored sessionId id → LiveOf stored sessionId other → id ≠ other →
        dispatchToolCall (some root) disk (taskStoreOf root disk index ledgers) acquired maxFanOut sessionId authorization =
          workflowConflict) ∧
      ∀ id, LiveOf stored sessionId id → (∀ other, LiveOf stored sessionId other → other = id) →
        (∀ run, readRun root disk id = .ok (some run) →
          dispatchToolCall (some root) disk (taskStoreOf root disk index ledgers) acquired maxFanOut sessionId
            authorization =
              guardedAnswer (taskStoreOf root disk index ledgers) acquired maxFanOut sessionId run authorization) ∧
        ((∀ run, readRun root disk id ≠ .ok (some run)) →
          dispatchToolCall (some root) disk (taskStoreOf root disk index ledgers) acquired maxFanOut sessionId
            authorization = workflowConflict) := by
  obtain ⟨index', events, stored, hindex', -, hholds, hdescribes, -, -⟩ := level_of_healthy hempty hsteps hhealthy
  obtain rfl := Except.ok.inj (hindex.symm.trans hindex')
  have hvalid := (readIndex_settled hindex).2
  refine ⟨stored, hholds, hdescribes, fun hnone ↦ ?_, fun id other hlive hother hne ↦ ?_, fun id hlive honly ↦ ?_⟩
  · rw [dispatch_scoped hcontrolled, resolveCurrentRunScope_eq hindex, entries_foreign hdescribes hnone]
  · obtain ⟨first, second, rest, hentries⟩ := entries_several hdescribes hlive hother hne
    rw [dispatch_scoped hcontrolled, resolveCurrentRunScope_eq hindex, hentries]
  · obtain ⟨entry, hentries, rfl⟩ := entries_single hdescribes hvalid hlive honly
    constructor
    · intro run hread
      exact dispatch_current hcontrolled hdescribes hholds hindex hentries hread
    · intro hread
      rw [dispatch_scoped hcontrolled, scope_conflict hindex hentries hread]

end Dispatching

/-- A call that is malformed, of the session that owns the run of a root. -/
theorem dispatch_created : dispatchToolCall (some State.Sample.root) State.Sample.created
    (taskStoreOf State.Sample.root State.Sample.created State.Sample.index fun _ ↦ none) true 32 "session"
      (.denied (malformedReason "task")) = .block "omp-lazy: malformed task input" := by
  have hhealthy : inspectRecovery State.Sample.created = .healthy 1 := by decide
  have hindex : readIndex State.Sample.created = .ok State.Sample.index := by decide
  have hread : readRun State.Sample.root State.Sample.created State.Sample.runId = .ok (some State.Sample.run) := by decide
  have hcontrolled : ImmutableToolAuthorization.denied (malformedReason "task") ≠ .passThrough := by
    intro h
    cases h
  obtain ⟨stored, -, hdescribes, -, -, hsingle⟩ := dispatch_healthy hcontrolled State.Sample.initial_empty
    State.Sample.created_reachable hhealthy hindex
  have hlive : ∀ id, LiveOf stored "session" id ↔ State.Sample.runId = id := by
    intro id
    have hentries : State.Sample.index.entries.filter (·.sessionId = "session") =
        [indexEntry State.Sample.run 1 .active] := by decide
    rw [liveOf_iff hdescribes, hentries]
    simp only [List.mem_singleton, exists_eq_left]
    rfl
  have hanswer := (hsingle State.Sample.runId ((hlive _).mpr rfl) fun other hother ↦ ((hlive other).mp hother).symm).1
    State.Sample.run hread
  exact hanswer.trans (by decide)

end OmpLazy.Gates

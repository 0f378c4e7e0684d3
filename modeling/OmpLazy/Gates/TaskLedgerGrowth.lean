import OmpLazy.Gates.TaskLedgerLaws
import OmpLazy.State.SnapshotClosure
import Mathlib.Algebra.Order.BigOperators.Group.List
import Mathlib.Algebra.Order.Ring.Nat
import Mathlib.Logic.Relation

/-! Any number of calls of any owners: the ledgers of task facts only grow, within the fan-out. -/

namespace OmpLazy.Gates

open OmpLazy.Foundation OmpLazy.Contracts Relation
open OmpLazy.State (Uuid)

/-- The entries of an owner. -/
def ownedEntries (session : String) (epoch : ℕ) (entries : List TaskLedgerEntry) : List TaskLedgerEntry :=
  entries.filter fun entry ↦ entry.ownerSessionId = session && entry.ownerEpoch = epoch

def reservedBy (session : String) (epoch : ℕ) (entries : List TaskLedgerEntry) :
    List TaskReservationFact :=
  (ownedEntries session epoch entries).filterMap (·.fact.reservation)

/-- A ledger whose entries are numbered, unique by their owners' keys and within the fan-out. -/
structure Orderly (maxFanOut : ℕ) (ledger : PersistedTaskLedger) : Prop where
  revision : ledger.ledgerRevision = ledger.entries.length
  sequences : ledger.entries.map (·.sequence) = List.range' 1 ledger.ledgerRevision
  keys : ∀ session epoch, ((ownedEntries session epoch ledger.entries).map (taskFactKey ·.fact)).Nodup
  fanOut : ∀ session epoch, ((reservedBy session epoch ledger.entries).map (·.itemCount)).sum ≤ maxFanOut
  calls : ∀ session epoch, ((reservedBy session epoch ledger.entries).map (·.toolCallId)).Nodup

/-- A reservation is asked for within the fan-out. -/
def GateCall.Within (maxFanOut : ℕ) : GateCall → Prop
  | .reserve _ limit => limit ≤ maxFanOut
  | _ => True

/-- A call of any session, whatever the index and the runs have become. -/
def Transacts (maxFanOut : ℕ) (ledgers later : Uuid → Option Json) : Prop :=
  ∃ (store : TaskStore) (acquired : Bool) (sessionId : String) (call : GateCall),
    store.ledgers = ledgers ∧ call.Within maxFanOut ∧ store.after acquired sessionId call = later

/-- Every ledger has kept its entries in their places. -/
def Extends (ledgers later : Uuid → Option Json) : Prop :=
  ∀ runId json ledger, ledgers runId = some json → readTaskLedger json = some ledger →
    ∃ json' ledger', later runId = some json' ∧ readTaskLedger json' = some ledger' ∧
      ledger.entries <+: ledger'.entries

/-! What the schema says about the entries of an owner. -/

section Keys

variable {ledger : PersistedTaskLedger} (hsettled : ledger.Settled)

include hsettled

theorem settled_ordered : ledger.ledgerRevision = ledger.entries.length ∧
    ledger.entries.map (·.sequence) = List.range' 1 ledger.ledgerRevision ∧
      (ledger.entries.map entryKey).Nodup := by
  have hordered := hsettled.ordered
  simp only [ledgerIsOrdered, Bool.and_eq_true, decide_eq_true_eq] at hordered
  obtain ⟨⟨hrevision, hsequences⟩, hkeys⟩ := hordered
  exact ⟨hrevision, hrevision ▸ hsequences, hkeys⟩

theorem owned_keys (session : String) (epoch : ℕ) :
    ((ownedEntries session epoch ledger.entries).map (taskFactKey ·.fact)).Nodup := by
  have hkeys := (settled_ordered hsettled).2.2
  refine List.Nodup.map_on ?_ (hkeys.of_map.filter _)
  intro entry hentry entry' hentry' heq
  have howner := List.of_mem_filter hentry
  have howner' := List.of_mem_filter hentry'
  simp only [Bool.and_eq_true, decide_eq_true_eq] at howner howner'
  refine List.inj_on_of_nodup_map hkeys (List.mem_of_mem_filter hentry) (List.mem_of_mem_filter hentry') ?_
  rw [entryKey, entryKey, howner.1, howner.2, howner'.1, howner'.2, heq]

/-- Facts of one kind are told apart by their calls. -/
theorem owned_calls {α : Type} (project : TaskFact → Option α) (toolCallId : α → ToolCallId)
    (hkey : ∀ fact fact' x x', project fact = some x → project fact' = some x' →
      toolCallId x = toolCallId x' → taskFactKey fact = taskFactKey fact')
    (session : String) (epoch : ℕ) :
    (((ownedEntries session epoch ledger.entries).filterMap (project ·.fact)).map toolCallId).Nodup := by
  have hkeys := owned_keys hsettled session epoch
  rw [List.Nodup, List.pairwise_map] at hkeys ⊢
  refine List.Pairwise.filterMap _ ?_ hkeys
  exact fun entry entry' hne x hx x' hx' heq ↦ hne (hkey _ _ x x' hx hx' heq)

theorem reserved_calls (session : String) (epoch : ℕ) :
    ((reservedBy session epoch ledger.entries).map (·.toolCallId)).Nodup := by
  refine owned_calls hsettled TaskFact.reservation _ ?_ session epoch
  intro fact fact' reservation reservation' h h' heq
  cases fact <;> cases h
  cases fact' <;> cases h'
  obtain rfl := heq
  rfl

end Keys

/-! What a call adds. -/

section Decisions

variable {scope : TaskRunScope} {call : GateCall} {facts : List BuiltFact} {status : GateStatus}

/-- The reservations among new facts. -/
def reservationsOf (facts : List BuiltFact) : List TaskReservationFact :=
  facts.filterMap (·.fact.reservation)

theorem taskReservations_eq : scope.taskReservations =
    reservedBy scope.run.owner.sessionId scope.run.owner.epoch scope.ledger.entries := by
  rw [TaskRunScope.taskReservations, TaskRunScope.taskFacts, List.filterMap_map]
  rfl

theorem reservationsOf_map {α : Type} {items : List α} {f : α → TaskFact}
    (h : ∀ item, (f item).reservation = none) :
    reservationsOf (items.map fun item ↦ (f item).built) = [] := by
  simp [reservationsOf, TaskFact.built, List.filterMap_map, h]

theorem map_faithful {α : Type} (items : List α) (f : α → TaskFact) :
    ∀ built ∈ items.map fun item ↦ (f item).built, built.Faithful :=
  List.forall_mem_map.mpr fun _ _ ↦ built_faithful _

/-- A call that adds facts was granted; only `reserve` adds a reservation, within the fan-out. -/
theorem decide_append (maxFanOut : ℕ) (h : call.decide scope = .append facts status) :
    status.granted = true ∧ (∀ built ∈ facts, built.Faithful) ∧ (reservationsOf facts = [] ∨
      (call.Within maxFanOut → (scope.taskReservations.map (·.itemCount)).sum +
        ((reservationsOf facts).map (·.itemCount)).sum ≤ maxFanOut)) := by
  cases call with
  | reserve reservation limit =>
    obtain ⟨status, hcall, rfl⟩ := map_eq_append.mp h
    obtain ⟨-, hlimit, rfl, rfl⟩ := TaskRunScope.reserve_append hcall
    refine ⟨rfl, by simp [built_faithful], .inr fun hwithin ↦ ?_⟩
    have hle : limit ≤ maxFanOut := hwithin
    simpa [reservationsOf, TaskFact.built, TaskReservationFact.fact, TaskFact.reservation]
      using hlimit.trans hle
  | bind toolCallId bindings asyncAvailable =>
    obtain ⟨status, hcall, rfl⟩ := map_eq_append.mp h
    obtain ⟨-, -, rfl, rfl⟩ := TaskRunScope.bind_append hcall
    cases asyncAvailable <;>
      exact ⟨rfl, by simp [TaskRunScope.bindingFacts, TaskRunScope.capabilityFact, built_faithful],
        .inl rfl⟩
  | authorize authorization =>
    obtain ⟨status, hcall, rfl⟩ := map_eq_append.mp h
    obtain ⟨-, -, rfl, rfl⟩ := TaskRunScope.authorize_append hcall
    exact ⟨rfl, by simp [authorizationFact_faithful], .inl rfl⟩
  | authorizeHubWait authorization =>
    obtain ⟨status, hcall, rfl⟩ := map_eq_append.mp h
    obtain ⟨-, -, -, rfl, rfl⟩ := TaskRunScope.authorizeHubWait_append hcall
    exact ⟨rfl, by simp [TaskRunScope.hubWaitFact, built_faithful], .inl rfl⟩
  | recordJobSnapshot toolCallId inputKey jobs =>
    obtain ⟨status, hcall, rfl⟩ := map_eq_append.mp h
    obtain ⟨authorization, -, hfacts⟩ := TaskRunScope.recordJobSnapshot_append hcall
    dsimp only at hfacts
    split at hfacts <;> obtain ⟨rfl, rfl⟩ := hfacts
    · refine ⟨rfl, List.forall_mem_append.mpr ⟨map_faithful _ _, ?_⟩, .inl ?_⟩
      · simp [TaskRunScope.capabilityFact, built_faithful]
      · rw [TaskRunScope.snapshotFacts, reservationsOf, List.filterMap_append]
        exact List.append_eq_nil_iff.mpr ⟨reservationsOf_map fun _ ↦ rfl, rfl⟩
    · exact ⟨rfl, by simp [TaskRunScope.capabilityFact, built_faithful], .inl rfl⟩
  | recordCancellation toolCallId inputKey cancelled =>
    obtain ⟨status, hcall, rfl⟩ := map_eq_append.mp h
    obtain ⟨_, receipts, -, -, rfl, rfl⟩ := TaskRunScope.recordCancellation_append hcall
    exact ⟨rfl, map_faithful _ _, .inl (reservationsOf_map fun _ ↦ rfl)⟩
  | recordIrcReceipts toolCallId inputKey receipts =>
    obtain ⟨status, hcall, rfl⟩ := map_eq_append.mp h
    obtain ⟨_, -, -, -, rfl, rfl⟩ := TaskRunScope.recordIrcReceipts_append hcall
    exact ⟨rfl, map_faithful _ _, .inl (reservationsOf_map fun _ ↦ rfl)⟩

end Decisions

section Growth

variable {scope : TaskRunScope} {novel : List BuiltFact} {read : List TaskFact}

theorem itemCount_tidy (fact : TaskFact) :
    fact.tidy.reservation.map (·.itemCount) = fact.reservation.map (·.itemCount) := by
  cases fact <;> rfl

/-- What the schema reads reserves as much as what was built. -/
theorem read_itemCounts (hfaithful : ∀ built ∈ novel, built.Faithful)
    (hread : List.Forall₂ (fun (built : BuiltFact) fact ↦ factSchema built.json = some fact) novel read) :
    (read.filterMap TaskFact.reservation).map (·.itemCount) =
      (reservationsOf novel).map (·.itemCount) := by
  induction hread with
  | nil => rfl
  | @cons built fact novel read hfact _ ih =>
    obtain ⟨hbuilt, hrest⟩ := List.forall_mem_cons.mp hfaithful
    obtain ⟨-, rfl⟩ := hbuilt.read_iff.mp hfact
    have hcount := itemCount_tidy built.fact
    rw [reservationsOf, List.map_filterMap, List.map_filterMap] at ih ⊢
    simp only [List.filterMap_cons, hcount, ih hrest]

theorem newEntries_facts (facts : List TaskFact) : (scope.newEntries facts).map (·.fact) = facts :=
  List.ext_getElem (by simp [TaskRunScope.newEntries]) (by simp [TaskRunScope.newEntries])

theorem newEntries_owner {entry : TaskLedgerEntry} (h : entry ∈ scope.newEntries read) :
    entry.ownerSessionId = scope.run.owner.sessionId ∧ entry.ownerEpoch = scope.run.owner.epoch := by
  obtain ⟨_, _, rfl⟩ := List.mem_mapIdx.mp h
  exact ⟨rfl, rfl⟩

theorem reservedBy_appended (session : String) (epoch : ℕ) (entries : List TaskLedgerEntry) :
    reservedBy session epoch (entries ++ scope.newEntries read) = reservedBy session epoch entries ++
      if session = scope.run.owner.sessionId ∧ epoch = scope.run.owner.epoch then
        read.filterMap TaskFact.reservation
      else [] := by
  rw [reservedBy, ownedEntries, List.filter_append, List.filterMap_append]
  congr 1
  split
  · rename_i howner
    obtain ⟨rfl, rfl⟩ := howner
    have hall : ∀ entry ∈ scope.newEntries read, (entry.ownerSessionId = scope.run.owner.sessionId &&
        entry.ownerEpoch = scope.run.owner.epoch) = true := fun entry hentry ↦ by
      simp [newEntries_owner hentry]
    rw [List.filter_eq_self.mpr hall]
    calc (scope.newEntries read).filterMap (·.fact.reservation)
        = ((scope.newEntries read).map (·.fact)).filterMap TaskFact.reservation := by
          rw [List.filterMap_map]; rfl
      _ = read.filterMap TaskFact.reservation := by rw [newEntries_facts]
  · rename_i howner
    have hnone : ∀ entry ∈ scope.newEntries read,
        ¬ (entry.ownerSessionId = session && entry.ownerEpoch = epoch) = true := fun entry hentry ↦ by
      obtain ⟨hsession, hepoch⟩ := newEntries_owner hentry
      simp only [hsession, hepoch, Bool.and_eq_true, decide_eq_true_eq]
      exact fun heq ↦ howner ⟨heq.1.symm, heq.2.symm⟩
    rw [List.filter_eq_nil_iff.mpr hnone, List.filterMap_nil]

end Growth

/-! One call. -/

section Step

variable {store : TaskStore} {acquired : Bool} {sessionId : String} {call : GateCall} {maxFanOut : ℕ}
  {scope : TaskRunScope} {facts novel : List BuiltFact} {status : GateStatus} {ledger : PersistedTaskLedger}

/-- The ledger after an append stays within the fan-out. -/
theorem appends_fanOut (hwithin : call.Within maxFanOut)
    (h : store.Appends sessionId (fun scope ↦ call.decide scope) scope facts novel status ledger)
    (hbefore : ∀ session epoch,
      ((reservedBy session epoch scope.ledger.entries).map (·.itemCount)).sum ≤ maxFanOut)
    (session : String) (epoch : ℕ) :
    ((reservedBy session epoch ledger.entries).map (·.itemCount)).sum ≤ maxFanOut := by
  obtain ⟨hsettled, hsession⟩ := TaskStore.resolve_settled h.hresolved
  obtain ⟨-, -, -, read, hread, hentries⟩ := TaskRunScope.appended_eq_some hsettled hsession h.happended
  obtain ⟨-, hfaithful, hreserved⟩ := decide_append maxFanOut h.hdecided
  have hsublist := (TaskRunScope.novel_eq_some h.hnovel).1
  have hcounts := read_itemCounts (fun built hbuilt ↦ hfaithful built (hsublist.subset hbuilt)) hread
  rw [hentries, reservedBy_appended]
  split
  · rename_i howner
    obtain ⟨rfl, rfl⟩ := howner
    have hsum : ((reservationsOf novel).map (·.itemCount)).sum ≤
        ((reservationsOf facts).map (·.itemCount)).sum :=
      ((hsublist.filterMap _).map _).sum_le_sum fun _ _ ↦ Nat.zero_le _
    rw [List.map_append, List.sum_append, hcounts]
    obtain hnone | hlimit := hreserved
    · rw [hnone, List.map_nil, List.sum_nil] at hsum
      have hold := hbefore scope.run.owner.sessionId scope.run.owner.epoch
      omega
    · have hlimit := hlimit hwithin
      rw [taskReservations_eq] at hlimit
      omega
  · rw [List.append_nil]
    exact hbefore session epoch

theorem Orderly.of_settled (hsettled : ledger.Settled) (hfanOut : ∀ session epoch,
    ((reservedBy session epoch ledger.entries).map (·.itemCount)).sum ≤ maxFanOut) :
    Orderly maxFanOut ledger :=
  ⟨(settled_ordered hsettled).1, (settled_ordered hsettled).2.1, owned_keys hsettled, hfanOut,
    reserved_calls hsettled⟩

/-- The files hold orderly ledgers. -/
def AllOrderly (maxFanOut : ℕ) (ledgers : Uuid → Option Json) : Prop :=
  ∀ runId json, ledgers runId = some json → ∃ ledger, readTaskLedger json = some ledger ∧
    Orderly maxFanOut ledger

theorem after_cases : store.after acquired sessionId call = store.ledgers ∨
    ∃ scope facts novel status ledger,
      store.Appends sessionId (fun scope ↦ call.decide scope) scope facts novel status ledger ∧
        (∃ next, store.call acquired sessionId call = some (.scope status true, next)) ∧
          store.after acquired sessionId call =
            Function.update store.ledgers scope.run.runId (some (encodeTaskLedger ledger)) := by
  rw [TaskStore.after]
  cases hcall : store.call acquired sessionId call with
  | none => exact .inl rfl
  | some outcome =>
    obtain ⟨result, ledgers⟩ := outcome
    obtain ⟨rfl, -⟩ | ⟨scope, facts, novel, status, ledger, happends, rfl, rfl⟩ :=
      TaskStore.transact_cases hcall
    · exact .inl rfl
    · exact .inr ⟨scope, facts, novel, status, ledger, happends, ⟨_, rfl⟩, rfl⟩

/-- The ledger of the session's run before a call. -/
theorem resolved_stored (h : store.resolve sessionId = some (.scope scope)) :
    (store.ledgers scope.run.runId = none ∧ scope.ledger.entries = []) ∨
      ∃ json, store.ledgers scope.run.runId = some json ∧ readTaskLedger json = some scope.ledger := by
  obtain ⟨_, -, -, -, hledger⟩ := TaskStore.resolve_eq_scope h
  cases hstored : store.ledgers scope.run.runId with
  | none => exact .inl ⟨rfl, readLedger_missing (hstored ▸ hledger)⟩
  | some json => exact .inr ⟨json, rfl, by rw [hstored] at hledger; exact hledger⟩

theorem Transacts.orderly {ledgers later : Uuid → Option Json} (h : Transacts maxFanOut ledgers later)
    (hbefore : AllOrderly maxFanOut ledgers) : AllOrderly maxFanOut later := by
  obtain ⟨store, acquired, sessionId, call, rfl, hwithin, rfl⟩ := h
  obtain heq | ⟨scope, facts, novel, status, ledger, happends, -, hafter⟩ := after_cases
  · rw [heq]
    exact hbefore
  rw [hafter]
  intro runId json hjson
  rw [Function.update_apply] at hjson
  split at hjson
  · obtain rfl := Option.some.inj hjson
    obtain ⟨hsettled, hsession⟩ := TaskStore.resolve_settled happends.hresolved
    obtain ⟨hnext, -⟩ := TaskRunScope.appended_eq_some hsettled hsession happends.happended
    refine ⟨ledger, hnext.reread, .of_settled hnext (appends_fanOut hwithin happends ?_)⟩
    obtain ⟨-, hempty⟩ | ⟨json, hstored, hread⟩ := resolved_stored happends.hresolved
    · intro session epoch
      simp [hempty, reservedBy, ownedEntries]
    · obtain ⟨ledger', hread', horderly⟩ := hbefore _ json hstored
      obtain rfl := Option.some.inj (hread.symm.trans hread')
      exact horderly.fanOut
  · exact hbefore runId json hjson

theorem Extends.refl (ledgers : Uuid → Option Json) : Extends ledgers ledgers :=
  fun _ json ledger hjson hread ↦ ⟨json, ledger, hjson, hread, List.prefix_rfl⟩

theorem Extends.trans {ledgers later last : Uuid → Option Json} (h : Extends ledgers later)
    (h' : Extends later last) : Extends ledgers last := by
  intro runId json ledger hjson hread
  obtain ⟨json', ledger', hjson', hread', hprefix⟩ := h runId json ledger hjson hread
  obtain ⟨json'', ledger'', hjson'', hread'', hprefix'⟩ := h' runId json' ledger' hjson' hread'
  exact ⟨json'', ledger'', hjson'', hread'', hprefix.trans hprefix'⟩

theorem Transacts.extends {ledgers later : Uuid → Option Json} (h : Transacts maxFanOut ledgers later) :
    Extends ledgers later := by
  obtain ⟨store, acquired, sessionId, call, rfl, -, rfl⟩ := h
  obtain heq | ⟨scope, facts, novel, status, ledger, happends, -, hafter⟩ := after_cases
  · rw [heq]
    exact .refl _
  rw [hafter]
  intro runId json before hjson hread
  by_cases hrun : runId = scope.run.runId
  · subst hrun
    obtain ⟨hsettled, hsession⟩ := TaskStore.resolve_settled happends.hresolved
    obtain ⟨hnext, -, -, read, -, hentries⟩ :=
      TaskRunScope.appended_eq_some hsettled hsession happends.happended
    obtain ⟨hmissing, -⟩ | ⟨json', hstored, hread'⟩ := resolved_stored happends.hresolved
    · cases hjson.symm.trans hmissing
    obtain rfl := Option.some.inj (hjson.symm.trans hstored)
    obtain rfl := Option.some.inj (hread.symm.trans hread')
    exact ⟨encodeTaskLedger ledger, ledger, by rw [Function.update_self], hnext.reread,
      hentries ▸ List.prefix_append _ _⟩
  · exact ⟨json, before, by rw [Function.update_of_ne hrun, hjson], hread,
      List.prefix_rfl⟩

theorem extends_of_calls {ledgers later : Uuid → Option Json}
    (h : ReflTransGen (Transacts maxFanOut) ledgers later) : Extends ledgers later := by
  induction h with
  | refl => exact .refl ledgers
  | tail _ hstep ih => exact ih.trans hstep.extends

end Step

/-! Runs. -/

section Runs

variable {maxFanOut : ℕ} {ledgers : Uuid → Option Json}

/-- From no ledgers on, after any calls of any owners: the ledgers are orderly, what has been entered
stays in its place ever after, and a call that is not granted leaves them as they are. -/
theorem task_ledger_append_only (h : ReflTransGen (Transacts maxFanOut) (fun _ ↦ none) ledgers) :
    AllOrderly maxFanOut ledgers ∧
      (∀ later, ReflTransGen (Transacts maxFanOut) ledgers later → Extends ledgers later) ∧
      ∀ (store : TaskStore) (acquired : Bool) (sessionId : String) (call : GateCall),
        store.ledgers = ledgers →
        (∀ status changed next, store.call acquired sessionId call = some (.scope status changed, next) →
          status.granted = false) →
        store.after acquired sessionId call = ledgers := by
  refine ⟨?_, fun later hlater ↦ extends_of_calls hlater, fun store acquired sessionId call hledgers hrejected ↦ ?_⟩
  · induction h with
    | refl => exact fun _ _ hjson ↦ nomatch hjson
    | tail _ hstep ih => exact hstep.orderly ih
  · obtain heq | ⟨scope, facts, novel, status, ledger, happends, ⟨next, hcall⟩, -⟩ := after_cases
    · exact heq.trans hledgers
    · have hgranted := (decide_append maxFanOut happends.hdecided).1
      rw [hrejected status true _ hcall] at hgranted
      cases hgranted

end Runs

namespace Sample

/-- A store with one live run, and these files of task facts. -/
def gateStore (ledgers : Uuid → Option Json) : TaskStore where
  index := State.Sample.index
  readRun _ := some (some State.Sample.run)
  ledgers := ledgers
  decoded _ run h := by
    obtain rfl := Option.some.inj (Option.some.inj h)
    decide

def reservation : TaskReservationFact :=
  ⟨"call-1", 1, [⟨none, 0, some "worker-a", some "omp-lazy-worker-low"⟩]⟩

/-- The files after the first reservation. -/
def reservedFiles : Uuid → Option Json :=
  (gateStore fun _ ↦ none).after true "session" (.reserve reservation 1)

def bindings : List RuntimeIdentityBinding := [⟨0, "agent-1", some "job-1"⟩]

/-- The files after the first reservation was bound. -/
def boundFiles : Uuid → Option Json :=
  (gateStore reservedFiles).after true "session" (.bind "call-1" bindings true)

end Sample

theorem task_ledger_append_only_reserved :
    AllOrderly 1 Sample.reservedFiles ∧ (Sample.reservedFiles State.Sample.runId).isSome = true := by
  have hstep : Transacts 1 (fun _ ↦ none) Sample.reservedFiles :=
    ⟨Sample.gateStore fun _ ↦ none, true, "session", .reserve Sample.reservation 1, rfl, le_rfl, rfl⟩
  exact ⟨(task_ledger_append_only (.single hstep)).1, by decide⟩

end OmpLazy.Gates

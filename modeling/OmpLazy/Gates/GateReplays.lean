import OmpLazy.Gates.LedgerExtension
import Mathlib.Data.List.Dedup
import Mathlib.Data.List.Perm.Subperm

/-! Calls that are made again. -/

namespace OmpLazy.Gates

open OmpLazy.Foundation OmpLazy.Foundation.Schema OmpLazy.Foundation.Text OmpLazy.Contracts Relation
open OmpLazy.State (Uuid)
open OmpLazy.State.ReceiptAuthority

/-- A fact that is built as its schema returns it. -/
def BuiltFact.Tidy (built : BuiltFact) : Prop := built = built.fact.built ∧ built.fact.tidy = built.fact

theorem BuiltFact.Tidy.of_tidy {fact : TaskFact} (h : fact.tidy = fact) : fact.built.Tidy := ⟨rfl, h⟩

/-! The state that a call leaves. -/

/-- A fact that its schema returns as it is. -/
def TaskFact.Settled (fact : TaskFact) : Prop := factSchema (encodeFact fact) = some fact

theorem TaskFact.settled_iff {fact : TaskFact} : fact.Settled ↔ fact.Ok ∧ fact.tidy = fact :=
  TaskFact.reads.fixed_iff fact

/-- The store with other files of task facts. -/
def TaskStore.left (store : TaskStore) (ledgers : Uuid → Option Json) : TaskStore :=
  { store with ledgers := ledgers }

def GateStatus.repeated : GateStatus → GateStatus
  | .reserve _ => .reserve .replayed
  | status => status

namespace TaskRunScope

variable {scope later last : TaskRunScope}

theorem Extended.trans (h : Extended scope later) (h' : Extended later last) : Extended scope last :=
  ⟨h'.owner.trans h.owner, h.entries.trans h'.entries, h'.settled⟩

theorem Extended.holds (h : Extended scope later) {built : BuiltFact} (hheld : scope.Holds built) :
    later.Holds built := by
  obtain ⟨existing, hexisting, hsame⟩ := hheld
  exact ⟨existing, h.factByKey hexisting, hsame⟩

theorem settled_of_mem (hsettled : scope.ledger.Settled) {fact : TaskFact} (h : fact ∈ scope.taskFacts) :
    fact.Settled := by
  obtain ⟨entry, hentry, rfl⟩ := List.mem_map.mp h
  obtain ⟨hok, htidy⟩ := hsettled.entries entry (List.mem_of_mem_filter hentry)
  exact TaskFact.settled_iff.mpr ⟨hok.fact, congrArg TaskLedgerEntry.fact htidy⟩

/-- What the ledger holds as it was built in the order of the schema is settled, and it is there. -/
theorem Holds.settled (hsettled : scope.ledger.Settled) {fact : TaskFact} (h : scope.Holds fact.built) :
    fact.Settled ∧ fact ∈ scope.taskFacts := by
  obtain ⟨existing, hexisting, hsame⟩ := h
  obtain rfl := encodeFact_injective hsame
  have hmem := ((factByKey_eq_some hsettled).mp hexisting).1
  exact ⟨settled_of_mem hsettled hmem, hmem⟩

theorem ownerEntries_appended {ledger : PersistedTaskLedger} {read : List TaskFact}
    (h : ledger.entries = scope.ledger.entries ++ scope.newEntries read) :
    (⟨scope.run, ledger⟩ : TaskRunScope).currentOwnerEntries =
      scope.currentOwnerEntries ++ scope.newEntries read := by
  rw [currentOwnerEntries, h, List.filter_append]
  congr 1
  refine List.filter_eq_self.mpr fun entry hentry ↦ ?_
  obtain ⟨hsession, hepoch⟩ := newEntries_owner hentry
  simp [ownedBy, hsession, hepoch]

end TaskRunScope

namespace TaskStore

variable {store : TaskStore} {sessionId : String} {call : GateCall} {status : GateStatus} {changed : Bool}
  {ledgers : Uuid → Option Json} {scope : TaskRunScope} {facts : List BuiltFact}

theorem resolve_left {ledger : PersistedTaskLedger} (h : store.resolve sessionId = some (.scope scope))
    (hledger : readLedger scope.run (ledgers scope.run.runId) = some ledger) :
    (store.left ledgers).resolve sessionId = some (.scope ⟨scope.run, ledger⟩) := by
  obtain ⟨entry, hentries, hrun, hmatches, -⟩ := resolve_eq_scope h
  simp only [resolve, left, hentries, hrun, hmatches, Option.bind_eq_bind, Option.bind_some, if_true,
    hledger]

theorem call_returned (hresolved : store.resolve sessionId = some (.scope scope))
    (hdecided : call.decide scope = .returned status) :
    store.call true sessionId call = some (.scope status false, store.ledgers) := by
  rw [TaskStore.call, transact, if_neg (by simp), hresolved]
  simp only [Option.bind_eq_bind, Option.bind_some, hdecided, settle]

theorem call_held (hresolved : store.resolve sessionId = some (.scope scope))
    (hdecided : call.decide scope = .append facts status) (hheld : ∀ built ∈ facts, scope.Holds built) :
    store.call true sessionId call = some (.scope status false, store.ledgers) := by
  rw [TaskStore.call, transact, if_neg (by simp), hresolved]
  simp only [Option.bind_eq_bind, Option.bind_some, hdecided, settle, TaskRunScope.novel_held hheld]

/-- What is left by a call that returned a status: it was decided, and what it adds is there. -/
structure Called (store : TaskStore) (sessionId : String) (call : GateCall) (status : GateStatus)
    (ledgers : Uuid → Option Json) (scope left : TaskRunScope) : Prop where
  before : store.resolve sessionId = some (.scope scope)
  after : (store.left ledgers).resolve sessionId = some (.scope left)
  extended : scope.Extended left
  decided : call.decide scope = .returned status ∨ ∃ facts, call.decide scope = .append facts status ∧
    (∀ built ∈ facts, built.Tidy → left.Holds built) ∧
    ((∀ built ∈ facts, TaskRunScope.opening built.fact = false) →
      left.taskGeneration = scope.taskGeneration)

/-- The ledger after an append: the new facts as they are read, behind the entries that were there. -/
structure Left (scope : TaskRunScope) (facts novel : List BuiltFact) (ledger : PersistedTaskLedger)
    (read : List TaskFact) : Prop where
  extended : scope.Extended ⟨scope.run, ledger⟩
  readback : List.Forall₂ (fun (built : BuiltFact) fact ↦ factSchema built.json = some fact) novel read
  entries : ledger.entries = scope.ledger.entries ++ scope.newEntries read
  held : ∀ built ∈ facts, built.Tidy → (⟨scope.run, ledger⟩ : TaskRunScope).Holds built

theorem Appends.left {novel : List BuiltFact} {ledger : PersistedTaskLedger}
    (h : store.Appends sessionId (fun scope ↦ call.decide scope) scope facts novel status ledger) :
    ∃ read, Left scope facts novel ledger read := by
  obtain ⟨hresolved, hdecided, hnovel, happended⟩ := h
  obtain ⟨hsettled, hsession⟩ := resolve_settled hresolved
  obtain ⟨hledger, -, -, read, hread, hentries⟩ :=
    TaskRunScope.appended_eq_some hsettled hsession happended
  have hfaithful := (decide_append 0 hdecided).2.1
  have hextended : scope.Extended ⟨scope.run, ledger⟩ :=
    ⟨rfl, hentries ▸ List.prefix_append _ _, hledger⟩
  refine ⟨read, hextended, hread, hentries, fun built hbuilt ⟨horder, htidy⟩ ↦ ?_⟩
  obtain hnew | hheld := (TaskRunScope.novel_eq_some hnovel).2 built hbuilt
  · obtain ⟨fact, hfact, hbuiltRead⟩ := exists_of_forall₂ hread.flip hnew
    obtain ⟨-, rfl⟩ := (hfaithful built hbuilt).read_iff.mp hbuiltRead
    rw [htidy] at hfact
    refine ⟨built.fact, (TaskRunScope.factByKey_eq_some hledger).mpr ⟨?_, rfl⟩, by rw [horder]; rfl⟩
    rw [TaskRunScope.taskFacts, TaskRunScope.ownerEntries_appended hentries, List.map_append, newEntries_facts]
    exact List.mem_append_right _ hfact
  · exact hextended.holds hheld

/-- A fact that is read is the tidy form of one of those that were decided. -/
theorem Appends.read_fact {novel : List BuiltFact} {ledger : PersistedTaskLedger} {read : List TaskFact}
    (h : store.Appends sessionId (fun scope ↦ call.decide scope) scope facts novel status ledger)
    (hread : List.Forall₂ (fun (built : BuiltFact) fact ↦ factSchema built.json = some fact) novel read)
    {fact : TaskFact} (hfact : fact ∈ read) : ∃ built ∈ facts, built.fact.tidy = fact := by
  obtain ⟨built, hbuilt, hbuiltRead⟩ := exists_of_forall₂ hread hfact
  have hin := (TaskRunScope.novel_eq_some h.hnovel).1.subset hbuilt
  exact ⟨built, hin, (((decide_append 0 h.hdecided).2.1 built hin).read_iff.mp hbuiltRead).2⟩

theorem call_scope (h : store.call true sessionId call = some (.scope status changed, ledgers)) :
    ∃ scope left, store.Called sessionId call status ledgers scope left := by
  obtain ⟨rfl, hnone | ⟨scope, value, ⟨hresolved, hdecided⟩, hresult⟩⟩ |
    ⟨scope, facts, novel, value, ledger, happends, hresult, rfl⟩ := transact_cases h
  · exact absurd rfl (hnone status changed)
  · obtain ⟨rfl, -⟩ := TaskLedgerTransaction.scope.inj hresult
    have hsettled := (resolve_settled hresolved).1
    refine ⟨scope, scope, hresolved, hresolved, ⟨rfl, List.prefix_rfl, hsettled⟩, hdecided.imp_right ?_⟩
    rintro ⟨facts, hdecided, hnovel⟩
    refine ⟨facts, hdecided, fun built hbuilt _ ↦ ?_, fun _ ↦ rfl⟩
    exact ((TaskRunScope.novel_eq_some hnovel).2 built hbuilt).resolve_left (by simp)
  · obtain ⟨rfl, -⟩ := TaskLedgerTransaction.scope.inj hresult
    obtain ⟨read, hextended, hread, hentries, hheld⟩ := happends.left
    refine ⟨scope, ⟨scope.run, ledger⟩, happends.hresolved, resolve_left happends.hresolved ?_, hextended,
      .inr ⟨facts, happends.hdecided, hheld, fun hopening ↦ ?_⟩⟩
    · rw [Function.update_self]
      exact hextended.settled.reread
    · have hclosed : findLast TaskRunScope.opensGeneration (scope.newEntries read) = none := by
        by_contra hopen
        obtain ⟨entry, hentry, hopen⟩ := findLast_ne_none.mp hopen
        have hmem : entry.fact ∈ read := newEntries_facts read ▸ List.mem_map_of_mem hentry
        obtain ⟨built, hin, htidy⟩ := happends.read_fact hread hmem
        have hkind := hopening built hin
        rw [TaskRunScope.opensGeneration, TaskRunScope.opening, ← htidy, TaskFact.kind_tidy] at hopen
        rw [TaskRunScope.opening, hopen] at hkind
        cases hkind
      rw [TaskRunScope.taskGeneration, TaskRunScope.ownerEntries_appended hentries, findLast_append, hclosed,
        Option.none_or]
      rfl

end TaskStore

/-! The calls that are granted without a new fact. -/

namespace TaskRunScope

variable {scope : TaskRunScope} {toolCallId : ToolCallId}

theorem reserve_returned {reservation : TaskReservationFact} {maxFanOut : ℕ} {status : ReserveStatus}
    (h : scope.reserve reservation maxFanOut = .returned status)
    (hgranted : (GateStatus.reserve status).granted = true) :
    status = .replayed ∧ scope.taskReservation reservation.toolCallId = some reservation := by
  unfold reserve at h
  split at h
  · rename_i existing hexisting
    obtain rfl := TaskLedgerDecision.returned.inj h
    split at hgranted
    · rename_i hsame
      have hfact := encodeFact_injective hsame
      rw [if_pos hsame]
      obtain ⟨_, _, _⟩ := existing
      obtain ⟨hcall, hcount, hrequests⟩ := TaskFact.taskReserved.inj hfact
      subst hcall hcount hrequests
      exact ⟨rfl, hexisting⟩
    · cases hgranted
  · dsimp only at h
    split at h
    · obtain rfl := TaskLedgerDecision.returned.inj h
      cases hgranted
    · cases h

theorem reserve_found {reservation : TaskReservationFact} (maxFanOut : ℕ)
    (h : scope.taskReservation reservation.toolCallId = some reservation) :
    scope.reserve reservation maxFanOut = .returned .replayed := by
  rw [reserve, h]
  exact congrArg _ (if_pos rfl)

theorem bind_returned {bindings : List RuntimeIdentityBinding} {asyncAvailable : Bool}
    {status : BindingStatus} (h : scope.bind toolCallId bindings asyncAvailable = .returned status)
    (hgranted : (GateStatus.bind status).granted = true) :
    status = bindingStatus asyncAvailable ∧ (∃ reservation, scope.taskReservation toolCallId = some reservation ∧
      bindingsMatch reservation.itemCount bindings = true) ∧
      scope.taskIdentityFacts.find? (·.toolCallId = toolCallId) = some ⟨toolCallId, bindings⟩ := by
  unfold bind at h
  split at h
  · obtain rfl := TaskLedgerDecision.returned.inj h
    cases hgranted
  rename_i reservation hreservation
  split at h
  · obtain rfl := TaskLedgerDecision.returned.inj h
    cases hgranted
  rename_i hmatch
  dsimp only at h
  split at h
  · rename_i existing hexisting
    obtain rfl := TaskLedgerDecision.returned.inj h
    split at hgranted
    · rename_i hsame
      rw [if_pos hsame]
      obtain ⟨_, _⟩ := existing
      obtain ⟨hcall, hbindings⟩ := TaskFact.taskIdentitiesBound.inj (encodeFact_injective hsame)
      subst hcall hbindings
      exact ⟨rfl, ⟨reservation, hreservation, by simpa using hmatch⟩, hexisting⟩
    · cases hgranted
  · cases h

theorem bind_found {bindings : List RuntimeIdentityBinding} (asyncAvailable : Bool)
    {reservation : TaskReservationFact} (hreservation : scope.taskReservation toolCallId = some reservation)
    (hmatch : bindingsMatch reservation.itemCount bindings = true)
    (h : scope.taskIdentityFacts.find? (·.toolCallId = toolCallId) = some ⟨toolCallId, bindings⟩) :
    scope.bind toolCallId bindings asyncAvailable = .returned (bindingStatus asyncAvailable) := by
  rw [bind, hreservation]
  simp only [hmatch, h, Bool.not_true, Bool.false_eq_true, if_false, if_true]

end TaskRunScope

/-! The facts that a result adds are settled: they are about targets and agents that were read. -/

section Tidy

variable {scope : TaskRunScope} {toolCallId : ToolCallId} (hsettled : scope.ledger.Settled)

include hsettled

theorem TaskRunScope.authorization_tidy {authorization : TaskAuthorizationFact}
    (h : scope.taskAuthorization toolCallId = some authorization) :
    trim toolCallId = toolCallId ∧ ∀ target ∈ authorization.targets, trim target = target := by
  obtain rfl : authorization.toolCallId = toolCallId := by simpa using List.find?_some h
  have htidy := (TaskFact.settled_iff.mp (TaskRunScope.settled_of_mem hsettled
    (TaskRunScope.authorization_mem h))).2
  obtain ⟨hcall, -, -, -, htargets⟩ := TaskFact.taskControlAuthorized.inj htidy
  exact ⟨hcall, List.map_inj_left.mp (htargets.trans (List.map_id _).symm)⟩

theorem TaskRunScope.ownedAgents_tidy {generation : ℕ} {agentId : String}
    (h : agentId ∈ scope.ownedAgents generation) : trim agentId = agentId := by
  obtain ⟨record, hrecord, rfl⟩ := List.mem_map.mp h
  rw [TaskRunScope.runtimeIdentities] at hrecord
  cases hentry : scope.identityEntry generation with
  | none =>
    rw [hentry] at hrecord
    cases hrecord
  | some identity =>
    rw [hentry] at hrecord
    dsimp only at hrecord
    split at hrecord
    · cases hrecord
    obtain ⟨binding, hbinding, hrecord⟩ := List.mem_filterMap.mp hrecord
    obtain ⟨request, -, rfl⟩ := Option.map_eq_some_iff.mp hrecord
    obtain ⟨entry, hfound, hidentity⟩ := Option.bind_eq_some_iff.mp hentry
    have hmem : entry.fact ∈ scope.taskFacts := List.mem_map_of_mem (List.mem_of_find?_eq_some hfound)
    have htidy := (TaskFact.settled_iff.mp (TaskRunScope.settled_of_mem hsettled hmem)).2
    cases hfact : entry.fact <;> rw [hfact] at hidentity htidy <;> cases hidentity
    obtain ⟨-, hbindings⟩ := TaskFact.taskIdentitiesBound.inj htidy
    have hsame := List.map_inj_left.mp (hbindings.trans (List.map_id _).symm) binding hbinding
    exact congrArg RuntimeIdentityBinding.actualAgentId hsame

end Tidy

/-- Distinct jobs that are as many as the expected agents and among which these are, are no others. -/
theorem TaskRunScope.snapshotComplete_subset {expected returned : List String}
    (h : TaskRunScope.snapshotComplete expected returned = true) : returned ⊆ expected := by
  simp only [TaskRunScope.snapshotComplete, Bool.and_eq_true, decide_eq_true_eq] at h
  obtain ⟨⟨⟨-, hnodup⟩, hlength⟩, hsubset⟩ := h
  have hsubperm : expected.dedup.Subperm returned :=
    List.subperm_of_subset (List.nodup_dedup expected) fun id hid ↦ hsubset (List.mem_dedup.mp hid)
  have hperm := hsubperm.perm_of_length_le hlength.le
  exact fun id hid ↦ List.mem_dedup.mp (hperm.mem_iff.mpr hid)

theorem capability_tidy {toolCallId : ToolCallId} {generation : ℕ} {status : CapabilityStatus}
    {reason : String} (hid : trim toolCallId = toolCallId) (hreason : trim reason = reason) :
    (TaskRunScope.capabilityFact toolCallId generation status reason).Tidy :=
  .of_tidy (by rw [TaskFact.tidy, hid, hreason])

theorem receipt_tidy {toolCallId : ToolCallId} {receipt : TaskReceipt} (hid : trim toolCallId = toolCallId)
    (hreceipt : receipt.tidy = receipt) : (TaskFact.taskReceiptObserved toolCallId receipt).built.Tidy :=
  .of_tidy (by rw [TaskFact.tidy, hid, hreceipt])

theorem matchingAuthorization_error {scope : TaskRunScope} {toolCallId : ToolCallId} {inputKey : String}
    {control : TaskControl} {status : ReceiptWriteStatus}
    (h : scope.matchingAuthorization toolCallId inputKey control = .error status) :
    (GateStatus.record status).granted = false := by
  unfold TaskRunScope.matchingAuthorization at h
  grind [GateStatus.granted]

/-- No fact in the order of its schema has the text of a freshly built authorization. -/
theorem encodeFact_ne_authorizationFact (fact : TaskFact) (authorization : ControlAuthorization)
    (generation : ℕ) : encodeFact fact ≠ (TaskRunScope.authorizationFact authorization generation).json := by
  cases fact <;> simp [encodeFact, factFields, TaskRunScope.authorizationFact]

/-! What is granted in a ledger that has grown, in the same generation. -/

namespace TaskRunScope.Extended

variable {scope later : TaskRunScope} {toolCallId : ToolCallId} {inputKey : String}
  {authorization : TaskAuthorizationFact} (h : scope.Extended later)
  (hgeneration : later.taskGeneration = scope.taskGeneration)

include h hgeneration

theorem matchingAuthorization {control : TaskControl}
    (hmatching : scope.matchingAuthorization toolCallId inputKey control = .ok authorization) :
    later.matchingAuthorization toolCallId inputKey control = .ok authorization := by
  obtain ⟨hfound, hcontrol, hkey, hcurrent⟩ := matchingAuthorization_eq_ok hmatching
  rw [TaskRunScope.matchingAuthorization, h.taskAuthorization hfound]
  dsimp only
  rw [if_neg (by simp [hcontrol, hkey]), if_neg (by simp [hcurrent, hgeneration])]

theorem authorizeHubWait {authorization : HubWaitAuthorization} {facts : List BuiltFact}
    {status : HubWaitAuthorizationStatus}
    (happend : scope.authorizeHubWait authorization = .append facts status) :
    later.authorizeHubWait authorization = .append facts status := by
  obtain ⟨hopened, hjobs, hagents, rfl, rfl⟩ := authorizeHubWait_append happend
  rw [TaskRunScope.authorizeHubWait, hgeneration, h.sameAgents hgeneration]
  dsimp only
  rw [if_neg hopened, if_neg (not_not.mpr (List.Subset.trans hjobs (h.moreJobs hgeneration))),
    if_neg (not_not.mpr hagents)]
  rfl

theorem recordJobSnapshot {jobs : List TaskJobSnapshot} {facts : List BuiltFact}
    {status : ReceiptWriteStatus}
    (happend : scope.recordJobSnapshot toolCallId inputKey jobs = .append facts status) :
    later.recordJobSnapshot toolCallId inputKey jobs = .append facts status := by
  obtain ⟨authorization, hmatching, -⟩ := recordJobSnapshot_append happend
  rw [← happend, TaskRunScope.recordJobSnapshot, TaskRunScope.recordJobSnapshot, hmatching,
    h.matchingAuthorization hgeneration hmatching]
  dsimp only
  rw [h.sameAgents hgeneration]

theorem recordCancellation {cancelled : List TaskCancelReceipt} {facts : List BuiltFact}
    {status : ReceiptWriteStatus}
    (happend : scope.recordCancellation toolCallId inputKey cancelled = .append facts status) :
    later.recordCancellation toolCallId inputKey cancelled = .append facts status := by
  obtain ⟨authorization, _, hmatching, -⟩ := recordCancellation_append happend
  rw [← happend, TaskRunScope.recordCancellation, TaskRunScope.recordCancellation, hmatching,
    h.matchingAuthorization hgeneration hmatching]

theorem recordIrcReceipts {receipts : List TaskIrcReceipt} {facts : List BuiltFact}
    {status : ReceiptWriteStatus}
    (happend : scope.recordIrcReceipts toolCallId inputKey receipts = .append facts status) :
    later.recordIrcReceipts toolCallId inputKey receipts = .append facts status := by
  obtain ⟨authorization, hmatching, -⟩ := recordIrcReceipts_append happend
  rw [← happend, TaskRunScope.recordIrcReceipts, TaskRunScope.recordIrcReceipts, hmatching,
    h.matchingAuthorization hgeneration hmatching]

end TaskRunScope.Extended

/-- A call that opens a generation when it adds facts. -/
def GateCall.Opens : GateCall → Prop
  | .reserve .. | .bind .. => True
  | _ => False

section Results

variable {scope later : TaskRunScope} {call : GateCall} {facts : List BuiltFact} {status : GateStatus}

theorem decide_extended (h : scope.Extended later) (hgeneration : later.taskGeneration = scope.taskGeneration)
    (hopens : ¬ call.Opens) (hauthorize : ∀ authorization, call ≠ .authorize authorization)
    (hdecided : call.decide scope = .append facts status) :
    call.decide later = .append facts status := by
  cases call with
  | reserve => exact absurd trivial hopens
  | bind => exact absurd trivial hopens
  | authorize authorization => exact absurd rfl (hauthorize authorization)
  | authorizeHubWait authorization =>
    obtain ⟨status, hcall, rfl⟩ := map_eq_append.mp hdecided
    exact map_eq_append.mpr ⟨status, h.authorizeHubWait hgeneration hcall, rfl⟩
  | recordJobSnapshot toolCallId inputKey jobs =>
    obtain ⟨status, hcall, rfl⟩ := map_eq_append.mp hdecided
    exact map_eq_append.mpr ⟨status, h.recordJobSnapshot hgeneration hcall, rfl⟩
  | recordCancellation toolCallId inputKey cancelled =>
    obtain ⟨status, hcall, rfl⟩ := map_eq_append.mp hdecided
    exact map_eq_append.mpr ⟨status, h.recordCancellation hgeneration hcall, rfl⟩
  | recordIrcReceipts toolCallId inputKey receipts =>
    obtain ⟨status, hcall, rfl⟩ := map_eq_append.mp hdecided
    exact map_eq_append.mpr ⟨status, h.recordIrcReceipts hgeneration hcall, rfl⟩

theorem decide_unopened (hopens : ¬ call.Opens) (hdecided : call.decide scope = .append facts status) :
    ∀ built ∈ facts, TaskRunScope.opening built.fact = false := by
  cases call with
  | reserve => exact absurd trivial hopens
  | bind => exact absurd trivial hopens
  | authorize authorization =>
    obtain ⟨status, hcall, rfl⟩ := map_eq_append.mp hdecided
    obtain ⟨-, -, rfl, -⟩ := TaskRunScope.authorize_append hcall
    exact List.forall_mem_singleton.mpr rfl
  | authorizeHubWait authorization =>
    obtain ⟨status, hcall, rfl⟩ := map_eq_append.mp hdecided
    obtain ⟨-, -, -, rfl, -⟩ := TaskRunScope.authorizeHubWait_append hcall
    exact List.forall_mem_singleton.mpr rfl
  | recordJobSnapshot toolCallId inputKey jobs =>
    obtain ⟨status, hcall, rfl⟩ := map_eq_append.mp hdecided
    obtain ⟨authorization, -, hfacts⟩ := TaskRunScope.recordJobSnapshot_append hcall
    dsimp only at hfacts
    split at hfacts <;> obtain ⟨rfl, -⟩ := hfacts
    · exact List.forall_mem_append.mpr
        ⟨List.forall_mem_map.mpr fun _ _ ↦ rfl, List.forall_mem_singleton.mpr rfl⟩
    · exact List.forall_mem_singleton.mpr rfl
  | recordCancellation toolCallId inputKey cancelled =>
    obtain ⟨status, hcall, rfl⟩ := map_eq_append.mp hdecided
    obtain ⟨_, receipts, -, -, rfl, -⟩ := TaskRunScope.recordCancellation_append hcall
    exact List.forall_mem_map.mpr fun _ _ ↦ rfl
  | recordIrcReceipts toolCallId inputKey receipts =>
    obtain ⟨status, hcall, rfl⟩ := map_eq_append.mp hdecided
    obtain ⟨_, -, -, -, rfl, -⟩ := TaskRunScope.recordIrcReceipts_append hcall
    exact List.forall_mem_map.mpr fun _ _ ↦ rfl

/-- Only reservations and bindings are granted without a fact. -/
theorem closed_returned (hopens : ¬ call.Opens) (hdecided : call.decide scope = .returned status) :
    status.granted = false := by
  cases call with
  | reserve => exact absurd trivial hopens
  | bind => exact absurd trivial hopens
  | authorize authorization =>
    obtain ⟨status, hcall, rfl⟩ := map_eq_returned.mp hdecided
    unfold TaskRunScope.authorize at hcall
    grind [GateStatus.granted]
  | authorizeHubWait authorization =>
    obtain ⟨status, hcall, rfl⟩ := map_eq_returned.mp hdecided
    unfold TaskRunScope.authorizeHubWait at hcall
    grind [GateStatus.granted]
  | recordJobSnapshot toolCallId inputKey jobs =>
    obtain ⟨status, hcall, rfl⟩ := map_eq_returned.mp hdecided
    unfold TaskRunScope.recordJobSnapshot at hcall
    split at hcall
    · rename_i hmatching
      obtain rfl := TaskLedgerDecision.returned.inj hcall
      exact matchingAuthorization_error hmatching
    · grind
  | recordCancellation toolCallId inputKey cancelled =>
    obtain ⟨status, hcall, rfl⟩ := map_eq_returned.mp hdecided
    unfold TaskRunScope.recordCancellation at hcall
    split at hcall
    · rename_i hmatching
      obtain rfl := TaskLedgerDecision.returned.inj hcall
      exact matchingAuthorization_error hmatching
    · grind [GateStatus.granted]
  | recordIrcReceipts toolCallId inputKey receipts =>
    obtain ⟨status, hcall, rfl⟩ := map_eq_returned.mp hdecided
    unfold TaskRunScope.recordIrcReceipts at hcall
    split at hcall
    · rename_i hmatching
      obtain rfl := TaskLedgerDecision.returned.inj hcall
      exact matchingAuthorization_error hmatching
    · grind [GateStatus.granted]

theorem closed_repeated (hopens : ¬ call.Opens) (hdecided : call.decide scope = .append facts status) :
    status.repeated = status := by
  cases call with
  | reserve => exact absurd trivial hopens
  | bind => exact absurd trivial hopens
  | _ =>
    obtain ⟨status, -, rfl⟩ := map_eq_append.mp hdecided
    rfl

end Results

/-! The calls that can be made again. -/

/-- A call whose facts are built in the order of their schema, of texts that it leaves as they are. -/
def GateCall.Repeatable : GateCall → Prop
  | .reserve reservation _ => reservation.fact.Settled
  | .bind toolCallId bindings _ => (TaskFact.taskIdentitiesBound toolCallId bindings).Settled
  | .authorize _ => False
  | .authorizeHubWait authorization => (TaskFact.taskControlAuthorized authorization.toolCallId
      .jobSnapshot 1 authorization.inputKey authorization.jobTargets).Settled
  | .recordJobSnapshot .. | .recordCancellation .. | .recordIrcReceipts .. => True

section Repeatable

variable {scope : TaskRunScope} {call : GateCall} {facts : List BuiltFact} {status : GateStatus}

/-- What a repeatable call adds is built as the schema returns it. -/
theorem decide_tidy (hsettled : scope.ledger.Settled) (hrepeatable : call.Repeatable)
    (hdecided : call.decide scope = .append facts status) : ∀ built ∈ facts, built.Tidy := by
  cases call with
  | reserve reservation maxFanOut =>
    obtain ⟨status, hcall, rfl⟩ := map_eq_append.mp hdecided
    obtain ⟨-, -, rfl, -⟩ := TaskRunScope.reserve_append hcall
    have htidy := (TaskFact.settled_iff.mp hrepeatable).2
    exact List.forall_mem_singleton.mpr (.of_tidy htidy)
  | bind toolCallId bindings asyncAvailable =>
    obtain ⟨status, hcall, rfl⟩ := map_eq_append.mp hdecided
    obtain ⟨-, -, rfl, -⟩ := TaskRunScope.bind_append hcall
    have htidy := (TaskFact.settled_iff.mp hrepeatable).2
    obtain ⟨hid, -⟩ := TaskFact.taskIdentitiesBound.inj htidy
    refine List.forall_mem_cons.mpr ⟨.of_tidy htidy, ?_⟩
    split
    · exact List.forall_mem_nil _
    · exact List.forall_mem_singleton.mpr (capability_tidy hid (by decide))
  | authorize authorization => exact hrepeatable.elim
  | authorizeHubWait authorization =>
    obtain ⟨status, hcall, rfl⟩ := map_eq_append.mp hdecided
    obtain ⟨-, -, -, rfl, -⟩ := TaskRunScope.authorizeHubWait_append hcall
    obtain ⟨hid, -, -, hkey, htargets⟩ :=
      TaskFact.taskControlAuthorized.inj (TaskFact.settled_iff.mp hrepeatable).2
    exact List.forall_mem_singleton.mpr (.of_tidy (by rw [TaskFact.tidy, hid, hkey, htargets]))
  | recordJobSnapshot toolCallId inputKey jobs =>
    obtain ⟨status, hcall, rfl⟩ := map_eq_append.mp hdecided
    obtain ⟨authorization, hmatching, hfacts⟩ := TaskRunScope.recordJobSnapshot_append hcall
    obtain ⟨hfound, -⟩ := TaskRunScope.matchingAuthorization_eq_ok hmatching
    obtain ⟨hid, -⟩ := TaskRunScope.authorization_tidy hsettled hfound
    dsimp only at hfacts
    split at hfacts
    · rename_i hcomplete
      obtain ⟨rfl, -⟩ := hfacts
      have hagents := TaskRunScope.snapshotComplete_subset hcomplete
      refine List.forall_mem_append.mpr ⟨List.forall_mem_map.mpr fun job hjob ↦ ?_,
        List.forall_mem_singleton.mpr (capability_tidy hid (by decide))⟩
      have hjobId := TaskRunScope.ownedAgents_tidy hsettled (hagents (List.mem_map_of_mem hjob))
      exact receipt_tidy hid (by rw [TaskReceipt.tidy, hjobId])
    · obtain ⟨rfl, -⟩ := hfacts
      exact List.forall_mem_singleton.mpr (capability_tidy hid (by decide))
  | recordCancellation toolCallId inputKey cancelled =>
    obtain ⟨status, hcall, rfl⟩ := map_eq_append.mp hdecided
    obtain ⟨authorization, receipts, hmatching, hreceipts, rfl, -⟩ :=
      TaskRunScope.recordCancellation_append hcall
    obtain ⟨hfound, -⟩ := TaskRunScope.matchingAuthorization_eq_ok hmatching
    obtain ⟨hid, htargets⟩ := TaskRunScope.authorization_tidy hsettled hfound
    refine List.forall_mem_map.mpr fun receipt hreceipt ↦ ?_
    obtain ⟨target, htarget, hcancelled⟩ := exists_of_forall₂ (mapM_eq_some.mp hreceipts) hreceipt
    have hreceiptId : receipt.id = target := by
      have hmatch := List.find?_some hcancelled
      simp only [Bool.and_eq_true, decide_eq_true_eq] at hmatch
      exact hmatch.1
    exact receipt_tidy hid (by rw [TaskReceipt.tidy, hreceiptId, htargets target htarget])
  | recordIrcReceipts toolCallId inputKey receipts =>
    obtain ⟨status, hcall, rfl⟩ := map_eq_append.mp hdecided
    obtain ⟨authorization, hmatching, htos, -, rfl, -⟩ := TaskRunScope.recordIrcReceipts_append hcall
    obtain ⟨hfound, -⟩ := TaskRunScope.matchingAuthorization_eq_ok hmatching
    obtain ⟨hid, htargets⟩ := TaskRunScope.authorization_tidy hsettled hfound
    refine List.forall_mem_map.mpr fun receipt hreceipt ↦ ?_
    exact receipt_tidy hid (by rw [TaskReceipt.tidy, htargets _ (htos receipt hreceipt)])

end Repeatable

/-- Other calls that leave the owner of the run and the generation of its tasks. -/
def Undisturbed (store later : TaskStore) (sessionId : String) : Prop :=
  ∃ scope scope' maxFanOut, store.resolve sessionId = some (.scope scope) ∧
    later.resolve sessionId = some (.scope scope') ∧ scope'.run.runId = scope.run.runId ∧
    scope'.run.owner = scope.run.owner ∧ scope'.taskGeneration = scope.taskGeneration ∧
    ReflTransGen (Transacts maxFanOut) store.ledgers later.ledgers

theorem Undisturbed.extended {store later : TaskStore} {sessionId : String}
    (h : Undisturbed store later sessionId) {scope : TaskRunScope}
    (hscope : store.resolve sessionId = some (.scope scope)) :
    ∃ scope', later.resolve sessionId = some (.scope scope') ∧ scope.Extended scope' ∧
      scope'.taskGeneration = scope.taskGeneration := by
  obtain ⟨scope₀, scope', maxFanOut, hresolved, hlater, hrun, howner, hgeneration, hcalls⟩ := h
  obtain rfl : scope₀ = scope := by simpa [hresolved] using hscope
  have hsettled := (TaskStore.resolve_settled hlater).1
  refine ⟨scope', hlater, ⟨howner, ?_, hsettled⟩, hgeneration⟩
  have hextends := extends_of_calls hcalls
  obtain ⟨-, hempty⟩ | ⟨json, hstored, hread⟩ := resolved_stored hresolved
  · rw [hempty]
    exact List.nil_prefix
  · obtain ⟨json', ledger', hstored', hread', hprefix⟩ := hextends _ json _ hstored hread
    obtain ⟨hmissing, -⟩ | ⟨json'', hstored'', hread''⟩ := resolved_stored hlater
    · rw [hrun, hstored'] at hmissing
      cases hmissing
    · rw [hrun, hstored'] at hstored''
      obtain rfl := Option.some.inj hstored''
      obtain rfl := Option.some.inj (hread'.symm.trans hread'')
      exact hprefix

section Repetition

variable {scope left later : TaskRunScope} {call : GateCall} {facts : List BuiltFact} {status : GateStatus}

/-- A decision that leaves the ledger as it is. -/
def Unchanging (scope : TaskRunScope) (call : GateCall) (status : GateStatus) : Prop :=
  call.decide scope = .returned status ∨
    ∃ facts, call.decide scope = .append facts status ∧ ∀ built ∈ facts, scope.Holds built

theorem Unchanging.repeats {store : TaskStore} {sessionId : String}
    (hresolved : store.resolve sessionId = some (.scope scope)) (h : Unchanging scope call status) :
    store.call true sessionId call = some (.scope status false, store.ledgers) := by
  obtain hreturned | ⟨facts, hdecided, hheld⟩ := h
  · exact TaskStore.call_returned hresolved hreturned
  · exact TaskStore.call_held hresolved hdecided hheld

theorem call_unchanging {store : TaskStore} {sessionId : String}
    (hresolved : store.resolve sessionId = some (.scope scope))
    (h : store.call true sessionId call = some (.scope status false, store.ledgers)) :
    Unchanging scope call status := by
  obtain ⟨-, hnone | ⟨scope', value, ⟨hresolved', hdecided⟩, hresult⟩⟩ |
    ⟨_, _, _, _, _, -, hresult, -⟩ := TaskStore.transact_cases h
  · exact absurd rfl (hnone status false)
  · obtain rfl : scope' = scope := by simpa [hresolved'] using hresolved
    obtain ⟨rfl, -⟩ := TaskLedgerTransaction.scope.inj hresult
    refine hdecided.imp_right ?_
    rintro ⟨facts, hdecided, hnovel⟩
    exact ⟨facts, hdecided, fun built hbuilt ↦
      ((TaskRunScope.novel_eq_some hnovel).2 built hbuilt).resolve_left (by simp)⟩
  · obtain ⟨-, h⟩ := TaskLedgerTransaction.scope.inj hresult
    cases h

theorem repeated_granted (h : status.granted = true) : status.repeated.granted = true := by
  cases status with
  | reserve => rfl
  | _ => exact h

/-- A granted call that leaves a ledger as it is can be made again. -/
theorem repeatable_of_unchanging (hsettled : scope.ledger.Settled) (hgranted : status.granted = true)
    (h : Unchanging scope call status) : call.Repeatable := by
  obtain hreturned | ⟨facts, happend, hheld⟩ := h
  · cases call with
    | reserve reservation maxFanOut =>
      obtain ⟨status, hcall, rfl⟩ := map_eq_returned.mp hreturned
      obtain ⟨-, hfound⟩ := TaskRunScope.reserve_returned hcall hgranted
      exact TaskRunScope.settled_of_mem hsettled (TaskRunScope.reservation_mem hfound)
    | bind toolCallId bindings asyncAvailable =>
      obtain ⟨status, hcall, rfl⟩ := map_eq_returned.mp hreturned
      obtain ⟨-, -, hfound⟩ := TaskRunScope.bind_returned hcall hgranted
      exact TaskRunScope.settled_of_mem hsettled (TaskRunScope.identities_mem hfound)
    | _ =>
      rw [closed_returned id hreturned] at hgranted
      cases hgranted
  · cases call with
    | reserve reservation maxFanOut =>
      obtain ⟨status, hcall, rfl⟩ := map_eq_append.mp happend
      obtain ⟨-, -, rfl, -⟩ := TaskRunScope.reserve_append hcall
      exact ((List.forall_mem_singleton.mp hheld).settled hsettled).1
    | bind toolCallId bindings asyncAvailable =>
      obtain ⟨status, hcall, rfl⟩ := map_eq_append.mp happend
      obtain ⟨-, -, rfl, -⟩ := TaskRunScope.bind_append hcall
      exact ((List.forall_mem_cons.mp hheld).1.settled hsettled).1
    | authorize authorization =>
      obtain ⟨status, hcall, rfl⟩ := map_eq_append.mp happend
      obtain ⟨-, -, rfl, -⟩ := TaskRunScope.authorize_append hcall
      obtain ⟨existing, -, hsame⟩ := List.forall_mem_singleton.mp hheld
      exact encodeFact_ne_authorizationFact _ _ _ hsame
    | authorizeHubWait authorization =>
      obtain ⟨status, hcall, rfl⟩ := map_eq_append.mp happend
      obtain ⟨-, -, -, rfl, -⟩ := TaskRunScope.authorizeHubWait_append hcall
      obtain ⟨hok, htidy⟩ :=
        TaskFact.settled_iff.mp ((List.forall_mem_singleton.mp hheld).settled hsettled).1
      obtain ⟨hid, -, -, hkey, htargets⟩ := TaskFact.taskControlAuthorized.inj htidy
      refine TaskFact.settled_iff.mpr ⟨⟨hok.1, ⟨by decide, by decide⟩, hok.2.2⟩, ?_⟩
      rw [TaskFact.tidy, hid, hkey, htargets]
    | recordJobSnapshot => trivial
    | recordCancellation => trivial
    | recordIrcReceipts => trivial

/-- What a repeatable call has left leaves nothing to add, as long as the generation stays. -/
theorem unchanging_of_called {store : TaskStore} {sessionId : String} {ledgers : Uuid → Option Json}
    (h : store.Called sessionId call status ledgers scope left) (hgranted : status.granted = true)
    (hrepeatable : call.Repeatable) (hlater : left.Extended later)
    (hgeneration : later.taskGeneration = left.taskGeneration) :
    Unchanging later call status.repeated := by
  have hsettled := (TaskStore.resolve_settled h.before).1
  have hgrown := h.extended.trans hlater
  obtain hreturned | ⟨facts, happend, hheld, hopened⟩ := h.decided
  · cases call with
    | reserve reservation maxFanOut =>
      obtain ⟨status, hcall, rfl⟩ := map_eq_returned.mp hreturned
      obtain ⟨-, hfound⟩ := TaskRunScope.reserve_returned hcall hgranted
      have hagain := TaskRunScope.reserve_found maxFanOut (hgrown.taskReservation hfound)
      exact .inl (map_eq_returned.mpr ⟨.replayed, hagain, rfl⟩)
    | bind toolCallId bindings asyncAvailable =>
      obtain ⟨status, hcall, rfl⟩ := map_eq_returned.mp hreturned
      obtain ⟨rfl, ⟨reservation, hreservation, hmatch⟩, hfound⟩ :=
        TaskRunScope.bind_returned hcall hgranted
      have hagain := TaskRunScope.bind_found asyncAvailable (hgrown.taskReservation hreservation) hmatch
        (hgrown.taskIdentityFact hfound)
      exact .inl (map_eq_returned.mpr ⟨_, hagain, rfl⟩)
    | _ =>
      rw [closed_returned id hreturned] at hgranted
      cases hgranted
  · have hthere : ∀ built ∈ facts, later.Holds built := fun built hbuilt ↦
      hlater.holds (hheld built hbuilt (decide_tidy hsettled hrepeatable happend built hbuilt))
    by_cases hopens : call.Opens
    · cases call with
      | reserve reservation maxFanOut =>
        obtain ⟨status, hcall, rfl⟩ := map_eq_append.mp happend
        obtain ⟨-, -, rfl, -⟩ := TaskRunScope.reserve_append hcall
        have hmem := ((List.forall_mem_singleton.mp hthere).settled hlater.settled).2
        have hagain := TaskRunScope.reserve_found maxFanOut
          (TaskRunScope.find_reservation hlater.settled hmem)
        exact .inl (map_eq_returned.mpr ⟨.replayed, hagain, rfl⟩)
      | bind toolCallId bindings asyncAvailable =>
        obtain ⟨status, hcall, rfl⟩ := map_eq_append.mp happend
        obtain ⟨⟨reservation, hreservation, hmatch⟩, -, rfl, rfl⟩ := TaskRunScope.bind_append hcall
        have hmem := ((List.forall_mem_cons.mp hthere).1.settled hlater.settled).2
        have hfound : later.taskIdentityFacts.find? _ = some ⟨toolCallId, bindings⟩ :=
          TaskRunScope.find_identities hlater.settled hmem
        have hagain := TaskRunScope.bind_found asyncAvailable (hgrown.taskReservation hreservation) hmatch
          hfound
        exact .inl (map_eq_returned.mpr ⟨_, hagain, rfl⟩)
      | _ => exact hopens.elim
    · have hsame := hgeneration.trans (hopened (decide_unopened hopens happend))
      have hagain := decide_extended hgrown hsame hopens (by rintro _ rfl; exact hrepeatable) happend
      rw [closed_repeated hopens happend]
      exact .inr ⟨facts, hagain, hthere⟩

end Repetition

/-! Calls made again, whatever other calls came between. -/

section Again

variable {store : TaskStore} {sessionId : String} {call : GateCall} {status : GateStatus} {changed : Bool}
  {ledgers : Uuid → Option Json}

/-- A granted call can be made again, with the same answer and nothing written, exactly if its facts are
built in the order of their schema, of texts that the schema leaves as they are. -/
theorem gate_replays_iff (hcall : store.call true sessionId call = some (.scope status changed, ledgers))
    (hgranted : status.granted = true) :
    (∀ later, Undisturbed (store.left ledgers) later sessionId →
      later.call true sessionId call = some (.scope status.repeated false, later.ledgers)) ↔
      call.Repeatable := by
  obtain ⟨scope, left, hcalled⟩ := TaskStore.call_scope hcall
  constructor
  · intro hagain
    have hundisturbed : Undisturbed (store.left ledgers) (store.left ledgers) sessionId :=
      ⟨left, left, 0, hcalled.after, hcalled.after, rfl, rfl, rfl, .refl⟩
    have hunchanging := call_unchanging hcalled.after (hagain _ hundisturbed)
    have hsettled := (TaskStore.resolve_settled hcalled.after).1
    exact repeatable_of_unchanging hsettled (repeated_granted hgranted) hunchanging
  · intro hrepeatable later hundisturbed
    obtain ⟨scope', hlater, hextended, hgeneration⟩ := hundisturbed.extended hcalled.after
    exact (unchanging_of_called hcalled hgranted hrepeatable hextended hgeneration).repeats hlater

end Again

namespace Sample

def authorization : ControlAuthorization := ⟨"call-2", .ircSend, "key", ["agent-1"]⟩

end Sample

theorem gate_replays_reserved : ∃ ledgers, (Sample.gateStore ledgers).call true "session"
    (.reserve Sample.reservation 1) = some (.scope (.reserve .replayed) false, ledgers) := by
  have hfirst : ((Sample.gateStore fun _ ↦ none).call true "session" (.reserve Sample.reservation 1)).map
      (·.1) = some (.scope (.reserve .reserved) true) := by decide
  obtain ⟨⟨_, ledgers⟩, hcall, rfl⟩ := Option.map_eq_some_iff.mp hfirst
  have hsettled : factSchema (encodeFact Sample.reservation.fact) = some Sample.reservation.fact := by
    decide
  have hagain := (gate_replays_iff hcall rfl).mpr hsettled
  obtain ⟨_, left, hcalled⟩ := TaskStore.call_scope hcall
  exact ⟨ledgers, hagain _ ⟨left, left, 0, hcalled.after, hcalled.after, rfl, rfl, rfl, .refl⟩⟩

/-- The second time, an authorization that was granted is taken for a conflict. -/
theorem repeated_authorization_conflicts : ∃ ledgers,
    (Sample.gateStore Sample.boundFiles).call true "session" (.authorize Sample.authorization) =
      some (.scope (.authorize .authorized) true, ledgers) ∧
    (Sample.gateStore ledgers).call true "session" (.authorize Sample.authorization) =
      some (.conflict, ledgers) := by
  have hfirst : ((Sample.gateStore Sample.boundFiles).call true "session"
      (.authorize Sample.authorization)).map (·.1) = some (.scope (.authorize .authorized) true) := by
    decide
  have hsecond : ((Sample.gateStore ((Sample.gateStore Sample.boundFiles).after true "session"
      (.authorize Sample.authorization))).call true "session" (.authorize Sample.authorization)).map (·.1) =
        some .conflict := by decide
  obtain ⟨⟨_, ledgers⟩, hcall, rfl⟩ := Option.map_eq_some_iff.mp hfirst
  rw [TaskStore.after, hcall] at hsecond
  obtain ⟨⟨_, later⟩, hagain, rfl⟩ := Option.map_eq_some_iff.mp hsecond
  obtain ⟨rfl, -⟩ | ⟨_, _, _, _, _, -, hresult, -⟩ := TaskStore.transact_cases hagain
  · exact ⟨_, hcall, hagain⟩
  · cases hresult

end OmpLazy.Gates

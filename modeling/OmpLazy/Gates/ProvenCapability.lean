import OmpLazy.Gates.GateReplays

/-! The capability of a generation of tasks, and what it proves of their identities. -/

namespace OmpLazy.Gates

open OmpLazy.Foundation OmpLazy.Foundation.Text OmpLazy.Contracts
open OmpLazy.State (Uuid AnyRun)
open OmpLazy.State.ReceiptAuthority (findLast)

inductive AsyncCapabilityRecord where
  | unknown
  | observed (status : CapabilityStatus) (reason : String)
  deriving DecidableEq, Repr

/-- An observation of the capability of a generation. -/
def TaskFact.observes (generation : ℕ) : TaskFact → Bool
  | .asyncCapabilityObserved _ taskGeneration _ _ => taskGeneration = generation
  | _ => false

namespace TaskRunScope

def runtimeCapability (scope : TaskRunScope) : AsyncCapabilityRecord :=
  match findLast (TaskFact.observes scope.taskGeneration) scope.taskFacts with
  | some (.asyncCapabilityObserved _ _ status reason) => .observed status reason
  | _ => .unknown

/-- The capability of the current generation is proven. -/
def proven (scope : TaskRunScope) : Bool := scope.runtimeCapability matches .observed .proven _

/-- What stands behind the proofs in a ledger: they are of generations that have begun, and all agents of
the current one have been returned as jobs. -/
structure Backed (scope : TaskRunScope) : Prop where
  begun : ∀ toolCallId generation reason,
    .asyncCapabilityObserved toolCallId generation .proven reason ∈ scope.taskFacts →
      generation ≤ scope.ledger.ledgerRevision
  returned : ∀ toolCallId reason,
    .asyncCapabilityObserved toolCallId scope.taskGeneration .proven reason ∈ scope.taskFacts →
      scope.ownedAgents scope.taskGeneration ⊆ scope.returnedJobs scope.taskGeneration
  distinct : ∀ toolCallId bindings, .taskIdentitiesBound toolCallId bindings ∈ scope.taskFacts →
    (bindings.map (·.actualAgentId)).Nodup

end TaskRunScope

/-- The agents of a call are named as their schema leaves them. -/
def GateCall.Typed : GateCall → Prop
  | .bind _ bindings _ => ∀ binding ∈ bindings, trim binding.actualAgentId = binding.actualAgentId
  | _ => True

/-- A call of any session on any run, whatever the index and the runs have become. -/
def TypedTransacts (ledgers later : Uuid → Option Json) : Prop :=
  ∃ (store : TaskStore) (acquired : Bool) (sessionId : String) (call : GateCall),
    store.ledgers = ledgers ∧ call.Typed ∧ store.after acquired sessionId call = later

/-- The facts in all files are backed, whoever owns them. -/
def AllBacked (ledgers : Uuid → Option Json) : Prop :=
  ∀ runId json, ledgers runId = some json → ∃ ledger, readTaskLedger json = some ledger ∧
    ∀ run, TaskRunScope.Backed ⟨run, ledger⟩

/-! The views of an owner. -/

namespace TaskRunScope

variable {scope later : TaskRunScope} {toolCallId : ToolCallId} {generation : ℕ}

/-- What an owner sees depends on its own entries only. -/
theorem Backed.of_ownerEntries (h : scope.Backed) (hentries : later.currentOwnerEntries = scope.currentOwnerEntries)
    (hrevision : scope.ledger.ledgerRevision ≤ later.ledger.ledgerRevision) : later.Backed := by
  have hfacts : later.taskFacts = scope.taskFacts := by rw [taskFacts, hentries, taskFacts]
  have hgeneration : later.taskGeneration = scope.taskGeneration := by
    rw [taskGeneration, hentries, taskGeneration]
  have hauthorization : later.taskAuthorization = scope.taskAuthorization := by
    funext toolCallId
    rw [taskAuthorization, hfacts, taskAuthorization]
  have hjobs (generation : ℕ) : later.returnedJobs generation = scope.returnedJobs generation := by
    rw [returnedJobs, returnedJobs, taskReceipts, hfacts, hauthorization, taskReceipts]
  have hagents (generation : ℕ) : later.ownedAgents generation = scope.ownedAgents generation := by
    rw [ownedAgents, ownedAgents, runtimeIdentities, runtimeIdentities, identityEntry, hentries, identityEntry,
      taskReservations, hfacts, taskReservations, hjobs]
  refine ⟨?_, ?_, ?_⟩
  · intro toolCallId generation reason hfact
    exact (h.begun toolCallId generation reason (hfacts ▸ hfact)).trans hrevision
  · rw [hfacts, hgeneration, hagents, hjobs]
    exact h.returned
  · rw [hfacts]
    exact h.distinct

/-- A ledger without entries is backed. -/
theorem backed_of_nil (h : scope.ledger.entries = []) : scope.Backed := by
  have hfacts : scope.taskFacts = [] := by rw [taskFacts, currentOwnerEntries, h, List.filter_nil, List.map_nil]
  refine ⟨?_, ?_, ?_⟩ <;> rw [hfacts]
  · exact fun _ _ _ hfact ↦ absurd hfact List.not_mem_nil
  · exact fun _ _ hfact ↦ absurd hfact List.not_mem_nil
  · exact fun _ _ hfact ↦ absurd hfact List.not_mem_nil

theorem mem_returnedJobs {jobId : JobId} {status : JobStatus} {authorization : TaskAuthorizationFact}
    (hreceipt : .taskReceiptObserved toolCallId (.job jobId status) ∈ scope.taskFacts)
    (hauthorization : scope.taskAuthorization toolCallId = some authorization)
    (hgeneration : authorization.taskGeneration = generation) : jobId ∈ scope.returnedJobs generation := by
  refine List.mem_filterMap.mpr ⟨⟨toolCallId, .job jobId status⟩, List.mem_filterMap.mpr ⟨_, hreceipt, rfl⟩, ?_⟩
  simp only [hauthorization, Option.map_some, hgeneration, if_true]

theorem generation_le (hsettled : scope.ledger.Settled) : scope.taskGeneration ≤ scope.ledger.ledgerRevision := by
  rw [taskGeneration]
  cases hfound : findLast opensGeneration scope.currentOwnerEntries with
  | none => exact Nat.zero_le _
  | some entry =>
    have hmem : entry.sequence ∈ scope.ledger.entries.map (·.sequence) :=
      List.mem_map_of_mem (List.mem_of_mem_filter (State.ReceiptAuthority.findLast_eq_some hfound).1)
    rw [(settled_ordered hsettled).2.1, List.mem_range'_1] at hmem
    rw [Option.map_some, Option.getD_some]
    omega

end TaskRunScope

/-! What a call adds. -/

/-- The facts that a call may add: identities of distinct agents from `bind`, and the proof of a capability
with a complete snapshot of the current generation, which has a receipt of every agent. -/
inductive Adds (scope : TaskRunScope) (call : GateCall) (facts : List BuiltFact) : TaskFact → Prop
  | reserved (toolCallId : ToolCallId) (itemCount : ℕ) (requests : List TaskRequest) :
      Adds scope call facts (.taskReserved toolCallId itemCount requests)
  | bound {toolCallId : ToolCallId} {bindings : List RuntimeIdentityBinding} (asyncAvailable : Bool) :
      call = .bind toolCallId bindings asyncAvailable → (bindings.map (·.actualAgentId)).Nodup →
        Adds scope call facts (.taskIdentitiesBound toolCallId bindings)
  | authorized (toolCallId : ToolCallId) (control : TaskControl) (generation : ℕ) (inputKey : String)
      (targets : List String) :
      Adds scope call facts (.taskControlAuthorized toolCallId control generation inputKey targets)
  | received (toolCallId : ToolCallId) (receipt : TaskReceipt) :
      Adds scope call facts (.taskReceiptObserved toolCallId receipt)
  | blocked (toolCallId : ToolCallId) (generation : ℕ) (reason : String) :
      Adds scope call facts (.asyncCapabilityObserved toolCallId generation .blocked reason)
  | proven {toolCallId : ToolCallId} {authorization : TaskAuthorizationFact} (reason : String) :
      scope.taskAuthorization toolCallId = some authorization →
        authorization.taskGeneration = scope.taskGeneration →
        (∀ agentId ∈ scope.ownedAgents scope.taskGeneration, ∃ status,
          (TaskFact.taskReceiptObserved toolCallId (.job agentId status)).built ∈ facts) →
        Adds scope call facts (.asyncCapabilityObserved toolCallId scope.taskGeneration .proven reason)

section Decisions

variable {scope : TaskRunScope} {call : GateCall} {facts : List BuiltFact} {status : GateStatus}

theorem decide_adds (h : call.decide scope = .append facts status) :
    ∀ built ∈ facts, Adds scope call facts built.fact := by
  cases call with
  | reserve reservation maxFanOut =>
    obtain ⟨status, hcall, rfl⟩ := map_eq_append.mp h
    obtain ⟨-, -, rfl, -⟩ := TaskRunScope.reserve_append hcall
    exact List.forall_mem_singleton.mpr (.reserved ..)
  | bind toolCallId bindings asyncAvailable =>
    obtain ⟨status, hcall, rfl⟩ := map_eq_append.mp h
    obtain ⟨⟨_, -, hmatch⟩, -, rfl, -⟩ := TaskRunScope.bind_append hcall
    simp only [TaskRunScope.bindingsMatch, Bool.and_eq_true, decide_eq_true_eq] at hmatch
    refine List.forall_mem_cons.mpr ⟨.bound asyncAvailable rfl hmatch.2, ?_⟩
    split
    · exact List.forall_mem_nil _
    · exact List.forall_mem_singleton.mpr (.blocked ..)
  | authorize authorization =>
    obtain ⟨status, hcall, rfl⟩ := map_eq_append.mp h
    obtain ⟨-, -, rfl, -⟩ := TaskRunScope.authorize_append hcall
    exact List.forall_mem_singleton.mpr (.authorized ..)
  | authorizeHubWait authorization =>
    obtain ⟨status, hcall, rfl⟩ := map_eq_append.mp h
    obtain ⟨-, -, -, rfl, -⟩ := TaskRunScope.authorizeHubWait_append hcall
    exact List.forall_mem_singleton.mpr (.authorized ..)
  | recordJobSnapshot toolCallId inputKey jobs =>
    obtain ⟨status, hcall, rfl⟩ := map_eq_append.mp h
    obtain ⟨authorization, hmatching, hfacts⟩ := TaskRunScope.recordJobSnapshot_append hcall
    obtain ⟨hauthorization, -, -, hcurrent⟩ := TaskRunScope.matchingAuthorization_eq_ok hmatching
    dsimp only at hfacts
    split at hfacts <;> obtain ⟨rfl, -⟩ := hfacts
    · rename_i hcomplete
      refine List.forall_mem_append.mpr ⟨List.forall_mem_map.mpr fun job _ ↦ .received .., ?_⟩
      refine List.forall_mem_singleton.mpr ?_
      rw [TaskRunScope.capabilityFact, TaskFact.built, hcurrent]
      refine .proven _ hauthorization hcurrent ?_
      intro agentId hagent
      simp only [TaskRunScope.snapshotComplete, Bool.and_eq_true, decide_eq_true_eq, hcurrent] at hcomplete
      obtain ⟨job, hjob, rfl⟩ := List.mem_map.mp (hcomplete.2 hagent)
      exact ⟨job.status, List.mem_append_left _ (List.mem_map_of_mem hjob)⟩
    · exact List.forall_mem_singleton.mpr (.blocked ..)
  | recordCancellation toolCallId inputKey cancelled =>
    obtain ⟨status, hcall, rfl⟩ := map_eq_append.mp h
    obtain ⟨_, receipts, -, -, rfl, -⟩ := TaskRunScope.recordCancellation_append hcall
    exact List.forall_mem_map.mpr fun _ _ ↦ .received ..
  | recordIrcReceipts toolCallId inputKey receipts =>
    obtain ⟨status, hcall, rfl⟩ := map_eq_append.mp h
    obtain ⟨_, -, -, -, rfl, -⟩ := TaskRunScope.recordIrcReceipts_append hcall
    exact List.forall_mem_map.mpr fun _ _ ↦ .received ..

end Decisions

/-! One call. -/

section Step

variable {store : TaskStore} {acquired : Bool} {sessionId : String} {call : GateCall} {scope : TaskRunScope}
  {facts novel : List BuiltFact} {status : GateStatus} {ledger : PersistedTaskLedger} {read : List TaskFact}

/-- A generation that a call opens comes after all that was in the ledger. -/
theorem generation_left (hentries : ledger.entries = scope.ledger.entries ++ scope.newEntries read) :
    TaskRunScope.taskGeneration ⟨scope.run, ledger⟩ = scope.taskGeneration ∨
      scope.ledger.ledgerRevision < TaskRunScope.taskGeneration ⟨scope.run, ledger⟩ := by
  rw [TaskRunScope.taskGeneration, TaskRunScope.ownerEntries_appended hentries, State.ReceiptAuthority.findLast_append]
  cases hfound : findLast TaskRunScope.opensGeneration (scope.newEntries read) with
  | none => exact .inl rfl
  | some entry =>
    right
    obtain ⟨index, _, rfl⟩ := List.mem_mapIdx.mp (State.ReceiptAuthority.findLast_eq_some hfound).1
    simp only [Option.some_or, Option.map_some, Option.getD_some]
    omega

/-- A call of the owner keeps its proofs backed. -/
theorem TaskRunScope.Backed.left (h : scope.Backed)
    (happends : store.Appends sessionId (fun scope ↦ call.decide scope) scope facts novel status ledger)
    (htyped : call.Typed) (hleft : TaskStore.Left scope facts novel ledger read) :
    TaskRunScope.Backed ⟨scope.run, ledger⟩ := by
  have hsettled := (TaskStore.resolve_settled happends.hresolved).1
  have hrevision : scope.ledger.ledgerRevision ≤ ledger.ledgerRevision := by
    rw [(settled_ordered hsettled).1, (settled_ordered hleft.extended.settled).1, hleft.entries, List.length_append]
    exact Nat.le_add_right _ _
  have hcurrent := TaskRunScope.generation_le hsettled
  have hfacts : TaskRunScope.taskFacts ⟨scope.run, ledger⟩ = scope.taskFacts ++ read := by
    rw [TaskRunScope.taskFacts, TaskRunScope.ownerEntries_appended hleft.entries, List.map_append, newEntries_facts]
    rfl
  have hnew {fact : TaskFact} (hfact : fact ∈ read) :
      ∃ source, Adds scope call facts source ∧ source.tidy = fact := by
    obtain ⟨built, hbuilt, htidy⟩ := happends.read_fact hleft.readback hfact
    exact ⟨built.fact, decide_adds happends.hdecided built hbuilt, htidy⟩
  refine ⟨?_, ?_, ?_⟩
  · intro toolCallId generation reason hfact
    rw [hfacts, List.mem_append] at hfact
    obtain hold | hread := hfact
    · exact (h.begun _ _ _ hold).trans hrevision
    · obtain ⟨source, hadds, htidy⟩ := hnew hread
      cases hadds <;> cases htidy
      exact hcurrent.trans hrevision
  · intro toolCallId reason hfact
    rw [hfacts, List.mem_append] at hfact
    obtain hsame | hlater := generation_left hleft.entries
    · rw [hsame] at hfact ⊢
      rw [hleft.extended.sameAgents hsame]
      obtain hold | hread := hfact
      · exact List.Subset.trans (h.returned _ _ hold) hleft.extended.returnedJobs
      obtain ⟨source, hadds, htidy⟩ := hnew hread
      cases hadds <;> cases htidy
      rename_i toolCallId authorization reason hauthorization hgeneration hreceipts
      intro agentId hagent
      obtain ⟨status, hreceipt⟩ := hreceipts agentId hagent
      have htidy : (TaskFact.taskReceiptObserved toolCallId (.job agentId status)).built.Tidy := by
        refine receipt_tidy (TaskRunScope.authorization_tidy hsettled hauthorization).1 ?_
        rw [TaskReceipt.tidy, TaskRunScope.ownedAgents_tidy hsettled hagent]
      obtain ⟨-, hheld⟩ := (hleft.held _ hreceipt htidy).settled hleft.extended.settled
      exact TaskRunScope.mem_returnedJobs hheld (hleft.extended.taskAuthorization hauthorization) hgeneration
    · obtain hold | hread := hfact
      · exact absurd (h.begun _ _ _ hold) (Nat.not_le.mpr hlater)
      · obtain ⟨source, hadds, htidy⟩ := hnew hread
        cases hadds with
        | proven reason _ _ _ =>
          obtain ⟨-, hgeneration, -⟩ := TaskFact.asyncCapabilityObserved.inj htidy
          omega
        | reserved | bound | authorized | received | blocked => cases htidy
  · intro toolCallId bindings hfact
    rw [hfacts, List.mem_append] at hfact
    obtain hold | hread := hfact
    · exact h.distinct _ _ hold
    · obtain ⟨source, hadds, htidy⟩ := hnew hread
      cases hadds <;> cases htidy
      rename_i bindings asyncAvailable hcall hdistinct
      rw [hcall] at htyped
      have hagents : (bindings.map RuntimeIdentityBinding.tidy).map (·.actualAgentId) =
          bindings.map (·.actualAgentId) := by
        rw [List.map_map]
        exact List.map_congr_left htyped
      exact hagents ▸ hdistinct

/-- A call of one owner leaves the proofs of the others as they are. -/
theorem backed_step (hbacked : ∀ run, TaskRunScope.Backed ⟨run, scope.ledger⟩)
    (happends : store.Appends sessionId (fun scope ↦ call.decide scope) scope facts novel status ledger)
    (htyped : call.Typed) (run : AnyRun) : TaskRunScope.Backed ⟨run, ledger⟩ := by
  obtain ⟨read, hleft⟩ := happends.left
  have howner := (hbacked scope.run).left happends htyped hleft
  by_cases hsame : run.owner = scope.run.owner
  · refine howner.of_ownerEntries ?_ le_rfl
    rw [TaskRunScope.currentOwnerEntries, TaskRunScope.currentOwnerEntries]
    congr 1
    funext entry
    rw [TaskRunScope.ownedBy, TaskRunScope.ownedBy, hsame]
  · have hsettled := (TaskStore.resolve_settled happends.hresolved).1
    have hnone : (scope.newEntries read).filter (TaskRunScope.ownedBy ⟨run, ledger⟩) = [] := by
      rw [List.filter_eq_nil_iff]
      intro entry hentry howned
      obtain ⟨hsession, hepoch⟩ := newEntries_owner hentry
      simp only [TaskRunScope.ownedBy, hsession, hepoch, Bool.and_eq_true, decide_eq_true_eq] at howned
      refine hsame ?_
      cases howner : run.owner
      cases howner' : scope.run.owner
      simp_all
    refine (hbacked run).of_ownerEntries ?_ ?_
    · change ledger.entries.filter _ = scope.ledger.entries.filter _
      rw [hleft.entries, List.filter_append, hnone, List.append_nil]
      rfl
    · rw [(settled_ordered hsettled).1, (settled_ordered hleft.extended.settled).1, hleft.entries, List.length_append]
      exact Nat.le_add_right _ _

theorem TypedTransacts.backed {ledgers later : Uuid → Option Json} (h : TypedTransacts ledgers later)
    (hbefore : AllBacked ledgers) : AllBacked later := by
  obtain ⟨store, acquired, sessionId, call, rfl, htyped, rfl⟩ := h
  obtain heq | ⟨scope, facts, novel, status, ledger, happends, -, hafter⟩ := after_cases
  · rw [heq]
    exact hbefore
  rw [hafter]
  have hbacked : ∀ run, TaskRunScope.Backed ⟨run, scope.ledger⟩ := by
    intro run
    obtain ⟨-, hempty⟩ | ⟨json, hstored, hread⟩ := resolved_stored happends.hresolved
    · exact TaskRunScope.backed_of_nil hempty
    · obtain ⟨ledger', hread', hledger⟩ := hbefore _ json hstored
      obtain rfl := Option.some.inj (hread.symm.trans hread')
      exact hledger run
  intro runId json hjson
  by_cases hrun : runId = scope.run.runId
  · subst hrun
    rw [Function.update_self] at hjson
    obtain rfl := Option.some.inj hjson
    obtain ⟨read, hleft⟩ := happends.left
    exact ⟨ledger, hleft.extended.settled.reread, backed_step hbacked happends htyped⟩
  · rw [Function.update_of_ne hrun] at hjson
    exact hbefore runId json hjson

/-- From no ledgers on, after any calls of any owners, the proofs are backed. -/
theorem backed_of_calls {ledgers : Uuid → Option Json}
    (h : Relation.ReflTransGen TypedTransacts (fun _ ↦ none) ledgers) : AllBacked ledgers := by
  induction h with
  | refl =>
    intro runId json hjson
    cases hjson
  | tail _ hstep ih => exact hstep.backed ih

end Step

/-! What a proof says of the identities. -/

section Proven

variable {scope : TaskRunScope} {generation : ℕ}

theorem TaskRunScope.proven_fact (h : scope.proven = true) : ∃ toolCallId reason,
    .asyncCapabilityObserved toolCallId scope.taskGeneration .proven reason ∈ scope.taskFacts := by
  rw [proven, runtimeCapability] at h
  cases hfound : findLast (TaskFact.observes scope.taskGeneration) scope.taskFacts with
  | none =>
    rw [hfound] at h
    cases h
  | some fact =>
    obtain ⟨hmem, hobserves⟩ := State.ReceiptAuthority.findLast_eq_some hfound
    rw [hfound] at h
    cases fact with
    | asyncCapabilityObserved toolCallId taskGeneration status reason =>
      obtain rfl : taskGeneration = scope.taskGeneration := of_decide_eq_true hobserves
      cases status with
      | proven => exact ⟨toolCallId, reason, hmem⟩
      | blocked => cases h
    | taskReserved | taskIdentitiesBound | taskControlAuthorized | taskReceiptObserved => cases h

/-- Identities are complete if they have jobs, and agents that are told apart. -/
structure CompleteIdentities (identities : List RuntimeIdentityRecord) : Prop where
  jobs : ∀ identity ∈ identities, identity.actualJobId.isSome = true
  agents : (identities.map (·.actualAgentId)).Nodup

/-- The identities of a generation are those of bindings of one fact. -/
theorem TaskRunScope.identities_bound {generation : ℕ} : scope.runtimeIdentities generation = [] ∨
    ∃ toolCallId bindings, ∃ identityOf : RuntimeIdentityBinding → Option RuntimeIdentityRecord,
      .taskIdentitiesBound toolCallId bindings ∈ scope.taskFacts ∧
        scope.runtimeIdentities generation = bindings.filterMap identityOf ∧
          ∀ binding, ∀ identity ∈ identityOf binding, identity.actualAgentId = binding.actualAgentId ∧
            identity.actualJobId = binding.actualJobId.or
              ((scope.returnedJobs generation).find? (· = identity.actualAgentId)) := by
  rw [runtimeIdentities]
  cases hentry : scope.identityEntry generation with
  | none => exact .inl rfl
  | some identity =>
    dsimp only
    split
    · exact .inl rfl
    rename_i reservation _
    obtain ⟨entry, hfound, hidentity⟩ := Option.bind_eq_some_iff.mp hentry
    have hmem : entry.fact ∈ scope.taskFacts := List.mem_map_of_mem (List.mem_of_find?_eq_some hfound)
    cases hfact : entry.fact <;> rw [hfact] at hidentity hmem <;> cases hidentity
    refine .inr ⟨_, _, _, hmem, rfl, ?_⟩
    intro binding record hrecord
    obtain ⟨request, -, rfl⟩ := Option.map_eq_some_iff.mp hrecord
    exact ⟨rfl, rfl⟩

/-- All agents of a proven generation are there with their jobs. -/
theorem TaskRunScope.Backed.complete (h : scope.Backed) (hproven : scope.proven = true) :
    CompleteIdentities (scope.runtimeIdentities scope.taskGeneration) := by
  obtain ⟨toolCallId, reason, hfact⟩ := proven_fact hproven
  have hreturned := h.returned toolCallId reason hfact
  obtain hnone | ⟨boundId, bindings, identityOf, hbound, hidentities, hof⟩ :=
    @identities_bound scope scope.taskGeneration
  · rw [hnone]
    exact ⟨List.forall_mem_nil _, List.nodup_nil⟩
  constructor
  · intro identity hidentity
    have hagent : identity.actualAgentId ∈ scope.returnedJobs scope.taskGeneration :=
      hreturned (List.mem_map_of_mem hidentity)
    rw [hidentities] at hidentity
    obtain ⟨binding, -, hrecord⟩ := List.mem_filterMap.mp hidentity
    have hfound : ((scope.returnedJobs scope.taskGeneration).find? (· = identity.actualAgentId)).isSome := by
      rw [List.find?_isSome]
      exact ⟨_, hagent, by simp⟩
    rw [(hof binding identity hrecord).2]
    cases binding.actualJobId with
    | none => exact hfound
    | some jobId => rfl
  · have hdistinct := h.distinct boundId bindings hbound
    rw [List.Nodup, List.pairwise_map] at hdistinct ⊢
    rw [hidentities]
    refine hdistinct.filterMap _ ?_
    intro binding binding' hne identity hidentity identity' hidentity'
    rw [(hof binding identity hidentity).1, (hof binding' identity' hidentity').1]
    exact hne

/-- Whatever calls have made of the ledgers, a proven capability has complete identities. -/
theorem proven_complete {store : TaskStore} {sessionId : String}
    (hcalls : Relation.ReflTransGen TypedTransacts (fun _ ↦ none) store.ledgers)
    (hresolved : store.resolve sessionId = some (.scope scope)) (hproven : scope.proven = true) :
    CompleteIdentities (scope.runtimeIdentities scope.taskGeneration) := by
  refine TaskRunScope.Backed.complete ?_ hproven
  obtain ⟨-, hempty⟩ | ⟨json, hstored, hread⟩ := resolved_stored hresolved
  · exact TaskRunScope.backed_of_nil hempty
  · obtain ⟨ledger, hledger, hbacked⟩ := backed_of_calls hcalls _ json hstored
    obtain rfl := Option.some.inj (hread.symm.trans hledger)
    exact hbacked scope.run

/-- An id as its schema leaves it. -/
def IsRuntimeId (id : String) : Prop := (trim id ≠ "" ∧ utf16Length (trim id) ≤ 160) ∧ trim id = id

/-- The identities of a ledger have ids. -/
theorem TaskRunScope.identities_ids (hsettled : scope.ledger.Settled) {identity : RuntimeIdentityRecord}
    (h : identity ∈ scope.runtimeIdentities generation) :
    IsRuntimeId identity.actualAgentId ∧ ∀ jobId ∈ identity.actualJobId, IsRuntimeId jobId := by
  obtain hnone | ⟨boundId, bindings, identityOf, hbound, hidentities, hof⟩ :=
    @identities_bound scope generation
  · rw [hnone] at h
    cases h
  rw [hidentities] at h
  obtain ⟨binding, hbinding, hrecord⟩ := List.mem_filterMap.mp h
  obtain ⟨hagent, hjob⟩ := hof binding identity hrecord
  obtain ⟨hok, htidy⟩ := TaskFact.settled_iff.mp (settled_of_mem hsettled hbound)
  obtain ⟨-, hbindings⟩ := TaskFact.taskIdentitiesBound.inj htidy
  have hsame := List.map_inj_left.mp (hbindings.trans (List.map_id _).symm) binding hbinding
  obtain ⟨-, hagentOk, hjobOk⟩ := hok.2.1 binding hbinding
  refine ⟨hagent ▸ ⟨hagentOk, congrArg RuntimeIdentityBinding.actualAgentId hsame⟩, ?_⟩
  intro jobId hmem
  rw [hjob] at hmem
  obtain hown | ⟨-, hreturned⟩ := Option.or_eq_some_iff.mp hmem
  · refine ⟨hjobOk jobId hown, ?_⟩
    have htrimmed : binding.actualJobId.map trim = binding.actualJobId :=
      congrArg RuntimeIdentityBinding.actualJobId hsame
    rw [hown] at htrimmed
    exact Option.some.inj htrimmed
  · obtain ⟨fact, hfact, hvalue⟩ := List.mem_filterMap.mp (List.mem_of_find?_eq_some hreturned)
    obtain ⟨source, hsource, hreceipt⟩ := List.mem_filterMap.mp hfact
    obtain ⟨hok, htidy⟩ := TaskFact.settled_iff.mp (settled_of_mem hsettled hsource)
    cases source <;> cases hreceipt
    obtain ⟨-, hreceipt⟩ := TaskFact.taskReceiptObserved.inj htidy
    rename_i receipt
    cases receipt with
    | job found status =>
      obtain rfl : found = jobId := by
        dsimp only at hvalue
        split at hvalue
        · exact Option.some.inj hvalue
        · cases hvalue
      exact ⟨hok.2, (TaskReceipt.job.inj hreceipt).1⟩
    | jobCancel | irc => cases hvalue

end Proven

namespace Sample

/-- Two tasks, of two workers. -/
def pairReservation : TaskReservationFact :=
  ⟨"call-1", 2, [⟨none, 0, some "worker-a", some "omp-lazy-worker-low"⟩,
    ⟨none, 1, some "worker-b", some "omp-lazy-worker-low"⟩]⟩

/-- The tasks are reserved and bound, and a wait for their jobs returns both. -/
def pairCalls : List GateCall :=
  [.reserve pairReservation 2,
    .bind "call-1" [⟨0, "agent-1", none⟩, ⟨1, "agent-2", some "job-2"⟩] true,
    .authorizeHubWait ⟨"call-2", "key", [], []⟩,
    .recordJobSnapshot "call-2" "key" [⟨"agent-1", .task, .completed⟩, ⟨"agent-2", .task, .completed⟩]]

def pairFiles : Uuid → Option Json :=
  pairCalls.foldl (fun files call ↦ (gateStore files).after true "session" call) fun _ ↦ none

def pairIdentities : List RuntimeIdentityRecord :=
  [⟨"call-1", 0, some "worker-a", some "omp-lazy-worker-low", "agent-1", some "agent-1"⟩,
    ⟨"call-1", 1, some "worker-b", some "omp-lazy-worker-low", "agent-2", some "job-2"⟩]

def provesPair : Option TaskScopeResult → Bool
  | some (.scope scope) => scope.run = State.Sample.run && scope.proven &&
      scope.runtimeIdentities scope.taskGeneration = pairIdentities
  | _ => false

end Sample

/-- Calls of one session, each after the one before. -/
theorem session_calls (calls : List GateCall) (files : Uuid → Option Json) (htyped : ∀ call ∈ calls, call.Typed) :
    Relation.ReflTransGen TypedTransacts files
      (calls.foldl (fun files call ↦ (Sample.gateStore files).after true "session" call) files) := by
  induction calls generalizing files with
  | nil => exact .refl
  | cons call calls ih =>
    obtain ⟨hfirst, hrest⟩ := List.forall_mem_cons.mp htyped
    exact .head ⟨Sample.gateStore files, true, "session", call, rfl, hfirst, rfl⟩ (ih _ hrest)

theorem pair_calls : Relation.ReflTransGen TypedTransacts (fun _ ↦ none) Sample.pairFiles := by
  refine session_calls _ _ ?_
  have hagents : trim "agent-1" = "agent-1" ∧ trim "agent-2" = "agent-2" := by decide
  simp [Sample.pairCalls, GateCall.Typed, hagents]

/-- The capability of the tasks is proven. -/
theorem pair_proven : ∃ scope, (Sample.gateStore Sample.pairFiles).resolve "session" = some (.scope scope) ∧
    scope.run = State.Sample.run ∧ scope.proven = true ∧
      scope.runtimeIdentities scope.taskGeneration = Sample.pairIdentities := by
  have hcheck : Sample.provesPair ((Sample.gateStore Sample.pairFiles).resolve "session") = true := by
    decide
  unfold Sample.provesPair at hcheck
  split at hcheck
  · rename_i scope hresolved
    simp only [Bool.and_eq_true, decide_eq_true_eq] at hcheck
    exact ⟨scope, hresolved, hcheck.1.1, hcheck.1.2, hcheck.2⟩
  · cases hcheck

end OmpLazy.Gates

import OmpLazy.Gates.TaskEventLedger

/-! What a transaction on a ledger of task facts does. -/

namespace OmpLazy.Gates

open OmpLazy.Foundation OmpLazy.Foundation.Schema OmpLazy.Foundation.Text OmpLazy.Contracts
open OmpLazy.State (Uuid AnyRun)

/-! The ledger that a transaction reads. -/

theorem emptyLedger_settled (run : AnyRun) : (emptyLedger run).version.Settled := by
  rw [emptyLedger]
  cases run.version with
  | v1 => trivial
  | v2 => exact ⟨by simp, by simp⟩

theorem persisted_settled {version : TaskLedgerVersion} {json : Json} {ledger : PersistedTaskLedger}
    (h : persistedSchema version json = some ledger) : ledger.Settled := by
  cases version with
  | v1 => exact (PersistedTaskLedger.v1_settled h).2
  | v2 => exact (PersistedTaskLedger.v2_settled h).2

theorem readLedger_settled {run : AnyRun} {stored : Option Json} {ledger : PersistedTaskLedger}
    (h : readLedger run stored = some ledger) : ledger.Settled := by
  cases stored with
  | none => exact persisted_settled h
  | some json => exact PersistedTaskLedger.read_settled h

/-- The ledger of a run without a file is empty. -/
theorem readLedger_missing {run : AnyRun} {ledger : PersistedTaskLedger}
    (h : readLedger run none = some ledger) : ledger.entries = [] := by
  obtain ⟨-, -, entries, hentries, -, rfl⟩ :=
    (PersistedTaskLedger.written_iff (emptyLedger_settled run)).mp h
  exact (Option.some.inj hentries).symm

namespace TaskStore

variable {store : TaskStore} {sessionId : String} {scope : TaskRunScope}

/-- The scope of a session is the run that its one entry in the index is about, and that run's ledger. -/
theorem resolve_eq_scope (h : store.resolve sessionId = some (.scope scope)) :
    ∃ entry, store.index.entries.filter (·.sessionId = sessionId) = [entry] ∧
      store.readRun entry.runId = some (some scope.run) ∧ entryMatches entry scope.run = true ∧
      readLedger scope.run (store.ledgers scope.run.runId) = some scope.ledger := by
  rw [resolve] at h
  split at h
  · simp at h
  · rename_i entry hentries
    obtain ⟨found, hfound, h⟩ := Option.bind_eq_some_iff.mp h
    cases found with
    | none => simp at h
    | some run =>
      dsimp only at h
      split at h
      · rename_i hmatches
        obtain ⟨ledger, hledger, h⟩ := Option.bind_eq_some_iff.mp h
        obtain rfl : (⟨run, ledger⟩ : TaskRunScope) = scope := by simpa using h
        exact ⟨entry, hentries, hfound, hmatches, hledger⟩
      · simp at h
  · simp at h

theorem resolve_settled (h : store.resolve sessionId = some (.scope scope)) :
    scope.ledger.Settled ∧ Trimmed scope.run.owner.sessionId := by
  obtain ⟨entry, -, hrun, -, hledger⟩ := resolve_eq_scope h
  have hdecoded := store.decoded entry.runId scope.run hrun
  obtain ⟨hok, htidy⟩ := (State.AnyRun.reads.fixed_iff scope.run).mp hdecoded
  have htrim : trim scope.run.owner.sessionId = scope.run.owner.sessionId :=
    congrArg (fun run : AnyRun ↦ run.owner.sessionId) htidy
  exact ⟨readLedger_settled hledger, htrim, htrim ▸ hok.owner.sessionId⟩

end TaskStore

/-! The facts that a transaction adds. -/

/-- The schema reads a built fact as it reads the fact in its own order. -/
def BuiltFact.Faithful (built : BuiltFact) : Prop := factSchema built.json = factSchema (encodeFact built.fact)

theorem built_faithful (fact : TaskFact) : fact.built.Faithful := rfl

theorem authorizationFact_faithful (authorization : ControlAuthorization) (generation : ℕ) :
    (TaskRunScope.authorizationFact authorization generation).Faithful := by
  have hkind : factKindSchema (.string (factKindText .taskControlAuthorized)) =
      some .taskControlAuthorized := rfl
  simp [BuiltFact.Faithful, TaskRunScope.authorizationFact, factSchema, encodeFact, factFields, Json.get?,
    strictObject, factKeys, factBody, required, TaskFact.kind, hkind]

theorem TaskFact.kind_tidy (fact : TaskFact) : fact.tidy.kind = fact.kind := by
  cases fact <;> rfl

theorem BuiltFact.Faithful.read_iff {built : BuiltFact} (h : built.Faithful) {fact : TaskFact} :
    factSchema built.json = some fact ↔ built.fact.Ok ∧ built.fact.tidy = fact := by
  rw [show factSchema built.json = _ from h, TaskFact.reads.encoded]

namespace TaskRunScope

variable {scope : TaskRunScope}

/-- The entries that are made of new facts, from a revision on. -/
def newEntries (scope : TaskRunScope) (facts : List TaskFact) : List TaskLedgerEntry :=
  facts.mapIdx fun index fact ↦ ⟨scope.ledger.ledgerRevision + index + 1, scope.run.owner.sessionId,
    scope.run.owner.epoch, fact⟩

theorem read_appended {session : String} {epoch revision : ℕ} {facts : List BuiltFact}
    {entries : List TaskLedgerEntry} (hsession : Trimmed session)
    (h : items taskLedgerEntrySchema (facts.mapIdx fun index fact ↦
      encodeEntry ⟨revision + index + 1, session, epoch, fact.fact⟩ fact.json) = some entries) :
    ∃ read, List.Forall₂ (fun (built : BuiltFact) fact ↦ factSchema built.json = some fact) facts read ∧
      entries = read.mapIdx fun index fact ↦ ⟨revision + index + 1, session, epoch, fact⟩ := by
  induction facts generalizing revision entries with
  | nil =>
    obtain rfl := Option.some.inj h
    exact ⟨[], .nil, rfl⟩
  | cons built facts ih =>
    have hshift : ∀ index, revision + (index + 1) + 1 = revision + 1 + index + 1 := by omega
    simp only [List.mapIdx_cons, items, Option.bind_eq_some_iff, Option.map_eq_some_iff, hshift] at h
    obtain ⟨entry, hentry, rest, hrest, rfl⟩ := h
    obtain ⟨-, -, fact, hfact, rfl⟩ := (TaskLedgerEntry.written_iff hsession).mp hentry
    obtain ⟨read, hread, rfl⟩ := ih hrest
    exact ⟨fact :: read, .cons hfact hread, by simp [List.mapIdx_cons, hshift]⟩

/-- The ledger has a fact as it was built. -/
def Holds (scope : TaskRunScope) (built : BuiltFact) : Prop :=
  ∃ existing, scope.factByKey (taskFactKey built.fact) = some existing ∧ encodeFact existing = built.json

theorem foldlM_addNovel {facts found novel : List BuiltFact}
    (h : facts.foldlM scope.addNovel found = some novel) :
    ∃ new, novel = found ++ new ∧ new.Sublist facts ∧ ∀ built ∈ facts, built ∈ new ∨ scope.Holds built := by
  induction facts generalizing found with
  | nil => exact ⟨[], by simpa using h.symm, List.Sublist.refl _, by simp⟩
  | cons fact facts ih =>
    rw [List.foldlM_cons] at h
    obtain ⟨next, hnext, h⟩ := Option.bind_eq_some_iff.mp h
    obtain ⟨new, rfl, hnew, hheld⟩ := ih h
    unfold addNovel at hnext
    split at hnext
    · rename_i existing hexisting
      obtain ⟨hsame, hfound⟩ := Option.ite_none_right_eq_some.mp hnext
      exact ⟨new, by rw [Option.some.inj hfound], hnew.cons fact,
        List.forall_mem_cons.mpr ⟨.inr ⟨existing, hexisting, hsame⟩, hheld⟩⟩
    · obtain ⟨-, hfound⟩ := Option.ite_none_left_eq_some.mp hnext
      refine ⟨fact :: new, by rw [← Option.some.inj hfound]; simp, hnew.cons_cons fact, ?_⟩
      exact List.forall_mem_cons.mpr ⟨.inl List.mem_cons_self, fun built hbuilt ↦
        (hheld built hbuilt).imp_left (List.mem_cons_of_mem _)⟩

/-- The new facts are among the facts, in their order; the other facts are in the ledger. -/
theorem novel_eq_some {facts novel : List BuiltFact} (h : scope.novel facts = some novel) :
    novel.Sublist facts ∧ ∀ built ∈ facts, built ∈ novel ∨ scope.Holds built := by
  obtain ⟨new, rfl, hnew, hheld⟩ := foldlM_addNovel h
  exact ⟨hnew, hheld⟩

/-- Nothing is new of facts that the ledger has. -/
theorem novel_held {facts : List BuiltFact} (h : ∀ built ∈ facts, scope.Holds built) :
    scope.novel facts = some [] := by
  rw [novel]
  induction facts with
  | nil => rfl
  | cons fact facts ih =>
    obtain ⟨⟨existing, hexisting, hsame⟩, hrest⟩ := List.forall_mem_cons.mp h
    have hstep : scope.addNovel [] fact = some [] := by
      unfold addNovel
      rw [hexisting]
      exact if_pos hsame
    rw [List.foldlM_cons, hstep]
    exact ih hrest

/-- New facts go behind the old entries, which stay as they are. -/
theorem appended_eq_some {facts : List BuiltFact} {ledger : PersistedTaskLedger}
    (hsettled : scope.ledger.Settled) (hsession : Trimmed scope.run.owner.sessionId)
    (h : scope.appended facts = some ledger) :
    ledger.Settled ∧ ledger.version = scope.ledger.version ∧ ledger.runId = scope.ledger.runId ∧
      ∃ read, List.Forall₂ (fun (built : BuiltFact) fact ↦ factSchema built.json = some fact) facts read ∧
        ledger.entries = scope.ledger.entries ++ scope.newEntries read := by
  refine ⟨persisted_settled h, ?_⟩
  obtain ⟨-, -, entries, hentries, -, rfl⟩ := (PersistedTaskLedger.written_iff hsettled.version).mp h
  have hold : items taskLedgerEntrySchema (scope.ledger.entries.map fun entry ↦
      encodeEntry entry (encodeFact entry.fact)) = some scope.ledger.entries :=
    array_reread fun entry hentry ↦
      (TaskLedgerEntry.reads.fixed_iff entry).mpr (hsettled.entries entry hentry)
  rw [items_append, hold, Option.bind_some, Option.map_eq_some_iff] at hentries
  obtain ⟨new, hnew, rfl⟩ := hentries
  obtain ⟨read, hread, rfl⟩ := read_appended hsession hnew
  exact ⟨rfl, rfl, read, hread, rfl⟩

end TaskRunScope

namespace TaskStore

variable {α : Type} {store : TaskStore} {sessionId : String} {acquired : Bool}
  {decide : TaskRunScope → TaskLedgerDecision α} {result : TaskLedgerTransaction α}
  {ledgers : Uuid → Option Json}

/-- What a transaction changes: it adds the new facts of an append to the ledger of the session's run. -/
structure Appends (store : TaskStore) (sessionId : String) (decide : TaskRunScope → TaskLedgerDecision α)
    (scope : TaskRunScope) (facts novel : List BuiltFact) (value : α) (ledger : PersistedTaskLedger) :
    Prop where
  hresolved : store.resolve sessionId = some (.scope scope)
  hdecided : decide scope = .append facts value
  hnovel : scope.novel facts = some novel
  happended : scope.appended novel = some ledger

/-- A transaction that changes nothing: a decision that adds nothing, or only facts that are there. -/
def Repeats (store : TaskStore) (sessionId : String) (decide : TaskRunScope → TaskLedgerDecision α)
    (scope : TaskRunScope) (value : α) : Prop :=
  store.resolve sessionId = some (.scope scope) ∧
    (decide scope = .returned value ∨
      ∃ facts, decide scope = .append facts value ∧ scope.novel facts = some [])

theorem transact_cases (h : store.transact acquired sessionId decide = some (result, ledgers)) :
    (ledgers = store.ledgers ∧ ((∀ value changed, result ≠ .scope value changed) ∨
      ∃ scope value, store.Repeats sessionId decide scope value ∧ result = .scope value false)) ∨
      ∃ scope facts novel value ledger, store.Appends sessionId decide scope facts novel value ledger ∧
        result = .scope value true ∧
          ledgers = Function.update store.ledgers scope.run.runId (some (encodeTaskLedger ledger)) := by
  have hsame : ∀ {result' : TaskLedgerTransaction α}, ((∀ value changed, result' ≠ .scope value changed) ∨
      ∃ scope value, store.Repeats sessionId decide scope value ∧ result' = .scope value false) →
      some (result', store.ledgers) = some (result, ledgers) →
      ledgers = store.ledgers ∧ ((∀ value changed, result ≠ .scope value changed) ∨
        ∃ scope value, store.Repeats sessionId decide scope value ∧ result = .scope value false) := by
    rintro result' hresult heq
    obtain ⟨rfl, rfl⟩ := Prod.mk.inj (Option.some.inj heq)
    exact ⟨rfl, hresult⟩
  rw [transact] at h
  split at h
  · exact .inl (hsame (.inl (by simp)) h)
  obtain ⟨resolved, hresolved, h⟩ := Option.bind_eq_some_iff.mp h
  cases resolved with
  | none => exact .inl (hsame (.inl (by simp)) h)
  | conflict => exact .inl (hsame (.inl (by simp)) h)
  | scope scope =>
    dsimp only at h
    cases hdecided : decide scope with
    | returned value =>
      rw [hdecided, settle] at h
      exact .inl (hsame (.inr ⟨scope, value, ⟨hresolved, .inl hdecided⟩, rfl⟩) h)
    | append facts value =>
      rw [hdecided, settle] at h
      split at h
      · exact .inl (hsame (.inl (by simp)) h)
      · rename_i hnovel
        exact .inl (hsame (.inr ⟨scope, value, ⟨hresolved, .inr ⟨facts, hdecided, hnovel⟩⟩, rfl⟩) h)
      · rename_i novel hne hnovel
        obtain ⟨ledger, happended, h⟩ := Option.bind_eq_some_iff.mp h
        obtain ⟨rfl, rfl⟩ := Prod.mk.inj (Option.some.inj h)
        exact .inr ⟨scope, facts, novel, value, ledger, ⟨hresolved, hdecided, hnovel, happended⟩, rfl, rfl⟩

end TaskStore

/-! What each call appends. -/

theorem map_eq_returned {α β : Type} {f : α → β} {decision : TaskLedgerDecision α} {value : β} :
    decision.map f = .returned value ↔ ∃ status, decision = .returned status ∧ f status = value := by
  cases decision <;> simp [TaskLedgerDecision.map]

theorem map_eq_append {α β : Type} {f : α → β} {decision : TaskLedgerDecision α} {facts : List BuiltFact}
    {value : β} : decision.map f = .append facts value ↔
      ∃ status, decision = .append facts status ∧ f status = value := by
  cases decision <;> simp [TaskLedgerDecision.map]

namespace TaskRunScope

variable {scope : TaskRunScope} {facts : List BuiltFact} {toolCallId : ToolCallId} {inputKey : String}

theorem reserve_append {reservation : TaskReservationFact} {maxFanOut : ℕ} {status : ReserveStatus}
    (h : scope.reserve reservation maxFanOut = .append facts status) :
    scope.taskReservation reservation.toolCallId = none ∧
      (scope.taskReservations.map (·.itemCount)).sum + reservation.itemCount ≤ maxFanOut ∧
      facts = [reservation.fact.built] ∧ status = .reserved := by
  unfold reserve at h
  split at h
  · cases h
  rename_i hnone
  dsimp only at h
  split at h
  · cases h
  rename_i hlimit
  obtain ⟨rfl, rfl⟩ := TaskLedgerDecision.append.inj h
  exact ⟨hnone, by omega, rfl, rfl⟩

/-- The facts of a binding: the identities, and that they came without the asynchronous tools. -/
def bindingFacts (scope : TaskRunScope) (toolCallId : ToolCallId) (bindings : List RuntimeIdentityBinding)
    (asyncAvailable : Bool) : List BuiltFact :=
  TaskFact.built (.taskIdentitiesBound toolCallId bindings) ::
    if asyncAvailable then []
    else [capabilityFact toolCallId (scope.ledger.ledgerRevision + 1) .blocked "async_unavailable_or_inline"]

theorem bind_append {bindings : List RuntimeIdentityBinding} {asyncAvailable : Bool}
    {status : BindingStatus} (h : scope.bind toolCallId bindings asyncAvailable = .append facts status) :
    (∃ reservation, scope.taskReservation toolCallId = some reservation ∧
      bindingsMatch reservation.itemCount bindings = true) ∧
      scope.taskIdentityFacts.find? (·.toolCallId = toolCallId) = none ∧
      facts = scope.bindingFacts toolCallId bindings asyncAvailable ∧
      status = bindingStatus asyncAvailable := by
  unfold bind at h
  split at h
  · cases h
  rename_i reservation hreservation
  split at h
  · cases h
  rename_i hmatch
  dsimp only at h
  split at h
  · cases h
  rename_i hnone
  obtain ⟨rfl, rfl⟩ := TaskLedgerDecision.append.inj h
  exact ⟨⟨reservation, hreservation, by simpa using hmatch⟩, hnone, rfl, rfl⟩

theorem authorize_append {authorization : ControlAuthorization} {status : AuthorizationStatus}
    (h : scope.authorize authorization = .append facts status) :
    scope.taskGeneration ≠ 0 ∧
      authorization.targets ⊆ scope.ownedTargets scope.taskGeneration authorization.control ∧
      facts = [authorizationFact authorization scope.taskGeneration] ∧ status = .authorized := by
  unfold authorize at h
  dsimp only at h
  split at h
  · cases h
  rename_i hgeneration
  split at h
  · cases h
  rename_i howned
  obtain ⟨rfl, rfl⟩ := TaskLedgerDecision.append.inj h
  exact ⟨hgeneration, not_not.mp howned, rfl, rfl⟩

def hubWaitFact (authorization : HubWaitAuthorization) (generation : ℕ) : BuiltFact :=
  TaskFact.built (.taskControlAuthorized authorization.toolCallId .jobSnapshot generation
    authorization.inputKey authorization.jobTargets)

theorem authorizeHubWait_append {authorization : HubWaitAuthorization}
    {status : HubWaitAuthorizationStatus}
    (h : scope.authorizeHubWait authorization = .append facts status) :
    scope.taskGeneration ≠ 0 ∧ authorization.jobTargets ⊆ scope.ownedJobs scope.taskGeneration ∧
      authorization.agentTargets ⊆ scope.ownedAgents scope.taskGeneration ∧
      facts = [hubWaitFact authorization scope.taskGeneration] ∧ status = .authorized := by
  unfold authorizeHubWait at h
  dsimp only at h
  split at h
  · cases h
  rename_i hgeneration
  split at h
  · cases h
  rename_i hjobs
  split at h
  · cases h
  rename_i hagents
  obtain ⟨rfl, rfl⟩ := TaskLedgerDecision.append.inj h
  exact ⟨hgeneration, not_not.mp hjobs, not_not.mp hagents, rfl, rfl⟩

theorem matchingAuthorization_eq_ok {control : TaskControl} {authorization : TaskAuthorizationFact}
    (h : scope.matchingAuthorization toolCallId inputKey control = .ok authorization) :
    scope.taskAuthorization toolCallId = some authorization ∧ authorization.control = control ∧
      authorization.inputKey = inputKey ∧ authorization.taskGeneration = scope.taskGeneration := by
  unfold matchingAuthorization at h
  split at h
  · cases h
  rename_i found hfound
  split at h
  · cases h
  rename_i hmatch
  split at h
  · cases h
  rename_i hgeneration
  obtain rfl := Except.ok.inj h
  obtain ⟨hcontrol, hkey⟩ := not_or.mp hmatch
  exact ⟨hfound, not_not.mp hcontrol, not_not.mp hkey, not_not.mp hgeneration⟩

def snapshotFacts (toolCallId : ToolCallId) (generation : ℕ) (taskJobs : List TaskJobSnapshot) :
    List BuiltFact :=
  taskJobs.map (fun job ↦ TaskFact.built (.taskReceiptObserved toolCallId (.job job.id job.status))) ++
    [capabilityFact toolCallId generation .proven "matching_job_snapshot"]

theorem recordJobSnapshot_append {jobs : List TaskJobSnapshot} {status : ReceiptWriteStatus}
    (h : scope.recordJobSnapshot toolCallId inputKey jobs = .append facts status) :
    ∃ authorization, scope.matchingAuthorization toolCallId inputKey .jobSnapshot = .ok authorization ∧
      let taskJobs := jobs.filter (·.type = .task)
      if snapshotComplete (scope.ownedAgents authorization.taskGeneration) (taskJobs.map (·.id)) then
        facts = snapshotFacts toolCallId authorization.taskGeneration taskJobs ∧ status = .recorded
      else
        facts = [capabilityFact toolCallId authorization.taskGeneration .blocked
          "identity_mapping_incomplete"] ∧ status = .identityMappingIncomplete := by
  unfold recordJobSnapshot at h
  split at h
  · cases h
  rename_i authorization hmatching
  refine ⟨authorization, hmatching, ?_⟩
  dsimp only at h ⊢
  split at h
  · rename_i hcomplete
    obtain ⟨rfl, rfl⟩ := TaskLedgerDecision.append.inj h
    rw [if_pos hcomplete]
    exact ⟨rfl, rfl⟩
  · rename_i hcomplete
    obtain ⟨rfl, rfl⟩ := TaskLedgerDecision.append.inj h
    rw [if_neg hcomplete]
    exact ⟨rfl, rfl⟩

theorem recordCancellation_append {cancelled : List TaskCancelReceipt} {status : ReceiptWriteStatus}
    (h : scope.recordCancellation toolCallId inputKey cancelled = .append facts status) :
    ∃ authorization receipts,
      scope.matchingAuthorization toolCallId inputKey .jobCancel = .ok authorization ∧
      (authorization.targets.mapM fun target ↦ cancelled.find? fun receipt ↦
        receipt.id = target && receipt.status = .cancelled) = some receipts ∧
      facts = receipts.map (fun receipt ↦
        TaskFact.built (.taskReceiptObserved toolCallId (.jobCancel receipt.id))) ∧ status = .recorded := by
  unfold recordCancellation at h
  split at h
  · cases h
  rename_i authorization hmatching
  split at h
  · cases h
  rename_i receipts hreceipts
  obtain ⟨rfl, rfl⟩ := TaskLedgerDecision.append.inj h
  exact ⟨authorization, receipts, hmatching, hreceipts, rfl, rfl⟩

theorem recordIrcReceipts_append {receipts : List TaskIrcReceipt} {status : ReceiptWriteStatus}
    (h : scope.recordIrcReceipts toolCallId inputKey receipts = .append facts status) :
    ∃ authorization,
      scope.matchingAuthorization toolCallId inputKey .ircSend = .ok authorization ∧
      (∀ receipt ∈ receipts, receipt.toAgent ∈ authorization.targets) ∧
      receipts.length = authorization.targets.dedup.length ∧
      facts = receipts.map (fun receipt ↦
        TaskFact.built (.taskReceiptObserved toolCallId (.irc receipt.toAgent receipt.outcome))) ∧
      status = .recorded := by
  unfold recordIrcReceipts at h
  split at h
  · cases h
  rename_i authorization hmatching
  dsimp only at h
  split at h
  · cases h
  rename_i hmissing
  obtain ⟨hexpected, hlength⟩ := not_or.mp hmissing
  have hall := List.length_filter_eq_length_iff.mp (not_not.mp hlength).symm
  rw [List.filter_eq_self.mpr hall] at h hexpected
  obtain ⟨rfl, rfl⟩ := TaskLedgerDecision.append.inj h
  exact ⟨authorization, hmatching, fun receipt hreceipt ↦ of_decide_eq_true (hall receipt hreceipt),
    not_not.mp hexpected, rfl, rfl⟩

end TaskRunScope

end OmpLazy.Gates

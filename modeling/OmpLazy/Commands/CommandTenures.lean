import OmpLazy.Commands.CommandGrammar
import OmpLazy.Commands.CommandRetries
import OmpLazy.State.OwnerTenures

/-! Sessions that share a root: who owns a run when a command of one of them changes it. -/

namespace OmpLazy.Commands

open OmpLazy.Foundation OmpLazy.Foundation.Schema OmpLazy.Foundation.Text OmpLazy.State OmpLazy.Workflows EventStore
  Action Store Relation

/-- A session, and the event that a command of it has made. -/
structure Given where
  sessionId : String
  event : PersistedStateEvent

/-- The event is from the owner that it expects, or makes its session the owner. -/
def Given.Held (given : Given) : Prop :=
  match given.event.mutation with
  | .runCreated run => run.owner = ⟨given.sessionId, 1⟩
  | .ownerAdopted sessionId => sessionId = given.sessionId
  | _ => given.event.expected.ownerSessionId = some given.sessionId

section Held

variable {platform : PathPlatform} {context : WorkflowContext platform} {workflow : WorkflowKind} {run next : AnyRun}
  {operation : Operation} {event : PersistedStateEvent} {mutation : StateMutation} {head key : Option String}
  {generation : Option ℕ} {target : Uuid} {kind : ControlKind}

theorem lookupRun_owner (h : context.lookupRun workflow (some target) false = .ok run) :
    run.owner.sessionId = context.sessionId := by
  unfold CommandContext.lookupRun at h
  dsimp only at h
  split at h
  · cases h
  split at h
  · cases h
  split at h
  · cases h
  rename_i howner
  obtain rfl := Except.ok.inj h
  simpa using howner

/-- An event that is not in the log yet expects the owner that its command has read. -/
theorem mutationEvent_fresh (h : context.readEvent (context.mutationEvent run mutation head generation key).eventId = none) :
    (context.mutationEvent run mutation head generation key).expected.ownerSessionId = some run.owner.sessionId := by
  cases key with
  | none => rfl
  | some key =>
    have hnone : context.readEvent (context.deterministicEventId
        (run.runId ++ "\x00" ++ mutation.kind.text ++ "\x00" ++ key)) = none := h
    unfold CommandContext.mutationEvent
    simp only [Option.bind_some, hnone]

theorem controlled_held {mutation : StateMutation} (hmutates : controlMutationOf context kind = some mutation)
    (hreduces : reduceWorkflowControl run ⟨kind, context.sessionId, run.owner.epoch⟩ = .ok next) :
    (⟨context.sessionId, context.mutationEvent run mutation none none none⟩ : Given).Held := by
  cases kind with
  | reconcilePlan plan => cases hmutates
  | adopt =>
    obtain rfl := Option.some.inj hmutates
    exact rfl
  | pause | resume | cancel =>
    obtain rfl := Option.some.inj hmutates
    exact congrArg some (control_owner (by decide) hreduces)

theorem issued_held (h : Issues context event) (htarget : context.words[0]? = some target)
    (hfresh : context.readEvent event.eventId = none) : (⟨context.sessionId, event⟩ : Given).Held := by
  have howned : ∀ {workflow run mutation head generation key},
      context.lookupRun workflow context.words[0]? false = .ok run →
      context.readEvent (context.mutationEvent run mutation head generation key).eventId = none →
        (context.mutationEvent run mutation head generation key).expected.ownerSessionId = some context.sessionId := by
    intro workflow run mutation head generation key hfound hfresh
    rw [htarget] at hfound
    rw [mutationEvent_fresh hfresh, lookupRun_owner hfound]
  cases h with
  | controlled _ hmutates hreduces => exact controlled_held hmutates hreduces
  | steered hfound => exact howned hfound hfresh
  | reconciled hfound => exact howned hfound hfresh
  | checkpointed _ hchecked => exact howned (checkpointUlwRun_names hchecked).1 hfresh
  | createdLoop => exact rfl
  | createdStart => exact rfl

theorem created_held {same : AnyRun → Bool} {payload : Payload}
    (h : context.createUnless workflow same payload = .ok (.commits event)) :
    (⟨context.sessionId, event⟩ : Given).Held := by
  obtain ⟨head, -, rfl⟩ := createUnless_commits h
  exact rfl

theorem checkpoint_target {checkpoint : CommandContext.Checkpoint} (h : context.checkpointUlwRun = .ok checkpoint) :
    ∃ target, context.words[0]? = some target := by
  unfold CommandContext.checkpointUlwRun at h
  dsimp only at h
  split at h
  · cases h
  split at h
  · cases h
  split at h
  · rename_i hpath
    obtain ⟨hlength, -⟩ := List.getElem?_eq_some_iff.mp hpath
    exact ⟨_, List.getElem?_eq_getElem (by omega)⟩
  · cases h

theorem startWork_held (h : context.createStartWork = .ok (.commits event)) :
    (⟨context.sessionId, event⟩ : Given).Held := by
  unfold WorkflowContext.createStartWork at h
  split at h
  · cases h
  dsimp only at h
  split at h
  · cases h
  exact created_held h

/-- A command that names its run where it has to commits for the owner. -/
theorem executed_held (hnames : NamesRun operation → ∃ target, context.words[0]? = some target)
    (h : context.execute workflow operation = .ok (.commits event)) (hfresh : context.readEvent event.eventId = none) :
    (⟨context.sessionId, event⟩ : Given).Held := by
  by_cases hoperation : NamesRun operation
  · obtain ⟨target, htarget⟩ := hnames hoperation
    exact issued_held (execute_issues h) htarget hfresh
  have hcontrol : ∀ {workflow operation}, context.control workflow operation = .ok (.commits event) →
      (⟨context.sessionId, event⟩ : Given).Held := by
    intro workflow operation hcontrol
    obtain ⟨_, run, next, kind, mutation, -, hmutates, hreduces, rfl⟩ := control_commits hcontrol
    exact controlled_held hmutates hreduces
  cases workflow with
  | ulwLoop =>
    cases operation with
    | pause | resume | cancel | adopt => exact hcontrol h
    | status => exact absurd h showStatus_ne
    | create => exact created_held h
    | steer => exact absurd (.inr (.inr rfl)) hoperation
    | _ =>
      obtain ⟨checkpoint, hchecked, -⟩ := map_eq_ok.mp h
      obtain ⟨target, htarget⟩ := checkpoint_target hchecked
      exact issued_held (checkpoint_issues h) htarget hfresh
  | startWork =>
    cases operation with
    | pause | resume | cancel | adopt => exact hcontrol h
    | status => exact absurd h showStatus_ne
    | reconcile => exact absurd (.inl rfl) hoperation
    | _ => exact startWork_held h

end Held

/-! Runs. -/

/-- What happens to a root that sessions share: their commands, wherever they crash or stop, repairs, and workers that
write their ledgers. A command may have read its runs and the index at any time, and what it has read of the log is of
an earlier state. -/
inductive CommandStep (root : StateRoot) : Disk → Option Given → Disk → Prop
  | command {platform : PathPlatform} {context : WorkflowContext platform} {workflow : WorkflowKind} {args : String}
      {operation : Operation} {event : PersistedStateEvent} {seen : List PersistedStateEvent} {view disk : Disk}
      {options : CommitOptions} {deadline : Deadline} {outcome : Except Thrown TransactionResult} {session : Session}
      (sound : Sound context) (line : runCommand workflow args = some (operation, context.words))
      (earlier : ReflTransGen (RootStep root) view disk) (log : readEvents view = .ok seen)
      (reads : context.readEvent = fun id ↦ seen.find? (·.eventId = id))
      (executes : context.execute workflow operation = .ok (.commits event))
      (commits : exec (commit root options (.ofValue event)) ⟨disk, deadline⟩ = (outcome, session)) :
      CommandStep root disk (some ⟨context.sessionId, event⟩) session.disk
  | repair {disk : Disk} {options : CallOptions} {deadline : Deadline}
      {outcome : Except Thrown (Except RepairErrorCode Repaired)} {session : Session}
      (repairs : exec (repairState root options) ⟨disk, deadline⟩ = (outcome, session)) :
      CommandStep root disk none session.disk
  | receipts {disk : Disk} (receipts : AnyRun → Except Thrown ReceiptAuthority) :
      CommandStep root disk none { disk with receipts }

/-- The events that were given, from the owner or for a new one. -/
def MadeBy (calls : List (Option Given)) (event : PersistedStateEvent) : Prop :=
  ∃ given, some given ∈ calls ∧ given.event = event ∧ given.Held

section Runs

variable {root : StateRoot} {start disk later : Disk} {call : Option Given} {calls : List (Option Given)}

theorem madeBy_append {event : PersistedStateEvent} (h : MadeBy calls event) : MadeBy (calls ++ [call]) event := by
  obtain ⟨given, hgiven, hevent, hheld⟩ := h
  exact ⟨given, List.mem_append_left _ hgiven, hevent, hheld⟩

theorem sourced_step (h : Sourced (MadeBy calls) disk) (hstep : CommandStep root disk call later) :
    Sourced (MadeBy (calls ++ [call])) later := by
  have hbefore : Sourced (MadeBy (calls ++ [call])) disk := h.mono fun _ ↦ madeBy_append
  cases hstep with
  | repair hrepairs => exact hbefore.repaired (repair_cases hrepairs)
  | receipts receipts => exact hbefore.receipts receipts
  | @command platform context workflow args operation event seen view _ options deadline outcome session sound line
      earlier log reads executes commits =>
    obtain ⟨hsame, -⟩ | ⟨hid, index, events, current, authority, prepared, hadmits, hpublished⟩ := commit_cases commits
    · rw [hsame]
      exact hbefore
    obtain ⟨hversion, heventId, -⟩ := issued_named sound (execute_issues executes)
    have hfresh : context.readEvent event.eventId = none := by
      rw [reads, List.find?_eq_none]
      intro other hother
      exact List.find?_eq_none.mp hadmits.hfresh other (log_kept earlier log hadmits.hevents hother)
    have hheld := executed_held (fun hnames ↦ runCommand_named line hnames) executes hfresh
    have hmade : MadeBy (calls ++ [some ⟨context.sessionId, event⟩]) event :=
      ⟨_, List.mem_append_right _ (List.mem_singleton_self _), rfl, hheld⟩
    exact hbefore.published hmade hversion heventId hid hadmits hpublished

theorem sourced_run (hempty : EmptyRoot start) (h : Recorded (CommandStep root) start calls disk) :
    Sourced (MadeBy calls) disk := by
  induction h with
  | nil => exact hempty.sourced
  | snoc _ hstep ih => exact sourced_step ih hstep

/-- The session is the owner that the log has given the run so far, or becomes it. -/
def Given.Leads (given : Given) (owner : Option Owner) : Prop :=
  match given.event.mutation with
  | .runCreated run => owner = none ∧ run.owner = ⟨given.sessionId, 1⟩
  | .ownerAdopted sessionId => owner.isSome = true ∧ sessionId = given.sessionId
  | _ => owner.map (·.sessionId) = some given.sessionId

theorem leads_of_held {given : Given} {owner : Option Owner} (hheld : given.Held) (hexpects : Expects given.event owner) :
    given.Leads owner := by
  unfold Given.Leads
  unfold Given.Held at hheld
  unfold Expects at hexpects
  cases hm : given.event.mutation with
  | runCreated run =>
    rw [hm] at hheld hexpects
    exact ⟨hexpects, hheld⟩
  | ownerAdopted sessionId =>
    rw [hm] at hheld hexpects
    obtain ⟨master, rfl, -⟩ := hexpects
    exact ⟨rfl, hheld⟩
  | _ =>
    rw [hm] at hheld hexpects
    obtain ⟨master, rfl, hsession, -⟩ := hexpects
    exact hsession.symm.trans hheld

/-- Whether an event gives its run an owner. -/
def takes (event : PersistedStateEvent) : Bool := event.mutation.kind = .runCreated || event.mutation.kind = .ownerAdopted

def tenures (events : List PersistedStateEvent) (id : Uuid) : ℕ :=
  events.countP fun event ↦ event.runId = id && takes event

theorem tenures_append (events : List PersistedStateEvent) (event : PersistedStateEvent) (id : Uuid) :
    tenures (events ++ [event]) id = tenures events id + if event.runId = id ∧ takes event = true then 1 else 0 := by
  rw [tenures, List.countP_append, List.countP_singleton, ← tenures]
  simp only [Bool.and_eq_true, decide_eq_true_eq]

/-- The epoch of a run counts its owners. -/
theorem epoch_tenures {made : PersistedStateEvent → Prop} {events : List PersistedStateEvent}
    (hmade : ∀ event run, made event → event.mutation = .runCreated run → run.owner.epoch = 1) (hled : Led made events)
    (id : Uuid) : ((masterOf events id).map (·.epoch)).getD 0 = tenures events id := by
  induction events using List.reverseRecOn with
  | nil => rfl
  | append_singleton events event ih =>
    have hbefore := ih fun before other after hsplit ↦ hled before other (after ++ [event]) (by rw [hsplit]; simp)
    obtain ⟨source, hsource, rfl, hexpects⟩ := hled events event [] rfl
    rw [masterOf_append, tenures_append, ← hbefore]
    by_cases hid : source.tidy.runId = id
    · have hmutation : source.tidy.mutation = source.mutation.tidy := rfl
      rw [hid] at hexpects
      rw [if_pos hid]
      simp only [hid, true_and]
      unfold Expects at hexpects
      unfold ownerAfter takes
      rw [hmutation]
      cases hm : source.mutation with
      | runCreated run =>
        rw [hm] at hexpects
        have hepoch := hmade source run hsource hm
        rw [show masterOf events id = none from hexpects]
        exact hepoch
      | _ =>
        rw [hm] at hexpects
        obtain ⟨master, hmaster, -⟩ := hexpects
        rw [hmaster]
        rfl
    · rw [if_neg hid, if_neg fun h ↦ hid h.1]
      rfl

/-- Sessions that share a root, whatever they have read and whenever they stop: each event of the log is from a command
of the session that owned its run at that point of the log, or made it the owner; the epoch of a run counts its owners;
and between calls the run has the owner that the log gives it. -/
theorem owners_lead {index : ActiveIndex} {events : List PersistedStateEvent} (hempty : EmptyRoot start)
    (h : Recorded (CommandStep root) start calls disk) (hindex : readIndex disk = .ok index)
    (hevents : readEvents disk = .ok events) :
    (∀ before event after, events = before ++ event :: after →
      ∃ given, some given ∈ calls ∧ given.event.tidy = event ∧ given.Leads (masterOf before event.runId)) ∧
    (∀ id owner, masterOf events id = some owner → owner.epoch = tenures events id) ∧
    (events.length = index.revision → ∀ id run, readRun root disk id = .ok (some run) →
      masterOf events id = some run.owner) := by
  have hsourced := sourced_run hempty h
  have hled := (hsourced.logged hindex hevents).led
  refine ⟨fun before event after hsplit ↦ ?_, fun id owner howner ↦ ?_, fun hlevel id run hread ↦ ?_⟩
  · obtain ⟨source, ⟨given, hgiven, rfl, hheld⟩, rfl, hexpects⟩ := hled before event after hsplit
    exact ⟨given, hgiven, rfl, leads_of_held hheld hexpects⟩
  · have hcreated : ∀ event run, MadeBy calls event → event.mutation = .runCreated run → run.owner.epoch = 1 := by
      rintro event run ⟨given, -, rfl, hheld⟩ hmutation
      unfold Given.Held at hheld
      rw [hmutation] at hheld
      exact congrArg Owner.epoch hheld
    have hcount := epoch_tenures hcreated hled id
    rw [howner] at hcount
    exact hcount
  · exact hsourced.owner hindex hevents hlevel hread

end Runs

namespace Sample

/-- The first command of a session, before there are any runs. -/
def creatingContext : WorkflowContext .posix :=
  { steeringContext [] with
    words := ["objective"]
    index := ⟨.v2 1, 0, []⟩
    readRun := fun _ ↦ none
    newRunId := State.Sample.creation.eventId
    createdRunId := State.Sample.runId
    lastIndex := ⟨.v2 1, 0, []⟩ }

theorem creating_sound : Sound creatingContext :=
  { steering_sound [] with
    index := (by decide : 0 < maxSafeInteger)
    lastIndex := (by decide : 0 < maxSafeInteger)
    runs := by
      intro id run hrun
      cases hrun
    newRunId := (by decide : isUuid State.Sample.creation.eventId = true)
    lowerNewRunId := (by decide : LowerId State.Sample.creation.eventId)
    createdRunId := (by decide : isUuid State.Sample.runId = true) }

theorem creating_issued : creatingContext.execute .ulwLoop .create = .ok (.commits loopCreation) := by decide +kernel

/-- A line that has its words between quotes. -/
def quotedLine (words : List String) : String :=
  String.ofList ([' '].intercalate ((words.map (·, singleQuote)).map fun word ↦ (quoteWord word.1 word.2).toList))

theorem quotedLine_read {words : List String} (hwords : ∀ word ∈ words, word ≠ "" ∧ singleQuote ∉ word.toList)
    (htrim : trim (quotedLine words) = quotedLine words) (hfollows : tokensFollowCatalogGrammar .ulwLoop words = true) :
    runCommand .ulwLoop (quotedLine words) = parseUlwLoop words := by
  have hquotable : ∀ word ∈ words.map (·, singleQuote), Quotable word.1 word.2 := by
    intro word hword
    obtain ⟨text, htext, rfl⟩ := List.mem_map.mp hword
    obtain ⟨hnonempty, hlacks⟩ := hwords text htext
    exact ⟨hnonempty, (by decide : isQuote singleQuote = true), hlacks⟩
  have hblank : ∀ c ∈ [' '], isSpace c = true := by
    intro c hc
    rw [List.mem_singleton.mp hc]
    decide
  have hsentence := sentence_quoted hblank (List.cons_ne_nil _ _) hquotable
  have htexts : (words.map (·, singleQuote)).map (fun word ↦ word.1.toList) = words.map String.toList := List.map_map
  rw [htexts] at hsentence
  have hread : tokenize (trim (quotedLine words)) = some words := by
    rw [htrim, tokenize_iff, quotedLine, String.toList_ofList]
    exact hsentence
  rw [runCommand, commandWords, hread, Option.filter_some, if_pos hfollows]
  rfl

def steeringWords : List String := ["steer", State.Sample.runId, "steer.json"]

theorem objective_read : runCommand .ulwLoop (quotedLine ["objective"]) = some (.create, ["objective"]) := by
  rw [quotedLine_read (List.forall_mem_singleton.mpr (by decide)) (by decide) (by decide)]
  decide

theorem steering_read : runCommand .ulwLoop (quotedLine steeringWords) =
    some (.steer, [State.Sample.runId, "steer.json"]) := by
  rw [quotedLine_read (List.all_iff_forall_prop.mp (by decide)) (by decide) (by decide)]
  decide

def steeringCalls : List (Option Given) :=
  [some ⟨"session", loopCreation⟩, some ⟨"session", steeringEvent addedCriteria⟩]

/-- A session creates a loop and steers it. -/
theorem steered_recorded : Recorded (CommandStep State.Sample.root) State.Sample.initial steeringCalls steeredDisk := by
  have hlog : readEvents State.Sample.initial = .ok [] := by decide
  have hcreated : RootStep State.Sample.root State.Sample.initial loopDisk :=
    .commit (EventObject.faithful_ofValue (by decide)) Prod.mk.eta.symm
  have hfirst : CommandStep State.Sample.root State.Sample.initial (some ⟨"session", loopCreation⟩) loopDisk :=
    .command creating_sound objective_read .refl hlog rfl creating_issued Prod.mk.eta.symm
  have hsecond : CommandStep State.Sample.root loopDisk (some ⟨"session", steeringEvent addedCriteria⟩) steeredDisk :=
    .command (steering_sound addedCriteria) steering_read (.single hcreated) hlog rfl steering_issued Prod.mk.eta.symm
  exact (Recorded.nil.snoc hfirst).snoc hsecond

end Sample

theorem steered_owner : masterOf Sample.steeredLog State.Sample.runId = some ⟨"session", 1⟩ ∧
    (Owner.mk "session" 1).epoch = tenures Sample.steeredLog State.Sample.runId := by
  obtain ⟨-, hepochs, howner⟩ :=
    owners_lead State.Sample.initial_empty Sample.steered_recorded Sample.steeredDisk_index Sample.steeredDisk_events
  have hmaster := howner rfl State.Sample.runId (Sample.steeredRun Sample.addedCriteria) Sample.steeredDisk_run
  exact ⟨hmaster, hepochs State.Sample.runId _ hmaster⟩

end OmpLazy.Commands

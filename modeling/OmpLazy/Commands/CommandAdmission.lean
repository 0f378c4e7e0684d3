import OmpLazy.Commands.CommandRetries
import OmpLazy.State.TerminalRuns

/-! What the store answers to the command of a session that nobody disturbs. -/

namespace OmpLazy.Commands

open OmpLazy.Foundation OmpLazy.Foundation.Schema OmpLazy.Foundation.Text OmpLazy.State OmpLazy.Workflows EventStore
  Action Store Relation

/-- The head of the repository that a run is bound to. -/
def headOf (run : AnyRun) : Option String :=
  match run.version with
  | .v1 => none
  | .v2 _ head => head

/-- A loop that takes new criteria. -/
def steerable (run : AnyRun) (criteria : List SteeredCriterion) : Bool :=
  match run.payload with
  | .startWork _ => false
  | .ulwLoop payload => payload.activeGoalId.isSome && criteria.all (·.id ∉ payload.criterionIds)

/-- What the store finds wrong with the event of a command that has checked all it checks. -/
def objection (git : Except String String) (run : AnyRun) : StateMutation → Option TransitionErrorCode
  | .workflowSteered criteria _ =>
    if headOf run ≠ git.toOption then some .staleHead
    else if steerable run criteria then none
    else some .invalidMutation
  | .planReconciled .. =>
    if headOf run ≠ git.toOption then some .staleHead
    else if terminal run.status then some .invalidMutation
    else none
  | _ => none

/-- What is published when an event makes a run the next one. -/
def publication (index : ActiveIndex) (event : PersistedStateEvent) (next : AnyRun) : PreparedTransition :=
  ⟨next.stamped event.sequence, deriveIndex index (next.stamped event.sequence) event.sequence⟩

/-- The store answers a transition of a run with what it finds wrong, or with what the reducer makes of it. -/
def AnswersRun (git : Except String String) (index : ActiveIndex) (run : AnyRun) (event : PersistedStateEvent) : Prop :=
  match objection git run event.mutation with
  | some code => prepareTransition index (some run) event none = .error code
  | none => ∃ next, controlRun run event none = some next ∧
      prepareTransition index (some run) event none = .ok (publication index event next)

/-! Events that are addressed to the run that is stored. -/

section Transitions

variable {index : ActiveIndex} {run next : AnyRun} {event : PersistedStateEvent} {authority : Option ReceiptAuthority}
  {head : Option String} {generation : Option ℕ}

theorem headConflicts_iff {legacy : Bool} :
    headConflicts run (.v2 head generation legacy) = true ↔ head.isSome = true ∧ headOf run ≠ head := by
  unfold headConflicts headOf
  cases head with
  | none => simp
  | some head =>
    cases run.version with
    | v1 => simp
    | v2 _ bound => simp

theorem head_stays (h : controlRun run event authority = some next) : headOf next = headOf run := by
  rw [headOf, headOf, (controlRun_cases h).sameIdentity.version]

/-- Where an event expects the index and the run as they are, what is left to ask is whether its head is that of the
run and whether the reducer takes it. -/
theorem prepared_of_expected (hkind : event.mutation.kind ≠ .runCreated)
    (hindex : event.expected.indexRevision = index.revision) (hsequence : event.sequence = index.revision + 1)
    (hrevision : event.expected.runRevision = some run.revision)
    (hsession : event.expected.ownerSessionId = some run.owner.sessionId)
    (hepoch : event.expected.ownerEpoch = some run.owner.epoch) (hscope : scopeConflicts event = false)
    (hid : run.runId = event.runId) (hworkflow : run.workflow = event.workflow) :
    prepareTransition index (some run) event authority =
      if headConflicts run event.version then .error .staleHead
      else
        match controlRun run event authority with
        | none => .error .invalidMutation
        | some next => .ok (publication index event next) := by
  have hnext : nextRun (some run) event authority =
      if headConflicts run event.version then .error .staleHead else .ok (controlRun run event authority) := by
    unfold nextRun
    split
    · rename_i created hm
      rw [hm] at hkind
      exact absurd rfl hkind
    · simp [hrevision, hsession, hepoch, hscope]
  rw [prepareTransition, if_neg (not_not.mpr hindex), if_neg (not_not.mpr hsequence), hnext]
  cases headConflicts run event.version with
  | true => rfl
  | false =>
    simp only [Bool.false_eq_true, if_false]
    cases hcontrol : controlRun run event authority with
    | none => rfl
    | some next =>
      have hsame := (controlRun_cases hcontrol).sameIdentity
      have hnamed : ¬ (next.runId ≠ event.runId ∨ next.workflow ≠ event.workflow) := by
        rw [hsame.runId, hsame.workflow, hid, hworkflow]
        simp
      exact if_neg hnamed

theorem AnswersRun.refused {git : Except String String} {code : TransitionErrorCode}
    (hobjection : objection git run event.mutation = some code)
    (h : prepareTransition index (some run) event none = .error code) : AnswersRun git index run event := by
  unfold AnswersRun
  rw [hobjection]
  exact h

theorem AnswersRun.taken {git : Except String String} (hobjection : objection git run event.mutation = none)
    (hcontrol : controlRun run event none = some next)
    (h : prepareTransition index (some run) event none = .ok (publication index event next)) :
    AnswersRun git index run event := by
  unfold AnswersRun
  rw [hobjection]
  exact ⟨next, hcontrol, h⟩

theorem controlRun_eq (hcycle : event.mutation.kind ≠ .goalCycleStarted)
    (hfailure : event.mutation.kind ≠ .criterionFailureRecorded) :
    controlRun run event authority = controlMutation run event authority := by
  rw [controlRun, if_neg]
  rintro ⟨-, hkind | hkind⟩
  · exact hcycle hkind
  · exact hfailure hkind

theorem steerable_iff {criteria : List SteeredCriterion} {annotationText : Option String} :
    steerable run criteria = true ↔ ∃ next, steerRun run criteria annotationText = some next := by
  rw [steerRun_isSome]
  unfold steerable
  cases run.payload with
  | startWork payload => simp
  | ulwLoop payload => simp [Option.isSome_iff_ne_none]

end Transitions

section Made

variable {platform : PathPlatform} {context : WorkflowContext platform} {run next : AnyRun} {mutation : StateMutation}
  {head : Option String} {generation : Option ℕ} {key : Option String} {event : PersistedStateEvent} {kind : ControlKind}

/-- An event that is not in the log expects what its command has read. -/
theorem mutationEvent_new (h : context.readEvent (context.mutationEvent run mutation head generation key).eventId = none) :
    ∃ eventId, context.mutationEvent run mutation head generation key = {
      version := .v2 head generation false
      eventId
      sequence := context.index.revision + 1
      runId := run.runId
      workflow := run.workflow
      kind := mutation.kind
      expected := {
        indexRevision := context.index.revision
        runRevision := some run.revision
        ownerSessionId := some run.owner.sessionId
        ownerEpoch := some run.owner.epoch }
      mutation
      atTime := context.nowIso } := by
  cases key with
  | none => exact ⟨_, rfl⟩
  | some key =>
    have hnone : context.readEvent (context.deterministicEventId
        (run.runId ++ "\x00" ++ mutation.kind.text ++ "\x00" ++ key)) = none := h
    unfold CommandContext.mutationEvent
    simp only [Option.bind_some, hnone, Option.map_none, Option.getD_none]
    exact ⟨_, rfl⟩

theorem prepared_new (hevent : event = context.mutationEvent run mutation head generation key)
    (h : context.readEvent event.eventId = none) (hkind : mutation.kind ≠ .runCreated)
    (hscope : taskScoped mutation.kind = generation.isSome) :
    prepareTransition context.index (some run) event none =
      if head.isSome = true ∧ headOf run ≠ head then .error .staleHead
      else
        match controlRun run event none with
        | none => .error .invalidMutation
        | some next => .ok (publication context.index event next) := by
  subst hevent
  obtain ⟨eventId, hevent⟩ := mutationEvent_new h
  rw [hevent, prepared_of_expected hkind rfl rfl rfl rfl rfl (by simp [scopeConflicts, hscope]) rfl rfl]
  exact if_congr headConflicts_iff rfl rfl

theorem controlRun_of_control (hmutates : controlMutationOf context kind = some mutation)
    (hevent : event.mutation = mutation) : controlRun run event authority = controlMutation run event authority := by
  apply controlRun_eq
  all_goals
    rw [hevent]
    cases kind <;> cases hmutates <;> rintro ⟨⟩

/-- The store makes of a run what the command has made of it. -/
theorem controlled_run (hmutates : controlMutationOf context kind = some mutation)
    (hreduces : reduceWorkflowControl run ⟨kind, context.sessionId, run.owner.epoch⟩ = .ok next)
    (hevent : event.mutation = mutation) : controlRun run event none = some next := by
  rw [controlRun_of_control hmutates hevent, controlMutation, hevent]
  cases kind with
  | reconcilePlan plan => cases hmutates
  | adopt =>
    obtain rfl := Option.some.inj hmutates
    simp only [hreduces]
    rfl
  | pause | resume | cancel =>
    have howner := control_owner (by decide) hreduces
    obtain rfl := Option.some.inj hmutates
    simp only [howner, hreduces]
    rfl

theorem controlled_answers (hevent : event = context.mutationEvent run mutation none none none)
    (h : context.readEvent event.eventId = none) (hmutates : controlMutationOf context kind = some mutation)
    (hreduces : reduceWorkflowControl run ⟨kind, context.sessionId, run.owner.epoch⟩ = .ok next) :
    AnswersRun context.git context.index run event := by
  have hmutation : event.mutation = mutation := congrArg PersistedStateEvent.mutation hevent
  have hcontrolled := controlled_run hmutates hreduces hmutation
  have hprepared : mutation.kind ≠ .runCreated → taskScoped mutation.kind = false →
      prepareTransition context.index (some run) event none = .ok (publication context.index event next) := by
    intro hkind hscope
    rw [prepared_new hevent h hkind hscope, hcontrolled]
    exact if_neg fun hhead ↦ absurd hhead.1 (by decide)
  cases kind with
  | reconcilePlan plan => cases hmutates
  | pause | resume | cancel | adopt =>
    obtain rfl := Option.some.inj hmutates
    exact .taken (by rw [hmutation]; rfl) hcontrolled (hprepared nofun rfl)

/-- A command that binds the head of the repository is taken on a run of that head, where its reducer takes it. -/
theorem bound_answers {head : String} {n : ℕ} (taken : Bool) (hgit : context.git = .ok head)
    (hevent : event = context.mutationEvent run mutation (some head) (some n) key)
    (h : context.readEvent event.eventId = none) (hkind : mutation.kind ≠ .runCreated)
    (hscope : taskScoped mutation.kind = true)
    (hobjection : objection context.git run mutation =
      if headOf run ≠ context.git.toOption then some .staleHead else if taken then none else some .invalidMutation)
    (htaken : taken = true ↔ ∃ next, controlRun run event none = some next) :
    AnswersRun context.git context.index run event := by
  have hmutation : event.mutation = mutation := congrArg PersistedStateEvent.mutation hevent
  have hprepared := prepared_new hevent h hkind hscope
  have hbound : context.git.toOption = some head := by
    rw [hgit]
    rfl
  rw [hbound, ← hmutation] at hobjection
  by_cases hhead : headOf run = some head
  · rw [if_neg fun hother ↦ hother.2 hhead] at hprepared
    rw [if_neg (not_not.mpr hhead)] at hobjection
    cases hcontrol : controlRun run event none with
    | none =>
      have hrefused : taken = false := by
        rw [Bool.eq_false_iff, ne_eq, htaken, hcontrol]
        rintro ⟨_, hnext⟩
        cases hnext
      rw [hrefused] at hobjection
      rw [hcontrol] at hprepared
      exact .refused hobjection hprepared
    | some next =>
      rw [if_pos (htaken.mpr ⟨next, hcontrol⟩)] at hobjection
      rw [hcontrol] at hprepared
      exact .taken hobjection hcontrol hprepared
  · rw [if_pos ⟨rfl, hhead⟩] at hprepared
    rw [if_pos hhead] at hobjection
    exact .refused hobjection hprepared

theorem steered_answers {criteria : List SteeredCriterion} {annotationText : Option String} {head : String} {n : ℕ}
    (hgit : context.git = .ok head)
    (hevent : event = context.mutationEvent run (.workflowSteered criteria annotationText) (some head) (some n) key)
    (h : context.readEvent event.eventId = none) : AnswersRun context.git context.index run event := by
  have hcontrol : controlRun run event none = steerRun run criteria annotationText := by
    rw [hevent]
    exact controlRun_eq nofun nofun
  refine bound_answers (steerable run criteria) hgit hevent h nofun rfl rfl ?_
  rw [hcontrol]
  exact steerable_iff

theorem reconcile_isSome {payload : StartWorkPayload} (hstart : run.payload = .startWork payload) {plan : PlanSnapshot} :
    (!terminal run.status) = true ↔ ∃ next,
      (reduceWorkflowControl run ⟨.reconcilePlan plan, run.owner.sessionId, run.owner.epoch⟩).toOption = some next := by
  have hstatus : run.status = payload.status := by
    rw [AnyRun.status, hstart]
    rfl
  simp only [reduceWorkflowControl, hstart]
  rw [precheck_own (.inr rfl) rfl, hstatus]
  cases hterminal : terminal payload.status with
  | true => simp [bind, Except.bind, reduceStart, hterminal, Except.toOption]
  | false => simp [bind, Except.bind, reduceStart, hterminal, Except.toOption]

theorem reconciled_answers {taskIds : List String} {remainingTaskIds : Option (List String)} {fingerprint head : String}
    {n : ℕ} {payload : StartWorkPayload} (hstart : run.payload = .startWork payload) (hgit : context.git = .ok head)
    (hevent : event = context.mutationEvent run (.planReconciled taskIds remainingTaskIds fingerprint) (some head)
      (some n) key)
    (h : context.readEvent event.eventId = none) : AnswersRun context.git context.index run event := by
  have hmutation : event.mutation = .planReconciled taskIds remainingTaskIds fingerprint :=
    congrArg PersistedStateEvent.mutation hevent
  refine bound_answers (!terminal run.status) hgit hevent h nofun rfl ?_ ?_
  · unfold objection
    cases terminal run.status <;> rfl
  · rw [controlRun_eq (hmutation ▸ nofun) (hmutation ▸ nofun), controlMutation, hmutation]
    simp only [hstart]
    exact reconcile_isSome hstart

end Made

/-! What a commit answers when nothing stops it. -/

section Answers

variable {root : StateRoot} {disk : Disk} {index : ActiveIndex} {events : List PersistedStateEvent}
  {current : Option AnyRun} {event : EventObject} {prepared : PreparedTransition} {options : CommitOptions}

theorem exec_publish_free (hcrash : options.crash = none) (hsequence : 0 < event.value.sequence)
    (hname : eventName event.value ∉ disk.events.map (·.name)) :
    exec (publish options.crash event prepared) ⟨disk, none⟩ =
      (.ok (.ok ⟨.committed, prepared.run, prepared.index⟩), ⟨disk.publish event prepared, none⟩) := by
  have hpositive : ¬ event.value.sequence < 1 := Nat.not_lt.mpr hsequence
  have hevent := @exec_publish disk none 0 options.crash event prepared
  have hrun := @exec_publishRun (disk.appendEvent event) none 0 options.crash prepared
  have hindex := @exec_publishIndex ((disk.appendEvent event).writeRun prepared.run) none 0 options.crash prepared
  simp only [Deadline.after_none, Deadline.expired_none, hcrash, reduceCtorEq, if_false, Bool.false_eq_true] at hevent hrun hindex
  rw [if_neg hpositive, if_neg hname, hrun, hindex] at hevent
  rw [hcrash]
  exact hevent

theorem decideCommit_fresh (hindex : readIndex disk = .ok index) (hevents : readEvents disk = .ok events)
    (hlevel : highestSequence events = index.revision) (hcurrent : readRun root disk event.value.runId = .ok current)
    (hfresh : events.find? (·.eventId = event.value.eventId) = none) (hpersisted : persistedEventForIndex index event = event)
    (hreceipt : receiptBound event.value.mutation.kind = false) :
    decideCommit root disk event =
      match prepareTransition index current event.value none with
      | .error code => .ok (.refused (.transition code))
      | .ok prepared => .ok (.accepted event prepared) := by
  have hauthority : readAuthority disk event.value current = .ok none := by
    unfold readAuthority
    rw [hreceipt]
    cases current <;> rfl
  simp only [decideCommit, hindex, hevents, bind, Except.bind, hfresh, hlevel, ne_eq, not_true_eq_false, if_false, hcurrent,
    hpersisted, hauthority]
  rfl

/-- A root at rest answers to an event that it has not seen as the transition does. -/
theorem commit_at_rest (hindex : readIndex disk = .ok index) (hevents : readEvents disk = .ok events)
    (hlevel : events.length = index.revision) (hcurrent : readRun root disk event.value.runId = .ok current)
    (hfresh : events.find? (·.eventId = event.value.eventId) = none) (hpersisted : persistedEventForIndex index event = event)
    (hid : isUuid event.value.eventId = true) (hlower : LowerId event.value.eventId)
    (hrunId : isUuid event.value.runId = true) (hbound : event.value.sequence ≤ maxSafeInteger)
    (hreceipt : receiptBound event.value.mutation.kind = false)
    (hunhindered : Unhindered options.toCallOptions none) (hcrash : options.crash = none) :
    exec (commit root options event) ⟨disk, none⟩ =
      match prepareTransition index current event.value none with
      | .error code => (.ok (.error (.transition code)), ⟨disk, none⟩)
      | .ok prepared =>
        (.ok (.ok ⟨.committed, prepared.run, prepared.index⟩), ⟨disk.publish event prepared, none⟩) := by
  have hread := readEvents_eq_ok.mp hevents
  have hhighest : highestSequence events = index.revision := (highestSequence_eq hread).trans hlevel
  rw [exec_commit_unhindered hunhindered hrunId,
    decideCommit_fresh hindex hevents hhighest hcurrent hfresh hpersisted hreceipt]
  cases hprepared : prepareTransition index current event.value none with
  | error code => rfl
  | ok prepared =>
    have hsequence : event.value.sequence = events.length + 1 := by
      rw [hlevel]
      exact (prepareTransition_eq_ok.mp hprepared).2.1
    exact exec_publish_free hcrash (by omega) (eventName_next hid hlower hbound hread hsequence)

end Answers

/-- What a command reads is what the root has, and the id of a run that it creates is new. -/
structure Alone {platform : PathPlatform} (root : StateRoot) (disk : Disk) (context : WorkflowContext platform) : Prop where
  index : readIndex disk = .ok context.index
  lastIndex : context.lastIndex = context.index
  runs : ∀ id run, context.readRun id = some run → readRun root disk id = .ok (some run)
  log : ∃ events, readEvents disk = .ok events ∧ context.readEvent = fun id ↦ events.find? (·.eventId = id)
  createdRunId : readRun root disk context.createdRunId = .ok none

/-- The event is committed, and this is published. -/
def Commits (root : StateRoot) (options : CommitOptions) (disk : Disk) (event : PersistedStateEvent)
    (prepared : PreparedTransition) : Prop :=
  exec (commit root options (.ofValue event)) ⟨disk, none⟩ =
    (.ok (.ok ⟨.committed, prepared.run, prepared.index⟩), ⟨disk.publish (.ofValue event) prepared, none⟩)

section Commands

variable {platform : PathPlatform} {context : WorkflowContext platform} {event : PersistedStateEvent} {root : StateRoot}
  {disk : Disk} {options : CommitOptions} {run : AnyRun}

theorem controlMutationOf_inj {kind kind' : ControlKind} {mutation : StateMutation}
    (h : controlMutationOf context kind = some mutation) (h' : controlMutationOf context kind' = some mutation) :
    kind = kind' := by
  cases kind with
  | reconcilePlan => cases h
  | pause | resume | cancel | adopt =>
    obtain rfl := Option.some.inj h
    cases kind' <;> first | rfl | cases h'

/-- The event of a command that checks no receipt: it creates a run, or the store answers it by the run that is read. -/
theorem issued_answers (h : Issues context event) (hnew : context.readEvent event.eventId = none)
    (hreceipt : receiptBound event.mutation.kind = false) :
    (∃ head payload, event = context.creation head payload) ∨
      ∃ id run, context.readRun id = some run ∧ event.runId = run.runId ∧
        event.sequence = context.index.revision + 1 ∧ AnswersRun context.git context.index run event ∧
          ∀ kind, controlMutationOf context kind = some event.mutation → ∃ next,
            reduceWorkflowControl run ⟨kind, context.sessionId, run.owner.epoch⟩ = .ok next ∧
              controlRun run event none = some next := by
  have hsequence : ∀ {run mutation head generation key}, context.readEvent
      (context.mutationEvent run mutation head generation key).eventId = none →
        (context.mutationEvent run mutation head generation key).sequence = context.index.revision + 1 := by
    intro run mutation head generation key hnew
    obtain ⟨_, hevent⟩ := mutationEvent_new hnew
    rw [hevent]
  have hother : ∀ {kind mutation}, controlMutationOf context kind = some mutation → taskScoped mutation.kind = true → False := by
    intro kind mutation hmutates hscope
    cases kind with
    | reconcilePlan => cases hmutates
    | pause | resume | cancel | adopt =>
      obtain rfl := Option.some.inj hmutates
      cases hscope
  cases h with
  | controlled hread hmutates hreduces =>
    refine .inr ⟨_, _, hread, rfl, hsequence hnew, controlled_answers rfl hnew hmutates hreduces, fun kind hkind ↦ ?_⟩
    obtain rfl := controlMutationOf_inj hmutates hkind
    exact ⟨_, hreduces, controlled_run hmutates hreduces rfl⟩
  | steered hfound _ _ _ hgit =>
    obtain ⟨id, hread⟩ := lookupRun_read hfound
    exact .inr ⟨id, _, hread, rfl, hsequence hnew, steered_answers hgit rfl hnew, fun kind hkind ↦ (hother hkind rfl).elim⟩
  | reconciled hfound hstart _ _ hgit =>
    obtain ⟨id, hread⟩ := lookupRun_read hfound
    exact .inr ⟨id, _, hread, rfl, hsequence hnew, reconciled_answers hstart hgit rfl hnew,
      fun kind hkind ↦ (hother hkind rfl).elim⟩
  | checkpointed => cases hreceipt
  | createdLoop => exact .inl ⟨_, _, rfl⟩
  | createdStart => exact .inl ⟨_, _, rfl⟩

/-- A creation is taken where there is no run of its id. -/
theorem prepared_creation {head : String} {payload : Payload} (hindex : context.lastIndex = context.index)
    (hevent : event = context.creation head payload) :
    prepareTransition context.index none event none = .ok (publication context.index event
      (createdRun context.createdRunId head context.lastIndex context.sessionId context.nowIso payload)) := by
  subst hevent
  unfold WorkflowContext.creation createEvent prepareTransition nextRun publication
  rw [hindex]
  simp [AnyRun.workflow]

theorem stored_named {stored : Snapshots} {index : ActiveIndex} {id : Uuid} (hholds : Holds disk stored)
    (hdescribes : Describes stored index) (hread : readRun root disk id = .ok (some run)) :
    run.runId = id ∧ isUuid id = true := by
  obtain ⟨written, hwritten, rfl⟩ := hholds.read hread
  exact ⟨hdescribes.runIds id written hwritten, (readRun_eq_some.mp hread).1⟩

/-- What the store answers to a command that has checked what it checks, on a root at rest that it has read. A run is
created, and a pause, a resumption, a cancellation or an adoption makes the run what the command has computed. A
steering or a reconciliation is refused where the head has moved since the run was created, and where the loop has no
active goal, or has one of the criteria already, or the run is over. -/
theorem command_answered {start : Disk} {revision : ℕ} {workflow : WorkflowKind} {operation : Operation}
    (hempty : EmptyRoot start) (hsteps : ReflTransGen (RootStep root) start disk)
    (hhealthy : inspectRecovery disk = .healthy revision) (hsound : Sound context) (halone : Alone root disk context)
    (h : context.execute workflow operation = .ok (.commits event)) (hnew : context.readEvent event.eventId = none)
    (hreceipt : receiptBound event.mutation.kind = false) (hunhindered : Unhindered options.toCallOptions none)
    (hcrash : options.crash = none) :
    (∃ run, event.mutation = .runCreated run ∧ Commits root options disk event (publication context.index event run)) ∨
      ∃ run, readRun root disk event.runId = .ok (some run) ∧
        match objection context.git run event.mutation with
        | some code =>
          exec (commit root options (.ofValue event)) ⟨disk, none⟩ = (.ok (.error (.transition code)), ⟨disk, none⟩)
        | none => ∃ next, controlRun run event none = some next ∧
          Commits root options disk event (publication context.index event next) ∧
            ∀ kind, controlMutationOf context kind = some event.mutation →
              reduceWorkflowControl run ⟨kind, context.sessionId, run.owner.epoch⟩ = .ok next := by
  obtain ⟨index, events, stored, hindex, hevents, hholds, hdescribes, hrevision, hlength⟩ :=
    level_of_healthy hempty hsteps hhealthy
  obtain rfl := Except.ok.inj (halone.index.symm.trans hindex)
  obtain ⟨events', hevents', hlog⟩ := halone.log
  obtain rfl := Except.ok.inj (hevents.symm.trans hevents')
  have hissues := execute_issues h
  obtain ⟨hversion, hid, hlower⟩ := issued_named hsound hissues
  have hfresh : events.find? (·.eventId = event.eventId) = none := by
    rw [hlog] at hnew
    exact hnew
  have hanswer : ∀ {current}, readRun root disk event.runId = .ok current → isUuid event.runId = true →
      event.sequence = context.index.revision + 1 → exec (commit root options (.ofValue event)) ⟨disk, none⟩ =
        match prepareTransition context.index current event none with
        | .error code => (.ok (.error (.transition code)), ⟨disk, none⟩)
        | .ok prepared =>
          (.ok (.ok ⟨.committed, prepared.run, prepared.index⟩), ⟨disk.publish (.ofValue event) prepared, none⟩) := by
    intro current hcurrent hrunId hsequence
    have hbound := hsound.index
    have hsmall : event.sequence ≤ maxSafeInteger := by omega
    exact commit_at_rest hindex hevents (hlength.trans hrevision.symm) hcurrent hfresh
      (persisted_of_version hversion context.index) hid hlower hrunId hsmall hreceipt hunhindered hcrash
  obtain ⟨head, payload, hevent⟩ | ⟨id, run, hread, hrunId, hsequence, hanswers, hpreview⟩ :=
    issued_answers hissues hnew hreceipt
  · left
    have hrunId : event.runId = context.createdRunId := congrArg PersistedStateEvent.runId hevent
    have hsequence : event.sequence = context.lastIndex.revision + 1 := congrArg PersistedStateEvent.sequence hevent
    have hmutation := congrArg PersistedStateEvent.mutation hevent
    have hprepared := prepared_creation halone.lastIndex hevent
    refine ⟨_, hmutation, ?_⟩
    have hcommit := hanswer (hrunId ▸ halone.createdRunId) (hrunId ▸ hsound.createdRunId) (halone.lastIndex ▸ hsequence)
    rw [hprepared] at hcommit
    exact hcommit
  · right
    have hstored := halone.runs id run hread
    obtain ⟨hnamed, huuid⟩ := stored_named hholds hdescribes hstored
    rw [← hnamed, ← hrunId] at hstored huuid
    refine ⟨run, hstored, ?_⟩
    have hcommit := hanswer hstored huuid hsequence
    unfold AnswersRun at hanswers
    split at hanswers
    · rw [hanswers] at hcommit
      exact hcommit
    · obtain ⟨next, hcontrol, hprepared⟩ := hanswers
      rw [hprepared] at hcommit
      refine ⟨next, hcontrol, hcommit, fun kind hkind ↦ ?_⟩
      obtain ⟨next', hreduces, hcontrol'⟩ := hpreview kind hkind
      rw [hreduces, Option.some.inj (hcontrol'.symm.trans hcontrol)]

end Commands

namespace Sample

def movedHead : String := String.ofList (List.replicate 40 'b')

/-- A steering after the repository has got a commit more; its file names the new head. -/
def movedContext : WorkflowContext .posix :=
  { steeringContext addedCriteria with
    git := .ok movedHead
    tree := { steeringTree addedCriteria with
      parse := fun _ ↦ some ((steeringJson addedCriteria).set "expectedHead" (.string movedHead)) }
    readEvent := fun id ↦ [loopCreation].find? (·.eventId = id) }

def movedEvent : PersistedStateEvent := { steeringEvent addedCriteria with version := .v2 (some movedHead) (some 1) false }

theorem moved_sound : Sound movedContext :=
  { steering_sound addedCriteria with
    events := by
      intro id event hevent
      have hfound : [loopCreation].find? (·.eventId = id) = some event := hevent
      obtain rfl := List.mem_singleton.mp (List.mem_of_find?_eq_some hfound)
      exact PersistedStateEvent.accepted_iff.mp (by decide)
    head := by
      intro head hhead
      obtain rfl := Except.ok.inj hhead
      decide }

theorem loopDisk_run : readRun State.Sample.root loopDisk State.Sample.runId = .ok (some loopRun) := by decide +kernel

theorem moved_alone : Alone State.Sample.root loopDisk movedContext where
  index := by decide +kernel
  lastIndex := rfl
  runs := by
    intro id run hrun
    have hstored : (if id = State.Sample.runId then some loopRun else none) = some run := hrun
    split at hstored
    · obtain rfl := Option.some.inj hstored
      subst id
      exact loopDisk_run
    · cases hstored
  log := ⟨[loopCreation], by decide +kernel, rfl⟩
  createdRunId := by decide +kernel

theorem moved_issued : movedContext.execute .ulwLoop .steer = .ok (.commits movedEvent) := by decide +kernel

end Sample

/-- The head has moved since the loop was created. -/
theorem steering_stale : exec (commit State.Sample.root State.Sample.options (.ofValue Sample.movedEvent))
    ⟨Sample.loopDisk, none⟩ = (.ok (.error (.transition .staleHead)), ⟨Sample.loopDisk, none⟩) := by
  have hcreated : ReflTransGen (RootStep State.Sample.root) State.Sample.initial Sample.loopDisk :=
    .single (.commit (EventObject.faithful_ofValue (by decide)) Prod.mk.eta.symm)
  have hhealthy : inspectRecovery Sample.loopDisk = .healthy 1 := by decide +kernel
  have hunhindered : Unhindered State.Sample.options.toCallOptions none := ⟨rfl, rfl, rfl⟩
  obtain ⟨_, hmutation, -⟩ | ⟨run, hread, hanswer⟩ := command_answered State.Sample.initial_empty hcreated hhealthy
    Sample.moved_sound Sample.moved_alone Sample.moved_issued (by decide) rfl hunhindered rfl
  · cases hmutation
  · obtain rfl : run = Sample.loopRun :=
      Option.some.inj (Except.ok.inj (hread.symm.trans Sample.loopDisk_run))
    have hobjection : objection Sample.movedContext.git Sample.loopRun Sample.movedEvent.mutation = some .staleHead := by
      decide
    rw [hobjection] at hanswer
    exact hanswer

end OmpLazy.Commands

import OmpLazy.Commands.CommandEvents

/-! Commands that are given again: the id of the event of a steering or of a checkpoint comes from what it is about. -/

namespace OmpLazy.Commands

open OmpLazy.Foundation OmpLazy.Foundation.Schema OmpLazy.Foundation.Text OmpLazy.State OmpLazy.Workflows EventStore
  Action Store Relation

/-! What is compared. -/

section Semantics

variable {event retried : PersistedStateEvent} {mutation other : StateMutation}

/-- The mutations of the events that have their ids from what they are about. -/
def Keyed : StateMutation → Prop
  | .workflowSteered _ _ => True
  | .criterionSettled _ => True
  | _ => False

theorem keyed_tidy (h : Keyed mutation) : Keyed mutation.tidy := by
  cases mutation with
  | workflowSteered | criterionSettled => exact trivial
  | _ => exact h.elim

theorem encodeSteeredCriterion_injective : Function.Injective encodeSteeredCriterion := by
  rintro ⟨id, scenario, observable, logicalId⟩ ⟨id', scenario', observable', logicalId'⟩ h
  simp only [encodeSteeredCriterion, Json.object.injEq, List.cons.injEq, Prod.mk.injEq, Json.string.injEq, true_and,
    and_true] at h
  obtain ⟨rfl, rfl, rfl, rfl⟩ := h
  rfl

theorem option_string_inj {x y : Option String} (h : x.map Json.string = y.map .string) : x = y :=
  Option.map_injective (fun _ _ ↦ Json.string.inj) h

theorem optional_injective {key : String} {value value' : Option Json} {rest rest' : List (String × Json)}
    (hrest : ∀ entry ∈ rest, entry.1 ≠ key) (hrest' : ∀ entry ∈ rest', entry.1 ≠ key)
    (h : Json.optional key value ++ rest = Json.optional key value' ++ rest') : value = value' ∧ rest = rest' := by
  cases value with
  | none =>
    cases value' with
    | none => exact ⟨rfl, h⟩
    | some j =>
      obtain rfl : rest = (key, j) :: rest' := h
      exact absurd rfl (hrest (key, j) List.mem_cons_self)
  | some j =>
    cases value' with
    | none =>
      obtain rfl : (key, j) :: rest = rest' := h
      exact absurd rfl (hrest' (key, j) List.mem_cons_self)
    | some j' =>
      obtain ⟨hentry, hsame⟩ := List.cons.inj h
      exact ⟨congrArg some (Prod.mk.inj hentry).2, hsame⟩

theorem encodeMutation_inj (hkeyed : Keyed mutation) (hother : Keyed other) :
    encodeMutation mutation = encodeMutation other ↔ mutation = other := by
  refine ⟨fun h ↦ ?_, congrArg encodeMutation⟩
  obtain ⟨hkind, hfields⟩ := List.cons.inj (Json.object.inj h)
  have hkind : mutation.kind.text = other.kind.text := Json.string.inj (Prod.mk.inj hkind).2
  cases mutation with
  | workflowSteered criteria annotationText =>
    cases other with
    | workflowSteered criteria' annotationText' =>
      obtain ⟨hcriteria, hremark⟩ := List.cons.inj hfields
      have hlist := Json.array.inj (Prod.mk.inj hcriteria).2
      have hsame : Json.optional "annotation" (annotationText.map .string) ++ [] =
          Json.optional "annotation" (annotationText'.map .string) ++ [] := by rw [hremark]
      have hoption := (optional_injective (List.forall_mem_nil _) (List.forall_mem_nil _) hsame).1
      rw [encodeSteeredCriterion_injective.list_map hlist, option_string_inj hoption]
    | criterionSettled settlement' => exact absurd hkind (by simp only [StateMutation.kind]; decide)
    | _ => exact hother.elim
  | criterionSettled settlement =>
    cases other with
    | criterionSettled settlement' =>
      obtain ⟨goalId, criterionId, acceptanceId, evidenceRef, captureRevision, captureCommit⟩ := settlement
      obtain ⟨goalId', criterionId', acceptanceId', evidenceRef', captureRevision', captureCommit'⟩ := settlement'
      obtain ⟨hgoal, hfields⟩ := List.cons.inj hfields
      obtain ⟨hcriterion, hfields⟩ := List.cons.inj hfields
      obtain ⟨hacceptance, hrest⟩ := optional_injective (by simp) (by simp) hfields
      simp only [List.cons.injEq, Prod.mk.injEq, Json.string.injEq, Json.nat, Json.number.injEq, Int.ofNat_inj, true_and,
        and_true] at hgoal hcriterion hrest
      obtain ⟨hevidence, hrevision, hcommit⟩ := hrest
      have hacceptance : acceptanceId = acceptanceId' := option_string_inj hacceptance
      rw [hgoal, hcriterion, hacceptance, hevidence, hrevision, hcommit]
    | workflowSteered criteria' annotationText' => exact absurd hkind (by simp only [StateMutation.kind]; decide)
    | _ => exact hother.elim
  | _ => exact hkeyed.elim

theorem semantics_encodeEvent (event : PersistedStateEvent) : eventSemantics (encodeEvent event) = .object
    (("schemaVersion", .nat event.version.number) :: ("runId", .string event.runId) ::
      ("workflow", .string event.workflow.text) :: ("kind", .string event.kind.text) ::
        ("expected", encodeExpected event.version event.expected) :: ("mutation", encodeMutation event.mutation) ::
          encodeLegacyHeadUnbound event.version) := by
  cases hversion : event.version with
  | v1 => simp [eventSemantics, encodeEvent, Json.without, hversion, encodeLegacyHeadUnbound]
  | v2 => simp [eventSemantics, encodeEvent, Json.without, hversion, encodeLegacyHeadUnbound]

theorem semantics_iff (hversion : retried.version = event.version) (hexpected : retried.expected = event.expected)
    (hkind : event.kind = event.mutation.kind) (hkind' : retried.kind = retried.mutation.kind)
    (hworkflow : retried.workflow = event.workflow) (hkeyed : Keyed event.mutation) (hother : Keyed retried.mutation) :
    eventSemantics (encodeEvent event) = eventSemantics (encodeEvent retried) ↔
      retried.runId = event.runId ∧ retried.mutation = event.mutation := by
  rw [semantics_encodeEvent, semantics_encodeEvent, hversion, hexpected, hworkflow, hkind, hkind']
  simp only [Json.object.injEq, List.cons.injEq, Prod.mk.injEq, Json.string.injEq, true_and, and_true,
    encodeMutation_inj hkeyed hother]
  constructor
  · rintro ⟨hrun, -, hmutation⟩
    exact ⟨hrun.symm, hmutation.symm⟩
  · rintro ⟨hrun, hmutation⟩
    rw [hmutation]
    exact ⟨hrun.symm, rfl, rfl⟩

end Semantics

/-! What a root answers to the event of an id that is in its log. -/

section Again

variable {root : StateRoot} {disk : Disk} {event : PersistedStateEvent} {object : EventObject} {options : CommitOptions}
  {deadline : Deadline}

/-- What a root keeps of a run is read. -/
def Readable (root : StateRoot) (disk : Disk) (runId : Uuid) : Prop :=
  (∃ events, readEvents disk = .ok events) ∧ (∃ index, readIndex disk = .ok index) ∧
    ∃ run, readRun root disk runId = .ok (some run)

def Refused (root : StateRoot) (options : CommitOptions) (disk : Disk) (deadline : Deadline) (event : EventObject)
    (code : TransactionErrorCode) : Prop :=
  ∃ left, exec (commit root options event) ⟨disk, deadline⟩ = (.ok (.error code), ⟨disk, left⟩)

theorem kept_replayed_iff (h : Kept event disk) (hok : event.Ok) (hlower : LowerId event.eventId)
    (hsame : object.value.eventId = event.eventId) (hid : isUuid object.value.runId = true)
    (hunhindered : Unhindered options.toCallOptions deadline) : Replayed root options disk deadline object ↔
      eventSemantics (encodeEvent event.tidy) = eventSemantics object.object ∧ Readable root disk object.value.runId := by
  rw [replayed_iff_replays hunhindered hid]
  constructor
  · rintro ⟨index, events, replay, run, hreplays⟩
    have hfound := hreplays.hfound
    rw [hsame, h.found hok hlower hreplays.hevents] at hfound
    obtain rfl := Option.some.inj hfound
    exact ⟨hreplays.hsemantics, ⟨events, hreplays.hevents⟩, ⟨index, hreplays.hindex⟩, run, hreplays.hrun⟩
  · rintro ⟨hsemantics, ⟨events, hevents⟩, ⟨index, hindex⟩, run, hrun⟩
    refine ⟨index, events, event.tidy, run, hindex, hevents, ?_, hsemantics, hrun⟩
    rw [hsame]
    exact h.found hok hlower hevents

theorem kept_unchanged (h : Kept event disk) (hok : event.Ok) (hlower : LowerId event.eventId)
    (hsame : object.value.eventId = event.eventId) {outcome : Except Thrown TransactionResult} {session : Session}
    (hexec : exec (commit root options object) ⟨disk, deadline⟩ = (outcome, session)) : session.disk = disk := by
  obtain ⟨hdisk, -⟩ | ⟨-, _, events, _, _, _, hadmits, -⟩ := commit_cases hexec
  · exact hdisk
  · have hfresh := hadmits.hfresh
    rw [hsame, h.found hok hlower hadmits.hevents] at hfresh
    cases hfresh

theorem kept_refused_iff (h : Kept event disk) (hok : event.Ok) (hlower : LowerId event.eventId)
    (hsame : object.value.eventId = event.eventId) (hid : isUuid object.value.runId = true)
    (hunhindered : Unhindered options.toCallOptions deadline) :
    Refused root options disk deadline object .idempotencyConflict ↔
      eventSemantics (encodeEvent event.tidy) ≠ eventSemantics object.object ∧
        (∃ events, readEvents disk = .ok events) ∧ ∃ index, readIndex disk = .ok index := by
  constructor
  · rintro ⟨left, hexec⟩
    rw [exec_commit_unhindered hunhindered hid] at hexec
    split at hexec
    · cases hexec
    · rename_i code hdecision
      obtain ⟨hcode, -⟩ := Prod.mk.inj hexec
      obtain rfl := Except.error.inj (Except.ok.inj hcode)
      simp only [decideCommit, bind_eq_ok] at hdecision
      obtain ⟨index, hindex, events, hevents, hdecision⟩ := hdecision
      refine ⟨?_, ⟨events, hevents⟩, index, hindex⟩
      intro hsemantics
      simp only [hsame, h.found hok hlower hevents, hsemantics, ne_eq, not_true_eq_false, if_false] at hdecision
      obtain ⟨run, -, hdecision⟩ := bind_eq_ok.mp hdecision
      cases run <;> cases hdecision
    · cases hexec
    · rename_i persisted prepared hdecision
      obtain ⟨_, events, _, _, hadmits, -⟩ := decideCommit_accepted.mp hdecision
      have hfresh := hadmits.hfresh
      rw [hsame, h.found hok hlower hadmits.hevents] at hfresh
      cases hfresh
  · rintro ⟨hsemantics, ⟨events, hevents⟩, index, hindex⟩
    refine ⟨deadline.after (2 * options.waits + 2), ?_⟩
    have hdecision : decideCommit root disk object = .ok (.refused .idempotencyConflict) := by
      rw [decideCommit, hindex, hevents]
      simp only [bind, Except.bind, hsame, h.found hok hlower hevents]
      exact if_pos hsemantics
    rw [exec_commit_unhindered hunhindered hid, hdecision]

end Again

section Retries

variable {platform : PathPlatform} {context first second : WorkflowContext platform} {run : AnyRun}
  {mutation : StateMutation} {head : Option String} {generation : Option ℕ} {key : String}
  {event retried existing : PersistedStateEvent} {events : List PersistedStateEvent} {root : StateRoot}
  {disk between later : Disk}

theorem checkpoint_loop {checkpoint : CommandContext.Checkpoint} (h : context.checkpointUlwRun = .ok checkpoint) :
    checkpoint.run.workflow = .ulwLoop := by
  unfold CommandContext.checkpointUlwRun at h
  dsimp only at h
  split at h
  · cases h
  split at h
  · cases h
  rename_i payload hpayload
  split at h
  · split at h
    · cases h
    split at h
    · cases h
    split at h
    · cases h
    obtain rfl := Except.ok.inj h
    rw [AnyRun.workflow, hpayload]
    rfl
  · cases h

theorem keyed_issued (h : Issues context event) (hkeyed : Keyed event.mutation) :
    ∃ id run head generation key, context.readRun id = some run ∧ run.workflow = .ulwLoop ∧
      event = context.mutationEvent run event.mutation head generation (some key) := by
  cases h with
  | @controlled _ _ _ kind _ _ hmutates _ =>
    cases kind with
    | reconcilePlan plan => cases hmutates
    | adopt =>
      obtain rfl := Option.some.inj hmutates
      exact hkeyed.elim
    | pause | resume | cancel =>
      obtain rfl := Option.some.inj hmutates
      exact hkeyed.elim
  | steered hfound hloop =>
    obtain ⟨id, hread⟩ := lookupRun_read hfound
    exact ⟨id, _, _, _, _, hread, hloop, rfl⟩
  | checkpointed hread hchecked => exact ⟨_, _, _, _, _, hread, (checkpoint_loop hchecked), rfl⟩
  | reconciled | createdLoop | createdStart => exact hkeyed.elim

theorem mutationEvent_version (context : WorkflowContext platform) (run : AnyRun) (mutation : StateMutation)
    (head : Option String) (generation : Option ℕ) (key : Option String) :
    ∃ head' generation', (context.mutationEvent run mutation head generation key).version = .v2 head' generation' false := by
  unfold CommandContext.mutationEvent
  dsimp only
  split
  · exact ⟨_, _, rfl⟩
  · split
    · exact ⟨_, _, rfl⟩
    · exact ⟨_, _, rfl⟩

/-- A command that is given again asks for what is stored. -/
theorem mutationEvent_stored (hread : context.readEvent
      (context.mutationEvent run mutation head generation (some key)).eventId = some existing)
    {head' : Option String} {generation' : Option ℕ} (hversion : existing.version = .v2 head' generation' false) :
    (context.mutationEvent run mutation head generation (some key)).version = existing.version ∧
      (context.mutationEvent run mutation head generation (some key)).expected = existing.expected := by
  have hstored : context.readEvent (context.deterministicEventId
      (run.runId ++ "\x00" ++ mutation.kind.text ++ "\x00" ++ key)) = some existing := hread
  unfold CommandContext.mutationEvent
  simp only [Option.bind_some, hstored, hversion, and_self]

theorem retried_semantics (hissues : Issues first event) (hkeyed : Keyed event.mutation)
    (hissues' : Issues second retried) (hkeyed' : Keyed retried.mutation)
    (hstored : second.readEvent retried.eventId = some event.tidy) :
    eventSemantics (encodeEvent event.tidy) = eventSemantics (encodeEvent retried) ↔
      retried.runId = event.runId ∧ retried.mutation = event.mutation.tidy := by
  obtain ⟨_, run, head, generation, key, -, hloop, hevent⟩ := keyed_issued hissues hkeyed
  obtain ⟨_, run', head', generation', key', -, hloop', hretried⟩ := keyed_issued hissues' hkeyed'
  obtain ⟨versionHead, versionGeneration, hversion⟩ := mutationEvent_version first run event.mutation head generation (some key)
  rw [← hevent] at hversion
  have htidy : event.tidy.version = .v2 (versionHead.map trim) versionGeneration false := by
    rw [PersistedStateEvent.tidy, hversion]
    rfl
  rw [hretried] at hstored
  obtain ⟨hversion', hexpected'⟩ := mutationEvent_stored hstored htidy
  rw [← hretried] at hversion' hexpected'
  have hkind : event.kind = event.mutation.kind := congrArg PersistedStateEvent.kind hevent
  have hkind' : retried.kind = retried.mutation.kind := congrArg PersistedStateEvent.kind hretried
  have hworkflow : retried.workflow = event.workflow := by
    rw [congrArg PersistedStateEvent.workflow hevent, congrArg PersistedStateEvent.workflow hretried]
    exact hloop'.trans hloop.symm
  have hkeptKind : event.tidy.kind = event.tidy.mutation.kind := hkind.trans (StateMutation.kind_tidy event.mutation).symm
  exact semantics_iff hversion' hexpected' hkeptKind hkind' hworkflow (keyed_tidy hkeyed) hkeyed'

/-- A command that is given again, whenever and after whatever has happened to the root, changes nothing. It is
replayed just where it asks for what its event has in the log, and is in conflict with it otherwise. -/
theorem retried_command {options again : CommitOptions} {deadline deadline' : Deadline} {run : AnyRun}
    {index : ActiveIndex} {session : Session} {workflow workflow' : WorkflowKind} {operation operation' : Operation}
    (hfirst : Sound first) (hsecond : Sound second) (hissued : first.execute workflow operation = .ok (.commits event))
    (hkeyed : Keyed event.mutation) (hlegible : Legible event)
    (hcommitted : exec (commit root options (.ofValue event)) ⟨disk, deadline⟩ =
      (.ok (.ok ⟨.committed, run, index⟩), session))
    (hbetween : ReflTransGen (RootStep root) session.disk between) (hevents : readEvents between = .ok events)
    (hread : second.readEvent = fun id ↦ events.find? (·.eventId = id))
    (hretried : second.execute workflow' operation' = .ok (.commits retried)) (hagain : Keyed retried.mutation)
    (hid : retried.eventId = event.eventId) (hlater : ReflTransGen (RootStep root) between later)
    (hunhindered : Unhindered again.toCallOptions deadline') :
    (Replayed root again later deadline' (.ofValue retried) ↔
        (retried.runId = event.runId ∧ retried.mutation = event.mutation.tidy) ∧ Readable root later event.runId) ∧
      (∀ outcome left, exec (commit root again (.ofValue retried)) ⟨later, deadline'⟩ = (outcome, left) →
        left.disk = later) ∧
      (Refused root again later deadline' (.ofValue retried) .idempotencyConflict ↔
        ¬ (retried.runId = event.runId ∧ retried.mutation = event.mutation.tidy) ∧
          (∃ events, readEvents later = .ok events) ∧ ∃ index, readIndex later = .ok index) := by
  have hissues := execute_issues hissued
  have hok := (issued_ok_iff hfirst hissues).mpr hlegible
  obtain ⟨hversion, -, hlower⟩ := issued_named hfirst hissues
  have hkept := (committed_kept hversion hcommitted).forever hok hlower hbetween
  have hstored := hkept.found hok hlower hevents
  have hkept := hkept.forever hok hlower hlater
  have hissues' := execute_issues hretried
  obtain ⟨id, asked, _, _, _, hasked, -, hevent⟩ := keyed_issued hissues' hagain
  have hrunId : isUuid retried.runId = true := by
    rw [hevent]
    exact (hsecond.runs id asked hasked).runId
  have hstored' : second.readEvent retried.eventId = some event.tidy := by
    rw [hread, hid]
    exact hstored
  have hmatches := retried_semantics hissues hkeyed hissues' hagain hstored'
  have hobject : (EventObject.ofValue retried).object = encodeEvent retried := rfl
  have hid' : (EventObject.ofValue retried).value.eventId = event.eventId := hid
  refine ⟨?_, fun _ _ hexec ↦ kept_unchanged hkept hok hlower hid' hexec, ?_⟩
  · rw [kept_replayed_iff hkept hok hlower hid' hrunId hunhindered, hobject, hmatches]
    apply and_congr_right
    intro hsame
    rw [← hsame.1]
    rfl
  · rw [kept_refused_iff hkept hok hlower hid' hrunId hunhindered, hobject, ne_eq, hmatches]

end Retries

namespace Sample

def addedCriteria : List SteeredCriterion := [⟨"criterion-2", "The store is read", "The text is the same", "evidence-2"⟩]

def steeredLog : List PersistedStateEvent := [loopCreation, steeringEvent addedCriteria]

def steeredDisk : Disk := (exec (commit State.Sample.root State.Sample.options
  (.ofValue (steeringEvent addedCriteria))) ⟨loopDisk, none⟩).2.disk

/-- The same command after its event has been committed. -/
def retryContext : WorkflowContext .posix :=
  { steeringContext addedCriteria with
    index := steeredIndex addedCriteria
    readRun := fun id ↦ if id = State.Sample.runId then some (steeredRun addedCriteria) else none
    readEvent := fun id ↦ steeredLog.find? (·.eventId = id)
    lastIndex := steeredIndex addedCriteria }

theorem retry_sound : Sound retryContext :=
  { steering_sound addedCriteria with
    index := (by decide : (steeredIndex addedCriteria).revision < maxSafeInteger)
    lastIndex := (by decide : (steeredIndex addedCriteria).revision < maxSafeInteger)
    runs := by
      intro id run hrun
      have hstored : (if id = State.Sample.runId then some (steeredRun addedCriteria) else none) = some run := hrun
      split at hstored
      · obtain rfl := Option.some.inj hstored
        exact AnyRun.accepted_iff.mp (by decide)
      · cases hstored
    events := by
      intro id event hevent
      have hfound : steeredLog.find? (·.eventId = id) = some event := hevent
      have hstored := List.mem_of_find?_eq_some hfound
      obtain rfl | hstored := List.mem_cons.mp hstored
      · exact PersistedStateEvent.accepted_iff.mp (by decide)
      · obtain rfl := List.mem_singleton.mp hstored
        exact PersistedStateEvent.accepted_iff.mp (by decide) }

theorem steering_issued : (steeringContext addedCriteria).execute .ulwLoop .steer =
    .ok (.commits (steeringEvent addedCriteria)) := by decide +kernel

theorem steeredDisk_events : readEvents steeredDisk = .ok steeredLog := by decide +kernel

theorem steeredDisk_index : readIndex steeredDisk = .ok (steeredIndex addedCriteria) := by decide +kernel

theorem steeredDisk_run : readRun State.Sample.root steeredDisk State.Sample.runId =
    .ok (some (steeredRun addedCriteria)) := by decide +kernel

end Sample

/-- The same steering file again. -/
theorem steering_replays : Replayed State.Sample.root State.Sample.options Sample.steeredDisk none
    (.ofValue (Sample.steeringEvent Sample.addedCriteria)) := by
  have hretried : Sample.retryContext.execute .ulwLoop .steer =
      .ok (.commits (Sample.steeringEvent Sample.addedCriteria)) := by
    decide +kernel
  have hcommitted : (exec (commit State.Sample.root State.Sample.options
      (.ofValue (Sample.steeringEvent Sample.addedCriteria))) ⟨Sample.loopDisk, none⟩).1 =
        .ok (.ok ⟨.committed, Sample.steeredRun Sample.addedCriteria, Sample.steeredIndex Sample.addedCriteria⟩) := by
    decide +kernel
  have hlegible : Legible (Sample.steeringEvent Sample.addedCriteria) := by
    refine ⟨?_, List.cons_ne_nil _ _⟩
    intro n hn
    obtain rfl := Option.mem_some_iff.mp hn
    omega
  generalize hexec : exec (commit State.Sample.root State.Sample.options
    (.ofValue (Sample.steeringEvent Sample.addedCriteria))) ⟨Sample.loopDisk, none⟩ = result at hcommitted
  obtain ⟨outcome, session⟩ := result
  obtain rfl : outcome = _ := hcommitted
  have hdisk : session.disk = Sample.steeredDisk := by rw [Sample.steeredDisk, hexec]
  have hread : Sample.retryContext.readEvent = fun id ↦ Sample.steeredLog.find? (·.eventId = id) := rfl
  have hunhindered : Unhindered State.Sample.options.toCallOptions none := ⟨rfl, rfl, rfl⟩
  have hretry := retried_command (Sample.steering_sound Sample.addedCriteria) Sample.retry_sound Sample.steering_issued trivial
    hlegible hexec .refl (hdisk ▸ Sample.steeredDisk_events) hread hretried trivial rfl .refl hunhindered
  rw [hdisk] at hretry
  exact hretry.1.mpr ⟨⟨rfl, rfl⟩, ⟨_, Sample.steeredDisk_events⟩, ⟨_, Sample.steeredDisk_index⟩, _, Sample.steeredDisk_run⟩

end OmpLazy.Commands

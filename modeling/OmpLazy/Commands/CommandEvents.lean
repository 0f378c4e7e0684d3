import OmpLazy.Commands.CommandLaws
import OmpLazy.Foundation.Sha256
import OmpLazy.State.EventFiles
import OmpLazy.Workflows.NextTaskPacket

/-! The events that commands commit, and what of them the log does not take. -/

namespace OmpLazy.Commands

open OmpLazy.Foundation OmpLazy.Foundation.Schema OmpLazy.Foundation.Text OmpLazy.State OmpLazy.Workflows EventStore
  Action Relation

/-! Ids and hashes. -/

section Ids

variable {hash : List Char}

theorem classes_part {p : Char → Bool} {part : List Char} {n : ℕ} (hp : ∀ c, isLowerHex c = true → p c = true)
    (hhex : ∀ c ∈ part, isLowerHex c = true) (hlength : part.length = n) :
    matchesClasses (List.replicate n p) part = true :=
  matchesClasses_replicate.mpr ⟨hlength, fun c hc ↦ hp c (hhex c hc)⟩

theorem isHex_of_isLowerHex (c : Char) (h : isLowerHex c = true) : isHex c = true := by
  rw [isHex, h, Bool.true_or]

/-- A hash becomes the id of an event. -/
theorem isUuid_uuidOf (hlength : hash.length = 64) (hhex : ∀ c ∈ hash, isLowerHex c = true) :
    isUuid (uuidOf hash) = true := by
  have hpart : ∀ start n, start + n ≤ 64 → matchesClasses (List.replicate n isHex) ((hash.drop start).take n) = true := by
    intro start n hle
    apply classes_part isHex_of_isLowerHex
    · exact fun c hc ↦ hhex c (List.mem_of_mem_drop (List.mem_of_mem_take hc))
    · rw [List.length_take, List.length_drop, hlength]
      omega
  have hfirst := hpart 0 8 (by omega)
  rw [List.drop_zero] at hfirst
  rw [isUuid, Bool.or_eq_true, Bool.or_eq_true]
  left; left
  rw [uuidOf, String.toList_ofList, uuidClasses, matchesClasses_append hfirst, matchesClasses, beq_self_eq_true,
    Bool.true_and, matchesClasses_append (hpart 8 4 (by omega)), matchesClasses, beq_self_eq_true, Bool.true_and,
    matchesClasses, matchesClasses_append (hpart 13 3 (by omega)), matchesClasses, beq_self_eq_true, Bool.true_and,
    matchesClasses, matchesClasses_append (hpart 17 3 (by omega)), matchesClasses, beq_self_eq_true, Bool.true_and,
    hpart 20 12 (by omega), Bool.and_true]
  decide

theorem lowerId_uuidOf (hhex : ∀ c ∈ hash, isLowerHex c = true) : LowerId (uuidOf hash) := by
  have hchar : ∀ c ∈ hash, isEventIdChar c = true := by
    intro c hc
    rw [isEventIdChar, hhex c hc, Bool.true_or]
  have hpart : ∀ start n, ∀ c ∈ (hash.drop start).take n, isEventIdChar c = true :=
    fun start n c hc ↦ hchar c (List.mem_of_mem_drop (List.mem_of_mem_take hc))
  intro c hc
  rw [uuidOf, String.toList_ofList] at hc
  simp only [List.mem_append, List.mem_cons] at hc
  obtain hc | rfl | hc | rfl | rfl | hc | rfl | rfl | hc | rfl | hc := hc
  · exact hchar c (List.mem_of_mem_take hc)
  · decide
  · exact hpart _ _ c hc
  · decide
  · decide
  · exact hpart _ _ c hc
  · decide
  · decide
  · exact hpart _ _ c hc
  · decide
  · exact hchar c (List.mem_of_mem_drop (List.mem_of_mem_take hc))

end Ids

/-- What the types and the schemas promise of what a command has read. -/
structure Sound {platform : PathPlatform} (context : WorkflowContext platform) : Prop where
  index : context.index.revision < maxSafeInteger
  lastIndex : context.lastIndex.revision < maxSafeInteger
  runs : ∀ id, ∀ run ∈ context.readRun id, run.Ok
  events : ∀ id, ∀ event ∈ context.readEvent id, event.Ok
  entries : ∀ id, ∀ entry ∈ context.scopedEntries id, trim entry.idempotencyKey ≠ "" ∧
    entry.runRevision ≤ maxSafeInteger ∧ entry.taskGeneration ≤ maxSafeInteger ∧ 0 < entry.taskGeneration
  head : ∀ head, context.git = .ok head → isLowerHexOf 40 head = true
  eventIds : context.deterministicEventId = deterministicEventId context.texts.sha256
  newRunId : isUuid context.newRunId = true
  lowerNewRunId : LowerId context.newRunId
  createdRunId : isUuid context.createdRunId = true
  planId : isUuid context.planId = true
  now : isIsoDatetime context.nowIso = true
  sha256 : ∀ text, isLowerHexOf 64 (context.texts.sha256 text) = true
  allowedRoot : trim context.canonicalRoot.canonicalPath ≠ "" ∧ trim context.canonicalRoot.displayPath ≠ ""

def boundGeneration (event : PersistedStateEvent) : Option ℕ :=
  match event.version with
  | .v1 => none
  | .v2 _ taskGeneration _ => taskGeneration

/-- What the log asks of a mutation and a command does not check. -/
def LegibleMutation : StateMutation → Prop
  | .runCreated run => trim run.owner.sessionId ≠ "" ∧
    match run.payload with
    | .ulwLoop payload => ∀ objective ∈ payload.objective, trim objective ≠ ""
    | .startWork payload => trim payload.plan.canonicalPath ≠ "" ∧ trim payload.plan.displayPath ≠ ""
  | .ownerAdopted sessionId => trim sessionId ≠ ""
  | .workflowSteered criteria _ => criteria ≠ []
  | .criterionSettled settlement => trim settlement.evidenceRef ≠ ""
  | _ => True

/-- A command does not check either that the generation of its run is one that the log takes. -/
structure Legible (event : PersistedStateEvent) : Prop where
  generation : ∀ n ∈ boundGeneration event, 0 < n
  mutation : LegibleMutation event.mutation

section Events

variable {platform : PathPlatform} {context : WorkflowContext platform} {run : AnyRun} {mutation : StateMutation}
  {head : Option String} {generation : Option ℕ} {key : Option String} {event : PersistedStateEvent}

theorem hex_nonblank {s : String} {n : ℕ} (h : isLowerHexOf (n + 1) s = true) : trim s ≠ "" := by
  obtain ⟨hlength, hhex⟩ := matchesClasses_replicate.mp h
  have hplain : Contracts.Plain s := by
    refine ⟨?_, fun c hc ↦ isLowerHex_plain (hhex c hc)⟩
    rintro rfl
    cases hlength
  rw [hplain.trim_eq]
  exact hplain.1

theorem eventId_named (hsound : Sound context) (key : String) :
    isUuid (context.deterministicEventId key) = true ∧ LowerId (context.deterministicEventId key) := by
  obtain ⟨hlength, hhex⟩ := matchesClasses_replicate.mp (hsound.sha256 key)
  rw [hsound.eventIds]
  exact ⟨isUuid_uuidOf hlength hhex, lowerId_uuidOf hhex⟩

/-- What a command makes of a mutation can be written into the log where the mutation can. -/
theorem mutationEvent_ok (hsound : Sound context) (hrun : run.Ok) (hhead : ∀ s ∈ head, trim s ≠ "")
    (hgeneration : ∀ n ∈ generation, n ≤ maxSafeInteger) (hmutation : mutation.Ok ↔ LegibleMutation mutation) :
    (context.mutationEvent run mutation head generation key).Ok ↔
      Legible (context.mutationEvent run mutation head generation key) := by
  have hexpected : Expected.Ok
      { indexRevision := context.index.revision
        runRevision := some run.revision
        ownerSessionId := some run.owner.sessionId
        ownerEpoch := some run.owner.epoch } :=
    ⟨hsound.index.le, fun _ h ↦ Option.mem_some_iff.mp h ▸ hrun.revision,
      fun _ h ↦ Option.mem_some_iff.mp h ▸ hrun.owner.sessionId, fun _ h ↦ Option.mem_some_iff.mp h ▸ hrun.owner.epoch⟩
  have hfresh : (∀ n ∈ generation, 0 < n) ↔ (EventVersion.v2 head generation false).Ok := by
    constructor
    · exact fun h ↦ ⟨⟨hhead, fun n hn ↦ ⟨hgeneration n hn, h n hn⟩⟩, fun hlegacy ↦ by cases hlegacy⟩
    · exact fun h n hn ↦ (h.1.2 n hn).2
  have hevent : ∀ {event : PersistedStateEvent}, event.mutation = mutation → event.kind = mutation.kind →
      ((∀ n ∈ boundGeneration event, 0 < n) ↔ event.version.Ok) → isUuid event.eventId = true →
        event.sequence ≤ maxSafeInteger → event.runId = run.runId → event.expected.Ok →
          isIsoDatetime event.atTime = true → (event.Ok ↔ Legible event) := by
    intro event hsame hkind hversion hid hsequence hrunId hexpected hat
    constructor
    · exact fun h ↦ ⟨hversion.mpr h.version, hsame ▸ hmutation.mp (hsame ▸ h.fields.mutation)⟩
    · intro h
      refine ⟨hversion.mp h.generation, hid, hsequence, hrunId ▸ hrun.runId, hexpected, ?_, hat, ?_⟩
      · rw [hsame]
        exact hmutation.mpr (hsame ▸ h.mutation)
      · rw [hsame]
        exact hkind
  cases key with
  | none =>
    refine hevent rfl rfl hfresh hsound.newRunId ?_ rfl hexpected hsound.now
    exact hsound.index
  | some key =>
    have hid := (eventId_named hsound (run.runId ++ "\x00" ++ mutation.kind.text ++ "\x00" ++ key)).1
    have hread := hsound.events (context.deterministicEventId (run.runId ++ "\x00" ++ mutation.kind.text ++ "\x00" ++ key))
    unfold CommandContext.mutationEvent
    simp only [Option.bind_some]
    cases hexisting : context.readEvent (context.deterministicEventId
        (run.runId ++ "\x00" ++ mutation.kind.text ++ "\x00" ++ key)) with
    | none =>
      refine hevent rfl rfl hfresh hid ?_ rfl hexpected hsound.now
      exact hsound.index
    | some existing =>
      have hok := hread existing hexisting
      cases hversion : existing.version with
      | v1 =>
        simp only [hversion]
        exact hevent rfl rfl hfresh hid hok.fields.sequence rfl hexpected hok.fields.atTime
      | v2 expectedHead taskGeneration legacy =>
        simp only [hversion]
        have hexistingVersion := hok.version
        rw [hversion] at hexistingVersion
        refine hevent rfl rfl ⟨fun _ ↦ ⟨hexistingVersion.1, fun h ↦ by cases h⟩, fun _ n hn ↦ ?_⟩ hid hok.fields.sequence
          rfl hok.fields.expected hok.fields.atTime
        exact (hexistingVersion.1.2 n hn).2

theorem forall_absent {α : Type} {p : α → Prop} : ∀ a ∈ (none : Option α), p a := by
  intro a ha
  cases ha

/-- What is created can be written into the log where its session and its payload can. -/
theorem creation_ok (hsound : Sound context) {created : Payload} {head : String} (hhead : isLowerHexOf 40 head = true)
    (hpayload : trim context.sessionId ≠ "" → (created.Ok ↔ LegibleMutation (context.creation head created).mutation)) :
    (context.creation head created).Ok ↔ Legible (context.creation head created) := by
  constructor
  · intro h
    have hrun : AnyRun.Ok _ := h.fields.mutation.1
    refine ⟨fun n hn ↦ ?_, (hpayload hrun.owner.sessionId).mp hrun.payload⟩
    cases hn
  · intro h
    have hsession : trim context.sessionId ≠ "" := h.mutation.1
    have hone : 1 ≤ maxSafeInteger := by decide
    have hrun : (createdRun context.createdRunId head context.lastIndex context.sessionId context.nowIso created).Ok := {
      version := ⟨forall_absent, fun s hs ↦ Option.mem_some_iff.mp hs ▸ hex_nonblank hhead⟩
      runId := hsound.createdRunId
      revision := hone
      transactionRevision := hsound.lastIndex
      owner := ⟨hsession, hone⟩
      progressRevision := hone
      continuation := ⟨forall_absent, hone, Nat.zero_le _⟩
      createdAt := hsound.now
      updatedAt := hsound.now
      payload := (hpayload hsession).mpr h.mutation }
    exact {
      version := ⟨⟨forall_absent, forall_absent⟩, fun h ↦ by cases h⟩
      fields := {
        eventId := hsound.newRunId
        sequence := hsound.lastIndex
        runId := hsound.createdRunId
        expected := ⟨hsound.lastIndex.le, forall_absent, forall_absent, forall_absent⟩
        mutation := ⟨hrun, rfl⟩
        atTime := hsound.now
        kind := rfl } }

/-! Plans. -/

theorem normalized_plain {markdown : String} {plan : NormalizedPlan}
    (h : normalizeStartWorkPlan context.texts markdown = .ok plan) : ∀ id ∈ plan.taskIds, Contracts.Plain id := by
  intro id hid
  rw [(normalize_ok h).1] at hid
  obtain ⟨task, htask, rfl⟩ := List.mem_map.mp hid
  obtain ⟨i, hi⟩ := mem_checklistFrom.mp htask
  have hown : OwnLine context.texts markdown task.id i := ⟨plan, task, h, hi, rfl⟩
  exact hown.plain

theorem normalized_identity {markdown : String} {plan : NormalizedPlan}
    (h : normalizeStartWorkPlan context.texts markdown = .ok plan) :
    plan.taskIds.Nodup ∧ ∃ text, plan.fingerprint = context.texts.sha256 text := by
  simp only [normalizeStartWorkPlan] at h
  split at h
  · cases h
  generalize (if (planLines markdown).count v2Marker = 1 then PlanVersion.v2 else .v1) = version at h
  split at h
  · cases h
  split at h
  · cases h
  split at h
  · cases h
  · rename_i hnodup
    obtain rfl := Except.ok.inj h
    exact ⟨not_not.mp hnodup, _, rfl⟩

theorem uniqueStrings_of_plain {ids : List String} (hplain : ∀ id ∈ ids, Contracts.Plain id) (hnodup : ids.Nodup) :
    UniqueStrings ids := by
  have htrim : ids.map trim = ids := (List.map_congr_left fun id hid ↦ (hplain id hid).trim_eq).trans (List.map_id ids)
  refine ⟨fun id hid ↦ ?_, htrim.symm ▸ hnodup⟩
  rw [(hplain id hid).trim_eq]
  exact (hplain id hid).1

/-- A plan that a command reads can be written into the log, but for its paths. -/
theorem plan_settled {path : String} {plan : ContainedPlan} (hsound : Sound context)
    (h : context.tree.readContainedPlan context.texts path = .ok plan) :
    UniqueStrings plan.normalized.taskIds ∧ UniqueStrings plan.normalized.remainingTaskIds ∧
      isLowerHexOf 64 plan.normalized.fingerprint = true := by
  unfold WorkingTree.readContainedPlan at h
  split at h
  · cases h
  split at h
  · cases h
  rename_i normalized hnormalized
  obtain rfl := Except.ok.inj h
  have hplain := normalized_plain hnormalized
  obtain ⟨hnodup, text, hfingerprint⟩ := normalized_identity hnormalized
  have hsublist : normalized.remainingTaskIds.Sublist normalized.taskIds := by
    rw [(normalize_ok hnormalized).1, (normalize_ok hnormalized).2.1]
    exact List.filter_sublist.map _
  refine ⟨uniqueStrings_of_plain hplain hnodup,
    uniqueStrings_of_plain (fun id hid ↦ hplain id (hsublist.subset hid)) (hnodup.sublist hsublist), ?_⟩
  dsimp only
  rw [hfingerprint]
  exact hsound.sha256 text

/-! Checkpoints. -/

theorem checkpoint_settled {id : Uuid} {checkpoint : CommandContext.Checkpoint} (hsound : Sound context)
    (hread : context.readRun id = some checkpoint.run) (h : context.checkpointUlwRun = .ok checkpoint) :
    isLowerHexOf 40 checkpoint.expectedHead = true ∧ checkpoint.taskGeneration ≤ maxSafeInteger ∧
      ((StateMutation.criterionSettled checkpoint.settlement).Ok ↔ trim checkpoint.settlement.evidenceRef ≠ "") := by
  have hrun := hsound.runs id checkpoint.run hread
  unfold CommandContext.checkpointUlwRun at h
  dsimp only at h
  split at h
  · cases h
  split at h
  · cases h
  rename_i payload hpayload
  split at h
  · rename_i goal evidencePath hgoal hpath
    split at h
    · cases h
    rename_i entry hentry
    split at h
    · cases h
    rename_i head hgit
    split at h
    · cases h
    rename_i hcapture
    obtain rfl := Except.ok.inj h
    obtain ⟨hkey, hrevision, hmost, -⟩ := hsound.entries _ entry (List.mem_of_find?_eq_some hentry)
    have hhead := hsound.head head hgit
    have hcaptured : entry.captureCommit = head := not_not.mp hcapture
    have hok : payload.Ok := by
      have hok := hrun.payload
      rwa [hpayload] at hok
    have hgoalOk := hok.fields.goals goal (List.mem_of_find?_eq_some hgoal)
    have hnamed := List.find?_some hgoal
    obtain ⟨criterion, hcriterion, hid⟩ := List.any_eq_true.mp hnamed
    have hcriterionId := of_decide_eq_true hid
    refine ⟨hhead, hmost, ?_⟩
    constructor
    · exact fun h ↦ h.1.evidenceRef
    · intro hevidence
      refine ⟨⟨hgoalOk.id, ?_, ?_, hevidence, hrevision, ?_⟩, rfl⟩
      · dsimp only
        rw [← hcriterionId]
        exact (hgoalOk.criteria criterion hcriterion).id
      · intro key hmem
        obtain rfl := Option.mem_some_iff.mp hmem
        exact hkey
      · dsimp only
        rw [hcaptured]
        exact hex_nonblank hhead
  · cases h

/-! What is created. -/

theorem createdLoop_ok {objective : String} : (createdLoop objective).Ok ↔ trim objective ≠ "" := by
  constructor
  · exact fun h ↦ h.fields.objective objective rfl
  · intro h
    refine ⟨⟨fun s hs ↦ Option.mem_some_iff.mp hs ▸ h, forall_absent, ?_, ?_⟩, ?_⟩
    · intro s hs
      obtain rfl := Option.mem_some_iff.mp hs
      decide
    · intro goal hgoal
      obtain rfl := List.mem_singleton.mp hgoal
      refine ⟨by decide, by decide, ?_, by decide⟩
      intro criterion hcriterion
      obtain rfl := List.mem_singleton.mp hcriterion
      exact ⟨by decide, forall_absent, forall_absent, forall_absent, forall_absent, by decide, forall_absent,
        forall_absent, forall_absent⟩
    · have hgoalIds : (createdLoop objective).goalIds = ["goal-1"] := rfl
      have hcriterionIds : (createdLoop objective).criterionIds = ["criterion-1"] := rfl
      refine ⟨?_, ?_, ?_⟩
      · rw [hgoalIds]
        decide
      · rw [hcriterionIds]
        decide
      · change [trim "goal-1"] = [trim "goal-1"]
        rfl

/-- The log takes the event of a command just where it is legible. -/
theorem issued_ok_iff (hsound : Sound context) (h : Issues context event) : event.Ok ↔ Legible event := by
  have hprogress : ∀ {id run}, context.readRun id = some run → ∀ n ∈ some run.progressRevision, n ≤ maxSafeInteger := by
    intro id run hread n hn
    obtain rfl := Option.mem_some_iff.mp hn
    exact (hsound.runs id run hread).progressRevision
  have hnonblank : ∀ {head}, isLowerHexOf 40 head = true → ∀ s ∈ some head, trim s ≠ "" := by
    intro head hhead s hs
    obtain rfl := Option.mem_some_iff.mp hs
    exact hex_nonblank hhead
  cases h with
  | @controlled id run next kind mutation hread hmutates hreduces =>
    apply mutationEvent_ok hsound (hsound.runs id run hread) forall_absent forall_absent
    cases kind with
    | reconcilePlan plan => cases hmutates
    | adopt =>
      obtain rfl := Option.some.inj hmutates
      exact and_iff_left rfl
    | pause | resume | cancel =>
      obtain rfl := Option.some.inj hmutates
      exact and_iff_left rfl
  | @steered run path head input hfound hloop hfile haddressed hgit hbound =>
    obtain ⟨id, hread⟩ := lookupRun_read hfound
    have hsettled := readSteeringInput_settled hfile
    apply mutationEvent_ok hsound (hsound.runs id run hread) (hnonblank (hsound.head head hgit)) (hprogress hread)
    have hlength : 1 ≤ input.addCriteria.length ↔ input.addCriteria ≠ [] := List.length_pos_iff
    constructor
    · exact fun h ↦ hlength.mp h.1.1.2
    · exact fun h ↦ ⟨⟨⟨fun criterion hmem ↦ (hsettled.criteria criterion hmem).1, hlength.mpr h⟩,
        hsettled.annotationText⟩, rfl⟩
  | @reconciled run payload path head plan hfound hstart hfile hsame hgit =>
    obtain ⟨id, hread⟩ := lookupRun_read hfound
    obtain ⟨htaskIds, hremaining, hfingerprint⟩ := plan_settled hsound hfile
    apply mutationEvent_ok hsound (hsound.runs id run hread) (hnonblank (hsound.head head hgit)) (hprogress hread)
    refine iff_of_true ⟨⟨htaskIds, ?_, hfingerprint⟩, rfl⟩ trivial
    intro ids hids
    obtain rfl := Option.mem_some_iff.mp hids
    exact hremaining
  | @checkpointed id checkpoint hread hchecked =>
    obtain ⟨hhead, hmost, hsettlement⟩ := checkpoint_settled hsound hread hchecked
    refine mutationEvent_ok hsound (hsound.runs id _ hread) (hnonblank hhead) ?_ hsettlement
    intro n hn
    obtain rfl := Option.mem_some_iff.mp hn
    exact hmost
  | @createdLoop head objective hgit =>
    apply creation_ok hsound (hsound.head head hgit)
    intro hsession
    constructor
    · intro h
      refine ⟨hsession, fun s hs ↦ ?_⟩
      obtain rfl := Option.mem_some_iff.mp hs
      exact createdLoop_ok.mp h
    · exact fun h ↦ createdLoop_ok.mpr (h.2 objective rfl)
  | @createdStart head path plan payload hgit hfile happroved hplan =>
    obtain ⟨htaskIds, -, hfingerprint⟩ := plan_settled hsound hfile
    apply creation_ok hsound (hsound.head head hgit)
    intro hsession
    have hok : payload.plan.Ok ↔ trim payload.plan.canonicalPath ≠ "" ∧ trim payload.plan.displayPath ≠ "" := by
      rw [hplan, Plan.ok_iff]
      dsimp only
      simp only [hsound.planId, hsound.allowedRoot.1, hsound.allowedRoot.2, hfingerprint, htaskIds, ne_eq, not_false_eq_true,
        true_and, and_true]
    exact hok.trans (and_iff_right hsession).symm

theorem mutationEvent_named (hsound : Sound context) :
    (context.mutationEvent run mutation head generation key).version ≠ .v1 ∧
      isUuid (context.mutationEvent run mutation head generation key).eventId = true ∧
        LowerId (context.mutationEvent run mutation head generation key).eventId := by
  constructor
  · unfold CommandContext.mutationEvent
    dsimp only
    split
    · exact fun h ↦ by cases h
    · split
      · exact fun h ↦ by cases h
      · exact fun h ↦ by cases h
  · cases key with
    | none => exact ⟨hsound.newRunId, hsound.lowerNewRunId⟩
    | some key => exact eventId_named hsound _

theorem issued_named (hsound : Sound context) (h : Issues context event) :
    event.version ≠ .v1 ∧ isUuid event.eventId = true ∧ LowerId event.eventId := by
  cases h with
  | controlled | steered | reconciled | checkpointed => exact mutationEvent_named hsound
  | createdLoop | createdStart =>
    refine ⟨?_, hsound.newRunId, hsound.lowerNewRunId⟩
    intro h
    cases h

end Events

/-! Roots that a command ruins. -/

/-- Whatever happens to the root, its log is not read and no event is committed. -/
def Ruined (root : StateRoot) (disk : Disk) : Prop :=
  ∀ later, ReflTransGen (RootStep root) disk later → Lost later ∧
    ∀ options event deadline done session, exec (commit root options event) ⟨later, deadline⟩ ≠ (.ok (.ok done), session)

theorem ruined_iff {root : StateRoot} {disk : Disk} : Ruined root disk ↔ Lost disk := by
  constructor
  · exact fun h ↦ (h disk .refl).1
  · intro h later hsteps
    have hlost := h.forever hsteps
    exact ⟨hlost, fun _ _ _ _ _ ↦ hlost.refuses⟩

/-- A command that was answered has ruined its root just where its event is not legible: where it has steered a loop
without criteria, created one without an objective, or worked for a session without a name. -/
theorem command_ruins_iff {platform : PathPlatform} {context : WorkflowContext platform} {workflow : WorkflowKind}
    {operation : Operation} {event : PersistedStateEvent} {root : StateRoot} {options : CommitOptions}
    {deadline : Deadline} {disk : Disk} {run : AnyRun} {index : ActiveIndex} {session : Session} (hsound : Sound context)
    (h : context.execute workflow operation = .ok (.commits event))
    (hcommitted : exec (commit root options (.ofValue event)) ⟨disk, deadline⟩ =
      (.ok (.ok ⟨.committed, run, index⟩), session)) : Ruined root session.disk ↔ ¬ Legible event := by
  have hissues := execute_issues h
  obtain ⟨hversion, hid, hlower⟩ := issued_named hsound hissues
  rw [ruined_iff, committed_lost_iff hversion hid hcommitted, not_iff_not, ← issued_ok_iff hsound hissues]
  constructor
  · rintro ⟨read, hread⟩
    exact (read_written_iff.mp hread).1.1
  · exact fun hok ↦ ⟨event.tidy, read_written_iff.mpr ⟨⟨hok, rfl⟩, hlower⟩⟩

namespace Sample

def repo : AbsolutePath .posix :=
  State.Sample.named "repo".toList ⟨by decide, List.all_iff_forall_prop.mp (by decide)⟩

def steeringJson (criteria : List SteeredCriterion) : Json := .object
  [("version", .nat 1), ("runId", .string State.Sample.runId), ("expectedRevision", .nat 1),
    ("expectedHead", .string loopHead), ("idempotencyKey", .string "steer-1"),
    ("addCriteria", .array (criteria.map encodeSteeredCriterion))]

/-- A working tree whose files all have one text. -/
def steeringTree (criteria : List SteeredCriterion) : WorkingTree .posix where
  lower := State.Sample.lowered
  displayPath := repo
  isAbsolute := startsWith "/"
  resolve _ := repo
  realpath := some
  readFile _ := some "steering"
  parse _ := some (steeringJson criteria)

def hashedTexts : Platform :=
  { reviewPlatform with
    sha256 := Sha256.digest
    sha256_hex := fun text ↦ (matchesClasses_replicate.mp (Sha256.digest_hex text)).2 }

def steeringContext (criteria : List SteeredCriterion) : WorkflowContext .posix :=
  { loopContext with
    words := [State.Sample.runId, "steer.json"]
    deterministicEventId := deterministicEventId Sha256.digest
    tree := steeringTree criteria
    texts := hashedTexts
    canonicalRoot := ⟨"/repo", "/repo"⟩
    createdRunId := "22222222-2222-4222-8222-222222222222"
    planId := "33333333-3333-4333-8333-333333333333"
    lastIndex := State.Sample.index
    planIsApproved := fun _ ↦ false }

def loopCreation : PersistedStateEvent := { State.Sample.creation with mutation := .runCreated loopRun }

def loopDisk : Disk := (exec (commit State.Sample.root State.Sample.options (.ofValue loopCreation))
  ⟨State.Sample.initial, none⟩).2.disk

def steeringEvent (criteria : List SteeredCriterion) : PersistedStateEvent where
  version := .v2 (some loopHead) (some 1) false
  eventId := "7bce4dbf-e410-4e2e-84b2-e9384f013d97"
  sequence := 2
  runId := State.Sample.runId
  workflow := .ulwLoop
  kind := .workflowSteered
  expected := ⟨1, some 1, some "session", some 1⟩
  mutation := .workflowSteered criteria none
  atTime := State.Sample.now

def steeredRun (criteria : List SteeredCriterion) : AnyRun :=
  { loopRun with
    revision := 2
    transactionRevision := 2
    payload := .ulwLoop { State.Sample.payload with goals := steeredGoals "goal-1" criteria State.Sample.payload.goals } }

def steeredIndex (criteria : List SteeredCriterion) : ActiveIndex :=
  ⟨.v2 1, 2, [indexEntry (steeredRun criteria) 2 .active]⟩

theorem steering_sound (criteria : List SteeredCriterion) : Sound (steeringContext criteria) where
  index := (by decide : State.Sample.index.revision < maxSafeInteger)
  lastIndex := (by decide : State.Sample.index.revision < maxSafeInteger)
  runs := by
    intro id run hrun
    have hstored : (if id = State.Sample.runId then some loopRun else none) = some run := hrun
    split at hstored
    · obtain rfl := Option.some.inj hstored
      exact AnyRun.accepted_iff.mp (by decide)
    · cases hstored
  events := by
    intro id event hevent
    cases hevent
  entries := by
    intro id entry hentry
    obtain rfl := List.mem_singleton.mp hentry
    exact ⟨by decide, by decide, by decide, by decide⟩
  head := by
    intro head hhead
    obtain rfl := Except.ok.inj hhead
    decide
  eventIds := rfl
  newRunId := (by decide : isUuid State.Sample.runId = true)
  lowerNewRunId := (by decide : LowerId State.Sample.runId)
  createdRunId := (by decide : isUuid "22222222-2222-4222-8222-222222222222" = true)
  planId := (by decide : isUuid "33333333-3333-4333-8333-333333333333" = true)
  now := (by decide : isIsoDatetime State.Sample.now = true)
  sha256 := Sha256.digest_hex
  allowedRoot := (by decide : trim "/repo" ≠ "" ∧ trim "/repo" ≠ "")

end Sample

/-- A steering file without criteria. -/
theorem steering_ruins : ∃ session : Session, Ruined State.Sample.root session.disk ∧
    (Ruined State.Sample.root session.disk ↔ ¬ Legible (Sample.steeringEvent [])) := by
  have hexecute : (Sample.steeringContext []).execute .ulwLoop .steer = .ok (.commits (Sample.steeringEvent [])) := by
    decide +kernel
  have hcommitted : (exec (commit State.Sample.root State.Sample.options (.ofValue (Sample.steeringEvent [])))
      ⟨Sample.loopDisk, none⟩).1 = .ok (.ok ⟨.committed, Sample.steeredRun [], Sample.steeredIndex []⟩) := by
    decide +kernel
  generalize hexec : exec (commit State.Sample.root State.Sample.options (.ofValue (Sample.steeringEvent [])))
    ⟨Sample.loopDisk, none⟩ = result at hcommitted
  obtain ⟨outcome, session⟩ := result
  obtain rfl : outcome = _ := hcommitted
  have hruins := command_ruins_iff (Sample.steering_sound []) hexecute hexec
  exact ⟨session, hruins.mpr fun h ↦ h.mutation rfl, hruins⟩

end OmpLazy.Commands

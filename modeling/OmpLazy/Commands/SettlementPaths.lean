import OmpLazy.Commands.UlwCheckpoint
import OmpLazy.Continuation.AcceptedDecisions
import OmpLazy.State.EarnedProgress
import OmpLazy.State.RootHistory

/-! A criterion is settled by a checkpoint or by the coordinator, and the evidence is not the same. -/

namespace OmpLazy.Commands

open OmpLazy.Foundation OmpLazy.Foundation.Text OmpLazy.State OmpLazy.Continuation OmpLazy.Workflows
open PathRules CommandContext ReceiptAuthority

/-! Paths of receipts. -/

section Paths

variable {context : CommandContext} {runId : Uuid} {attempt : ℕ} {evidencePath : String}
  {entry : ScopedWorkerAcceptanceEvent}

theorem plain_uuid (h : isUuid runId = true) : Plain runId.toList := by
  have hlength := isUuid_length h
  refine ⟨?_, fun c hc ↦ ⟨?_, ?_⟩⟩
  · rintro (hnil | hdot | hdots)
    · rw [hnil] at hlength
      cases hlength
    · rw [hdot] at hlength
      cases hlength
    · rw [hdots] at hlength
      cases hlength
  · rintro rfl
    exact not_mem_of_isUuid h (by decide) hc
  · rintro rfl
    exact not_mem_of_isUuid h (by decide) hc

theorem plain_attempt (attempt : ℕ) : Plain (toString attempt).toList := by
  have hdigit : ∀ c ∈ (toString attempt).toList, c.isDigit = true := by
    intro c hc
    rw [Nat.toString_eq_ofList_toDigits, String.toList_ofList] at hc
    exact Nat.isDigit_of_mem_toDigits (by omega) (by omega) hc
  have hne : (toString attempt).toList ≠ [] := by
    rw [Nat.toString_eq_ofList_toDigits, String.toList_ofList]
    exact Nat.toDigits_ne_nil
  refine ⟨?_, fun c hc ↦ ⟨?_, ?_⟩⟩
  · rintro (hnil | hdot | hdots)
    · exact hne hnil
    · exact absurd (hdigit '.' (by rw [hdot]; decide)) (by decide)
    · exact absurd (hdigit '.' (by rw [hdots]; decide)) (by decide)
  · rintro rfl
    exact absurd (hdigit '/' hc) (by decide)
  · rintro rfl
    exact absurd (hdigit '\\' hc) (by decide)

theorem plain_evidenceNames (h : isUuid runId = true) (attempt : ℕ) :
    ∀ name ∈ evidenceNames runId attempt, Plain name := by
  intro name hname
  simp only [evidenceNames, List.map_cons, List.map_nil, List.mem_cons, List.not_mem_nil, or_false] at hname
  obtain rfl | rfl | rfl | rfl | rfl | rfl | rfl := hname
  · decide
  · decide
  · decide
  · exact plain_uuid h
  · decide
  · exact plain_attempt attempt
  · decide

/-- The path that leads to a receipt from the repository is not the path that the ledger has of it. -/
theorem leadsTo_ne (hrun : isUuid runId = true) (h : context.leadsTo runId evidencePath entry = true) :
    evidencePath ≠ entry.receiptPath := by
  rintro rfl
  have hplain := plain_evidenceNames hrun entry.attempt
  have hpath := of_decide_eq_true h
  rw [repositoryRelativePath, evidenceRootPath, join_plain hplain, join, List.flatMap_singleton] at hpath
  exact relative_ne (fun name hname ↦ redundancy_plain (hplain name hname)) (by simp [evidenceNames]) _ _ hpath

end Paths

/-! What a checkpoint commits. -/

section Checkpoints

variable {context : CommandContext} {checkpoint : Checkpoint}

/-- A checkpoint is of an acceptance to which its path leads. -/
structure Names (context : CommandContext) (checkpoint : Checkpoint) (entry : ScopedWorkerAcceptanceEvent) : Prop where
  mem : entry ∈ context.scopedEntries checkpoint.run.runId
  path : context.leadsTo checkpoint.run.runId checkpoint.settlement.evidenceRef entry = true
  acceptanceId : checkpoint.settlement.acceptanceId = some entry.idempotencyKey

theorem checkpointUlwRun_names (h : context.checkpointUlwRun = .ok checkpoint) :
    context.lookupRun .ulwLoop context.words[0]? false = .ok checkpoint.run ∧ ∃ entry, Names context checkpoint entry := by
  unfold checkpointUlwRun at h
  dsimp only at h
  split at h
  · cases h
  rename_i run hlookup
  split at h
  · cases h
  split at h
  · split at h
    · cases h
    rename_i entry hentry
    split at h
    · cases h
    split at h
    · cases h
    obtain rfl := Except.ok.inj h
    have hmatches := List.find?_some hentry
    simp only [Bool.and_eq_true] at hmatches
    exact ⟨hlookup, entry, List.mem_of_find?_eq_some hentry, hmatches.2, rfl⟩
  · cases h

end Checkpoints

/-! What a settlement leaves in the run. -/

section Settlements

variable {settlement settlement' : Settlement} {payload : UlwLoopPayload} {run : AnyRun}
  {event : PersistedStateEvent} {index : ActiveIndex} {authority : ReceiptAuthority}
  {prepared : PreparedTransition}

theorem settledCriteria_evidence {criteria : List Criterion} {criterion : Criterion} (hmem : criterion ∈ criteria)
    (hid : criterion.id = settlement'.criterionId)
    (h : updateCriterion settlement.criterionId (settledCriterion settlement) criteria =
      updateCriterion settlement'.criterionId (settledCriterion settlement') criteria) :
    criterion.status = .pass ∨ settlement.evidenceRef = settlement'.evidenceRef := by
  have hsame := List.map_inj_left.mp h criterion hmem
  rw [if_pos hid] at hsame
  split at hsame
  · exact Or.inr (Option.some.inj (congrArg Criterion.evidenceRef hsame))
  · exact Or.inl (congrArg Criterion.status hsame)

/-- What a settlement leaves says which evidence it was settled with. -/
theorem settledGoals_evidence (hpending : settlementPending payload settlement' = true)
    (h : settledGoals settlement payload.goals = settledGoals settlement' payload.goals) :
    settlement.evidenceRef = settlement'.evidenceRef := by
  obtain ⟨goal, hgoal, hid, criterion, hcriterion, hcriterionId, hstatus⟩ := settlementPending_eq_true hpending
  have hsame := List.map_inj_left.mp h goal hgoal
  rw [if_pos hid] at hsame
  split at hsame
  · obtain hpass | hevidence := settledCriteria_evidence hcriterion hcriterionId (congrArg Goal.criteria hsame)
    · exact absurd hpass hstatus
    · exact hevidence
  · have hcriteria := List.map_inj_left.mp ((List.map_id _).trans (congrArg Goal.criteria hsame)) criterion hcriterion
    dsimp only [id] at hcriteria
    rw [if_pos hcriterionId] at hcriteria
    exact absurd (congrArg Criterion.status hcriteria) hstatus

/-- A settlement that is accepted names the current acceptance of its criterion. -/
theorem prepared_settled (hlegacy : event.legacyUnbound = false) (hmutation : event.mutation = .criterionSettled settlement)
    (h : prepareTransition index (some run) event (some authority) = .ok prepared) :
    ∃ payload, run.payload = .ulwLoop payload ∧ settlementPending payload settlement = true ∧
      prepared.run.payload = .ulwLoop (settledPayload settlement payload) := by
  obtain ⟨-, -, next, hnext, -, -, rfl⟩ := prepareTransition_eq_ok.mp h
  obtain ⟨hcreated, -⟩ | ⟨current, hcurrent, -, -, -, -, -, -, hcontrol⟩ := nextRun_cases hnext
  · rw [hmutation] at hcreated
    cases hcreated
  · obtain rfl := Option.some.inj hcurrent
    have hsettle : settleCriterion run event settlement (some authority) = some next := by
      simpa [controlRun, hlegacy, controlMutation, reduceRuntimeProgress, hmutation] using hcontrol
    obtain ⟨payload, hpayload, ⟨hunbound, -⟩ | ⟨bound, -, -, hpending, rfl⟩⟩ := settleCriterion_eq_some.mp hsettle
    · rw [hlegacy] at hunbound
      cases hunbound
    · exact ⟨payload, hpayload, hpending, rfl⟩

end Settlements

/-! The two ways to settle. -/

section Agreement

variable {context : CommandContext} {leafId : String} {snapshot : ContinuationSnapshot} {proposal : Proposal}
  {settlement : Settlement}

/-- The coordinator would settle a criterion, with an acceptance of the run's revision and of the repository's head. -/
structure Settles (context : CommandContext) (leafId : String) (snapshot : ContinuationSnapshot) (proposal : Proposal)
    (settlement : Settlement) : Prop where
  decided : (decideContinuation context.sessionId leafId snapshot).proposal = some proposal
  mutation : proposal.mutation = .criterionSettled settlement
  index : snapshot.index = context.index
  stored : context.readRun proposal.run.runId = some proposal.run
  runId : isUuid proposal.run.runId = true
  ledger : (authorityFor snapshot proposal.run).accepted = context.scopedEntries proposal.run.runId
  keys : ((context.scopedEntries proposal.run.runId).map (·.idempotencyKey)).Nodup
  revision : settlement.captureRevision = proposal.run.revision
  head : context.git = .ok settlement.captureCommit

/-- The checkpoint of a criterion at a path settles it with the same acceptance, and leaves the same run. -/
def SettledAlike (context : CommandContext) (snapshot : ContinuationSnapshot) (proposal : Proposal)
    (settlement : Settlement) (evidencePath : String) (event : PersistedStateEvent) : Prop :=
  ∃ checkpoint prepared prepared',
    { context with words := [proposal.run.runId, settlement.criterionId, evidencePath] }.checkpointUlwRun =
        .ok checkpoint ∧
      checkpoint.settlement.acceptanceId = settlement.acceptanceId ∧
      prepareTransition context.index (some proposal.run) (context.checkpointEvent checkpoint)
        (some (authorityFor snapshot proposal.run)) = .ok prepared ∧
      prepareTransition context.index (some proposal.run) event (some (authorityFor snapshot proposal.run)) =
        .ok prepared' ∧
      prepared.run = prepared'.run

/-- The event of a command is bound to its head, whether or not it was committed before. -/
theorem mutationEvent_bound (context : CommandContext) (run : AnyRun) (mutation : StateMutation)
    (expectedHead : Option String) (taskGeneration : Option ℕ) (idempotencyKey : Option String) :
    (context.mutationEvent run mutation expectedHead taskGeneration idempotencyKey).legacyUnbound = false := by
  unfold mutationEvent PersistedStateEvent.legacyUnbound
  dsimp only
  generalize (idempotencyKey.bind fun _ ↦ context.readEvent _) = existing
  cases existing with
  | none => rfl
  | some event => cases hversion : event.version <;> simp only [hversion]

theorem proposal_bound (proposal : Proposal) (index : ActiveIndex) (eventId : Uuid) (atTime : String) :
    (proposal.event index eventId atTime).legacyUnbound = false := by
  unfold Proposal.event PersistedStateEvent.legacyUnbound Proposal.version
  cases proposal.run.version <;> rfl

theorem lookupRun_eq_ok {runId : Uuid} {stored run : AnyRun} {workflow : WorkflowKind} {adoption : Bool}
    (hstored : context.readRun runId = some stored)
    (h : context.lookupRun workflow (some runId) adoption = .ok run) : run = stored := by
  rw [lookupRun, hstored] at h
  dsimp only at h
  split at h
  · cases h
  split at h
  · cases h
  exact (Except.ok.inj h).symm

/-- The evidence of the coordinator is the path that the ledger has of the receipt. -/
theorem settles_evidence (h : Settles context leafId snapshot proposal settlement) :
    ∃ entry ∈ context.scopedEntries proposal.run.runId, settlement.acceptanceId = some entry.idempotencyKey ∧
      settlement.evidenceRef = entry.receiptPath := by
  have hproposal := h.decided
  have hdecision : decideContinuation context.sessionId leafId snapshot ≠ .quiet := by
    intro hquiet
    rw [hquiet] at hproposal
    cases hproposal
  obtain ⟨-, run, hdecided⟩ := decideContinuation_decided hdecision
  have hwarranted := hdecided.warranted
  generalize decideContinuation context.sessionId leafId snapshot = decision at hproposal hwarranted
  have hmutation := h.mutation
  cases hwarranted with
  | criterion hpayload hgoal hcriterion hsettlement =>
    obtain rfl := Option.some.inj hproposal
    obtain rfl := StateMutation.criterionSettled.inj hmutation
    obtain ⟨entry, hentry, rfl⟩ := Option.map_eq_some_iff.mp hsettlement
    have hmem := (currentAcceptance_eq_some hentry).1
    rw [h.ledger] at hmem
    exact ⟨entry, hmem, rfl, rfl⟩
  | completed | exhausted | evidence | stuck | continued =>
    obtain rfl := Option.some.inj hproposal
    cases hmutation

/-- A criterion that is settled by a checkpoint is never settled as the coordinator would settle it. -/
theorem checkpoint_differs (h : Settles context leafId snapshot proposal settlement) (evidencePath : String)
    (eventId : Uuid) (atTime : String) :
    ¬ SettledAlike context snapshot proposal settlement evidencePath
      (proposal.event context.index eventId atTime) := by
  rintro ⟨checkpoint, prepared, prepared', hcheckpoint, hacceptance, hprepared, hprepared', hrun⟩
  obtain ⟨hlookup, entry, hnames⟩ := checkpointUlwRun_names hcheckpoint
  obtain ⟨entry', hentry', hacceptance', hevidence'⟩ := settles_evidence h
  have hcheckpointRun : checkpoint.run = proposal.run := lookupRun_eq_ok h.stored hlookup
  have hentry : entry ∈ context.scopedEntries proposal.run.runId := hcheckpointRun ▸ hnames.mem
  have hkey : entry.idempotencyKey = entry'.idempotencyKey :=
    Option.some.inj (hnames.acceptanceId.symm.trans (hacceptance.trans hacceptance'))
  obtain rfl := List.inj_on_of_nodup_map h.keys hentry hentry' hkey
  have hne : checkpoint.settlement.evidenceRef ≠ settlement.evidenceRef := by
    rw [hevidence']
    exact leadsTo_ne (hcheckpointRun ▸ h.runId) hnames.path
  have hbound : (context.checkpointEvent checkpoint).legacyUnbound = false := mutationEvent_bound ..
  obtain ⟨payload, hpayload, -, hsettled⟩ := prepared_settled hbound rfl hprepared
  obtain ⟨payload', hpayload', hpending', hsettled'⟩ :=
    prepared_settled (proposal_bound proposal context.index eventId atTime) h.mutation hprepared'
  obtain rfl := Payload.ulwLoop.inj (hpayload.symm.trans hpayload')
  rw [hrun, hsettled'] at hsettled
  have hgoals := congrArg UlwLoopPayload.goals (Payload.ulwLoop.inj hsettled)
  exact hne (settledGoals_evidence hpending' hgoals.symm)

/-! A loop whose only criterion has one acceptance. -/

namespace Sample

def loopHead : String := String.ofList (List.replicate 40 'a')

def loopRun : AnyRun := { State.Sample.run with version := .v2 none (some loopHead) }

def loopAcceptance : ScopedWorkerAcceptanceEvent := { State.Sample.acceptance with captureCommit := loopHead }

def loopSnapshot : ContinuationSnapshot where
  index := State.Sample.index
  runs := [loopRun]
  plans := []
  authorities := [⟨State.Sample.runId, ⟨1, [loopAcceptance], []⟩⟩]

def loopContext : CommandContext where
  sessionId := "session"
  words := []
  rules := .posix
  root := ["repo".toList]
  index := State.Sample.index
  readRun := fun runId ↦ if runId = State.Sample.runId then some loopRun else none
  readEvent := fun _ ↦ none
  scopedEntries := fun _ ↦ [loopAcceptance]
  git := .ok loopHead
  deterministicEventId := fun _ ↦ State.Sample.eventId
  newRunId := State.Sample.runId
  nowIso := State.Sample.now

def loopSettlement : Settlement where
  goalId := "goal-1"
  criterionId := "criterion-1"
  acceptanceId := some "acceptance-1"
  evidenceRef := "receipts/1.json"
  captureRevision := 1
  captureCommit := loopHead

def loopProposal : Proposal := ⟨loopRun, .criterionSettled loopSettlement, some 1⟩

def receiptPath : String :=
  ".omo/omp-lazy/runs/11111111-1111-4111-8111-111111111111/attempts/1/evidence/receipts/1.json"

def checkpointAt (evidencePath : String) : Except String Checkpoint :=
  { loopContext with words := [State.Sample.runId, "criterion-1", evidencePath] }.checkpointUlwRun

def loopCheckpoint : Checkpoint where
  run := loopRun
  settlement := { loopSettlement with evidenceRef := receiptPath }
  expectedHead := loopHead
  taskGeneration := 1
  idempotencyKey := "acceptance-1"

def evidenceRefs (run : AnyRun) : List (Option String) :=
  match run.payload with
  | .startWork _ => []
  | .ulwLoop payload => payload.goals.flatMap fun goal ↦ goal.criteria.map (·.evidenceRef)

theorem loop_settles : Settles loopContext "leaf" loopSnapshot loopProposal loopSettlement where
  decided := by decide
  mutation := rfl
  index := rfl
  stored := by decide
  runId := by decide
  ledger := by decide
  keys := by decide
  revision := rfl
  head := rfl

end Sample

theorem evidence_differs : Settles Sample.loopContext "leaf" Sample.loopSnapshot Sample.loopProposal Sample.loopSettlement ∧
    Sample.checkpointAt "receipts/1.json" = .error "task_scope_mismatch" ∧
    ∃ checkpoint prepared prepared', Sample.checkpointAt Sample.receiptPath = .ok checkpoint ∧
      checkpoint.settlement.acceptanceId = Sample.loopSettlement.acceptanceId ∧
      prepareTransition State.Sample.index (some Sample.loopRun) (Sample.loopContext.checkpointEvent checkpoint)
        (some (authorityFor Sample.loopSnapshot Sample.loopRun)) = .ok prepared ∧
      prepareTransition State.Sample.index (some Sample.loopRun)
        (Sample.loopProposal.event State.Sample.index State.Sample.eventId State.Sample.now)
        (some (authorityFor Sample.loopSnapshot Sample.loopRun)) = .ok prepared' ∧
      prepared.run ≠ prepared'.run := by
  obtain ⟨prepared, hprepared, hrefs⟩ : ∃ prepared,
      prepareTransition State.Sample.index (some Sample.loopRun)
        (Sample.loopContext.checkpointEvent Sample.loopCheckpoint)
        (some (authorityFor Sample.loopSnapshot Sample.loopRun)) = .ok prepared ∧
          Sample.evidenceRefs prepared.run = [some Sample.receiptPath] := ⟨_, rfl, rfl⟩
  obtain ⟨prepared', hprepared', hrefs'⟩ : ∃ prepared',
      prepareTransition State.Sample.index (some Sample.loopRun)
        (Sample.loopProposal.event State.Sample.index State.Sample.eventId State.Sample.now)
        (some (authorityFor Sample.loopSnapshot Sample.loopRun)) = .ok prepared' ∧
          Sample.evidenceRefs prepared'.run = [some "receipts/1.json"] := ⟨_, rfl, rfl⟩
  have hcheckpoint : Sample.checkpointAt Sample.receiptPath = .ok Sample.loopCheckpoint := by decide
  refine ⟨Sample.loop_settles, by decide, Sample.loopCheckpoint, prepared, prepared', hcheckpoint, rfl, hprepared,
    hprepared', fun hrun ↦ ?_⟩
  rw [hrun, hrefs'] at hrefs
  exact absurd hrefs (by decide)

theorem checkpoint_differs_loop : ¬ SettledAlike Sample.loopContext Sample.loopSnapshot Sample.loopProposal
    Sample.loopSettlement Sample.receiptPath
      (Sample.loopProposal.event State.Sample.index State.Sample.eventId State.Sample.now) :=
  checkpoint_differs Sample.loop_settles Sample.receiptPath State.Sample.eventId State.Sample.now

end Agreement

end OmpLazy.Commands

import OmpLazy.Continuation.DecisionLaws
import OmpLazy.Continuation.RegisterSessionStop
import OmpLazy.State.IndexClosure

namespace OmpLazy.Continuation

open OmpLazy.Foundation OmpLazy.Foundation.Schema OmpLazy.State Action

section Coordinating

variable {root : StateRoot} {dependencies : CoordinatorDependencies} {request : CoordinatorRequest}
  {disk : Disk}

/-- Whatever the fence says, the files are the same. -/
theorem fenced {α : Type} {stopped : Session → Prop} {post : α → Session → Prop} {late next : Store α}
    (hlate : Triple (·.disk = disk) late post stopped) (hnext : Triple (·.disk = disk) next post stopped) :
    Triple (·.disk = disk) (do if !(← Store.isValid) then late else next) post stopped := by
  have hvalid : Triple (·.disk = disk) Store.isValid (fun _ s ↦ s.disk = disk) stopped := by
    rintro ⟨_, deadline⟩ rfl
    cases deadline with
    | none => rfl
    | some n => cases n <;> rfl
  exact Triple.seq hvalid fun _ ↦ Triple.branch (fun _ ↦ hlate) fun _ ↦ hnext

/-- A step that reads something from the files. -/
theorem reading {α β : Type} (read : Disk → Except Thrown α) {post : β → Session → Prop}
    {next : α → Store β}
    (hnext : ∀ x, read disk = .ok x → Triple (·.disk = disk) (next x) post fun _ ↦ True) :
    Triple (·.disk = disk) (do let x ← liftExcept (read (← get).disk); next x) post fun _ ↦ True := by
  rintro s rfl
  simp only [exec_bind, exec_get]
  cases hread : read s.disk with
  | ok x => exact hnext x hread s rfl
  | error error => trivial

theorem observePlans_keeps {readPlan : String → Option Workflows.PlanSnapshot} (runs : List AnyRun) :
    Triple (·.disk = disk) (observePlans readPlan runs) (fun _ s ↦ s.disk = disk) fun _ ↦ True := by
  induction runs with
  | nil => exact Triple.ret fun _ hs ↦ hs
  | cons run runs ih =>
    unfold observePlans
    split
    · exact ih
    · refine fenced (Triple.ret fun _ hs ↦ hs) ?_
      exact Triple.seq ih fun _ ↦ Triple.ret fun _ hs ↦ hs

/-- Reading leaves the files alone, and the index of the snapshot is that of the files. -/
theorem readSnapshot_keeps (root : StateRoot) (dependencies : CoordinatorDependencies)
    (request : CoordinatorRequest) (disk : Disk) :
    Triple (·.disk = disk) (readSnapshot root dependencies request)
      (fun read s ↦ s.disk = disk ∧ ∀ snapshot ∈ read, readIndex disk = .ok snapshot.index)
      fun _ ↦ True := by
  have hnone : Triple (·.disk = disk) (pure none : Store (Option ContinuationSnapshot))
      (fun read s ↦ s.disk = disk ∧ ∀ snapshot ∈ read, readIndex disk = .ok snapshot.index)
      fun _ ↦ True := Triple.ret fun _ hs ↦ ⟨hs, by simp⟩
  unfold readSnapshot
  refine fenced hnone (fenced hnone (reading readIndex fun index hindex ↦ ?_))
  refine fenced hnone (reading (loadRuns root · index request.sessionId) fun runs _ ↦ ?_)
  refine fenced hnone (reading (loadAuthorities · runs) fun authorities _ ↦ ?_)
  refine fenced hnone (Triple.seq (observePlans_keeps runs) fun plans ↦ ?_)
  cases plans with
  | none => exact hnone
  | some plans => exact Triple.ret fun _ hs ↦ ⟨hs, by simpa using hindex⟩

/-- The coordinator can read this snapshot from the files. -/
def ReadsSnapshot (root : StateRoot) (dependencies : CoordinatorDependencies) (request : CoordinatorRequest)
    (disk : Disk) (snapshot : ContinuationSnapshot) : Prop :=
  ∃ s t, s.disk = disk ∧ exec (readSnapshot root dependencies request) s = (.ok (some snapshot), t)

theorem ReadsSnapshot.index {snapshot : ContinuationSnapshot}
    (h : ReadsSnapshot root dependencies request disk snapshot) : readIndex disk = .ok snapshot.index := by
  obtain ⟨s, t, hs, hread⟩ := h
  have hkeeps := readSnapshot_keeps root dependencies request disk s hs
  rw [hread] at hkeeps
  exact hkeeps.2 snapshot rfl

/-- A decision stands when its event was committed and confirmed. -/
inductive Stands (root : StateRoot) (dependencies : CoordinatorDependencies) (request : CoordinatorRequest)
    (disk : Disk) (index : ActiveIndex) (decision : ContinuationDecision) :
    ContinuationDecision → Disk → Prop
  | quiet (after : Disk) : Stands root dependencies request disk index decision .quiet after
  | confirmed {proposal : Proposal} {committed : Committed} {s t : Session}
      (hproposal : decision.proposal = some proposal) (hdisk : s.disk = disk)
      (hcommit : exec (commit root dependencies.commit
        (coordinatorObject (proposal.event index dependencies.eventId dependencies.nowIso))) s =
          (.ok (.ok committed), t))
      (hconfirms : confirms request (proposal.event index dependencies.eventId dependencies.nowIso)
        decision.continues committed = true) :
      Stands root dependencies request disk index decision decision t.disk

theorem commitDecision_stands (index : ActiveIndex) (decision : ContinuationDecision) :
    Triple (·.disk = disk) (commitDecision root dependencies request index decision)
      (fun standing s ↦ Stands root dependencies request disk index decision standing s.disk)
      fun _ ↦ True := by
  have hquiet : Triple (·.disk = disk) (pure .quiet : Store ContinuationDecision)
      (fun standing s ↦ Stands root dependencies request disk index decision standing s.disk)
      fun _ ↦ True := Triple.ret fun s _ ↦ .quiet s.disk
  unfold commitDecision
  cases hproposal : decision.proposal with
  | none => exact hquiet
  | some proposal =>
    refine fenced hquiet (fenced hquiet (Triple.seq Triple.executed fun result ↦ ?_))
    cases result with
    | error code => exact Triple.ret fun s _ ↦ .quiet s.disk
    | ok committed =>
      intro t ht
      obtain ⟨s, hdisk, hcommit⟩ := ht
      refine fenced (Triple.ret fun u _ ↦ .quiet u.disk) ?_ t rfl
      refine Triple.branch (fun hconfirms ↦ Triple.ret fun u hu ↦ ?_) fun _ ↦ Triple.ret fun u _ ↦ .quiet u.disk
      rw [hu]
      exact .confirmed hproposal hdisk hcommit hconfirms

/-- What stands is a decision on a snapshot that was read from the files. -/
theorem coordinate_stands :
    Triple (·.disk = disk) (coordinate root dependencies request)
      (fun standing s ↦ standing = .quiet ∨ ∃ snapshot, ReadsSnapshot root dependencies request disk snapshot ∧
        readIndex disk = .ok snapshot.index ∧ Stands root dependencies request disk snapshot.index
          (decideContinuation request.sessionId request.leafId snapshot) standing s.disk)
      fun _ ↦ True := by
  refine Triple.seq (readSnapshot_keeps _ _ _ _).traced fun read ↦ ?_
  cases read with
  | none => exact Triple.ret fun _ _ ↦ .inl rfl
  | some snapshot =>
    rintro t ⟨⟨rfl, hindex⟩, s, hs, hread⟩
    refine Triple.weaken (commitDecision_stands _ _) (fun standing u hstands ↦ .inr ?_) t rfl
    exact ⟨snapshot, ⟨s, t, hs, hread⟩, hindex snapshot rfl, hstands⟩

end Coordinating

/-- No other run of the session is in the index. -/
def SoleRun (index : ActiveIndex) (sessionId : String) (runId : Uuid) : Prop :=
  ∀ entry ∈ index.entries, entry.sessionId = sessionId → entry.runId = runId

section Resolving

variable {root : StateRoot} {dependencies : CoordinatorDependencies} {request : CoordinatorRequest}
  {disk after : Disk} {index : ActiveIndex} {sessionId : String} {runId : Uuid} {resolved : Option Uuid}

theorem resolveActiveRunId_sole (hindex : readIndex disk = .ok index) (hsole : SoleRun index sessionId runId)
    (hentry : ∃ entry ∈ index.entries, entry.sessionId = sessionId)
    (hresolved : resolveActiveRunId disk sessionId = .ok resolved) : resolved = some runId := by
  rw [resolveActiveRunId, hindex] at hresolved
  obtain rfl := Except.ok.inj hresolved
  obtain ⟨entry, hmem, hsession⟩ := hentry
  obtain ⟨found, hfound⟩ := Option.isSome_iff_exists.mp
    (List.find?_isSome.mpr ⟨entry, hmem, by simpa using hsession⟩ :
      (index.entries.find? (·.sessionId = sessionId)).isSome)
  have hkey : found.sessionId = sessionId := by simpa using List.find?_some hfound
  rw [hfound, Option.map_some, hsole found (List.mem_of_find?_eq_some hfound) hkey]

theorem readIndex_of_resolved (h : resolveActiveRunId disk sessionId = .ok resolved) :
    ∃ index, readIndex disk = .ok index := by
  obtain ⟨index, hindex, -⟩ := bind_eq_ok.mp h
  exact ⟨index, hindex⟩

/-- An index that was read is tidy. -/
theorem tidy_of_readIndex (h : readIndex disk = .ok index) : ∀ entry ∈ index.entries, entry.tidy = entry := by
  have htidy := (ActiveIndex.reads.settled _ _ (readIndex_settled h).1).2
  exact map_eq_self.mp (congrArg (·.entries) htidy)

theorem Stands.decision {decision standing : ContinuationDecision}
    (h : Stands root dependencies request disk index decision standing after) (hquiet : standing ≠ .quiet) :
    decision = standing := by
  cases h with
  | quiet => exact absurd rfl hquiet
  | confirmed => rfl

/-- The run that is continued has an entry in the index. -/
theorem entry_of_continued {leafId additionalContext : String} {snapshot : ContinuationSnapshot}
    {run : AnyRun} {mutation : StateMutation}
    (h : decideContinuation sessionId leafId snapshot = .continued run additionalContext mutation) :
    ∃ entry ∈ snapshot.index.entries, entry.sessionId = sessionId ∧ entry.runId = run.runId := by
  obtain ⟨-, found, ⟨workflow, hfound⟩, -, hwarranted⟩ := decideContinuation_decided (by rw [h]; simp)
  obtain ⟨-, entry, hmem, hid, -, -, hsession⟩ := resolveWorkflow_found hfound
  rw [h] at hwarranted
  cases hwarranted with
  | continued => exact ⟨entry, hmem, hsession, hid⟩

/-- What is read of an index that was written. -/
theorem readIndex_written {written : ActiveIndex} (h : readIndex (disk.writeIndex written) = .ok index) :
    index = written.tidy := by
  rw [readIndex_writeIndex, mapError_eq_ok] at h
  obtain ⟨json, hjson, hschema, -⟩ := decodeActiveIndex_eq_ok.mp h
  obtain rfl := Option.some.inj hjson
  exact ((ActiveIndex.reads.encoded _ _).mp hschema).2.symm

/-- The entries of a session after one of its runs was updated. -/
theorem soleRun_derived {run : AnyRun} {sequence : ℕ} (htidy : ∀ entry ∈ index.entries, entry.tidy = entry)
    (hsole : SoleRun index sessionId run.runId) :
    SoleRun (deriveIndex index run sequence).tidy sessionId run.runId := by
  intro entry hmem hsession
  obtain ⟨written, hwritten, rfl⟩ := List.mem_map.mp hmem
  obtain hold | hnew := List.mem_append.mp hwritten
  · have hmemOld := List.mem_of_mem_filter hold
    rw [htidy written hmemOld] at hsession ⊢
    exact hsole written hmemOld hsession
  · obtain ⟨hint, -, rfl⟩ := Option.map_eq_some_iff.mp (Option.mem_toList.mp hnew)
    rfl

/-- The entry of the run that was updated. -/
theorem session_derived {run : AnyRun} {sequence : ℕ} {entry : ActiveIndexEntry}
    (hentry : (deriveIndex index run sequence).entries.find? (·.runId = run.runId) = some entry) :
    ∃ entry ∈ (deriveIndex index run sequence).tidy.entries,
      entry.sessionId = Text.trim run.owner.sessionId := by
  have hmem := List.mem_of_find?_eq_some hentry
  have hid : entry.runId = run.runId := by simpa using List.find?_some hentry
  obtain hold | hnew := List.mem_append.mp hmem
  · have hother := (List.mem_filter.mp hold).2
    exact absurd hid (by simpa using hother)
  · refine ⟨entry.tidy, List.mem_map_of_mem hmem, ?_⟩
    obtain ⟨hint, -, rfl⟩ := Option.map_eq_some_iff.mp (Option.mem_toList.mp hnew)
    rfl

/-- When no other run of the session is in the index, the run that is found after the commit is the one
that is continued. -/
theorem resolved_of_stands {run : AnyRun} {additionalContext : String} {mutation : StateMutation}
    {decision : ContinuationDecision} (hindex : readIndex disk = .ok index)
    (hentry : ∃ entry ∈ index.entries, entry.sessionId = request.sessionId)
    (hstands : Stands root dependencies request disk index decision
      (.continued run additionalContext mutation) after)
    (hsole : SoleRun index request.sessionId run.runId)
    (hresolved : resolveActiveRunId after request.sessionId = .ok resolved) : resolved = some run.runId := by
  have htidy := tidy_of_readIndex hindex
  cases hstands with
  | @confirmed proposal committed s t hproposal hdisk hcommit hconfirms =>
    obtain rfl := Option.some.inj hproposal
    obtain ⟨s, deadline⟩ := s
    obtain rfl : s = disk := hdisk
    obtain ⟨hsame, -⟩ | ⟨-, before, events, current, authority, prepared, hadmits, hpublished⟩ :=
      commit_cases hcommit
    · -- a replay has written nothing
      rw [hsame] at hresolved
      exact resolveActiveRunId_sole hindex hsole hentry hresolved
    · obtain rfl := Except.ok.inj (hindex.symm.trans hadmits.hindex)
      obtain ⟨rfl, -, hwritten⟩ := hpublished.done rfl
      obtain ⟨source, -, hid, -, hderived, -, -⟩ := prepared_cases hadmits.hprepared
      have hrun : prepared.run.runId = run.runId := by
        rw [hid]
        simp [coordinatorObject, Proposal.event]
      simp only [confirms, ContinuationDecision.continues, Bool.and_eq_true, decide_eq_true_eq,
        Bool.not_true, Bool.false_or] at hconfirms
      obtain ⟨⟨⟨-, howner⟩, -⟩, hconfirmed⟩ := hconfirms
      obtain ⟨entry, hfound, -⟩ := Option.map_eq_some_iff.mp hconfirmed
      obtain ⟨old, hold, hsession⟩ := hentry
      have htrimmed : Text.trim request.sessionId = request.sessionId := by
        have hsame := congrArg (·.sessionId) (htidy old hold)
        simpa [ActiveIndexEntry.tidy, hsession] using hsame
      obtain ⟨next, hnext⟩ := readIndex_of_resolved hresolved
      obtain rfl := readIndex_written (hwritten ▸ hnext)
      have hsoleNext : SoleRun prepared.index.tidy request.sessionId run.runId := by
        rw [hderived, ← hrun]
        exact soleRun_derived htidy (hrun ▸ hsole)
      have hentryNext : ∃ entry ∈ prepared.index.tidy.entries, entry.sessionId = request.sessionId := by
        change prepared.index.entries.find? (·.runId = run.runId) = some entry at hfound
        rw [hderived, ← hrun] at hfound
        rw [hderived, ← htrimmed, ← howner]
        exact session_derived hfound
      exact resolveActiveRunId_sole hnext hsoleNext hentryNext hresolved

end Resolving

def StopOutcome.charge : StopOutcome → Option Charge
  | .silent => none
  | .charged charge => some charge
  | .emitted charge _ => some charge

section Stopping

variable {root : StateRoot} {environment : StopEnvironment} {input : SessionStopInput} {disk : Disk}
  {counters : String → Option Bytes}

/-- The files and the counters as they are before a step. -/
def Standing (disk : Disk) (counters : String → Option Bytes) (s : StopSession) : Prop :=
  s.session.disk = disk ∧ s.counters = counters

/-- An action of the store leaves the counters alone. -/
theorem onStore_keeps {α : Type} {action : Store α} {post : α → Session → Prop} {stopped : Session → Prop}
    (h : Triple (·.disk = disk) action post stopped) :
    Triple (Standing disk counters) (onStore action) (fun x s ↦ post x s.session ∧ s.counters = counters)
      (·.counters = counters) := by
  rintro s ⟨hdisk, hcounters⟩
  have haction := h s.session hdisk
  simp only [onStore, exec_bind, exec_get]
  cases hexec : exec action s.session with
  | mk outcome session =>
    rw [hexec] at haction
    cases outcome with
    | ok value => exact ⟨haction, hcounters⟩
    | error error => exact hcounters

theorem stopFenced {α : Type} {post : α → StopSession → Prop} {stopped : StopSession → Prop}
    {late next : StopAction α} (hlate : Triple (Standing disk counters) late post stopped)
    (hnext : Triple (Standing disk counters) next post stopped) :
    Triple (Standing disk counters) (do if !(← fenceValid) then late else next) post stopped := by
  have hvalid : Triple (Standing disk counters) fenceValid (fun _ ↦ Standing disk counters) stopped := by
    rintro ⟨⟨_, deadline⟩, _⟩ ⟨rfl, rfl⟩
    cases deadline with
    | none => exact ⟨rfl, rfl⟩
    | some n => cases n <;> exact ⟨rfl, rfl⟩
  exact Triple.seq hvalid fun _ ↦ Triple.branch (fun _ ↦ hlate) fun _ ↦ hnext

theorem stopReading {α β : Type} (read : Disk → Except Thrown α) {post : β → StopSession → Prop}
    {next : α → StopAction β} (hnext : ∀ x, read disk = .ok x →
      Triple (Standing disk counters) (next x) post (·.counters = counters)) :
    Triple (Standing disk counters) (do let x ← onStore (liftExcept (read (← get).session.disk)); next x)
      post (·.counters = counters) := by
  rintro s ⟨rfl, hcounters⟩
  simp only [exec_bind, exec_get, onStore]
  cases hread : read s.session.disk with
  | ok x => exact hnext x hread s ⟨rfl, hcounters⟩
  | error error => exact hcounters

theorem readCounter_reads (sessionId : String) :
    Triple (Standing disk counters) (readCounter sessionId)
      (fun counter s ↦ Standing disk counters s ∧ counter = readContinuationCounter (counters sessionId))
      (·.counters = counters) := by
  rintro s ⟨hdisk, rfl⟩
  by_cases hid : isValidLifecycleId sessionId = true
  · simp only [readCounter, hid, Bool.not_true, Bool.false_eq_true, if_false, exec_bind, exec_get, exec_pure]
    exact ⟨⟨hdisk, rfl⟩, trivial⟩
  · simp only [readCounter, hid, Bool.not_false, if_true, exec_bind, exec_throw]

/-- The counters with a new one for the session. -/
def written (counters : String → Option Bytes) (sessionId : String) (counter : ContinuationCounter) :
    String → Option Bytes :=
  Function.update counters sessionId (some (stringify (encodeCounter counter)))

/-- What the budget check can do to the counters. -/
inductive Billed (disk : Disk) (counters : String → Option Bytes) (sessionId : String) (turnId : ℤ)
    (run : Uuid) : Option Charge → (String → Option Bytes) → Prop
  | unchanged : Billed disk counters sessionId turnId run none counters
  | exhausted {runId : String}
      (hbudget : checkBudget (readContinuationCounter (counters sessionId)) runId turnId = .exhausted) :
      Billed disk counters sessionId turnId run none (written counters sessionId
        (exhaustedCounter (readContinuationCounter (counters sessionId)) sessionId runId turnId))
  | charged {resolved : Option Uuid} {runId : String}
      (hresolved : resolveActiveRunId disk sessionId = .ok resolved) (hrun : resolved.getD "unknown" = runId)
      (hbudget : checkBudget (readContinuationCounter (counters sessionId)) runId turnId = .allowed) :
      Billed disk counters sessionId turnId run (some ⟨run, runId⟩) (written counters sessionId
        (incrementCounter (readContinuationCounter (counters sessionId)) sessionId runId turnId))

theorem chargeBudget_billed (sessionId : String) (turnId : ℤ) (run : Uuid) :
    Triple (Standing disk counters) (chargeBudget sessionId turnId run)
      (fun charge s ↦ Billed disk counters sessionId turnId run charge s.counters)
      (·.counters = counters) := by
  have hnone : Triple (Standing disk counters) (pure none : StopAction (Option Charge))
      (fun charge s ↦ Billed disk counters sessionId turnId run charge s.counters)
      (·.counters = counters) := Triple.ret fun s hs ↦ by
    rw [hs.2]
    exact .unchanged
  unfold chargeBudget
  refine stopFenced hnone (stopReading (resolveActiveRunId · sessionId) fun resolved hresolved ↦ ?_)
  refine stopFenced hnone (Triple.seq (readCounter_reads sessionId) fun counter ↦ ?_)
  rintro s ⟨hs, rfl⟩
  refine stopFenced hnone ?_ s hs
  split
  · rintro t ⟨-, rfl⟩
    exact .exhausted ‹_›
  · rintro t ⟨-, rfl⟩
    exact .charged hresolved rfl ‹_›

theorem emit_charges (suppresses : Bool) (charge : Charge) (additionalContext : String)
    {stopped : StopSession → Prop} :
    Triple (Standing disk counters) (emit suppresses charge additionalContext)
      (fun outcome s ↦ outcome.charge = some charge ∧ s.counters = counters) stopped := by
  have hcharged : Triple (Standing disk counters) (pure (.charged charge) : StopAction StopOutcome)
      (fun outcome s ↦ outcome.charge = some charge ∧ s.counters = counters) stopped :=
    Triple.ret fun s hs ↦ ⟨rfl, hs.2⟩
  refine stopFenced hcharged (Triple.branch (fun _ ↦ hcharged) fun _ ↦ stopFenced hcharged ?_)
  exact Triple.ret fun s hs ↦ ⟨rfl, hs.2⟩

/-- A charge is for a run that the coordinator continues on what it has read, and goes to that run
if no other run of the session is in the index. -/
structure Warrants (root : StateRoot) (environment : StopEnvironment) (input : SessionStopInput)
    (disk : Disk) (charge : Charge) : Prop where
  decided : ∃ snapshot run additionalContext mutation,
    ReadsSnapshot root environment.dependencies input.request disk snapshot ∧
      decideContinuation input.request.sessionId input.request.leafId snapshot =
        .continued run additionalContext mutation ∧
      charge.run = run.runId ∧ (SoleRun snapshot.index input.sessionId run.runId → charge.charged = run.runId)

/-- What an edge can do to the counters. -/
inductive Stopped (root : StateRoot) (environment : StopEnvironment) (input : SessionStopInput)
    (disk : Disk) (counters : String → Option Bytes) : StopOutcome → (String → Option Bytes) → Prop
  | silent : Stopped root environment input disk counters .silent counters
  | exhausted {runId : String} (hbudget : checkBudget (readContinuationCounter (counters input.sessionId))
      runId input.diagnosticTurnId = .exhausted) :
      Stopped root environment input disk counters .silent (written counters input.sessionId
        (exhaustedCounter (readContinuationCounter (counters input.sessionId)) input.sessionId runId
          input.diagnosticTurnId))
  | charged {outcome : StopOutcome} {charge : Charge} (hcharge : outcome.charge = some charge)
      (hwarrants : Warrants root environment input disk charge)
      (hbudget : checkBudget (readContinuationCounter (counters input.sessionId)) charge.charged
        input.diagnosticTurnId = .allowed) :
      Stopped root environment input disk counters outcome (written counters input.sessionId
        (incrementCounter (readContinuationCounter (counters input.sessionId)) input.sessionId
          charge.charged input.diagnosticTurnId))

theorem continueSession_stopped (root : StateRoot) (environment : StopEnvironment) (input : SessionStopInput) :
    Triple (Standing disk counters) (continueSession root environment input)
      (fun outcome s ↦ Stopped root environment input disk counters outcome s.counters)
      (·.counters = counters) := by
  have hsilent {after : Disk} : Triple (Standing after counters) (pure .silent : StopAction StopOutcome)
      (fun outcome s ↦ Stopped root environment input disk counters outcome s.counters)
      (·.counters = counters) := Triple.ret fun s hs ↦ by
    rw [hs.2]
    exact .silent
  refine stopFenced hsilent (Triple.seq (onStore_keeps coordinate_stands) fun standing ↦ ?_)
  rintro s ⟨hstands, hcounters⟩
  cases standing with
  | quiet | stuck | settled => exact hsilent s ⟨rfl, hcounters⟩
  | continued run additionalContext mutation =>
    obtain hquiet | ⟨snapshot, hreads, hindex, hstands⟩ := hstands
    · cases hquiet
    have hdecision := hstands.decision (by simp)
    obtain ⟨entry, hmem, hsession, -⟩ := entry_of_continued hdecision
    refine stopFenced hsilent (Triple.seq (chargeBudget_billed _ _ _) fun charge ↦ ?_) s ⟨rfl, hcounters⟩
    cases charge with
    | none =>
      intro t hbilled
      change Stopped root environment input disk counters .silent t.counters
      generalize t.counters = after at hbilled
      cases hbilled with
      | unchanged => exact .silent
      | exhausted hbudget => exact .exhausted hbudget
    | some charge =>
      intro t hbilled
      refine Triple.weaken (emit_charges _ charge _) (fun outcome u hcharged ↦ ?_) t ⟨rfl, rfl⟩
      obtain ⟨hcharge, hsame⟩ := hcharged
      rw [hsame]
      generalize t.counters = after at hbilled
      cases hbilled with
      | charged hresolved hrun hbudget =>
        refine .charged hcharge ⟨snapshot, run, _, _, hreads, hdecision, rfl, fun hsole ↦ ?_⟩ hbudget
        obtain rfl := resolved_of_stands hindex ⟨entry, hmem, hsession⟩ hstands hsole hresolved
        exact hrun.symm

theorem handleSessionStop_stopped (root : StateRoot) (environment : StopEnvironment)
    (input : SessionStopInput) (s : StopSession) :
    Stopped root environment input s.session.disk s.counters (handleSessionStop root environment input s).1
      (handleSessionStop root environment input s).2.counters := by
  unfold handleSessionStop
  split
  · exact .silent
  · have hstopped := continueSession_stopped root environment input s ⟨rfl, rfl⟩
    cases hexec : exec (continueSession root environment input) s with
    | mk outcome t =>
      rw [hexec] at hstopped
      cases outcome with
      | ok outcome => exact hstopped
      | error error =>
        change t.counters = s.counters at hstopped
        dsimp only
        rw [hstopped]
        exact .silent

end Stopping

end OmpLazy.Continuation

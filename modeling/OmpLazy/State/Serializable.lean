import OmpLazy.Foundation.Runs
import OmpLazy.State.CrashRecovery

namespace OmpLazy.State

open OmpLazy.Foundation EventStore Action Store Relation

/-! The store as one ledger: entries that are applied one at a time. -/

/-- What a root contains, apart from its log. -/
structure Contents where
  index : ActiveIndex
  runs : Uuid → Option AnyRun

/-- An event with the receipt authority under which it was committed. -/
abbrev Entry := PersistedStateEvent × Option ReceiptAuthority

namespace Contents

def publish (contents : Contents) (prepared : PreparedTransition) : Contents where
  index := prepared.index
  runs := Function.update contents.runs prepared.run.runId (some prepared.run)

/-- `prepareTransition` as a step of the contents. -/
def apply (contents : Contents) (entry : Entry) : Option Contents :=
  match prepareTransition contents.index (contents.runs entry.1.runId) entry.1 entry.2 with
  | .ok prepared => some (contents.publish prepared)
  | .error _ => none

theorem apply_eq_some {contents next : Contents} {entry : Entry} :
    contents.apply entry = some next ↔ ∃ prepared,
      prepareTransition contents.index (contents.runs entry.1.runId) entry.1 entry.2 = .ok prepared ∧
        contents.publish prepared = next := by
  rw [apply]
  split <;> simp_all

end Contents

structure Ledger where
  entries : List Entry
  contents : Contents

inductive LedgerStep : Ledger → Ledger → Prop
  | apply {ledger : Ledger} {entry : Entry} {next : Contents}
      (happly : ledger.contents.apply entry = some next) :
      LedgerStep ledger ⟨ledger.entries ++ [entry], next⟩

/-- The contents are the fold of the entries, whose sequences are 1 to n and which expect the index
revisions 0 to n - 1. -/
structure Ledger.Serial (start : Contents) (ledger : Ledger) : Prop where
  fold : ledger.entries.foldlM Contents.apply start = some ledger.contents
  sequences : ledger.entries.map (·.1.sequence) = List.range' 1 ledger.entries.length
  expected : ledger.entries.map (·.1.expected.indexRevision) = List.range ledger.entries.length
  revision : ledger.contents.index.revision = ledger.entries.length

theorem serial_preserved (start : Contents) : Preserves LedgerStep (Ledger.Serial start) := by
  rintro _ _ h ⟨happly⟩
  obtain ⟨prepared, hprepared, rfl⟩ := Contents.apply_eq_some.mp happly
  obtain ⟨hexpected, hsequence, next, -, -, -, rfl⟩ := prepareTransition_eq_ok.mp hprepared
  rw [h.revision] at hexpected hsequence
  constructor
  · simp [List.foldlM_append, h.fold, happly]
  · simp [h.sequences, hsequence, List.range'_concat, Nat.add_comm]
  · simp [h.expected, hexpected, List.range_succ]
  · simpa [Contents.publish, deriveIndex] using hsequence

/-! Calls of `commit` that run at the same time. -/

/-- Where the holder of the lock is in its call. -/
inductive Phase where
  | locked (event : EventObject)
  | admitted (event persisted : EventObject) (authority : Option ReceiptAuthority)
      (prepared : PreparedTransition)
  | appended (event : EventObject) (prepared : PreparedTransition)
  | replaced (event : EventObject) (prepared : PreparedTransition)
  | indexed (event : EventObject)

/-- The files, the calls that wait for the lock, and its holder. The last two members record what
was appended, with the authority as it was read, and which calls answered `committed`. -/
structure System (Process : Type*) where
  disk : Disk
  calls : Process → Option EventObject
  holder : Option (Process × Phase)
  history : List Entry
  committed : List EventObject

/-- What is written for an event is read back as what was meant. -/
structure Settles (root : StateRoot) (persisted : EventObject) (prepared : PreparedTransition) :
    Prop where
  event : ReadsBack persisted
  run : decodeRun root (stringify (encodeRun prepared.run)) = .ok prepared.run
  index : decodeActiveIndex (stringify (encodeActiveIndex prepared.index)) = .ok prepared.index

variable {Process : Type*} {root : StateRoot}

/-- The files show these contents. -/
structure Shows (root : StateRoot) (disk : Disk) (contents : Contents) : Prop where
  index : readIndex disk = .ok contents.index
  runs : ∀ id, readRun root disk id = .ok (contents.runs id)

/-- The next event to commit after a number of others. -/
structure IsNext (event : PersistedStateEvent) (committed : ℕ) : Prop where
  sequence : event.sequence = committed + 1
  expected : event.expected.indexRevision = committed

/-- The last entry of the ledger is the event that the holder publishes. -/
structure Publishing (root : StateRoot) (ledger : Ledger) (committed : ℕ) (event : EventObject)
    (prepared : PreparedTransition) : Prop where
  next : IsNext event.value committed
  count : ledger.entries.length = committed + 1
  index : ledger.contents.index = prepared.index
  run : ledger.contents.runs prepared.run.runId = some prepared.run
  runId : Text.isUuid prepared.run.runId = true
  decodesRun : decodeRun root (stringify (encodeRun prepared.run)) = .ok prepared.run
  decodesIndex : decodeActiveIndex (stringify (encodeActiveIndex prepared.index)) = .ok prepared.index

/-- What the files show of a ledger while the holder of the lock is in a phase. -/
def PhaseShows (root : StateRoot) (disk : Disk) (ledger : Ledger) (committed : ℕ) :
    Option Phase → Prop
  | none => Shows root disk ledger.contents ∧ ledger.entries.length = committed
  | some (.locked event) => Shows root disk ledger.contents ∧ ledger.entries.length = committed ∧
      Text.isUuid event.value.runId = true
  | some (.admitted event persisted authority prepared) =>
      Shows root disk ledger.contents ∧ ledger.entries.length = committed ∧
        prepareTransition ledger.contents.index (ledger.contents.runs persisted.value.runId)
          persisted.value authority = .ok prepared ∧
        Settles root persisted prepared ∧ IsNext event.value committed ∧
        persisted.value.sequence = committed + 1 ∧ Text.isUuid persisted.value.runId = true
  | some (.appended event prepared) => Publishing root ledger committed event prepared ∧
      ∀ id, id ≠ prepared.run.runId → readRun root disk id = .ok (ledger.contents.runs id)
  | some (.replaced event prepared) => Publishing root ledger committed event prepared ∧
      ∀ id, readRun root disk id = .ok (ledger.contents.runs id)
  | some (.indexed event) => Shows root disk ledger.contents ∧
      ledger.entries.length = committed + 1 ∧ IsNext event.value committed

/-- The system has done what the ledger says. -/
structure Follows (root : StateRoot) (s : System Process) (ledger : Ledger) : Prop where
  entries : s.history = ledger.entries
  log : readAll s.disk.events = .ok (s.history.map (·.1))
  phase : PhaseShows root s.disk ledger s.committed.length (s.holder.map (·.2))
  sequences : s.committed.map (·.value.sequence) = List.range' 1 s.committed.length
  expected : s.committed.map (·.value.expected.indexRevision) = List.range s.committed.length

theorem readRun_writeRun_of_ne {disk : Disk} {run : AnyRun} {id : Uuid} (h : id ≠ run.runId) :
    readRun root (disk.writeRun run) id = readRun root disk id := by
  simp [readRun, Disk.writeRun, Function.update_of_ne h]

theorem readRun_writeRun_self {disk : Disk} {run : AnyRun} (hid : Text.isUuid run.runId = true)
    (hdecodes : decodeRun root (stringify (encodeRun run)) = .ok run) :
    readRun root (disk.writeRun run) run.runId = .ok (some run) := by
  rw [readRun_eq_some]
  exact ⟨hid, _, by simp [Disk.writeRun], hdecodes⟩

/-- The ledgers of the workers are no part of what the files show. -/
theorem phaseShows_receipts {disk : Disk} {ledger : Ledger} {committed : ℕ} {phase : Option Phase}
    (receipts : AnyRun → Except Thrown ReceiptAuthority)
    (h : PhaseShows root disk ledger committed phase) :
    PhaseShows root { disk with receipts } ledger committed phase := by
  have hshows (hs : Shows root disk ledger.contents) : Shows root { disk with receipts } ledger.contents :=
    ⟨hs.index, hs.runs⟩
  cases phase with
  | none => exact ⟨hshows h.1, h.2⟩
  | some phase =>
    cases phase with
    | locked | admitted | indexed => exact ⟨hshows h.1, h.2⟩
    | appended | replaced => exact h

/-- Nothing was ever committed, and nobody holds the lock. -/
structure System.Fresh (s : System Process) (version : IndexVersion) : Prop where
  index : readIndex s.disk = .ok ⟨version, 0, []⟩
  events : s.disk.events = []
  runs : ∀ id, s.disk.runs id = none
  holder : s.holder = none
  history : s.history = []
  committed : s.committed = []

def Contents.empty (version : IndexVersion) : Contents := ⟨⟨version, 0, []⟩, fun _ ↦ none⟩

/-- Nobody is between the append of an event and the replacement of the index. -/
def System.settled (s : System Process) : Prop :=
  match s.holder with
  | some (_, .appended ..) | some (_, .replaced ..) => False
  | _ => True

theorem System.Fresh.follows {s : System Process} {version : IndexVersion} (h : s.Fresh version) :
    Follows root s ⟨[], Contents.empty version⟩ := by
  refine ⟨h.history, by rw [h.events, h.history]; rfl, ?_, by simp [h.committed], by simp [h.committed]⟩
  rw [h.holder, h.committed]
  refine ⟨⟨h.index, fun id ↦ ?_⟩, rfl⟩
  rw [readRun, h.runs]
  split <;> rfl

theorem serial_empty (version : IndexVersion) :
    Ledger.Serial (Contents.empty version) ⟨[], Contents.empty version⟩ := ⟨rfl, rfl, rfl, rfl⟩

theorem shows_of_settled {s : System Process} {ledger : Ledger} (h : Follows root s ledger)
    (hsettled : s.settled) : Shows root s.disk ledger.contents := by
  have hphase := h.phase
  unfold System.settled at hsettled
  cases hholder : s.holder with
  | none =>
    rw [hholder] at hphase
    exact hphase.1
  | some holder =>
    obtain ⟨p, phase⟩ := holder
    rw [hholder] at hphase hsettled
    cases phase with
    | locked | admitted | indexed => exact hphase.1
    | appended | replaced => exact hsettled.elim

section Interleaving

variable [DecidableEq Process]

/-- The steps of the calls; the lock excludes, and no call crashes or runs out of time inside. -/
inductive SystemStep (root : StateRoot) : System Process → System Process → Prop
  | submit {s : System Process} {p : Process} (event : EventObject) (hcall : s.calls p = none) :
      SystemStep root s { s with calls := Function.update s.calls p (some event) }
  | giveUp {s : System Process} (p : Process) :
      SystemStep root s { s with calls := Function.update s.calls p none }
  | acquire {s : System Process} {p : Process} {event : EventObject} (hcall : s.calls p = some event)
      (hid : Text.isUuid event.value.runId = true) (hfree : s.holder = none) :
      SystemStep root s
        { s with calls := Function.update s.calls p none, holder := some (p, .locked event) }
  | answer {s : System Process} {p : Process} {event : EventObject}
      (hholder : s.holder = some (p, .locked event))
      (hdecision : ∀ persisted prepared,
        decideCommit root s.disk event ≠ .ok (.accepted persisted prepared)) :
      SystemStep root s { s with holder := none }
  | accept {s : System Process} {p : Process} {event : EventObject} {index : ActiveIndex}
      {events : List PersistedStateEvent} {current : Option AnyRun}
      {authority : Option ReceiptAuthority} {prepared : PreparedTransition}
      (hholder : s.holder = some (p, .locked event))
      (hadmits : Admits root s.disk event index events current authority prepared)
      (hsettles : Settles root (persistedEventForIndex index event) prepared) :
      SystemStep root s { s with
        holder := some (p, .admitted event (persistedEventForIndex index event) authority prepared) }
  | collide {s : System Process} {p : Process} {event persisted : EventObject}
      {authority : Option ReceiptAuthority} {prepared : PreparedTransition}
      (hholder : s.holder = some (p, .admitted event persisted authority prepared))
      (hname : eventName persisted.value ∈ s.disk.events.map (·.name)) :
      SystemStep root s { s with holder := none }
  | append {s : System Process} {p : Process} {event persisted : EventObject}
      {authority : Option ReceiptAuthority} {prepared : PreparedTransition}
      (hholder : s.holder = some (p, .admitted event persisted authority prepared))
      (hname : eventName persisted.value ∉ s.disk.events.map (·.name)) :
      SystemStep root s { s with
        disk := s.disk.appendEvent persisted
        holder := some (p, .appended event prepared)
        history := s.history ++ [(persisted.value, authority)] }
  | replaceRun {s : System Process} {p : Process} {event : EventObject} {prepared : PreparedTransition}
      (hholder : s.holder = some (p, .appended event prepared)) :
      SystemStep root s { s with
        disk := s.disk.writeRun prepared.run
        holder := some (p, .replaced event prepared) }
  | replaceIndex {s : System Process} {p : Process} {event : EventObject}
      {prepared : PreparedTransition} (hholder : s.holder = some (p, .replaced event prepared)) :
      SystemStep root s { s with
        disk := s.disk.writeIndex prepared.index
        holder := some (p, .indexed event) }
  | release {s : System Process} {p : Process} {event : EventObject}
      (hholder : s.holder = some (p, .indexed event)) :
      SystemStep root s { s with holder := none, committed := s.committed ++ [event] }
  | receipts {s : System Process} (receipts : AnyRun → Except Thrown ReceiptAuthority) :
      SystemStep root s { s with disk := { s.disk with receipts } }

theorem follows_simulates :
    Simulates (Follows root) (SystemStep root : System Process → System Process → Prop) LedgerStep := by
  rintro s s' ledger h hstep
  have hphase := h.phase
  cases hstep with
  | submit event hcall => exact ⟨ledger, .refl, h.entries, h.log, hphase, h.sequences, h.expected⟩
  | giveUp p => exact ⟨ledger, .refl, h.entries, h.log, hphase, h.sequences, h.expected⟩
  | acquire hcall hid hfree =>
    rw [hfree] at hphase
    exact ⟨ledger, .refl, h.entries, h.log, ⟨hphase.1, hphase.2, hid⟩, h.sequences, h.expected⟩
  | answer hholder hdecision =>
    rw [hholder] at hphase
    obtain ⟨hshows, hcount, -⟩ := hphase
    exact ⟨ledger, .refl, h.entries, h.log, ⟨hshows, hcount⟩, h.sequences, h.expected⟩
  | @accept p event index events current authority prepared hholder hadmits hsettles =>
    rw [hholder] at hphase
    obtain ⟨hshows, hcount, hid⟩ := hphase
    obtain rfl := Except.ok.inj (hadmits.hindex.symm.trans hshows.index)
    obtain rfl := Except.ok.inj (hadmits.hcurrent.symm.trans (hshows.runs _))
    have hevents := Except.ok.inj ((readEvents_eq_ok.mp hadmits.hevents).symm.trans h.log)
    have hrevision : ledger.contents.index.revision = s.committed.length := by
      rw [← hadmits.length, hevents, List.length_map, h.entries, hcount]
    obtain ⟨hexpected, hsequence, -⟩ := prepareTransition_eq_ok.mp hadmits.hprepared
    rw [hrevision] at hexpected hsequence
    have hnext : IsNext event.value s.committed.length :=
      ⟨by simpa using hsequence, by simpa using hexpected⟩
    refine ⟨ledger, .refl, h.entries, h.log, ⟨hshows, hcount, ?_, hsettles, hnext, hsequence, ?_⟩,
      h.sequences, h.expected⟩
    · rw [runId_persisted]
      exact hadmits.hprepared
    · rw [runId_persisted]
      exact hid
  | collide hholder hname =>
    rw [hholder] at hphase
    obtain ⟨hshows, hcount, -⟩ := hphase
    exact ⟨ledger, .refl, h.entries, h.log, ⟨hshows, hcount⟩, h.sequences, h.expected⟩
  | @append p event persisted authority prepared hholder hname =>
    rw [hholder] at hphase
    obtain ⟨hshows, hcount, hprepared, hsettles, hnext, hsequence, hid⟩ := hphase
    obtain ⟨-, -, hrunId, -⟩ := prepared_cases hprepared
    refine ⟨⟨ledger.entries ++ [(persisted.value, authority)], ledger.contents.publish prepared⟩,
      .single (.apply (Contents.apply_eq_some.mpr ⟨prepared, hprepared, rfl⟩)),
      by rw [h.entries], ?_, ⟨⟨hnext, ?_, rfl, ?_, ?_, hsettles.run, hsettles.index⟩, ?_⟩,
      h.sequences, h.expected⟩
    · rw [List.map_append]
      exact readAll_append h.log hsettles.event
        (by rw [hsequence, List.length_map, h.entries, hcount])
    · rw [List.length_append, hcount, List.length_singleton]
    · simp [Contents.publish]
    · rw [hrunId]
      exact hid
    · intro id hne
      have hsame : (ledger.contents.publish prepared).runs id = ledger.contents.runs id :=
        Function.update_of_ne hne _ _
      exact (hshows.runs id).trans (congrArg _ hsame.symm)
  | @replaceRun p event prepared hholder =>
    rw [hholder] at hphase
    obtain ⟨hpublishing, hruns⟩ := hphase
    refine ⟨ledger, .refl, h.entries, h.log, ⟨hpublishing, fun id ↦ ?_⟩, h.sequences, h.expected⟩
    by_cases hne : id = prepared.run.runId
    · rw [hne, hpublishing.run, readRun_writeRun_self hpublishing.runId hpublishing.decodesRun]
    · rw [readRun_writeRun_of_ne hne, hruns id hne]
  | @replaceIndex p event prepared hholder =>
    rw [hholder] at hphase
    obtain ⟨hpublishing, hruns⟩ := hphase
    refine ⟨ledger, .refl, h.entries, h.log, ⟨⟨?_, hruns⟩, hpublishing.count, hpublishing.next⟩,
      h.sequences, h.expected⟩
    rw [readIndex_writeIndex, hpublishing.decodesIndex, hpublishing.index]
    rfl
  | @release p event hholder =>
    rw [hholder] at hphase
    obtain ⟨hshows, hcount, hnext⟩ := hphase
    refine ⟨ledger, .refl, h.entries, h.log, ⟨hshows, by simpa using hcount⟩, ?_, ?_⟩
    · simp [h.sequences, hnext.sequence, List.range'_concat, Nat.add_comm]
    · simp [h.expected, hnext.expected, List.range_succ]
  | receipts receipts =>
    exact ⟨ledger, .refl, h.entries, h.log, phaseShows_receipts receipts hphase, h.sequences, h.expected⟩

/-- In every interleaving the log is numbered from 1 without a gap, no two events expect the same index
revision, the calls that answered `committed` are numbered in the same way, and the stored index and
snapshots are the fold of the log. -/
theorem commits_serializable {version : IndexVersion} {s₀ s : System Process} (hfresh : s₀.Fresh version)
    (hrun : ReflTransGen (SystemStep root) s₀ s) :
    readEvents s.disk = .ok (s.history.map (·.1)) ∧
      s.history.map (·.1.sequence) = List.range' 1 s.history.length ∧
      (s.history.map (·.1.expected.indexRevision)).Nodup ∧
      s.committed.map (·.value.sequence) = List.range' 1 s.committed.length ∧
      (s.committed.map (·.value.expected.indexRevision)).Nodup ∧
      (s.holder = none → s.committed.length = s.history.length) ∧
      (s.settled → ∃ contents,
        s.history.foldlM Contents.apply (Contents.empty version) = some contents ∧
          Shows root s.disk contents) := by
  obtain ⟨ledger, hfollows, hserial⟩ := follows_simulates.run_preserves
    (serial_preserved (Contents.empty version)) hrun hfresh.follows (serial_empty version)
  have hentries := hfollows.entries
  refine ⟨readEvents_eq_ok.mpr hfollows.log, hentries ▸ hserial.sequences, ?_, hfollows.sequences, ?_, ?_,
    fun hsettled ↦ ⟨ledger.contents, hentries ▸ hserial.fold, shows_of_settled hfollows hsettled⟩⟩
  · rw [hentries, hserial.expected]
    exact List.nodup_range
  · rw [hfollows.expected]
    exact List.nodup_range
  · intro hholder
    have hphase := hfollows.phase
    rw [hholder] at hphase
    rw [hentries]
    exact hphase.2.symm

/-- A call that runs alone takes the steps of the system, from one free lock to the next. -/
theorem steps_of_commit {s : System Process} {options : CommitOptions} {event : EventObject}
    (hcrash : options.crash = none) (hunhindered : Unhindered options.toCallOptions none)
    (hid : Text.isUuid event.value.runId = true)
    (hsettles : ∀ index events current authority prepared,
      Admits root s.disk event index events current authority prepared →
        Settles root (persistedEventForIndex index event) prepared)
    (hholder : s.holder = none) (p : Process) :
    ∃ s', ReflTransGen (SystemStep root) s s' ∧ s'.holder = none ∧
      s'.disk = (exec (commit root options event) ⟨s.disk, none⟩).2.disk := by
  have hgiveUp : SystemStep root s _ := .giveUp p
  have hstart := ((ReflTransGen.single hgiveUp).tail
    (.submit (p := p) event (Function.update_self ..))).tail
      (.acquire (p := p) (Function.update_self ..) hid hholder)
  rw [exec_commit_unhindered hunhindered hid]
  cases hdecision : decideCommit root s.disk event with
  | error error => exact ⟨_, hstart.tail (.answer rfl (by simp [hdecision])), rfl, rfl⟩
  | ok decision =>
    cases decision with
    | refused code => exact ⟨_, hstart.tail (.answer rfl (by simp [hdecision])), rfl, rfl⟩
    | replayed run index => exact ⟨_, hstart.tail (.answer rfl (by simp [hdecision])), rfl, rfl⟩
    | accepted persisted prepared =>
      obtain ⟨index, events, current, authority, hadmits, rfl⟩ := decideCommit_accepted.mp hdecision
      have haccept := hstart.tail (.accept rfl hadmits (hsettles _ _ _ _ _ hadmits))
      have hsequence : ¬ (persistedEventForIndex index event).value.sequence < 1 := by
        rw [hadmits.sequence]
        omega
      by_cases hname : eventName (persistedEventForIndex index event).value ∈ s.disk.events.map (·.name)
      · refine ⟨_, haccept.tail (.collide rfl hname), rfl, ?_⟩
        simp only [exec_publish, hcrash, hsequence, hname]
        simp
      · refine ⟨_, (((haccept.tail (.append rfl hname)).tail (.replaceRun rfl)).tail
          (.replaceIndex rfl)).tail (.release rfl), rfl, ?_⟩
        simp only [exec_publish, exec_publishRun, exec_publishIndex, hcrash, hsequence, hname]
        simp

end Interleaving

/-- Any number of processes around a root that was just initialised. -/
def Sample.system : System ℕ := ⟨initial, fun _ ↦ none, none, [], []⟩

theorem creation_serializable :
    ∃ s : System ℕ, s.disk = Sample.created ∧ readEvents s.disk = .ok (s.history.map (·.1)) ∧
      s.history.map (·.1.sequence) = List.range' 1 s.history.length ∧
      ∃ contents, s.history.foldlM Contents.apply (Contents.empty (.v2 1)) = some contents ∧
        Shows Sample.root s.disk contents := by
  have hdecision : decideCommit Sample.root Sample.initial (.ofValue Sample.creation) =
      .ok (.accepted (.ofValue Sample.creation) ⟨Sample.run, Sample.index⟩) := by decide
  have hsettles : Settles Sample.root (.ofValue Sample.creation) ⟨Sample.run, Sample.index⟩ :=
    ⟨by decide, by decide, by decide⟩
  have hall : ∀ index events current authority prepared,
      Admits Sample.root Sample.initial (.ofValue Sample.creation) index events current authority
        prepared → Settles Sample.root (persistedEventForIndex index (.ofValue Sample.creation))
          prepared := by
    intro index events current authority prepared h
    have haccepted := decideCommit_accepted.mpr ⟨index, events, current, authority, h, rfl⟩
    rw [hdecision] at haccepted
    obtain ⟨hpersisted, hprepared⟩ := Decision.accepted.inj (Except.ok.inj haccepted)
    rw [← hpersisted, ← hprepared]
    exact hsettles
  obtain ⟨s, hrun, hholder, hdisk⟩ := steps_of_commit (s := Sample.system)
    (show Sample.options.crash = none from rfl) ⟨rfl, rfl, rfl⟩ (by decide) hall rfl 0
  have hfresh : Sample.system.Fresh (.v2 1) := ⟨by decide, rfl, fun _ ↦ rfl, rfl, rfl, rfl⟩
  obtain ⟨hevents, hsequences, -, -, -, -, hfold⟩ := commits_serializable hfresh hrun
  exact ⟨s, hdisk, hevents, hsequences, hfold (by simp [System.settled, hholder])⟩

end OmpLazy.State

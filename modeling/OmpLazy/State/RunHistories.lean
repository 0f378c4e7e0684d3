import OmpLazy.State.EventFiles
import OmpLazy.State.History
import OmpLazy.State.IndexCoherence

/-! What the log of a root says of its runs. -/

namespace OmpLazy.State

open OmpLazy.Foundation OmpLazy.Foundation.Schema OmpLazy.Foundation.Text EventStore Action Store Relation

/-- What events make of a run, one after the other. Each is accepted as it was given, and is in the log as it is read. -/
inductive Explains : List PersistedStateEvent → Option AnyRun → Prop
  | nothing : Explains [] none
  | next {events : List PersistedStateEvent} {current : Option AnyRun} {event : PersistedStateEvent} {index : ActiveIndex}
      {authority : Option ReceiptAuthority} {prepared : PreparedTransition} (before : Explains events current)
      (accepted : prepareTransition index current event authority = .ok prepared) :
      Explains (events ++ [event.tidy]) (some prepared.run.tidy)

/-- The events of a run. -/
def logOf (events : List PersistedStateEvent) (id : Uuid) : List PersistedStateEvent := events.filter (·.runId = id)

def Acceptable (current : Option AnyRun) (event : PersistedStateEvent) : Prop :=
  ∃ index authority prepared, prepareTransition index current event authority = .ok prepared

/-- Each event was made, and was accepted on the run that the log before it explains. -/
def Logged (made : PersistedStateEvent → Prop) (events : List PersistedStateEvent) : Prop :=
  ∀ before event after, events = before ++ event :: after →
    ∃ source current, made source ∧ source.tidy = event ∧ Explains (logOf before event.runId) current ∧
      Acceptable current source

/-- The log explains the snapshots, and none is newer than the index. -/
structure Explained (stored : Snapshots) (events : List PersistedStateEvent) (revision : ℕ) : Prop where
  runs : ∀ id, Explains (logOf events id) ((stored id).map AnyRun.tidy)
  revisions : ∀ id, ∀ run ∈ stored id, run.transactionRevision ≤ revision

/-- How far the last event has come, in a root whose index and log are read. -/
inductive Sourced (made : PersistedStateEvent → Prop) (disk : Disk) : Prop
  | unread (h : ∀ index events, readIndex disk = .ok index → readEvents disk ≠ .ok events)
  | settled {index : ActiveIndex} {events : List PersistedStateEvent} {stored : Snapshots}
      (hindex : readIndex disk = .ok index) (hevents : readEvents disk = .ok events) (hlogged : Logged made events)
      (hholds : Holds disk stored) (hexplained : Explained stored events index.revision)
      (hlevel : events.length = index.revision)
  | appended {index : ActiveIndex} {events : List PersistedStateEvent} {last : PersistedStateEvent} {stored : Snapshots}
      (hindex : readIndex disk = .ok index) (hevents : readEvents disk = .ok (events ++ [last]))
      (hlogged : Logged made (events ++ [last])) (hholds : Holds disk stored)
      (hexplained : Explained stored events index.revision) (hlevel : events.length = index.revision)
  | replaced {index : ActiveIndex} {events : List PersistedStateEvent} {last : PersistedStateEvent} {stored : Snapshots}
      {run : AnyRun} (hindex : readIndex disk = .ok index) (hevents : readEvents disk = .ok (events ++ [last]))
      (hlogged : Logged made (events ++ [last])) (hholds : Holds disk stored)
      (hexplained : Explained stored (events ++ [last]) (index.revision + 1)) (hrun : stored last.runId = some run)
      (hstamp : run.transactionRevision = last.sequence) (hlevel : events.length = index.revision)

section Histories

variable {made made' : PersistedStateEvent → Prop} {root : StateRoot} {disk left : Disk} {index : ActiveIndex}
  {events : List PersistedStateEvent} {event last : PersistedStateEvent} {stored : Snapshots} {current : Option AnyRun}
  {authority : Option ReceiptAuthority} {prepared : PreparedTransition} {run : AnyRun} {id : Uuid}

theorem logOf_append (events : List PersistedStateEvent) (event : PersistedStateEvent) (id : Uuid) :
    logOf (events ++ [event]) id = if event.runId = id then logOf events id ++ [event] else logOf events id := by
  rw [logOf, List.filter_append, ← logOf, List.filter_cons, List.filter_nil]
  by_cases hid : event.runId = id
  · simp [hid]
  · simp [hid]

theorem Logged.append (h : Logged made events) (hmade : made event)
    (hexplains : Explains (logOf events event.runId) current) (haccepted : Acceptable current event) :
    Logged made (events ++ [event.tidy]) := by
  intro before next after hsplit
  cases after using List.reverseRecOn with
  | nil =>
    obtain ⟨rfl, hlast⟩ := List.append_inj' hsplit rfl
    obtain rfl := List.singleton_inj.mp hlast
    exact ⟨event, current, hmade, rfl, hexplains, haccepted⟩
  | append_singleton after other =>
    rw [← List.cons_append, ← List.append_assoc] at hsplit
    exact h before next after (List.append_inj' hsplit rfl).1

theorem Logged.mono (h : Logged made events) (hmade : ∀ event, made event → made' event) : Logged made' events := by
  intro before event after hsplit
  obtain ⟨source, current, hsource, htidy, hexplains, haccepted⟩ := h before event after hsplit
  exact ⟨source, current, hmade source hsource, htidy, hexplains, haccepted⟩

/-- The snapshot that an event makes is explained by a log with the event. -/
theorem Explained.put (h : Explained stored events index.revision) {read : ActiveIndex}
    (hprepared : prepareTransition read ((stored event.runId).map AnyRun.tidy) event authority = .ok prepared)
    (hstamp : prepared.run.transactionRevision = index.revision + 1) :
    Explained (stored.put prepared.run) (events ++ [event.tidy]) (index.revision + 1) := by
  obtain ⟨-, -, hid, -⟩ := prepared_cases hprepared
  have htidy : event.tidy.runId = event.runId := rfl
  constructor
  · intro id
    rw [logOf_append, htidy]
    by_cases hsame : event.runId = id
    · subst hsame
      rw [if_pos rfl, Snapshots.put, hid, Function.update_self]
      exact .next (h.runs event.runId) hprepared
    · rw [if_neg hsame, Snapshots.put, Function.update_of_ne (by rw [hid]; exact Ne.symm hsame)]
      exact h.runs id
  · intro id other hother
    by_cases hsame : id = prepared.run.runId
    · subst hsame
      rw [Snapshots.put, Function.update_self] at hother
      rw [← Option.some.inj hother, hstamp]
    · rw [Snapshots.put, Function.update_of_ne hsame] at hother
      exact (h.revisions id other hother).trans (Nat.le_succ _)

/-- What is read of a run is its snapshot. -/
theorem Holds.snapshot (h : Holds disk stored) (hid : isUuid id = true) (hread : readRun root disk id = .ok current) :
    current = (stored id).map AnyRun.tidy := by
  cases current with
  | some run =>
    obtain ⟨written, hwritten, rfl⟩ := h.read hread
    rw [Option.mem_def.mp hwritten]
    rfl
  | none =>
    rw [readRun, if_pos hid, h id] at hread
    cases hstored : stored id with
    | none => rfl
    | some run =>
      rw [hstored] at hread
      simp only [Option.map_some] at hread
      cases hdecode : decodeRun root (stringify (encodeRun run)) with
      | ok read =>
        rw [hdecode] at hread
        cases hread
      | error code =>
        rw [hdecode] at hread
        cases hread

theorem Sourced.written (disk : Disk) (hevents : readEvents disk = .ok events) (hlogged : Logged made events)
    (hholds : Holds disk stored) (hexplained : Explained stored events index.revision)
    (hlevel : events.length = index.revision) : Sourced made (disk.writeIndex index) := by
  cases hdecode : decodeActiveIndex (stringify (encodeActiveIndex index)) with
  | error error =>
    refine .unread fun index' events' hindex _ ↦ ?_
    rw [readIndex_writeIndex, hdecode] at hindex
    cases hindex
  | ok read =>
    obtain ⟨json, hjson, hschema, -⟩ := decodeActiveIndex_eq_ok.mp hdecode
    obtain rfl := Option.some.inj hjson
    obtain ⟨-, rfl⟩ := (ActiveIndex.reads.encoded _ _).mp hschema
    have hread : readIndex (disk.writeIndex index) = .ok index.tidy := by
      rw [readIndex_writeIndex, hdecode]
      rfl
    exact .settled hread (show readEvents (disk.writeIndex index) = _ from hevents) hlogged hholds hexplained hlevel

/-- A call publishes an event that was made, or a part of it. -/
theorem Sourced.published {outcome : Except Thrown TransactionResult} {read : ActiveIndex}
    {log : List PersistedStateEvent} (h : Sourced made disk) (hmade : made event) (hversion : event.version ≠ .v1)
    (heventId : isUuid event.eventId = true) (hid : isUuid event.runId = true)
    (hadmits : Admits root disk (.ofValue event) read log current authority prepared)
    (hpublished : Published disk (persistedEventForIndex read (.ofValue event)) prepared outcome left) :
    Sourced made left := by
  have hlength := hadmits.length
  have hsequence := hadmits.sequence
  have hprepared := hadmits.hprepared
  rw [persisted_of_version hversion] at hpublished hsequence hprepared
  cases h with
  | unread h => exact absurd hadmits.hevents (h _ _ hadmits.hindex)
  | appended hindex hevents _ _ _ hlevel =>
    obtain rfl := Except.ok.inj (hindex.symm.trans hadmits.hindex)
    obtain rfl := Except.ok.inj (hevents.symm.trans hadmits.hevents)
    simp [hlevel] at hlength
  | replaced hindex hevents _ _ _ _ _ hlevel =>
    obtain rfl := Except.ok.inj (hindex.symm.trans hadmits.hindex)
    obtain rfl := Except.ok.inj (hevents.symm.trans hadmits.hevents)
    simp [hlevel] at hlength
  | @settled index events stored hindex hevents hlogged hholds hexplained hlevel =>
    obtain rfl := Except.ok.inj (hindex.symm.trans hadmits.hindex)
    obtain rfl := Except.ok.inj (hevents.symm.trans hadmits.hevents)
    have hcurrent := hholds.snapshot hid hadmits.hcurrent
    rw [hcurrent] at hprepared
    have hlogged' := hlogged.append hmade (hexplained.runs event.runId) ⟨_, _, _, hprepared⟩
    have hstamp := (prepared_stamp hprepared).trans hsequence
    have hexplained' := hexplained.put hprepared hstamp
    obtain ⟨-, -, hnamed, -⟩ := prepared_cases hprepared
    have hrunId : prepared.run.runId = event.tidy.runId := hnamed
    have hlast : prepared.run.transactionRevision = event.tidy.sequence :=
      (prepared_stamp hprepared : prepared.run.transactionRevision = event.sequence)
    have hlog : ∀ disk' : Disk, disk'.events = disk.events ++ [eventFile (.ofValue event)] →
        (∀ log, readEvents disk' ≠ .ok log) ∨ readEvents disk' = .ok (events ++ [event.tidy]) := by
      intro disk' hdisk
      by_cases hread : ∃ read, readEventFile (eventFile (.ofValue event)) = .ok read
      · obtain ⟨read, hread⟩ := hread
        obtain ⟨⟨-, rfl⟩, -⟩ := read_written_iff.mp hread
        right
        rw [readEvents_eq_ok, hdisk]
        exact EventStore.readAll_append (readEvents_eq_ok.mp hevents) hread (hsequence.trans (by rw [hlevel]))
      · left
        intro log hlog
        rw [readEvents_eq_ok, hdisk] at hlog
        exact hread (read_of_readAll heventId (List.mem_append_right _ (List.mem_singleton_self _)) hlog)
    have hpublish : Sourced made (disk.publish (.ofValue event) prepared) := by
      obtain hunread | hread := hlog (disk.publish (.ofValue event) prepared) rfl
      · exact .unread fun _ log _ ↦ hunread log
      · have hrevision : prepared.index.revision = index.revision + 1 := by
          rw [hadmits.index_eq, persisted_of_version hversion]
          exact hsequence
        refine .written ((disk.appendEvent _).writeRun prepared.run) hread hlogged' (hholds.writeRun prepared.run) ?_ ?_
        · rw [hrevision]
          exact hexplained'
        · rw [hrevision, List.length_append, List.length_singleton, hlevel]
    cases hpublished with
    | nothing => exact .settled hindex hevents hlogged hholds hexplained hlevel
    | appended =>
      obtain hunread | hread := hlog (disk.appendEvent (.ofValue event)) rfl
      · exact .unread fun _ log _ ↦ hunread log
      · exact .appended (show readIndex (disk.appendEvent _) = _ from hindex) hread hlogged' hholds hexplained hlevel
    | replacedRun =>
      obtain hunread | hread := hlog ((disk.appendEvent (.ofValue event)).writeRun prepared.run) rfl
      · exact .unread fun _ log _ ↦ hunread log
      · refine .replaced (show readIndex ((disk.appendEvent _).writeRun _) = _ from hindex) hread hlogged'
          (Holds.writeRun hholds prepared.run) hexplained' ?_ hlast hlevel
        rw [Snapshots.put, hrunId]
        exact Function.update_self ..
    | crashed => exact hpublish
    | committed => exact hpublish

theorem decideRepair_source {runPublished : Bool} {index' : ActiveIndex} (hindex : readIndex disk = .ok index)
    (hevents : readEvents disk = .ok (events ++ [last]))
    (h : decideRepair root disk = .ok (.publish run runPublished index')) :
    ∃ current, readRun root disk last.runId = .ok current ∧
      repairEvent disk index last current = .ok (.publish run runPublished index') := by
  simp only [decideRepair, bind_eq_ok] at h
  obtain ⟨index₀, hindex₀, events₀, hevents₀, h⟩ := h
  obtain rfl := Except.ok.inj (hindex.symm.trans hindex₀)
  obtain rfl := Except.ok.inj (hevents.symm.trans hevents₀)
  rw [List.getLast?_append_of_ne_nil _ (List.cons_ne_nil _ _)] at h
  dsimp only [List.getLast?_singleton] at h
  split at h
  · cases h
  split at h
  · cases h
  obtain ⟨current, hcurrent, h⟩ := bind_eq_ok.mp h
  exact ⟨current, hcurrent, h⟩

theorem read_settled (hevents : readEvents disk = .ok events) (hevent : event ∈ events) :
    event.Ok ∧ event.tidy = event := by
  obtain ⟨file, -, hread⟩ := (mem_readAll (readEvents_eq_ok.mp hevents)).mp hevent
  obtain ⟨json, -, hschema⟩ := decodeStateEvent_eq_ok.mp (decode_of_readEventFile hread)
  exact PersistedStateEvent.reads.settled json event hschema

theorem Sourced.repaired (h : Sourced made disk) (hleft : RepairLeaves root disk left) : Sourced made left := by
  obtain rfl | ⟨run, runPublished, index', hdecision, hleft⟩ := hleft
  · exact h
  obtain ⟨index₀, events₀, last₀, current₀, hindex₀, hevents₀, hlast₀, hsequence, hcurrent₀, hrun, hstamp, hderived,
    hpublished⟩ := decideRepair_publish hdecision
  have hrevision : index'.revision = index₀.revision + 1 := by
    rw [hderived]
    exact hsequence
  cases h with
  | unread h => exact absurd hevents₀ (h _ _ hindex₀)
  | settled hindex hevents _ _ _ hlevel =>
    obtain rfl := Except.ok.inj (hindex₀.symm.trans hindex)
    obtain rfl := Except.ok.inj (hevents₀.symm.trans hevents)
    have hle := (readAll_numbered (readEvents_eq_ok.mp hevents)).sequence_le (List.mem_of_getLast? hlast₀)
    omega
  | @appended _ events last stored hindex hevents hlogged hholds hexplained hlevel =>
    obtain rfl := Except.ok.inj (hindex₀.symm.trans hindex)
    obtain rfl := Except.ok.inj (hevents₀.symm.trans hevents)
    obtain rfl : last = last₀ := by simpa using hlast₀
    have hsettled := read_settled hevents (List.mem_append_right _ (List.mem_singleton_self last))
    cases runPublished with
    | true =>
      obtain ⟨written, hwritten, rfl⟩ := hholds.read (hpublished rfl ▸ hcurrent₀)
      have hold := hexplained.revisions _ written hwritten
      have hsame : written.tidy.transactionRevision = written.transactionRevision := rfl
      omega
    | false =>
      obtain ⟨current, hcurrent, hrepair⟩ := decideRepair_source hindex hevents hdecision
      obtain ⟨-, ⟨⟨⟩, -⟩ | ⟨-, -, authority, prepared, -, hprepared, rfl⟩⟩ := repairEvent_publish.mp hrepair
      rw [hholds.snapshot hsettled.1.fields.runId hcurrent] at hprepared
      have hexplained' := hexplained.put hprepared (hstamp.trans hsequence)
      rw [hsettled.2] at hexplained'
      have hput := hholds.writeRun prepared.run
      simp only [Bool.false_eq_true, if_false] at hleft
      obtain rfl | rfl := hleft
      · refine .replaced (show readIndex (disk.writeRun prepared.run) = _ from hindex) hevents hlogged hput hexplained'
          ?_ hstamp hlevel
        rw [Snapshots.put, hrun]
        exact Function.update_self ..
      · refine .written (disk.writeRun prepared.run) hevents hlogged hput ?_ ?_
        · rw [hrevision]
          exact hexplained'
        · rw [hrevision, List.length_append, List.length_singleton, hlevel]
  | @replaced _ events last stored written hindex hevents hlogged hholds hexplained hwritten hwrittenStamp hlevel =>
    obtain rfl := Except.ok.inj (hindex₀.symm.trans hindex)
    obtain rfl := Except.ok.inj (hevents₀.symm.trans hevents)
    obtain rfl : last = last₀ := by simpa using hlast₀
    have hsettled := read_settled hevents (List.mem_append_right _ (List.mem_singleton_self last))
    cases runPublished with
    | true =>
      simp only [if_true] at hleft
      obtain rfl | rfl := hleft
      · exact .replaced hindex hevents hlogged hholds hexplained hwritten hwrittenStamp hlevel
      · refine .written disk hevents hlogged hholds ?_ ?_
        · rw [hrevision]
          exact hexplained
        · rw [hrevision, List.length_append, List.length_singleton, hlevel]
    | false =>
      obtain ⟨current, hcurrent, hrepair⟩ := decideRepair_source hindex hevents hdecision
      have hstored := hholds.snapshot hsettled.1.fields.runId hcurrent
      rw [hwritten] at hstored
      subst hstored
      obtain ⟨-, ⟨⟨⟩, -⟩ | ⟨-, hunstamped, -⟩⟩ := repairEvent_publish.mp hrepair
      have hunstamped : written.tidy.transactionRevision ≠ last.sequence := by simpa [Option.filter] using hunstamped
      exact absurd hwrittenStamp hunstamped

theorem EmptyRoot.sourced (h : EmptyRoot disk) : Sourced made disk := by
  obtain ⟨version, hindex⟩ := h.index
  have hevents : readEvents disk = .ok [] := by
    rw [readEvents_eq_ok, h.events]
    rfl
  have hholds : Holds disk fun _ ↦ none := h.runs
  refine .settled hindex hevents ?_ hholds ⟨fun _ ↦ .nothing, by simp⟩ rfl
  intro before event after hsplit
  simp at hsplit

theorem Sourced.mono (h : Sourced made disk) (hmade : ∀ event, made event → made' event) : Sourced made' disk := by
  cases h with
  | unread h => exact .unread h
  | settled hindex hevents hlogged hholds hexplained hlevel =>
    exact .settled hindex hevents (hlogged.mono hmade) hholds hexplained hlevel
  | appended hindex hevents hlogged hholds hexplained hlevel =>
    exact .appended hindex hevents (hlogged.mono hmade) hholds hexplained hlevel
  | replaced hindex hevents hlogged hholds hexplained hrun hstamp hlevel =>
    exact .replaced hindex hevents (hlogged.mono hmade) hholds hexplained hrun hstamp hlevel

theorem Sourced.receipts (h : Sourced made disk) (receipts : AnyRun → Except Thrown ReceiptAuthority) :
    Sourced made { disk with receipts } := by
  cases h with
  | unread h => exact .unread h
  | settled hindex hevents hlogged hholds hexplained hlevel =>
    exact .settled hindex hevents hlogged hholds hexplained hlevel
  | appended hindex hevents hlogged hholds hexplained hlevel =>
    exact .appended hindex hevents hlogged hholds hexplained hlevel
  | replaced hindex hevents hlogged hholds hexplained hrun hstamp hlevel =>
    exact .replaced hindex hevents hlogged hholds hexplained hrun hstamp hlevel

/-- Each event of a log that is read was accepted on the run that the log before it explains. -/
theorem Sourced.logged (h : Sourced made disk) (hindex : readIndex disk = .ok index)
    (hevents : readEvents disk = .ok events) : Logged made events := by
  cases h with
  | unread h => exact absurd hevents (h _ _ hindex)
  | settled _ hevents' hlogged | appended _ hevents' hlogged | replaced _ hevents' hlogged =>
    obtain rfl := Except.ok.inj (hevents.symm.trans hevents')
    exact hlogged

/-- In a root that no call has left half done, the log explains each run. -/
theorem Sourced.explains (h : Sourced made disk) (hindex : readIndex disk = .ok index)
    (hevents : readEvents disk = .ok events) (hlevel : events.length = index.revision) (hid : isUuid id = true)
    (hread : readRun root disk id = .ok current) : Explains (logOf events id) current := by
  cases h with
  | unread h => exact absurd hevents (h _ _ hindex)
  | settled _ hevents' _ hholds hexplained =>
    obtain rfl := Except.ok.inj (hevents.symm.trans hevents')
    rw [hholds.snapshot hid hread]
    exact hexplained.runs id
  | appended hindex' hevents' _ _ _ hlevel' | replaced hindex' hevents' _ _ _ _ _ hlevel' =>
    obtain rfl := Except.ok.inj (hindex.symm.trans hindex')
    obtain rfl := Except.ok.inj (hevents.symm.trans hevents')
    rw [List.length_append, List.length_singleton] at hlevel
    omega

end Histories

/-! Logs that grow. -/

section Growth

variable {root : StateRoot} {disk later : Disk} {events events' : List PersistedStateEvent}

theorem files_kept (h : RootStep root disk later) : disk.events ⊆ later.events := by
  cases h with
  | receipts => exact List.Subset.refl _
  | repair hexec => rw [repairLeaves_events (repair_cases hexec)]; exact List.Subset.refl _
  | commit hobject hexec =>
    obtain ⟨hsame, -⟩ | ⟨-, _, _, _, _, _, -, hpublished⟩ := commit_cases hexec
    · rw [hsame]
      exact List.Subset.refl _
    · obtain hsame | hadded := hpublished.log
      · rw [hsame]
        exact List.Subset.refl _
      · rw [hadded]
        exact List.subset_append_left _ _

theorem files_forever (h : ReflTransGen (RootStep root) disk later) : disk.events ⊆ later.events := by
  induction h with
  | refl => exact List.Subset.refl _
  | tail _ hstep ih => exact List.Subset.trans ih (files_kept hstep)

/-- What was read of a log is read of it again. -/
theorem log_kept (h : ReflTransGen (RootStep root) disk later) (hevents : readEvents disk = .ok events)
    (hevents' : readEvents later = .ok events') : events ⊆ events' := by
  have hfiles := files_forever h
  intro event hevent
  obtain ⟨file, hfile, hread⟩ := (mem_readAll (readEvents_eq_ok.mp hevents)).mp hevent
  exact (mem_readAll (readEvents_eq_ok.mp hevents')).mpr ⟨file, hfiles hfile, hread⟩

end Growth

/-! Runs of a root. -/

/-- What happens to a root that gets events of version 2: calls of `commit` and of `repairState`, wherever they crash or
stop, and workers that write their ledgers. -/
inductive LoggedStep (root : StateRoot) : Disk → Option PersistedStateEvent → Disk → Prop
  | commit {disk : Disk} {options : CommitOptions} {event : PersistedStateEvent} {deadline : Deadline}
      {outcome : Except Thrown TransactionResult} {session : Session} (version : event.version ≠ .v1)
      (named : isUuid event.eventId = true)
      (commits : exec (commit root options (.ofValue event)) ⟨disk, deadline⟩ = (outcome, session)) :
      LoggedStep root disk (some event) session.disk
  | repair {disk : Disk} {options : CallOptions} {deadline : Deadline}
      {outcome : Except Thrown (Except RepairErrorCode Repaired)} {session : Session}
      (repairs : exec (repairState root options) ⟨disk, deadline⟩ = (outcome, session)) :
      LoggedStep root disk none session.disk
  | receipts {disk : Disk} (receipts : AnyRun → Except Thrown ReceiptAuthority) :
      LoggedStep root disk none { disk with receipts }

section Runs

variable {root : StateRoot} {start disk later : Disk} {call : Option PersistedStateEvent}
  {calls : List (Option PersistedStateEvent)}

theorem sourced_loggedStep (h : Sourced (fun event ↦ some event ∈ calls) disk) (hstep : LoggedStep root disk call later) :
    Sourced (fun event ↦ some event ∈ calls ++ [call]) later := by
  have hbefore : Sourced (fun event ↦ some event ∈ calls ++ [call]) disk :=
    h.mono fun event hevent ↦ List.mem_append_left _ hevent
  cases hstep with
  | repair hrepairs => exact hbefore.repaired (repair_cases hrepairs)
  | receipts receipts => exact hbefore.receipts receipts
  | commit version named commits =>
    obtain ⟨hsame, -⟩ | ⟨hid, _, _, _, _, _, hadmits, hpublished⟩ := commit_cases commits
    · rw [hsame]
      exact hbefore
    · exact hbefore.published (List.mem_append_right calls (List.mem_singleton_self _)) version named hid hadmits
        hpublished

theorem sourced_logged (hempty : EmptyRoot start) (h : Recorded (LoggedStep root) start calls disk) :
    Sourced (fun event ↦ some event ∈ calls) disk := by
  induction h with
  | nil => exact hempty.sourced
  | snoc _ hstep ih => exact sourced_loggedStep ih hstep

/-- Whatever crashes and is repaired, the log of a root explains its snapshots: each event of it is one that was given,
and was accepted on the run that the events before it explain; and where the index has come as far as the log, what is
read of a run is what its events explain, and there is no run without events. -/
theorem log_explains {index : ActiveIndex} {events : List PersistedStateEvent} (hempty : EmptyRoot start)
    (h : Recorded (LoggedStep root) start calls disk) (hindex : readIndex disk = .ok index)
    (hevents : readEvents disk = .ok events) : Logged (fun event ↦ some event ∈ calls) events ∧
      (events.length = index.revision → ∀ id current, isUuid id = true → readRun root disk id = .ok current →
        Explains (logOf events id) current) := by
  have hsourced := sourced_logged hempty h
  exact ⟨hsourced.logged hindex hevents, fun hlevel id current hid hread ↦
    hsourced.explains hindex hevents hlevel hid hread⟩

end Runs

theorem created_explained : Explains [Sample.creation] (some Sample.run) := by
  have hstep : LoggedStep Sample.root Sample.initial (some Sample.creation) Sample.created :=
    .commit (by decide) (by decide) Prod.mk.eta.symm
  have hindex : readIndex Sample.created = .ok Sample.index := by decide
  have hevents : readEvents Sample.created = .ok [Sample.creation] := by decide
  have hread : readRun Sample.root Sample.created Sample.runId = .ok (some Sample.run) := by decide
  have hexplains := log_explains Sample.initial_empty (Recorded.nil.snoc hstep) hindex hevents
  exact hexplains.2 rfl Sample.runId _ (by decide) hread

end OmpLazy.State

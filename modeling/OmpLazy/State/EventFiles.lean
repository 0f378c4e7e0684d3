import OmpLazy.State.Replay
import OmpLazy.State.RootHistory

/-! The files of the log: which events are read from them again, and what a file that is not read does to a root. -/

namespace OmpLazy.State

open OmpLazy.Foundation OmpLazy.Foundation.Schema OmpLazy.Foundation.Text EventStore Action Store Relation

/-! Names. -/

section Names

variable {event read : PersistedStateEvent} {ds rest : List Char}

theorem digits_of_isDigit (h : ∀ c ∈ ds, Text.isDigit c = true) :
    Text.digits ds.length (ds ++ rest) = some (Nat.ofDigitChars 10 ds 0, rest) := by
  induction ds with
  | nil => rfl
  | cons c ds ih =>
    obtain ⟨hc, hds⟩ := List.forall_mem_cons.mp h
    have hvalue : Nat.ofDigitChars 10 (c :: ds) 0 = (c.toNat - 48) * 10 ^ ds.length + Nat.ofDigitChars 10 ds 0 := by
      rw [Nat.ofDigitChars_cons, Nat.ofDigitChars_eq_ofDigitChars_zero, Nat.mul_zero, Nat.zero_add, Nat.mul_comm]
      rfl
    rw [List.cons_append, List.length_cons, Text.digits, if_pos hc, ih hds, hvalue]
    rfl

theorem isDigit_of_char {c : Char} (h : c.isDigit = true) : Text.isDigit c = true := by
  rw [Char.isDigit, Bool.and_eq_true, decide_eq_true_eq, decide_eq_true_eq] at h
  rw [Text.isDigit, Bool.and_eq_true, decide_eq_true_eq, decide_eq_true_eq]
  exact h

theorem isDigit_padded (sequence : ℕ) : ∀ c ∈ padded sequence, Text.isDigit c = true := by
  intro c hc
  obtain hc | hc := List.mem_append.mp hc
  · rw [List.eq_of_mem_replicate hc]
    decide
  · rw [Nat.toString_eq_ofList_toDigits, String.toList_ofList] at hc
    apply isDigit_of_char
    exact Nat.isDigit_of_mem_toDigits (by decide) (by decide) hc

theorem value_padded (sequence : ℕ) : Nat.ofDigitChars 10 (padded sequence) 0 = sequence := by
  rw [padded, Nat.toString_eq_ofList_toDigits, String.toList_ofList, Nat.ofDigitChars_append,
    Nat.ofDigitChars_replicate_zero, Nat.mul_zero, Nat.ofDigitChars_ten_toDigits]

theorem length_padded {sequence : ℕ} (h : sequence < 10 ^ 16) : (padded sequence).length = 16 := by
  have hdigits : (toString sequence).toList.length ≤ 16 := by
    rw [Nat.toString_eq_ofList_toDigits, String.toList_ofList]
    exact (Nat.length_toDigits_le_iff (by decide) (by decide)).mpr h
  rw [padded, List.length_append, List.length_replicate]
  omega

/-- An id as the names of files spell it. -/
def LowerId (id : Uuid) : Prop := ∀ c ∈ id.toList, isEventIdChar c = true

instance (id : Uuid) : Decidable (LowerId id) :=
  decidable_of_iff (id.toList.all isEventIdChar = true) List.all_eq_true

theorem parse_eventName (hid : isUuid event.eventId = true) (hsequence : event.sequence ≤ maxSafeInteger) :
    parseEventName (eventName event) = if LowerId event.eventId then some (event.sequence, event.eventId) else none := by
  have hlength : (padded event.sequence).length = 16 := length_padded (lt_of_le_of_lt hsequence (by decide))
  have hname : (eventName event).toList = padded event.sequence ++ '-' :: (event.eventId.toList ++ ".json".toList) := by
    simp [eventName, String.toList_append]
  have htake : (event.eventId.toList ++ ".json".toList).take 36 = event.eventId.toList := by
    rw [← isUuid_length hid, List.take_left]
  have hdrop : (event.eventId.toList ++ ".json".toList).drop 36 = ".json".toList := by
    rw [← isUuid_length hid, List.drop_left]
  have hdigits : Text.digits 16 (padded event.sequence ++ '-' :: (event.eventId.toList ++ ".json".toList)) =
      some (event.sequence, '-' :: (event.eventId.toList ++ ".json".toList)) := by
    rw [← hlength, digits_of_isDigit (isDigit_padded event.sequence), value_padded]
  have hchecks : (decide ((event.eventId.toList ++ ".json".toList).drop 36 = ".json".toList) &&
      ((event.eventId.toList ++ ".json".toList).take 36).all isEventIdChar) = true ↔ LowerId event.eventId := by
    rw [hdrop, htake, decide_eq_true rfl, Bool.true_and, List.all_eq_true, LowerId]
  rw [parseEventName, hname, hdigits]
  refine (if_congr hchecks ?_ rfl : _)
  rw [htake, String.ofList_toList]

theorem lowerId_of_parse {name : String} {sequence : ℕ} {id : String} (h : parseEventName name = some (sequence, id)) :
    LowerId id := by
  rw [parseEventName] at h
  split at h
  · split at h
    · rename_i hrest
      obtain ⟨-, rfl⟩ := Prod.mk.inj (Option.some.inj h)
      rw [Bool.and_eq_true, List.all_eq_true] at hrest
      intro c hc
      rw [String.toList_ofList] at hc
      exact hrest.2 c hc
    · cases h
  · cases h

/-- An event is read from the file that is written for it where the schema accepts it under an id in lower case. -/
theorem read_written_iff : readEventFile (eventFile (.ofValue event)) = .ok read ↔
    (event.Ok ∧ event.tidy = read) ∧ LowerId event.eventId := by
  have hdecode : ∀ read, decodeStateEvent (EventObject.ofValue event).bytes = .ok read ↔ event.Ok ∧ event.tidy = read := by
    intro read
    rw [decodeStateEvent_eq_ok, ← PersistedStateEvent.reads.encoded]
    constructor
    · rintro ⟨json, hjson, hschema⟩
      obtain rfl := Option.some.inj hjson
      exact hschema
    · exact fun hschema ↦ ⟨_, rfl, hschema⟩
  constructor
  · intro h
    have hread := (hdecode read).mp (decode_of_readEventFile h)
    refine ⟨hread, ?_⟩
    have hid := lowerId_of_parse (parse_of_readEventFile h)
    rw [← hread.2] at hid
    exact hid
  · rintro ⟨hread, hlower⟩
    have hfields := hread.1.fields
    have hparse : parseEventName (eventFile (.ofValue event)).name = some (event.sequence, event.eventId) :=
      (parse_eventName hfields.eventId hfields.sequence).trans (if_pos hlower)
    have hbytes : decodeStateEvent (eventFile (.ofValue event)).bytes = .ok read := (hdecode read).mpr hread
    rw [readEventFile, hparse]
    dsimp only
    rw [hbytes]
    dsimp only
    rw [← hread.2, if_neg]
    rintro (hsequence | hid)
    · exact hsequence rfl
    · exact hid rfl

end Names

/-! Roots whose log is lost. -/

section Lost

variable {root : StateRoot} {disk later : Disk} {event : EventObject}

def Lost (disk : Disk) : Prop := ∀ events, readEvents disk ≠ .ok events

theorem Lost.step (h : Lost disk) (hstep : RootStep root disk later) : Lost later := by
  cases hstep with
  | commit hevent hexec =>
    obtain ⟨hsame, -⟩ | ⟨-, index, events, _, _, _, hadmits, -⟩ := commit_cases hexec
    · rw [hsame]
      exact h
    · exact absurd hadmits.hevents (h events)
  | repair hexec =>
    obtain hsame | ⟨_, _, _, hdecision, -⟩ := repair_cases hexec
    · rw [hsame]
      exact h
    · rw [decideRepair] at hdecision
      obtain ⟨_, -, hdecision⟩ := bind_eq_ok.mp hdecision
      obtain ⟨events, hevents, -⟩ := bind_eq_ok.mp hdecision
      exact absurd hevents (h events)
  | receipts => exact h

/-- Nothing that happens to a root brings back a log that is lost. -/
theorem Lost.forever (h : Lost disk) (hsteps : ReflTransGen (RootStep root) disk later) : Lost later := by
  induction hsteps with
  | refl => exact h
  | tail _ hstep ih => exact ih.step hstep

theorem Lost.refuses {options : CommitOptions} {deadline : Deadline} {done : Committed} {session : Session}
    (h : Lost disk) : exec (commit root options event) ⟨disk, deadline⟩ ≠ (.ok (.ok done), session) := by
  intro hdone
  have hunhindered := unhindered_of_done hdone
  obtain ⟨hsame, hreplayed⟩ | ⟨-, _, events, _, _, _, hadmits, -⟩ := commit_cases hdone
  · have hstatus := hreplayed done rfl
    obtain ⟨status, run, index⟩ := done
    obtain rfl : status = .replayed := hstatus
    by_cases hid : isUuid event.value.runId = true
    · have hsession : session = ⟨disk, session.deadline⟩ := by rw [← hsame]
      rw [hsession] at hdone
      obtain ⟨_, events, _, _, hreplays⟩ := (replayed_iff_replays hunhindered hid).mp ⟨run, index, _, hdone⟩
      exact h events hreplays.hevents
    · rw [exec_commit] at hdone
      split at hdone
      · cases hdone
      · rw [if_pos (Bool.eq_false_iff.mpr hid)] at hdone
        cases hdone
  · exact absurd hadmits.hevents (h events)

theorem persisted_of_version {value : PersistedStateEvent} (h : value.version ≠ .v1) (index : ActiveIndex) :
    persistedEventForIndex index (.ofValue value) = .ofValue value := by
  apply persistedEventForIndex_of_not_upgrades
  unfold upgrades
  split
  · exact absurd ‹_› h
  · rfl

/-- A log is read from the file of each event. -/
theorem read_of_readAll {value : PersistedStateEvent} (hid : isUuid value.eventId = true) {files : List EventFile}
    {events : List PersistedStateEvent} (hmem : eventFile (.ofValue value) ∈ files) (h : readAll files = .ok events) :
    ∃ read, readEventFile (eventFile (.ofValue value)) = .ok read := by
  obtain ⟨all, hall, -⟩ := readAll_eq_ok.mp h
  have hkept : eventFile (.ofValue value) ∈ files.filter fun file ↦ !isTemporary file.name := by
    refine List.mem_filter.mpr ⟨hmem, ?_⟩
    rw [Bool.not_eq_true']
    exact not_isTemporary_eventName hid
  obtain ⟨read, -, hfile⟩ := exists_of_forall₂ (mapM_eq_ok.mp hall).flip hkept
  exact ⟨read, hfile⟩

/-- No file of a log has the name of the event that comes next. -/
theorem eventName_next {events : List PersistedStateEvent} {value : PersistedStateEvent} (hid : isUuid value.eventId = true)
    (hlower : LowerId value.eventId) (hbound : value.sequence ≤ maxSafeInteger) {files : List EventFile}
    (h : readAll files = .ok events) (hnext : value.sequence = events.length + 1) :
    eventName value ∉ files.map (·.name) := by
  intro hmem
  obtain ⟨file, hfile, hname⟩ := List.mem_map.mp hmem
  obtain ⟨all, hall, hsorted, hnumbered⟩ := readAll_eq_ok.mp h
  have hkept : file ∈ files.filter fun file ↦ !isTemporary file.name := by
    refine List.mem_filter.mpr ⟨hfile, ?_⟩
    rw [hname, Bool.not_eq_true']
    exact not_isTemporary_eventName hid
  obtain ⟨read, hread, hreads⟩ := exists_of_forall₂ (mapM_eq_ok.mp hall).flip hkept
  have hparse := parse_of_readEventFile hreads
  rw [hname, parse_eventName hid hbound, if_pos hlower] at hparse
  have hsequence := (Prod.mk.inj (Option.some.inj hparse)).1
  have hmem : read ∈ events := by
    rw [← hsorted]
    exact (List.mem_insertionSort _).mpr hread
  have hle := (hnumbered.sequence_le hmem).2
  omega

/-- A commit keeps the log of its root just where its event is read from its file again. -/
theorem committed_lost_iff {options : CommitOptions} {deadline : Deadline} {run : AnyRun} {index : ActiveIndex}
    {session : Session} {value : PersistedStateEvent} (hvalue : value.version ≠ .v1) (hid : isUuid value.eventId = true)
    (h : exec (commit root options (.ofValue value)) ⟨disk, deadline⟩ = (.ok (.ok ⟨.committed, run, index⟩), session)) :
    Lost session.disk ↔ ¬ ∃ read, readEventFile (eventFile (.ofValue value)) = .ok read := by
  obtain ⟨-, before, events, current, authority, hadmits, -, hdisk⟩ := commit_committed h
  have hpersisted := persisted_of_version hvalue before
  have hsequence := hadmits.sequence
  rw [hpersisted] at hsequence hdisk
  have hlog : session.disk.events = disk.events ++ [eventFile (.ofValue value)] := by
    rw [hdisk]
    rfl
  have hread := readEvents_eq_ok.mp hadmits.hevents
  constructor
  · rintro hlost ⟨read, hfile⟩
    have hnumber : read.sequence = events.length + 1 := by
      obtain ⟨⟨-, rfl⟩, -⟩ := read_written_iff.mp hfile
      rw [hadmits.length]
      exact hsequence
    apply hlost (events ++ [read])
    rw [readEvents_eq_ok, hlog]
    exact EventStore.readAll_append hread hfile hnumber
  · intro hunread events' hevents'
    rw [readEvents_eq_ok, hlog] at hevents'
    exact hunread (read_of_readAll hid (List.mem_append_right _ (List.mem_singleton_self _)) hevents')

end Lost

/-! Events that stay in the log. -/

section Kept

variable {root : StateRoot} {disk later : Disk} {event : PersistedStateEvent} {events : List PersistedStateEvent}

/-- The file of an event is in the log, and no other of its files is read as an event of its id. -/
structure Kept (event : PersistedStateEvent) (disk : Disk) : Prop where
  stored : eventFile (.ofValue event) ∈ disk.events
  alone : ∀ file ∈ disk.events, ∀ read, readEventFile file = .ok read → read.eventId = event.eventId →
    file = eventFile (.ofValue event)

theorem mem_readAll {files : List EventFile} (h : readAll files = .ok events) {read : PersistedStateEvent} :
    read ∈ events ↔ ∃ file ∈ files, readEventFile file = .ok read := by
  obtain ⟨all, hall, rfl, -⟩ := readAll_eq_ok.mp h
  have hread := mapM_eq_ok.mp hall
  rw [List.mem_insertionSort]
  constructor
  · intro hmem
    obtain ⟨file, hfile, heq⟩ := exists_of_forall₂ hread hmem
    exact ⟨file, List.mem_of_mem_filter hfile, heq⟩
  · rintro ⟨file, hfile, heq⟩
    have hkept : file ∈ files.filter fun file ↦ !isTemporary file.name := by
      refine List.mem_filter.mpr ⟨hfile, ?_⟩
      rw [not_isTemporary_of_parse (parse_of_readEventFile heq), Bool.not_false]
    obtain ⟨other, hother, hsame⟩ := exists_of_forall₂ hread.flip hkept
    obtain rfl := Except.ok.inj (heq.symm.trans hsame)
    exact hother

/-- A log has the event under its id as its file is read. -/
theorem Kept.found (h : Kept event disk) (hok : event.Ok) (hlower : LowerId event.eventId)
    (hevents : readEvents disk = .ok events) : events.find? (·.eventId = event.eventId) = some event.tidy := by
  have hread := readEvents_eq_ok.mp hevents
  have hfile : readEventFile (eventFile (.ofValue event)) = .ok event.tidy := read_written_iff.mpr ⟨⟨hok, rfl⟩, hlower⟩
  cases hfound : events.find? (·.eventId = event.eventId) with
  | none =>
    have hmem : event.tidy ∈ events := (mem_readAll hread).mpr ⟨_, h.stored, hfile⟩
    exact absurd (decide_eq_true (rfl : event.tidy.eventId = event.eventId)) (List.find?_eq_none.mp hfound _ hmem)
  | some other =>
    obtain ⟨file, hmem, heq⟩ := (mem_readAll hread).mp (List.mem_of_find?_eq_some hfound)
    have hnamed := List.find?_some hfound
    have hid : other.eventId = event.eventId := of_decide_eq_true hnamed
    rw [h.alone file hmem other heq hid, hfile] at heq
    rw [Except.ok.inj heq]

theorem EventObject.Faithful.read_id {object : EventObject} (h : object.Faithful) {read : PersistedStateEvent}
    (hread : readEventFile (eventFile object) = .ok read) : read.eventId = object.value.eventId := by
  have hsequence : object.value.sequence ≤ maxSafeInteger := by
    rw [← (h.read hread).2]
    obtain ⟨json, -, hschema⟩ := decodeStateEvent_eq_ok.mp (decode_of_readEventFile hread)
    exact (PersistedStateEvent.reads.settled json read hschema).1.fields.sequence
  have hparse := parse_of_readEventFile hread
  rw [eventFile, parse_eventName h.eventId hsequence] at hparse
  split at hparse
  · exact (Prod.mk.inj (Option.some.inj hparse)).2.symm
  · cases hparse

theorem repairLeaves_events (h : RepairLeaves root disk later) : later.events = disk.events := by
  have hrun : ∀ (run : AnyRun) (published : Bool),
      (if published then disk else disk.writeRun run).events = disk.events := by
    intro run published
    cases published <;> rfl
  obtain rfl | ⟨run, published, index, -, rfl | rfl⟩ := h
  · rfl
  · exact hrun run published
  · exact hrun run published

theorem Kept.append (h : Kept event disk) (hok : event.Ok) (hlower : LowerId event.eventId) {object : EventObject}
    (hobject : object.Faithful) (hevents : readEvents disk = .ok events)
    (hfresh : events.find? (·.eventId = object.value.eventId) = none)
    (hlater : later.events = disk.events ++ [eventFile object]) : Kept event later := by
  refine ⟨?_, fun file hmem read hread hid ↦ ?_⟩
  · rw [hlater]
    exact List.mem_append_left _ h.stored
  rw [hlater] at hmem
  obtain hmem | hmem := List.mem_append.mp hmem
  · exact h.alone file hmem read hread hid
  · obtain rfl := List.mem_singleton.mp hmem
    rw [← hobject.read_id hread, hid, h.found hok hlower hevents] at hfresh
    cases hfresh

theorem Kept.step (h : Kept event disk) (hok : event.Ok) (hlower : LowerId event.eventId)
    (hstep : RootStep root disk later) : Kept event later := by
  cases hstep with
  | receipts => exact ⟨h.stored, h.alone⟩
  | repair hexec =>
    have hsame := repairLeaves_events (repair_cases hexec)
    exact ⟨hsame ▸ h.stored, hsame ▸ h.alone⟩
  | commit hobject hexec =>
    obtain ⟨hsame, -⟩ | ⟨-, index, all, current, authority, prepared, hadmits, hpublished⟩ := commit_cases hexec
    · rw [hsame]
      exact h
    · obtain hsame | hadded := hpublished.log
      · exact ⟨hsame ▸ h.stored, hsame ▸ h.alone⟩
      · refine h.append hok hlower (hobject.persisted index) hadmits.hevents ?_ hadded
        rw [eventId_persisted]
        exact hadmits.hfresh

/-- An event that was committed is kept. -/
theorem committed_kept {options : CommitOptions} {deadline : Deadline} {run : AnyRun} {index : ActiveIndex}
    {session : Session} (hversion : event.version ≠ .v1)
    (h : exec (commit root options (.ofValue event)) ⟨disk, deadline⟩ = (.ok (.ok ⟨.committed, run, index⟩), session)) :
    Kept event session.disk := by
  obtain ⟨-, before, all, current, authority, hadmits, -, hdisk⟩ := commit_committed h
  have hlog : session.disk.events = disk.events ++ [eventFile (.ofValue event)] := by
    rw [hdisk, persisted_of_version hversion]
    rfl
  refine ⟨?_, fun file hmem read hread hsame ↦ ?_⟩
  · rw [hlog]
    exact List.mem_append_right _ (List.mem_singleton_self _)
  rw [hlog] at hmem
  obtain hmem | hmem := List.mem_append.mp hmem
  · have hmem := (mem_readAll (readEvents_eq_ok.mp hadmits.hevents)).mpr ⟨file, hmem, hread⟩
    exact absurd (decide_eq_true hsame) (List.find?_eq_none.mp hadmits.hfresh read hmem)
  · exact List.mem_singleton.mp hmem

/-- Whatever happens to a root, an event stays in its log. -/
theorem Kept.forever (h : Kept event disk) (hok : event.Ok) (hlower : LowerId event.eventId)
    (hsteps : ReflTransGen (RootStep root) disk later) : Kept event later := by
  induction hsteps with
  | refl => exact h
  | tail _ hstep ih => exact ih.step hok hlower hstep

end Kept

end OmpLazy.State

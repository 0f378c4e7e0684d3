import OmpLazy.State.PersistedEvent
import Mathlib.Data.List.Sort
import Mathlib.Data.List.Infix

namespace OmpLazy.State

open OmpLazy.Foundation

inductive EventStoreErrorCode where
  | invalidEventFilename
  | malformedEvent
  | eventFilenameMismatch
  | eventSequenceGap
  deriving DecidableEq, Repr

/-- A file of the event directory. -/
structure EventFile where
  name : String
  bytes : Bytes
  deriving DecidableEq

namespace EventStore

/-- `sequence.toString().padStart(16, "0")`. -/
def padded (sequence : ℕ) : List Char :=
  let digits := (toString sequence).toList
  List.replicate (16 - digits.length) '0' ++ digits

/-- The name of the file in which an event is stored. -/
def eventName (event : PersistedStateEvent) : String :=
  String.ofList (padded event.sequence) ++ "-" ++ event.eventId ++ ".json"

def isEventIdChar (c : Char) : Bool := Text.isLowerHex c || c == '-'

/-- `/^(\d{16})-([0-9a-f-]{36})\.json$/`. -/
def parseEventName (name : String) : Option (ℕ × String) :=
  match Text.digits 16 name.toList with
  | some (sequence, '-' :: rest) =>
    if rest.drop 36 = ".json".toList && (rest.take 36).all isEventIdChar then
      some (sequence, String.ofList (rest.take 36))
    else none
  | _ => none

/-- `name.includes(".tmp-")`. -/
def isTemporary (name : String) : Bool := ".tmp-".toList <:+: name.toList

def readEventFile (file : EventFile) : Except EventStoreErrorCode PersistedStateEvent :=
  match parseEventName file.name with
  | none => .error .invalidEventFilename
  | some (sequence, eventId) =>
    match decodeStateEvent file.bytes with
    | .error _ => .error .malformedEvent
    | .ok event =>
      if event.sequence ≠ sequence ∨ event.eventId ≠ eventId then .error .eventFilenameMismatch
      else .ok event

def bySequence (left right : PersistedStateEvent) : Prop := left.sequence ≤ right.sequence

instance : DecidableRel bySequence := fun left right ↦ Nat.decLe left.sequence right.sequence

def readAll (files : List EventFile) : Except EventStoreErrorCode (List PersistedStateEvent) := do
  let events ← (files.filter fun file ↦ !isTemporary file.name).mapM readEventFile
  let events := events.insertionSort bySequence
  if events.map (·.sequence) = List.range' 1 events.length then .ok events
  else .error .eventSequenceGap

def eventFile (event : EventObject) : EventFile := ⟨eventName event.value, event.bytes⟩

/-- The file in which an event is stored is read back as the event. -/
def ReadsBack (event : EventObject) : Prop := readEventFile (eventFile event) = .ok event.value

instance (event : EventObject) : Decidable (ReadsBack event) :=
  inferInstanceAs (Decidable (_ = Except.ok _))

/-! Names. -/

theorem digits_eq_some {n value : ℕ} {cs rest : List Char}
    (h : Text.digits n cs = some (value, rest)) :
    ∃ ds, cs = ds ++ rest ∧ ∀ c ∈ ds, Text.isDigit c = true := by
  induction n generalizing cs value with
  | zero =>
    obtain ⟨-, rfl⟩ := Prod.mk.inj (Option.some.inj h)
    exact ⟨[], rfl, by simp⟩
  | succ n ih =>
    cases cs with
    | nil => simp [Text.digits] at h
    | cons c cs =>
      rw [Text.digits] at h
      split at h
      · obtain ⟨⟨v, rest'⟩, hdigits, heq⟩ := Option.map_eq_some_iff.mp h
        obtain ⟨-, rfl⟩ := Prod.mk.inj heq
        obtain ⟨ds, rfl, hds⟩ := ih hdigits
        exact ⟨c :: ds, rfl, List.forall_mem_cons.mpr ⟨‹_›, hds⟩⟩
      · cases h

/-- A committed name has no `t`, which the mark of a temporary file has. -/
theorem not_isTemporary_of_parse {name : String} {parsed : ℕ × String}
    (h : parseEventName name = some parsed) : isTemporary name = false := by
  have ht : 't' ∉ name.toList := by
    rw [parseEventName] at h
    split at h
    · rename_i sequence rest hdigits
      split at h
      · rename_i hrest
        obtain ⟨ds, hname, hds⟩ := digits_eq_some hdigits
        simp only [Bool.and_eq_true, decide_eq_true_eq, List.all_eq_true] at hrest
        rw [hname, ← List.take_append_drop 36 rest, hrest.1]
        simp only [List.mem_append, List.mem_cons, not_or]
        refine ⟨fun hmem ↦ ?_, by decide, fun hmem ↦ ?_, by decide⟩
        · exact absurd (hds _ hmem) (by decide)
        · exact absurd (hrest.2 _ hmem) (by decide)
      · cases h
    · cases h
  rw [isTemporary, decide_eq_false_iff_not]
  exact fun hpart ↦ ht (hpart.subset (by decide))

theorem parse_of_readEventFile {file : EventFile} {event : PersistedStateEvent}
    (h : readEventFile file = .ok event) : parseEventName file.name = some (event.sequence, event.eventId) := by
  rw [readEventFile] at h
  split at h
  · cases h
  · split at h
    · cases h
    · split at h
      · cases h
      · rename_i hids
        obtain rfl := Except.ok.inj h
        simp only [ne_eq, not_or, not_not] at hids
        rw [‹parseEventName file.name = some _›, hids.1, hids.2]

theorem decode_of_readEventFile {file : EventFile} {event : PersistedStateEvent}
    (h : readEventFile file = .ok event) : decodeStateEvent file.bytes = .ok event := by
  rw [readEventFile] at h
  split at h
  · cases h
  · split at h
    · cases h
    · split at h
      · cases h
      · obtain rfl := Except.ok.inj h
        assumption

/-! The log. -/

/-- Events in order, numbered from 1 without a gap. -/
def Numbered (events : List PersistedStateEvent) : Prop :=
  events.map (·.sequence) = List.range' 1 events.length

theorem readAll_eq_ok {files : List EventFile} {events : List PersistedStateEvent} :
    readAll files = .ok events ↔ ∃ read,
      (files.filter fun file ↦ !isTemporary file.name).mapM readEventFile = .ok read ∧
        read.insertionSort bySequence = events ∧ Numbered events := by
  rw [readAll]
  cases (files.filter fun file ↦ !isTemporary file.name).mapM readEventFile with
  | error code => simp [bind, Except.bind]
  | ok read =>
    simp only [bind, Except.bind, Except.ok.injEq, exists_eq_left', Numbered]
    constructor
    · intro h
      split at h
      · obtain rfl := Except.ok.inj h
        exact ⟨rfl, ‹_›⟩
      · cases h
    · rintro ⟨rfl, hnumbered⟩
      rw [if_pos hnumbered]

theorem Numbered.append {events : List PersistedStateEvent} (h : Numbered events)
    {event : PersistedStateEvent} (hsequence : event.sequence = events.length + 1) :
    Numbered (events ++ [event]) := by
  rw [Numbered, List.map_append, h, List.length_append, List.map_singleton, hsequence,
    List.length_singleton, List.range'_concat]
  simp [Nat.add_comm]

theorem Numbered.sequence_le {events : List PersistedStateEvent} (h : Numbered events)
    {event : PersistedStateEvent} (hmem : event ∈ events) :
    1 ≤ event.sequence ∧ event.sequence ≤ events.length := by
  have hseq : event.sequence ∈ events.map (·.sequence) := List.mem_map_of_mem hmem
  rw [h, List.mem_range'_1] at hseq
  omega

theorem Numbered.highest {events : List PersistedStateEvent} (h : Numbered events) :
    ((events.getLast?.map (·.sequence)).getD 0) = events.length := by
  rcases List.eq_nil_or_concat events with rfl | ⟨init, last, rfl⟩
  · rfl
  · have hmap := h
    rw [Numbered, List.concat_eq_append, List.map_append, List.length_append, List.length_singleton,
      List.range'_concat] at hmap
    have hlast := List.append_inj_right' hmap rfl
    simp only [List.map_singleton, List.cons.injEq, and_true] at hlast
    simp [hlast, Nat.add_comm]

theorem orderedInsert_append {event last : PersistedStateEvent} {events : List PersistedStateEvent}
    (h : bySequence event last) :
    (events ++ [last]).orderedInsert bySequence event =
      events.orderedInsert bySequence event ++ [last] := by
  induction events with
  | nil => simp [List.orderedInsert, h]
  | cons first events ih =>
    by_cases hfirst : bySequence event first
    · simp [List.orderedInsert, hfirst]
    · simp [List.orderedInsert, hfirst, ih]

theorem insertionSort_append {last : PersistedStateEvent} {events : List PersistedStateEvent}
    (h : ∀ event ∈ events, bySequence event last) :
    (events ++ [last]).insertionSort bySequence = events.insertionSort bySequence ++ [last] := by
  induction events with
  | nil => rfl
  | cons event events ih =>
    rw [List.cons_append, List.insertionSort_cons, List.insertionSort_cons,
      ih fun e he ↦ h e (List.mem_cons_of_mem _ he), orderedInsert_append (h event List.mem_cons_self)]

/-- Appending the next event to a readable log gives the log with that event at its end. -/
theorem readAll_append {files : List EventFile} {events : List PersistedStateEvent} {file : EventFile}
    {event : PersistedStateEvent} (h : readAll files = .ok events)
    (hfile : readEventFile file = .ok event) (hsequence : event.sequence = events.length + 1) :
    readAll (files ++ [file]) = .ok (events ++ [event]) := by
  obtain ⟨read, hread, rfl, hnumbered⟩ := readAll_eq_ok.mp h
  refine readAll_eq_ok.mpr ⟨read ++ [event], ?_, ?_, hnumbered.append hsequence⟩
  · have hkept := not_isTemporary_of_parse (parse_of_readEventFile hfile)
    simp only [List.filter_append, List.mapM_append, hread, hkept, List.filter_cons, Bool.not_false,
      if_true, List.filter_nil, List.mapM_cons, hfile, List.mapM_nil, bind, Except.bind, pure,
      Except.pure]
  · refine insertionSort_append fun e he ↦ ?_
    have hmem : e ∈ read.insertionSort bySequence := (List.mem_insertionSort bySequence).mpr he
    have hle := (hnumbered.sequence_le hmem).2
    rw [bySequence, hsequence]
    omega

end EventStore

end OmpLazy.State

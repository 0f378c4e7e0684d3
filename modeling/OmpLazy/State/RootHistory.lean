import OmpLazy.Foundation.Runs
import OmpLazy.State.CrashRecovery

namespace OmpLazy.State

open OmpLazy.Foundation OmpLazy.Foundation.Schema OmpLazy.Foundation.Text EventStore Action Store Relation

/-- What its type promises of an event: its id is a uuid, and its text has its members. -/
structure EventObject.Faithful (event : EventObject) : Prop where
  eventId : isUuid event.value.eventId = true
  runId : event.object.get? "runId" = some (.string event.value.runId)
  sequence : event.object.get? "sequence" = some (.nat event.value.sequence)

/-- What happens to a state root: calls of `commit` and of `repairState`, wherever they crash or stop,
and workers that write their ledgers. -/
inductive RootStep (root : StateRoot) : Disk → Disk → Prop
  | commit {disk : Disk} {options : CommitOptions} {event : EventObject} {deadline : Deadline}
      {outcome : Except Thrown TransactionResult} {session : Session} (hevent : event.Faithful)
      (hexec : exec (commit root options event) ⟨disk, deadline⟩ = (outcome, session)) :
      RootStep root disk session.disk
  | repair {disk : Disk} {options : CallOptions} {deadline : Deadline}
      {outcome : Except Thrown (Except RepairErrorCode Repaired)} {session : Session}
      (hexec : exec (repairState root options) ⟨disk, deadline⟩ = (outcome, session)) :
      RootStep root disk session.disk
  | receipts {disk : Disk} (receipts : AnyRun → Except Thrown ReceiptAuthority) :
      RootStep root disk { disk with receipts }

/-- A root without events and runs, initialised or not. -/
structure EmptyRoot (disk : Disk) : Prop where
  index : ∃ version, readIndex disk = .ok ⟨version, 0, []⟩
  events : disk.events = []
  runs : ∀ id, disk.runs id = none

section Faithful

variable {event : EventObject} {events : List PersistedStateEvent} {disk : Disk}

theorem get?_set {value entry : Json} {key key' : String} (h : key ≠ key') :
    (value.set key entry).get? key' = value.get? key' := by
  cases value with
  | object fields => simp [Json.set, Json.get?, Json.member_setField, h]
  | null | bool | number | string | array => rfl

theorem EventObject.Faithful.persisted (h : event.Faithful) (index : ActiveIndex) :
    (persistedEventForIndex index event).Faithful := by
  unfold persistedEventForIndex
  split
  · exact ⟨h.eventId, by simpa [upgradedObject, get?_set] using h.runId,
      by simpa [upgradedObject, get?_set] using h.sequence⟩
  · exact h

theorem EventObject.faithful_ofValue {value : PersistedStateEvent} (h : isUuid value.eventId = true) :
    (EventObject.ofValue value).Faithful :=
  ⟨h, by simp [ofValue, encodeEvent, Json.get?], by simp [ofValue, encodeEvent, Json.get?]⟩

theorem mem_matchesClasses {classes : List (Char → Bool)} {cs : List Char}
    (h : matchesClasses classes cs = true) : ∀ c ∈ cs, ∃ p ∈ classes, p c = true := by
  induction classes generalizing cs with
  | nil =>
    cases cs with
    | nil => simp
    | cons c cs => cases h
  | cons p classes ih =>
    cases cs with
    | nil => cases h
    | cons c cs =>
      simp only [matchesClasses, Bool.and_eq_true] at h
      intro d hd
      obtain rfl | hd := List.mem_cons.mp hd
      · exact ⟨p, List.mem_cons_self, h.1⟩
      · obtain ⟨q, hq, hqd⟩ := ih h.2 d hd
        exact ⟨q, List.mem_cons_of_mem _ hq, hqd⟩

/-- A character that stands in no place of a uuid. -/
def Alien (c : Char) : Prop :=
  (∀ p ∈ uuidClasses, p c = false) ∧ c ∉ "00000000-0000-0000-0000-000000000000".toList ∧
    c ∉ "ffffffff-ffff-ffff-ffff-ffffffffffff".toList

instance (c : Char) : Decidable (Alien c) := inferInstanceAs (Decidable (_ ∧ _))

theorem not_mem_of_isUuid {id : Uuid} {c : Char} (h : isUuid id = true) (hc : Alien c) : c ∉ id.toList := by
  simp only [isUuid, Bool.or_eq_true, beq_iff_eq] at h
  obtain (h | rfl) | rfl := h
  · intro hmem
    obtain ⟨p, hp, hpc⟩ := mem_matchesClasses h c hmem
    rw [hc.1 p hp] at hpc
    cases hpc
  · exact hc.2.1
  · exact hc.2.2

/-- The name of an event with a uuid is not that of a temporary file. -/
theorem not_isTemporary_eventName {event : PersistedStateEvent} (h : isUuid event.eventId = true) :
    isTemporary (eventName event) = false := by
  have hdigits : 't' ∉ (toString event.sequence).toList := by
    intro ht
    have hdigit : 't'.isDigit = true := by
      refine Nat.isDigit_of_mem_toDigits (n := event.sequence) (b := 10) (by omega) (by omega) ?_
      simpa [toString, Nat.repr] using ht
    exact absurd hdigit (by decide)
  have ht : 't' ∉ (eventName event).toList := by
    simp only [eventName, padded, String.toList_append, String.toList_ofList, List.mem_append, not_or,
      List.mem_replicate, not_and]
    exact ⟨⟨⟨⟨fun _ ↦ by decide, hdigits⟩, by decide⟩, not_mem_of_isUuid h (by decide)⟩, by decide⟩
  rw [isTemporary, decide_eq_false_iff_not]
  exact fun hpart ↦ ht (hpart.subset (by decide))

theorem counter_eq_some {j : Json} {n : ℕ} (h : counter j = some n) : j = .nat n := by
  cases j with
  | number value =>
    rw [counter] at h
    split at h
    · obtain rfl := Option.some.inj h
      rw [Json.nat, Int.toNat_of_nonneg (by omega)]
    · cases h
  | null | bool | string | array | object => cases h

theorem uuid_eq_some {j : Json} {id : Uuid} (h : uuidSchema j = some id) : j = .string id := by
  obtain ⟨h, -⟩ := Option.filter_eq_some_iff.mp h
  cases j with
  | string s =>
    obtain rfl := Option.some.inj h
    rfl
  | null | bool | number | array | object => cases h

theorem members_of_eventFields {fields : List (String × Json)} {version : EventVersion}
    {expected : Expected} {event : PersistedStateEvent}
    (h : eventFields fields version expected = some event) :
    Json.member fields "runId" = some (.string event.runId) ∧
      Json.member fields "sequence" = some (.nat event.sequence) := by
  simp only [eventFields, Option.bind_eq_bind, Option.bind_eq_some_iff, Option.pure_def,
    Option.some.injEq] at h
  obtain ⟨_, -, sequence, hsequence, runId, hrun, _, -, _, -, _, -, _, -, rfl⟩ := h
  obtain ⟨_, hmember, hsequence⟩ := required_eq_some.mp hsequence
  obtain ⟨_, hmember', hrun⟩ := required_eq_some.mp hrun
  exact ⟨hmember'.trans (congrArg some (uuid_eq_some hrun)),
    hmember.trans (congrArg some (counter_eq_some hsequence))⟩

/-- An event that was read has the run and the sequence that its text names. -/
theorem members_of_eventSchema {j : Json} {event : PersistedStateEvent} (h : eventSchema j = some event) :
    j.get? "runId" = some (.string event.runId) ∧ j.get? "sequence" = some (.nat event.sequence) := by
  rw [eventSchema] at h
  split at h
  · obtain ⟨fields, rfl, hbody⟩ := strictObject_eq_some (Option.filter_eq_some_iff.mp h).1
    simp only [Option.bind_eq_bind, Option.bind_eq_some_iff, Prod.exists] at hbody
    obtain ⟨_, -, _, _, _, -, _, -, hfields⟩ := hbody
    exact members_of_eventFields hfields
  · obtain ⟨fields, rfl, hbody⟩ := strictObject_eq_some (Option.filter_eq_some_iff.mp h).1
    simp only [Option.bind_eq_bind, Option.bind_eq_some_iff] at hbody
    obtain ⟨_, -, _, -, hfields⟩ := hbody
    exact members_of_eventFields hfields

theorem EventObject.Faithful.read (h : event.Faithful) {last : PersistedStateEvent}
    (hlast : readEventFile (eventFile event) = .ok last) :
    last.runId = event.value.runId ∧ last.sequence = event.value.sequence := by
  obtain ⟨json, hjson, hschema⟩ := decodeStateEvent_eq_ok.mp (decode_of_readEventFile hlast)
  obtain rfl := Option.some.inj hjson
  obtain ⟨hrun, hsequence⟩ := members_of_eventSchema hschema
  rw [h.runId, Option.some.injEq, Json.string.injEq] at hrun
  rw [h.sequence, Option.some.injEq, Json.nat, Json.nat, Json.number.injEq, Int.ofNat_inj] at hsequence
  exact ⟨hrun.symm, hsequence.symm⟩

/-- The next event of a log is read back in its place, or the log can no longer be read. -/
theorem readAll_appended {files : List EventFile} (h : readAll files = .ok events)
    (hevent : event.Faithful) (hsequence : event.value.sequence = events.length + 1) :
    (∃ code, readAll (files ++ [eventFile event]) = .error code) ∨
      ∃ last, readAll (files ++ [eventFile event]) = .ok (events ++ [last]) ∧
        last.runId = event.value.runId ∧ last.sequence = event.value.sequence := by
  cases hfile : readEventFile (eventFile event) with
  | ok last =>
    obtain ⟨hrun, hlast⟩ := hevent.read hfile
    exact .inr ⟨last, readAll_append h hfile (hlast.trans hsequence), hrun, hlast⟩
  | error code =>
    left
    refine ⟨code, ?_⟩
    obtain ⟨read, hread, -⟩ := readAll_eq_ok.mp h
    have hkept : isTemporary (eventFile event).name = false := not_isTemporary_eventName hevent.eventId
    rw [readAll]
    simp only [List.filter_append, List.mapM_append, hread, hkept, List.filter_cons, Bool.not_false,
      if_true, List.filter_nil, List.mapM_cons, hfile, bind, Except.bind]

end Faithful

section Repair

variable {root : StateRoot} {disk : Disk} {deadline : Deadline} {options : CallOptions}
  {outcome : Except Thrown (Except RepairErrorCode Repaired)} {session : Session}

theorem isValid_triple (P : Disk → Prop) {stopped : Session → Prop} :
    Triple (fun s ↦ P s.disk) isValid (fun _ s ↦ P s.disk) stopped := by
  rintro ⟨disk, deadline⟩ hs
  have hexec := @exec_isValid disk deadline 0
  rw [deadline.after_zero] at hexec
  rw [hexec]
  exact hs

theorem tryAcquire_triple (P : Disk → Prop) (free : Bool) (waits : ℕ) {stopped : Session → Prop} :
    Triple (fun s ↦ P s.disk) (tryAcquire free waits) (fun _ s ↦ P s.disk) stopped := by
  rintro ⟨disk, deadline⟩ hs
  have hexec := @exec_tryAcquire disk deadline 0 free waits
  rw [deadline.after_zero] at hexec
  rw [hexec]
  exact hs

/-- A replacement that stops leaves the files as they were. -/
theorem atomicReplace_triple (P Q R : Disk → Prop) {write : Disk → Disk}
    (h : ∀ disk, P disk → Q (write disk)) (hstopped : ∀ disk, P disk → R disk) :
    Triple (fun s ↦ P s.disk) (atomicReplace write) (fun _ s ↦ Q s.disk) fun s ↦ R s.disk := by
  rintro ⟨disk, deadline⟩ hs
  have hexec := @exec_atomicReplace disk deadline 0 write
  rw [deadline.after_zero] at hexec
  rw [hexec]
  split
  · rename_i hok
    split at hok
    · cases hok
    · obtain ⟨-, rfl⟩ := Prod.mk.inj hok
      exact h _ hs
  · rename_i herror
    split at herror
    · obtain ⟨-, rfl⟩ := Prod.mk.inj herror
      exact hstopped _ hs
    · cases herror

/-- What a repair can leave: all as it was, the snapshot that it decided on, or the index too. -/
def RepairLeaves (root : StateRoot) (disk left : Disk) : Prop :=
  left = disk ∨ ∃ run runPublished index,
    decideRepair root disk = .ok (.publish run runPublished index) ∧
      (left = (if runPublished then disk else disk.writeRun run) ∨
        left = (if runPublished then disk else disk.writeRun run).writeIndex index)

/-- The end of a repair, once the snapshot is there. -/
theorem repairIndex_triple {run : AnyRun} {runPublished : Bool} {index : ActiveIndex} (written : Disk)
    (hwritten : written = if runPublished then disk else disk.writeRun run)
    (h : decideRepair root disk = .ok (.publish run runPublished index)) :
    Triple (fun s ↦ s.disk = written)
      (do
        if !(← isValid) then return .error (.transaction .deadlineExpired)
        atomicReplace (·.writeIndex index)
        return .ok ⟨run, index⟩ : Store (Except RepairErrorCode Repaired))
      (fun _ s ↦ RepairLeaves root disk s.disk) fun s ↦ RepairLeaves root disk s.disk := by
  have hstop : ∀ s : Session, s.disk = written → RepairLeaves root disk s.disk :=
    fun s hs ↦ .inr ⟨run, runPublished, index, h, .inl (hs.trans hwritten)⟩
  have hindex : ∀ s : Session, s.disk = written.writeIndex index → RepairLeaves root disk s.disk :=
    fun s hs ↦ .inr ⟨run, runPublished, index, h, .inr (hwritten ▸ hs)⟩
  refine Triple.seq (isValid_triple (· = written)) fun valid ↦ ?_
  refine Triple.branch (fun _ ↦ Triple.ret hstop) fun _ ↦ ?_
  refine Triple.seq (atomicReplace_triple (· = written) (· = written.writeIndex index) _
    (fun _ hs ↦ by rw [hs]) fun d hs ↦ hstop ⟨d, none⟩ hs) fun _ ↦ ?_
  exact Triple.ret hindex

theorem repair_cases (h : exec (repairState root options) ⟨disk, deadline⟩ = (outcome, session)) :
    RepairLeaves root disk session.disk := by
  have htriple : Triple (fun s ↦ s.disk = disk) (repairState root options)
      (fun _ s ↦ RepairLeaves root disk s.disk) fun s ↦ RepairLeaves root disk s.disk := by
    have hsame : ∀ s : Session, s.disk = disk → RepairLeaves root disk s.disk := fun s hs ↦ .inl hs
    refine Triple.seq (isValid_triple (· = disk)) fun valid ↦ ?_
    refine Triple.branch (fun _ ↦ Triple.ret hsame) fun _ ↦ ?_
    cases options.escape with
    | some code => exact Triple.ret hsame
    | none =>
      refine Triple.seq (tryAcquire_triple (· = disk) _ _) fun acquired ↦ ?_
      refine Triple.branch (fun _ ↦ Triple.ret hsame) fun _ ↦ Triple.read ?_
      rintro s rfl
      cases hdecision : decideRepair root s.disk with
      | error error =>
        exact Triple.stop fun t ht ↦ hsame t (congrArg Session.disk ht)
      | ok decision =>
        cases decision with
        | refused code => exact Triple.ret fun t ht ↦ hsame t (congrArg Session.disk ht)
        | publish run runPublished index =>
          refine Triple.strengthen (?_ : Triple (fun t ↦ t.disk = s.disk) _ _ _)
            fun t ht ↦ congrArg Session.disk ht
          refine Triple.seq (isValid_triple (· = s.disk)) fun valid ↦ ?_
          refine Triple.branch (fun _ ↦ Triple.ret hsame) fun _ ↦ ?_
          cases runPublished with
          | true => exact repairIndex_triple s.disk rfl hdecision
          | false =>
            refine Triple.seq (atomicReplace_triple (· = s.disk) (· = s.disk.writeRun run) _
              (fun _ hs ↦ by rw [hs]) fun _ hs ↦ .inl hs) fun _ ↦ ?_
            exact repairIndex_triple _ rfl hdecision
  have hleft := htriple ⟨disk, deadline⟩ rfl
  rw [h] at hleft
  cases outcome with
  | ok result => exact hleft
  | error error => exact hleft

end Repair

end OmpLazy.State

import OmpLazy.State.RunHistories

/-! Who owned a run when an event was put into the log. -/

namespace OmpLazy.State

open OmpLazy.Foundation OmpLazy.Foundation.Schema OmpLazy.Foundation.Text EventStore Action Store Relation

/-- The owner that an event leaves its run with. -/
def ownerAfter (owner : Option Owner) (event : PersistedStateEvent) : Option Owner :=
  match event.mutation with
  | .runCreated run => some run.owner
  | mutation => owner.map (·.after mutation)

/-- The owner of a run, by the log. -/
def masterOf (events : List PersistedStateEvent) (id : Uuid) : Option Owner :=
  (logOf events id).foldl ownerAfter none

/-- The event expects the owner that there is, or creates its run where there is none. -/
def Expects (event : PersistedStateEvent) (owner : Option Owner) : Prop :=
  match event.mutation with
  | .runCreated _ => owner = none
  | _ => ∃ master, owner = some master ∧ event.expected.ownerSessionId = some master.sessionId ∧
    event.expected.ownerEpoch = some master.epoch

section Masters

variable {events : List PersistedStateEvent} {event : PersistedStateEvent} {id : Uuid} {owner : Option Owner}
  {index : ActiveIndex} {current : Option AnyRun} {authority : Option ReceiptAuthority} {prepared : PreparedTransition}

theorem masterOf_append (events : List PersistedStateEvent) (event : PersistedStateEvent) (id : Uuid) :
    masterOf (events ++ [event]) id =
      if event.runId = id then ownerAfter (masterOf events id) event else masterOf events id := by
  rw [masterOf, logOf_append]
  split
  · rw [List.foldl_append, ← masterOf]
    rfl
  · rfl

theorem owner_tidy_tidy (owner : Owner) : owner.tidy.tidy = owner.tidy := by simp [Owner.tidy]

theorem after_tidy (owner : Owner) (mutation : StateMutation) :
    (owner.after mutation).tidy = owner.tidy.after mutation.tidy := by
  cases mutation <;> rfl

/-- What is read of an event leaves what is read of the owner. -/
theorem ownerAfter_tidy (owner : Option Owner) (event : PersistedStateEvent) :
    (ownerAfter owner event).map Owner.tidy = ownerAfter (owner.map Owner.tidy) event.tidy := by
  have hmutation : event.tidy.mutation = event.mutation.tidy := rfl
  unfold ownerAfter
  rw [hmutation]
  cases hm : event.mutation with
  | runCreated run => rfl
  | _ =>
    cases owner with
    | none => rfl
    | some owner => exact congrArg some (after_tidy owner _)

theorem prepared_owner (h : prepareTransition index current event authority = .ok prepared) :
    Expects event (current.map (·.owner)) ∧
      some prepared.run.owner = ownerAfter (current.map (·.owner)) event := by
  obtain ⟨-, -, next, hnext, -, -, rfl⟩ := prepareTransition_eq_ok.mp h
  obtain ⟨hcreated, rfl, -⟩ | ⟨run, rfl, hkind, -, hsession, hepoch, -, -, hcontrol⟩ := nextRun_cases hnext
  · rw [Expects, ownerAfter, hcreated]
    exact ⟨rfl, rfl⟩
  · have howner := (controlRun_cases hcontrol).framed.owner
    unfold Expects ownerAfter
    cases hm : event.mutation with
    | runCreated created =>
      rw [hm] at hkind
      exact absurd rfl hkind
    | _ =>
      rw [hm] at howner
      exact ⟨⟨run.owner, rfl, hsession, hepoch⟩, congrArg some howner⟩

end Masters

/-! Logs of events that were made for the owners of their runs. -/

section Tenures

variable {made : PersistedStateEvent → Prop} {root : StateRoot} {disk : Disk} {index : ActiveIndex}
  {events : List PersistedStateEvent} {current : Option AnyRun} {run : AnyRun} {id : Uuid}

/-- Each event was made, and expects the owner that the log before it has given its run. -/
def Led (made : PersistedStateEvent → Prop) (events : List PersistedStateEvent) : Prop :=
  ∀ before event after, events = before ++ event :: after →
    ∃ source, made source ∧ source.tidy = event ∧ Expects source (masterOf before event.runId)

/-- The owner of a run is that of the events that explain it. -/
theorem Explains.owner (h : Explains events current) : events.foldl ownerAfter none = current.map (·.owner) := by
  induction h with
  | nothing => rfl
  | @next events current event index authority prepared before accepted ih =>
    have hsettled : (current.map (·.owner)).map Owner.tidy = current.map (·.owner) := by
      cases before with
      | nothing => rfl
      | @next _ _ _ _ _ earlier => exact congrArg some (owner_tidy_tidy earlier.run.owner)
    have howner := (prepared_owner accepted).2
    rw [List.foldl_append, ih, List.foldl_cons, List.foldl_nil, ← hsettled, ← ownerAfter_tidy, ← howner]
    rfl

theorem Logged.led (h : Logged made events) : Led made events := by
  intro before event after hsplit
  obtain ⟨source, current, hsource, htidy, hexplains, _, _, _, hprepared⟩ := h before event after hsplit
  refine ⟨source, hsource, htidy, ?_⟩
  rw [masterOf, hexplains.owner]
  exact (prepared_owner hprepared).1

/-- In a root that no call has left half done, the owner of a run is that of the log. -/
theorem Sourced.owner (h : Sourced made disk) (hindex : readIndex disk = .ok index)
    (hevents : readEvents disk = .ok events) (hlevel : events.length = index.revision)
    (hread : readRun root disk id = .ok (some run)) : masterOf events id = some run.owner :=
  (h.explains hindex hevents hlevel (readRun_eq_some.mp hread).1 hread).owner

end Tenures

end OmpLazy.State

import OmpLazy.Foundation.Runs
import OmpLazy.State.TransitionFrame

namespace OmpLazy.State

open OmpLazy.Foundation Relation

/-- `prepareTransition` accepts the event on the run, under some index and receipt authority. -/
def Accepts (run : AnyRun) (event : PersistedStateEvent) (next : AnyRun) : Prop :=
  ∃ index authority prepared,
    prepareTransition index (some run) event authority = .ok prepared ∧ prepared.run = next

/-- One accepted event of those that meet a condition. The index is any: events on other runs come
between. -/
def Evolves (ok : AnyRun → PersistedStateEvent → Prop) (run next : AnyRun) : Prop :=
  ∃ event, ok run event ∧ Accepts run event next

theorem prepared_controlled {index : ActiveIndex} {run : AnyRun} {event : PersistedStateEvent}
    {authority : Option ReceiptAuthority} {prepared : PreparedTransition}
    (h : prepareTransition index (some run) event authority = .ok prepared) :
    ∃ next, controlRun run event authority = some next ∧
      prepared.run = next.stamped event.sequence := by
  obtain ⟨-, -, next, hnext, -, -, rfl⟩ := prepareTransition_eq_ok.mp h
  obtain ⟨-, habsent, -⟩ | ⟨current, hrun, -, -, -, -, -, -, hcontrol⟩ := nextRun_cases hnext
  · cases habsent
  · obtain rfl := Option.some.inj hrun
    exact ⟨next, hcontrol, rfl⟩

section Laws

variable {run next : AnyRun} {event : PersistedStateEvent} {ok : AnyRun → PersistedStateEvent → Prop}

theorem Accepts.controlled (h : Accepts run event next) :
    ∃ authority unstamped, Controlled run event authority unstamped ∧
      next = unstamped.stamped event.sequence := by
  obtain ⟨index, authority, prepared, hprepared, rfl⟩ := h
  obtain ⟨unstamped, hcontrol, hrun⟩ := prepared_controlled hprepared
  exact ⟨authority, unstamped, controlRun_cases hcontrol, hrun⟩

theorem Accepts.framed (h : Accepts run event next) : Framed run event next := by
  obtain ⟨authority, unstamped, hcontrolled, rfl⟩ := h.controlled
  exact hcontrolled.framed.stamped _

/-- A property that every outcome of a control transition keeps is kept by a whole history. -/
theorem Preserves.evolves {inv : AnyRun → Prop}
    (hstamped : ∀ run sequence, inv run → inv (run.stamped sequence))
    (hstep : ∀ ⦃run event authority next⦄, ok run event → inv run →
      Controlled run event authority next → inv next) :
    Preserves (Evolves ok) inv := by
  rintro run next hrun ⟨event, hok, haccepts⟩
  obtain ⟨authority, unstamped, hcontrolled, rfl⟩ := haccepts.controlled
  exact hstamped _ _ (hstep hok hrun hcontrolled)

end Laws

namespace Sample

/-- The next event on a run, of which nobody else has moved the index. -/
def eventOn (run : AnyRun) (taskGeneration : Option ℕ) (mutation : StateMutation) :
    PersistedStateEvent where
  version := .v2 none taskGeneration false
  eventId := eventId
  sequence := run.transactionRevision + 1
  runId := run.runId
  workflow := run.workflow
  kind := mutation.kind
  expected := ⟨run.transactionRevision, some run.revision, some run.owner.sessionId, some run.owner.epoch⟩
  mutation := mutation
  atTime := now

def follow (authority : Option ReceiptAuthority) :
    AnyRun → List (Option ℕ × StateMutation) → Option AnyRun
  | run, [] => some run
  | run, (taskGeneration, mutation) :: steps =>
    let event := eventOn run taskGeneration mutation
    if event.Accepted then
      match prepareTransition ⟨.v2 1, run.transactionRevision, []⟩ (some run) event authority with
      | .ok prepared => follow authority prepared.run steps
      | .error _ => none
    else none

/-- What `follow` computes is a history of schema-valid events. -/
theorem evolves_of_follow {authority : Option ReceiptAuthority}
    {steps : List (Option ℕ × StateMutation)} {run next : AnyRun}
    (h : follow authority run steps = some next) :
    ReflTransGen (Evolves fun _ event ↦ event.Accepted) run next := by
  induction steps generalizing run with
  | nil =>
    obtain rfl := Option.some.inj h
    exact .refl
  | cons step steps ih =>
    rw [follow] at h
    split at h
    · split at h
      · exact .head ⟨_, ‹_›, _, authority, _, ‹_›, rfl⟩ (ih h)
      · cases h
    · cases h

end Sample

end OmpLazy.State

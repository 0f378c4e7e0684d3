import OmpLazy.State.Codec

namespace OmpLazy.State

open OmpLazy.Foundation

/-- An event with the object that `JSON.stringify` writes for it. The members of that object stand in
the order in which the caller, the schema or a spread put them. -/
structure EventObject where
  value : PersistedStateEvent
  object : Json
  deriving DecidableEq

namespace EventObject

/-- An event as the schema returns it, its members in the order of the schema. -/
def ofValue (value : PersistedStateEvent) : EventObject := ⟨value, encodeEvent value⟩

def bytes (event : EventObject) : Bytes := stringify event.object

end EventObject

/-- The kinds that a version 1 event binds to the first generation when it is upgraded. -/
def upgradedGeneration (kind : MutationKind) : Option ℕ :=
  if kind ∈ [.planReconciled, .criterionSettled, .taskEvidenceAccepted, .workflowTerminal,
    .goalCycleStarted, .criterionFailureRecorded] then some 1 else none

def upgradedMutation : StateMutation → StateMutation
  | .runCreated run =>
    match run.version with
    | .v1 => .runCreated { run with version := .v2 none none }
    | .v2 _ _ => .runCreated run
  | mutation => mutation

/-- `{ ...mutation, run: { ...run, schemaVersion: 2, packetHash: null, expectedHead: null } }`. -/
def upgradedMutationObject (mutation : StateMutation) (object : Json) : Json :=
  match mutation, object.get? "run" with
  | .runCreated run, some runObject =>
    match run.version with
    | .v1 => object.set "run" (((runObject.set "schemaVersion" (.nat 2)).set "packetHash" .null).set
        "expectedHead" .null)
    | .v2 _ _ => object
  | _, _ => object

def upgradedObject (event : EventObject) : Json :=
  let expected := ((event.object.get? "expected").getD .null).set "expectedHead" .null
  let mutation := (event.object.get? "mutation").getD .null
  (((event.object.set "schemaVersion" (.nat 2)).set "expected"
    (expected.set "taskGeneration" (encodeNullableNat (upgradedGeneration event.value.kind)))).set
      "mutation" (upgradedMutationObject event.value.mutation mutation)).set
        "legacyHeadUnbound" (.bool false)

def persistedEventForIndex (index : ActiveIndex) (event : EventObject) : EventObject :=
  match index.version, event.value.version with
  | .v2 _, .v1 =>
    { value := { event.value with
        version := .v2 none (upgradedGeneration event.value.kind) false
        mutation := upgradedMutation event.value.mutation }
      object := upgradedObject event }
  | _, _ => event

/-- A version 1 event is stored as it is only under a version 1 index. -/
def upgrades (index : ActiveIndex) (event : EventObject) : Bool :=
  match index.version, event.value.version with
  | .v2 _, .v1 => true
  | _, _ => false

theorem persistedEventForIndex_of_not_upgrades {index : ActiveIndex} {event : EventObject}
    (h : upgrades index event = false) : persistedEventForIndex index event = event := by
  unfold upgrades at h
  unfold persistedEventForIndex
  split at h
  · cases h
  · rfl

@[simp] theorem eventId_persisted (index : ActiveIndex) (event : EventObject) :
    (persistedEventForIndex index event).value.eventId = event.value.eventId := by
  unfold persistedEventForIndex
  split <;> rfl

@[simp] theorem sequence_persisted (index : ActiveIndex) (event : EventObject) :
    (persistedEventForIndex index event).value.sequence = event.value.sequence := by
  unfold persistedEventForIndex
  split <;> rfl

@[simp] theorem expected_persisted (index : ActiveIndex) (event : EventObject) :
    (persistedEventForIndex index event).value.expected = event.value.expected := by
  unfold persistedEventForIndex
  split <;> rfl

@[simp] theorem runId_persisted (index : ActiveIndex) (event : EventObject) :
    (persistedEventForIndex index event).value.runId = event.value.runId := by
  unfold persistedEventForIndex
  split <;> rfl

end OmpLazy.State

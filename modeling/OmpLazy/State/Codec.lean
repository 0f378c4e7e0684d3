import OmpLazy.State.ActiveIndex
import OmpLazy.State.EventCodecLaws

namespace OmpLazy.State

open OmpLazy.Foundation OmpLazy.Foundation.Schema

/-- The contents of a file as `JSON.parse` sees them; `none` is text that it rejects. -/
abbrev Bytes := Option Json

/-- `JSON.stringify`. -/
def stringify (value : Json) : Bytes := some value

inductive StateDecodeError where
  | malformedJson
  | malformedRun
  | pathMismatch
  | malformedIndex
  | duplicateActiveKey
  | duplicateRun
  | malformedEvent
  deriving DecidableEq, Repr

def IndexErrorCode.toDecodeError : IndexErrorCode → StateDecodeError
  | .duplicateActiveKey => .duplicateActiveKey
  | .duplicateRun => .duplicateRun

/-- A state root on a platform: `foldCase` is what a path comparison does to case, the identity
except on Windows. -/
structure StateRoot extends CanonicalRoot where
  foldCase : String → String

namespace StateRoot

def stripTrailingSlash (path : String) : String :=
  if path.toList.getLast? = some '/' then String.ofList path.toList.dropLast else path

def canonicalComparisonPath (root : StateRoot) (path : String) : String :=
  root.foldCase (stripTrailingSlash (path.map fun c ↦ if c = '\\' then '/' else c))

def isCanonicalPathContained (root : StateRoot) (directory candidate : String) : Bool :=
  root.canonicalComparisonPath candidate = root.canonicalComparisonPath directory ||
    (root.canonicalComparisonPath directory ++ "/").toList.isPrefixOf
      (root.canonicalComparisonPath candidate).toList

end StateRoot

def parseJson : Bytes → Except StateDecodeError Json
  | none => .error .malformedJson
  | some value => .ok value

/-- The check that `decodeRun` makes on the plan of a start-work run. -/
def planContained (root : StateRoot) (run : AnyRun) : Bool :=
  match run.payload with
  | .startWork payload => payload.plan.allowedRoot = root.canonicalPath &&
      root.isCanonicalPathContained payload.plan.allowedRoot payload.plan.canonicalPath
  | .ulwLoop _ => true

def decodeRun (root : StateRoot) (bytes : Bytes) : Except StateDecodeError AnyRun := do
  let json ← parseJson bytes
  match runSchema json with
  | none => .error .malformedRun
  | some run => if planContained root run then .ok run else .error .pathMismatch

def decodeActiveIndex (bytes : Bytes) : Except StateDecodeError ActiveIndex := do
  let json ← parseJson bytes
  match activeIndexSchema json with
  | none => .error .malformedIndex
  | some index =>
    match index.validateActiveIndex with
    | .ok () => .ok index
    | .error code => .error code.toDecodeError

def decodeStateEvent (bytes : Bytes) : Except StateDecodeError PersistedStateEvent := do
  let json ← parseJson bytes
  match eventSchema json with
  | none => .error .malformedEvent
  | some event => .ok event

theorem decodeRun_eq_ok {root : StateRoot} {bytes : Bytes} {run : AnyRun} :
    decodeRun root bytes = .ok run ↔
      ∃ json, bytes = some json ∧ runSchema json = some run ∧ planContained root run = true := by
  cases bytes with
  | none => simp [decodeRun, parseJson, bind, Except.bind]
  | some json =>
    simp only [decodeRun, parseJson, bind, Except.bind, Option.some.injEq, exists_eq_left']
    cases h : runSchema json with
    | none => simp
    | some run' =>
      by_cases hp : planContained root run' = true
      · simp only [hp, if_true, Except.ok.injEq, Option.some.injEq]
        exact ⟨fun h ↦ ⟨h, h ▸ hp⟩, And.left⟩
      · simp only [hp, Bool.false_eq_true, if_false, reduceCtorEq, Option.some.injEq, false_iff,
          not_and]
        rintro rfl
        exact hp

theorem decodeActiveIndex_eq_ok {bytes : Bytes} {index : ActiveIndex} :
    decodeActiveIndex bytes = .ok index ↔
      ∃ json, bytes = some json ∧ activeIndexSchema json = some index ∧ index.Valid := by
  cases bytes with
  | none => simp [decodeActiveIndex, parseJson, bind, Except.bind]
  | some json =>
    simp only [decodeActiveIndex, parseJson, bind, Except.bind, Option.some.injEq, exists_eq_left']
    cases h : activeIndexSchema json with
    | none => simp
    | some index' =>
      rw [← ActiveIndex.validateActiveIndex_eq_ok]
      cases hv : index'.validateActiveIndex with
      | error code =>
        simp only [hv, reduceCtorEq, Option.some.injEq, false_iff, not_and]
        rintro rfl
        simp [hv]
      | ok u =>
        simp only [hv, Except.ok.injEq, Option.some.injEq]
        exact ⟨fun h ↦ ⟨h, h ▸ hv⟩, And.left⟩

theorem decodeStateEvent_eq_ok {bytes : Bytes} {event : PersistedStateEvent} :
    decodeStateEvent bytes = .ok event ↔ ∃ json, bytes = some json ∧ eventSchema json = some event := by
  cases bytes with
  | none => simp [decodeStateEvent, parseJson, bind, Except.bind]
  | some json => cases h : eventSchema json <;> simp [decodeStateEvent, parseJson, bind, Except.bind, h]

end OmpLazy.State

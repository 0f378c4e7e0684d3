import OmpLazy.State.EventCodecLaws
import OmpLazy.State.Paths
import OmpLazy.Workflows.StartWorkPlan
import OmpLazy.Workflows.TeammodeDomain

/-! The files that a command is given: a plan, or the text that steers a loop. -/

namespace OmpLazy.Commands

open OmpLazy.Foundation OmpLazy.Foundation.Schema OmpLazy.Foundation.Text OmpLazy.State OmpLazy.Workflows

/-- The working tree as `containedFile` finds it; `none` is an error that it catches. -/
structure WorkingTree (platform : PathPlatform) where
  lower : LowerCase
  displayPath : AbsolutePath platform
  isAbsolute : String → Bool
  resolve : String → AbsolutePath platform
  realpath : AbsolutePath platform → Option (AbsolutePath platform)
  readFile : AbsolutePath platform → Option String
  parse : String → Option Json

structure SteeringInput where
  runId : Uuid
  expectedRevision : ℕ
  expectedHead : String
  idempotencyKey : String
  addCriteria : List SteeredCriterion
  annotationText : Option String
  deriving DecidableEq, Repr

def addedCriterionSchema : Schema SteeredCriterion :=
  strictObject ["id", "scenario", "observable", "evidenceLogicalId"] fun fields ↦ do
    let id ← required fields "id" (textUpTo 64)
    let scenario ← required fields "scenario" (textUpTo 1024)
    let observable ← required fields "observable" (textUpTo 1024)
    let evidenceLogicalId ← required fields "evidenceLogicalId" (textUpTo 128)
    return ⟨id, scenario, observable, evidenceLogicalId⟩

def steeringSchema : Schema SteeringInput :=
  strictObject ["version", "runId", "expectedRevision", "expectedHead", "idempotencyKey", "addCriteria",
    "annotation"] fun fields ↦ do
      let _ ← required fields "version" (literal (.nat 1))
      let runId ← required fields "runId" uuidSchema
      let expectedRevision ← required fields "expectedRevision" counter
      let expectedHead ← required fields "expectedHead" (string.refine (isLowerHexOf 40))
      let idempotencyKey ← required fields "idempotencyKey" (textUpTo 128)
      let addCriteria ← required fields "addCriteria"
        (addedCriterionSchema.array.refine fun criteria ↦ criteria.length ≤ 6)
      let annotationText ← Schema.optional fields "annotation" annotationSchema
      return ⟨runId, expectedRevision, expectedHead, idempotencyKey, addCriteria, annotationText⟩

structure ContainedPlan where
  canonicalPath : String
  displayPath : String
  hash : String
  normalized : NormalizedPlan
  deriving DecidableEq, Repr

def NormalizePlanError.text : NormalizePlanError → String
  | .planIdentityMismatch => "plan_identity_mismatch"
  | .duplicateNormalizedTaskIdentity => "duplicate_normalized_task_identity"

theorem isName_plans {platform : PathPlatform} {root : AbsolutePath platform} :
    ∀ name ∈ root.names ++ [".omo".toList, "plans".toList], platform.IsName name := by
  intro name hname
  obtain hname | hname := List.mem_append.mp hname
  · exact root.isName name hname
  obtain rfl | hname := List.mem_cons.mp hname
  · refine ⟨by decide, List.all_iff_forall_prop.mp ?_⟩
    cases platform <;> decide
  · obtain rfl := List.mem_singleton.mp hname
    refine ⟨by decide, List.all_iff_forall_prop.mp ?_⟩
    cases platform <;> decide

namespace WorkingTree

variable {platform : PathPlatform} (tree : WorkingTree platform)

def planRoot : AbsolutePath platform :=
  { tree.displayPath with
    names := tree.displayPath.names ++ [".omo".toList, "plans".toList]
    isName := isName_plans }

def containedFile (path : String) (allowedRoot : AbsolutePath platform) (maximumBytes : ℕ) :
    Except String (String × AbsolutePath platform) :=
  if tree.isAbsolute path then .error "path_outside_repository"
  else
    let candidate := tree.resolve path
    if !isDisplayPathContained tree.lower allowedRoot candidate then .error "path_outside_repository"
    else
      match tree.realpath candidate with
      | none => .error "resource_missing"
      | some resolved =>
        if !isDisplayPathContained tree.lower allowedRoot resolved then .error "path_outside_repository"
        else
          match tree.readFile resolved with
          | none => .error "resource_missing"
          | some bytes => if maximumBytes < bytes.utf8ByteSize then .error "malformed_payload" else .ok (bytes, resolved)

def readContainedPlan (texts : Platform) (path : String) : Except String ContainedPlan :=
  match tree.containedFile path tree.planRoot (2 * 1024 * 1024) with
  | .error code => .error code
  | .ok (bytes, displayPath) =>
    match normalizeStartWorkPlan texts bytes with
    | .error code => .error (NormalizePlanError.text code)
    | .ok normalized => .ok {
        canonicalPath := String.ofList (canonicalComparisonPath tree.lower platform displayPath.spelled)
        displayPath := String.ofList displayPath.spelled
        hash := texts.sha256 bytes
        normalized }

def readSteeringInput (path : String) : Except String SteeringInput :=
  match tree.containedFile path tree.displayPath (16 * 1024) with
  | .error code => .error code
  | .ok (bytes, _) =>
    match (tree.parse bytes).bind steeringSchema with
    | none => .error "malformed_payload"
    | some steering => .ok steering

end WorkingTree

/-! What a steering file says. -/

theorem textUpTo_settled {fields : List (String × Json)} {key value : String} {bound : ℕ}
    (h : required fields key (textUpTo bound) = some value) : trim value ≠ "" ∧ trim value = value := by
  obtain ⟨json, -, hjson⟩ := Option.bind_eq_some_iff.mp h
  obtain ⟨hread, -⟩ := Option.filter_eq_some_iff.mp hjson
  exact nonempty_reads.settled json value hread

theorem addedCriterion_settled {json : Json} {criterion : SteeredCriterion}
    (h : addedCriterionSchema json = some criterion) : criterion.Ok ∧ criterion.tidy = criterion := by
  obtain ⟨fields, -, h⟩ := strictObject_eq_some h
  simp only [Option.bind_eq_bind, Option.bind_eq_some_iff, Option.pure_def, Option.some.injEq] at h
  obtain ⟨id, hid, scenario, hscenario, observable, hobservable, logicalId, hlogical, rfl⟩ := h
  have hid := textUpTo_settled hid
  have hscenario := textUpTo_settled hscenario
  have hobservable := textUpTo_settled hobservable
  have hlogical := textUpTo_settled hlogical
  refine ⟨⟨hid.1, hscenario.1, hobservable.1, hlogical.1⟩, ?_⟩
  rw [SteeredCriterion.tidy, hid.2, hscenario.2, hobservable.2, hlogical.2]

/-- What is read from a steering file can be written into the log, but for its number of criteria. -/
structure SteeringInput.Settled (steering : SteeringInput) : Prop where
  runId : isUuid steering.runId = true
  expectedHead : isLowerHexOf 40 steering.expectedHead = true
  criteria : ∀ criterion ∈ steering.addCriteria, criterion.Ok ∧ criterion.tidy = criterion
  annotationText : ∀ text ∈ steering.annotationText, utf16Length text ≤ 512

theorem steering_settled {json : Json} {steering : SteeringInput} (h : steeringSchema json = some steering) :
    steering.Settled := by
  obtain ⟨fields, -, h⟩ := strictObject_eq_some h
  simp only [Option.bind_eq_bind, Option.bind_eq_some_iff, Option.pure_def, Option.some.injEq] at h
  obtain ⟨_, -, runId, hrunId, _, -, expectedHead, hhead, _, -, addCriteria, hcriteria, annotationText, htext, rfl⟩ := h
  obtain ⟨_, -, hcriteria⟩ := Option.bind_eq_some_iff.mp hcriteria
  obtain ⟨_, -, hread⟩ := array_eq_some (Option.filter_eq_some_iff.mp hcriteria).1
  refine ⟨(uuid_reads.required_settled hrunId).1, ((checked_reads _).required_settled hhead).1, ?_,
    (annotation_reads.optional_settled htext).1⟩
  intro criterion hmem
  obtain ⟨_, -, hcriterion⟩ := exists_of_forall₂ hread hmem
  exact addedCriterion_settled hcriterion

theorem readSteeringInput_settled {platform : PathPlatform} {tree : WorkingTree platform} {path : String}
    {steering : SteeringInput} (h : tree.readSteeringInput path = .ok steering) : steering.Settled := by
  unfold WorkingTree.readSteeringInput at h
  split at h
  · cases h
  split at h
  · cases h
  · rename_i hread
    obtain rfl := Except.ok.inj h
    obtain ⟨_, -, hschema⟩ := Option.bind_eq_some_iff.mp hread
    exact steering_settled hschema

end OmpLazy.Commands

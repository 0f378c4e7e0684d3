import OmpLazy.Contracts.CompileTaskPacket
import OmpLazy.Workflows.StartWorkContract
import OmpLazy.Workflows.StartWorkPlan
import Mathlib.Data.List.Infix

/-! The packet of the current step of a run. -/

namespace OmpLazy.Workflows

open OmpLazy.Foundation OmpLazy.Foundation.Text OmpLazy.Contracts OmpLazy.State

structure TaskPacketMessage where
  content : String
  packetHash : String
  packetBytes : ℕ
  runId : String
  taskId : String
  generation : ℕ
  tier : TaskTier
  deriving DecidableEq

structure StepContext where
  compiled : CompiledTaskPacket
  message : TaskPacketMessage
  deriving DecidableEq

def slashed (path : String) : String := String.ofList (path.toList.map fun c ↦ if c = '\\' then '/' else c)

/-! The blocks of the tasks. -/

/-- How an open task with an explicit id begins. -/
def openTask (taskId : String) : String := "- [ ] **" ++ (taskId ++ ". ")

/-- `/^- \[[ xX]\] /u` -/
def opensItem (line : String) : Bool :=
  match line.toList with
  | '-' :: ' ' :: '[' :: mark :: ']' :: ' ' :: _ => mark ∈ [' ', 'x', 'X']
  | _ => false

def planTaskStart (lines : List String) (taskId : String) : Option ℕ :=
  lines.findIdx? (startsWith (openTask taskId))

/-- The lines from a line to the next item. -/
def blockFrom (lines : List String) (start : ℕ) : List String :=
  match lines.drop start with
  | [] => []
  | line :: rest => line :: rest.takeWhile (!opensItem ·)

def planTaskBlock (markdown taskId : String) : List String :=
  match planTaskStart (planLines markdown) taskId with
  | none => []
  | some start => blockFrom (planLines markdown) start

/-- The id in `/^- \[ \] \*\*([A-Z][A-Z0-9-]{0,31})\. /u`. -/
def openTaskId (line : String) : Option String := do
  let rest ← after "- [ ] **" line
  let id := rest.toList.takeWhile isIdChar
  if id.head?.any isIdHead && id.length ≤ 32 && startsWith ". " (String.ofList (rest.toList.dropWhile isIdChar)) then
    some (String.ofList id)
  else none

def field (block : List String) (label : String) : Option String :=
  (block.findSome? (after ("  - **" ++ (label ++ ":** ")))).map trim

def taskTitle (block : List String) (taskId : String) : String :=
  match block.head?.bind (after (openTask taskId)) with
  | some rest =>
    if endsWith "**" rest then trim (String.ofList (rest.toList.take (rest.toList.length - 2))) else taskId
  | none => taskId

def backtick : Char := Char.ofNat 0x60

/-- The spans between two backticks, of the pieces after the first backtick. -/
def codeSpans : List (List Char) → List (List Char)
  | body :: next :: rest => if body.isEmpty then codeSpans (next :: rest) else body :: codeSpans rest
  | _ => []

/-- `/^\d+(?:-\d+)?$/u` -/
def isLineRange (cs : List Char) : Bool :=
  !(cs.takeWhile isDigit).isEmpty &&
    match cs.dropWhile isDigit with
    | [] => true
    | '-' :: last => !last.isEmpty && last.all isDigit
    | _ => false

/-- `value.replace(/:\d+(?:-\d+)?$/u, "")` -/
def withoutLineRange (value : List Char) : List Char :=
  if ':' ∈ value ∧ isLineRange (value.rtakeWhile (· ≠ ':')) then (value.rdropWhile (· ≠ ':')).dropLast else value

def isPlainPath (value : List Char) : Bool :=
  '{' ∉ value && '}' ∉ value && '*' ∉ value && !decide ("://".toList <:+: value) && value.head? ≠ some '/' &&
    !(value.splitOnP fun c ↦ c = '\\' || c = '/').contains ['.', '.']

def referencedPaths (block : List String) : List String :=
  match field block "References" with
  | none => []
  | some references =>
    let paths := ((codeSpans ((references.toList.splitOn backtick).drop 1)).map withoutLineRange).filter isPlainPath
    sortedStrings (paths.map fun path ↦ slashed (String.ofList path)).dedup

def criterionForTask (taskId acceptance : String) : PacketCriterion where
  id := "acceptance"
  scenario := "Complete " ++ taskId
  observable := acceptance
  expected := acceptance
  evidenceLogicalId := taskId ++ ".result"

def criterionForGoal (taskId : String) (criterion : Criterion) : PacketCriterion :=
  let observable := (criterion.observable.or criterion.scenario).getD criterion.id
  { id := criterion.id
    scenario := criterion.scenario.getD observable
    observable
    expected := observable
    evidenceLogicalId := criterion.evidenceLogicalId.getD (taskId ++ ("." ++ criterion.id)) }

def requiredTests (criteria : List PacketCriterion) : List EvidenceRequirement :=
  criteria.map fun criterion ↦ ⟨criterion.evidenceLogicalId, .test, true⟩

section Compile

variable (platform : Platform)

def remainingTaskId (markdown : String) (declaredIds : List String) : Option String :=
  ((parseStartWorkPlan platform markdown).remainingTaskIds.find? (· ∈ declaredIds)).or
    ((planLines markdown).findSome? fun line ↦ (openTaskId line).filter (· ∈ declaredIds))

def compileStepContext (input : TaskPacketInput) : Except TaskPacketRefusal StepContext :=
  (compileTaskPacket platform input).map fun compiled ↦
    ⟨compiled, {
      content := compiled.canonicalJson
      packetHash := compiled.packetHash
      packetBytes := compiled.packetBytes
      runId := compiled.packet.runId
      taskId := compiled.packet.taskId
      generation := compiled.packet.generation
      tier := compiled.packet.tier }⟩

/-- The packet of a task of a plan, from its block. -/
def startWorkInput (run : AnyRun) (plan : Plan) (repositoryRoot taskId : String) (block : List String) :
    TaskPacketInput :=
  let allowedPaths := referencedPaths block
  let packetPaths :=
    if allowedPaths.isEmpty then [slashed (platform.relative repositoryRoot plan.displayPath)] else allowedPaths
  let acceptance := (field block "Acceptance").getD ("The " ++ (taskId ++ " plan step is complete."))
  let criteria := [criterionForTask taskId acceptance]
  let tier := classifyTaskTier packetPaths [.none] false
  { runId := run.runId
    taskId
    generation := max 1 run.revision
    objective := taskTitle block taskId
    deliverable := (field block "Implementation").getD acceptance
    allowedPaths := packetPaths
    referenceIds := ["plan:" ++ taskId]
    dependencyIds := []
    criteria
    boundaryTags := ["none"]
    publicBehavior := false
    tier
    budgets := tierBudgets tier
    evidenceRequirements := requiredTests criteria }

def goalInput (run : AnyRun) (payload : UlwLoopPayload) (goal : Goal) : TaskPacketInput :=
  let criteria := (goal.criteria.take 6).map (criterionForGoal goal.id)
  { runId := run.runId
    taskId := goal.id
    generation := max 1 run.revision
    objective := payload.objective.getD goal.id
    deliverable := payload.annotationText.getD ("Settle every criterion for " ++ (goal.id ++ "."))
    allowedPaths := []
    referenceIds := []
    dependencyIds := []
    criteria
    boundaryTags := ["none"]
    publicBehavior := false
    tier := .fast
    budgets := tierBudgets .fast
    evidenceRequirements := requiredTests criteria }

def compileRunStepContext (run : AnyRun) (repositoryRoot : String) (planMarkdown : Option String) :
    Option (Except TaskPacketRefusal StepContext) :=
  if run.status ≠ .active then none
  else
    match run.payload with
    | .startWork payload => do
      let markdown ← planMarkdown
      let taskId ← remainingTaskId platform markdown payload.plan.taskIds
      return compileStepContext platform
        (startWorkInput platform run payload.plan repositoryRoot taskId (planTaskBlock markdown taskId))
    | .ulwLoop payload => do
      let goal ← payload.goals.find? fun goal ↦ some goal.id = payload.activeGoalId
      if goal.criteria.isEmpty then none
      else some (compileStepContext platform (goalInput run payload goal))

end Compile

end OmpLazy.Workflows

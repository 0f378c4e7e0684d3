import OmpLazy.Foundation.Platform
import OmpLazy.Workflows.WorkflowControl

/-! The markdown of a plan: its tasks, and which of them remain. -/

namespace OmpLazy.Workflows

open OmpLazy.Foundation OmpLazy.Foundation.Text

inductive PlanVersion where
  | v1
  | v2
  deriving DecidableEq, Repr

inductive PlanSection where
  | todos
  | final
  deriving DecidableEq, Repr

def PlanSection.name : PlanSection → String
  | .todos => "todos"
  | .final => "final"

structure ChecklistLine where
  id : String
  checked : Bool
  inSection : PlanSection
  explicit : Bool
  deriving DecidableEq, Repr

structure NormalizedPlan extends PlanSnapshot where
  version : PlanVersion
  deriving DecidableEq, Repr

inductive NormalizePlanError where
  | planIdentityMismatch
  | duplicateNormalizedTaskIdentity
  deriving DecidableEq, Repr

def v1Marker : String := "<!-- omp-lazy-ulw-plan:plan:v1 -->"

def v2Marker : String := "<!-- omp-lazy-ulw-plan:plan:v2 -->"

def v2Headings : List String :=
  ["## TL;DR (For humans)", "## Scope", "## Verification strategy", "## Execution strategy", "## Todos",
    "## Final verification wave", "## Commit strategy", "## Success criteria"]

/-- The headings of the sections that are counted. -/
def countedHeadings : PlanVersion → String × String
  | .v1 => ("## TODOs", "## Final Verification Wave")
  | .v2 => ("## Todos", "## Final verification wave")

/-- `replaceAll("\r\n", "\n")` -/
def joinLineBreaks : List Char → List Char
  | '\r' :: '\n' :: cs => '\n' :: joinLineBreaks cs
  | c :: cs => c :: joinLineBreaks cs
  | [] => []

def planLines (markdown : String) : List String :=
  ((joinLineBreaks markdown.toList).splitOn '\n').map String.ofList

/-- What `.` does not match. -/
def isLineTerminator (c : Char) : Bool := c.toNat ∈ [0xA, 0xD, 0x2028, 0x2029]

def isIdHead (c : Char) : Bool := 'A' ≤ c && c ≤ 'Z'

def isIdChar (c : Char) : Bool := isIdHead c || isDigit c || c = '-'

/-- `/^\*\*([A-Z][A-Z0-9-]{0,31})\. (.{1,200})\*\*$/u` -/
def explicitId (label : String) : Option String := do
  let rest ← after "**" label
  let id := rest.toList.takeWhile isIdChar
  let title ← after ". " (String.ofList (rest.toList.dropWhile isIdChar))
  let body := title.toList.take (title.toList.length - 2)
  if id.head?.any isIdHead && id.length ≤ 32 && endsWith "**" title && 1 ≤ body.length && body.length ≤ 200 &&
      body.all (!isLineTerminator ·) then
    some (String.ofList id)
  else none

/-- The mark and the label of `/^- \[([ xX])\] (.+?)\s*$/u`. -/
def matchChecklist (line : String) : Option (Char × String) :=
  match line.toList with
  | '-' :: ' ' :: '[' :: mark :: ']' :: ' ' :: rest =>
    let core := rest.rdropWhile isSpace
    let label := if core.isEmpty then rest.take 1 else core
    if mark ∈ [' ', 'x', 'X'] && !label.isEmpty && label.all (!isLineTerminator ·) then
      some (mark, String.ofList label)
    else none
  | _ => none

/-- `/^(- \[)[ xX](\])/` with its mark taken out. -/
def unmarked (line : String) : String :=
  match line.toList with
  | '-' :: ' ' :: '[' :: mark :: ']' :: rest =>
    if mark ∈ [' ', 'x', 'X'] then String.ofList ('-' :: ' ' :: '[' :: ' ' :: ']' :: rest) else line
  | _ => line

/-- `replace(/\s+/g, " ")` -/
def collapseSpaces : List Char → List Char
  | [] => []
  | c :: cs =>
    if isSpace c then
      match cs with
      | [] => [' ']
      | d :: _ => if isSpace d then collapseSpaces cs else ' ' :: collapseSpaces cs
    else c :: collapseSpaces cs

def v2HeadingsAreOrdered (lines : List String) : Bool :=
  v2Headings.all (fun heading ↦ lines.count heading = 1) &&
    (lines.foldl (fun position line ↦ if v2Headings[position]? = some line then position + 1 else position) 0) =
      v2Headings.length

/-- The section that a line opens, which is none that is counted for most headings. -/
def selectedSection (line : String) (version : PlanVersion) : Option (Option PlanSection) :=
  if line = (countedHeadings version).1 then some (some .todos)
  else if line = (countedHeadings version).2 then some (some .final)
  else if startsWith "## " line then some none
  else none

section Parsing

variable (platform : Platform)

def legacyId (line : String) : String :=
  "LEGACY-" ++ String.ofList ((platform.sha256 (unmarked (platform.nfc line))).toList.take 12)

def checklistLine (assignsLegacyIds : Bool) (inSection : PlanSection) (line : String) : Option ChecklistLine :=
  (matchChecklist line).map fun found ↦
    let explicit := explicitId (platform.nfc found.2)
    let id := explicit.getD
      (if assignsLegacyIds then legacyId platform line
        else String.ofList (collapseSpaces (trim found.2).toList))
    ⟨id, found.1 ≠ ' ', inSection, explicit.isSome⟩

/-- The checklist from a section on. -/
def checklistFrom (version : PlanVersion) (assignsLegacyIds : Bool) :
    Option PlanSection → List String → List ChecklistLine
  | _, [] => []
  | inSection, line :: lines =>
    match selectedSection line version with
    | some next => checklistFrom version assignsLegacyIds next lines
    | none =>
      (inSection.bind fun counted ↦ checklistLine platform assignsLegacyIds counted line).toList ++
        checklistFrom version assignsLegacyIds inSection lines

def parseChecklist (lines : List String) (version : PlanVersion) (assignsLegacyIds : Bool) :
    List ChecklistLine :=
  checklistFrom platform version assignsLegacyIds none lines

def encodeIdentity (task : ChecklistLine) : Json :=
  .object [("section", .string task.inSection.name), ("id", .string task.id)]

def normalizeStartWorkPlan (markdown : String) : Except NormalizePlanError NormalizedPlan :=
  let lines := planLines markdown
  if lines.count v1Marker + lines.count v2Marker ≠ 1 then .error .planIdentityMismatch
  else
    let hasV1Marker : Bool := lines.count v1Marker = 1
    let version : PlanVersion := if lines.count v2Marker = 1 then .v2 else .v1
    if version = .v2 ∧ v2HeadingsAreOrdered lines = false then .error .planIdentityMismatch
    else
      let tasks := parseChecklist platform lines version hasV1Marker
      if version = .v2 ∧ tasks.any (!·.explicit) then .error .planIdentityMismatch
      else if ¬ (tasks.map (·.id)).Nodup then .error .duplicateNormalizedTaskIdentity
      else .ok {
        version
        taskIds := tasks.map (·.id)
        remainingTaskIds := (tasks.filter (!·.checked)).map (·.id)
        fingerprint := platform.sha256 (platform.stringify (.array (tasks.map encodeIdentity))) }

def parseStartWorkPlan (markdown : String) : PlanSnapshot :=
  match normalizeStartWorkPlan platform markdown with
  | .ok plan => plan.toPlanSnapshot
  | .error _ => ⟨[], [], ""⟩

end Parsing

end OmpLazy.Workflows

import OmpLazy.Activation.ProvenanceController
import OmpLazy.Foundation.Spans
import Mathlib.Data.List.Dedup

/-! Which workflow a text asks for. -/

namespace OmpLazy.Activation

open OmpLazy.Foundation OmpLazy.Foundation.Text OmpLazy.Foundation.Spans

/-- What the platform knows of characters. -/
structure TextPlatform where
  toLowerCase : String → String
  foldCase : Char → Char
  isLetterOrNumber : Char → Bool

structure CommandDefinition where
  workflow : WorkflowActivationId
  canonical : String
  aliases : List String

def commandDefinitions : List CommandDefinition :=
  [⟨.teammode, "/omp-lazy-teammode(omp)", ["/teammode(omp)"]⟩,
    ⟨.startWork, "/omp-lazy-start-work(omp)", ["/start-work(omp)"]⟩,
    ⟨.ultrawork, "/omp-lazy-ultrawork(omp)", ["/ultrawork(omp)", "/ulw(omp)"]⟩,
    ⟨.ulwLoop, "/ulw-loop(omp)", []⟩,
    ⟨.ulwPlan, "/omp-lazy-ulw-plan(omp)", ["/ulw-plan(omp)"]⟩,
    ⟨.ulwDeliver, "/omp-lazy-ulw-deliver(omp)", ["/ulw-deliver(omp)"]⟩,
    ⟨.ulwResearch, "/omp-lazy-ulw-research(omp)", ["/ulw-research(omp)"]⟩,
    ⟨.doctor, "/omp-lazy-doctor(omp)", ["/lcx-doctor(omp)"]⟩,
    ⟨.reportBug, "/omp-lazy-report-bug(omp)", ["/lcx-report-bug(omp)"]⟩,
    ⟨.contributeBugFix, "/omp-lazy-contribute-bug-fix(omp)", ["/lcx-contribute-bug-fix(omp)"]⟩]

def commandRegistrations : List CommandRegistration :=
  commandDefinitions.flatMap fun definition ↦
    (definition.canonical :: definition.aliases).map fun command ↦ ⟨definition.workflow, command⟩

/-! Names of commands. -/

section Commands

variable (platform : TextPlatform)

def isProtected (c : Char) : Bool :=
  platform.isLetterOrNumber c || c = '_' || c = '.' || c = '\\' || c = '/' || c = '-'

/-- The name stands at the front, in either case, and what follows is no part of a longer one. -/
def startsWithName (name cs : List Char) : Bool :=
  (cs.take name.length).map platform.foldCase = name.map platform.foldCase &&
    (cs.drop name.length).head?.all fun c ↦ !isProtected platform c

def matchesFrom (name : List Char) : Option Char → List Char → Bool
  | _, [] => false
  | prev, c :: cs =>
    (prev.all (fun c ↦ !isProtected platform c) &&
      (startsWithName platform name (c :: cs) || (c = '/' && startsWithName platform name cs))) ||
      matchesFrom name (some c) cs

def matchesToken (text command : String) : Bool := matchesFrom platform (command.toList.drop 1) none text.toList

end Commands

/-! Words that activate by themselves. -/

def backtick : Char := Char.ofNat 0x60

def quoteMarks : List Char := [backtick, Char.ofNat 0x22, Char.ofNat 0x27]

def fence : List Char := [backtick, backtick, backtick]

/-- What `^` stands behind, in a pattern of several lines. -/
def isLineEnd (c : Char) : Bool := c.toNat ∈ [0xA, 0xD, 0x2028, 0x2029]

/-- How far the next fence at the start of a line reaches. -/
def closeFence : Char → List Char → Option ℕ
  | _, [] => none
  | prev, c :: cs =>
    if isLineEnd prev && fence.isPrefixOf (c :: cs) then some fence.length else (closeFence c cs).map (· + 1)

/-- The pattern of `stripFencedCodeBlocks` -/
def fencedCodeBlock (prev : Option Char) (cs : List Char) : ℕ :=
  if prev.all isLineEnd && fence.isPrefixOf cs then
    let line := (cs.drop fence.length).takeWhile (· ≠ '\n')
    let body := (cs.drop fence.length).dropWhile (· ≠ '\n')
    if body.isEmpty then 0
    else ((closeFence '\n' (body.drop 1)).map (fence.length + line.length + 1 + ·)).getD 0
  else 0

/-- The pattern of `stripQuotedStrings` -/
def quotedString (_ : Option Char) : List Char → ℕ
  | [] => 0
  | c :: cs => if c ∈ quoteMarks ∧ c ∈ cs then (cs.takeWhile (· ≠ c)).length + 2 else 0

def stripFencedCodeBlocks (text : List Char) : List Char := cut fencedCodeBlock text

def stripQuotedStrings (text : List Char) : List Char := cut quotedString text

def isSeparator (c : Char) : Bool :=
  isSpace c || [',', ';', ':', '!', '?', '(', ')', Char.ofNat 0x7B, Char.ofNat 0x7D, '[', ']', '<', '>'].contains c

def tokenize (text : List Char) : List (List Char) := (text.splitOnP isSeparator).filter (· ≠ [])

structure TriggerEntry where
  token : String
  workflow : CommandRegistration
  deriving DecidableEq, Repr

def triggerAllowlist : List TriggerEntry :=
  match commandRegistrations.find? (·.command = "/omp-lazy-ultrawork(omp)") with
  | none => []
  | some registration => [⟨"ultrawork", registration⟩, ⟨"ulw", registration⟩]

section Triggers

variable (platform : TextPlatform)

def matchesTriggerExact (token : List Char) (trigger : String) : Bool :=
  platform.toLowerCase (String.ofList token) = platform.toLowerCase trigger

/-- The one workflow that some registrations agree on, as the first of them. -/
def agreed (found : List CommandRegistration) : Option CommandRegistration :=
  if (found.map (·.workflow)).dedup.length = 1 then found.head? else none

def matchTriggerAllowlist (text : List Char) : Option CommandRegistration :=
  let tokens := tokenize (stripQuotedStrings (stripFencedCodeBlocks text))
  agreed ((triggerAllowlist.filter fun entry ↦
    tokens.any fun token ↦ matchesTriggerExact platform token entry.token).map (·.workflow))

def matchActivation (text : String) : Option CommandRegistration :=
  let commandMatches := commandRegistrations.filter fun registration ↦ matchesToken platform text registration.command
  if commandMatches.isEmpty then matchTriggerAllowlist platform text.toList else agreed commandMatches

end Triggers

end OmpLazy.Activation

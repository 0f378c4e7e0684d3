import OmpLazy.Activation.ProvenanceController
import OmpLazy.Commands.CommandParser
import OmpLazy.Commands.WorkflowCommands

/-! What a command line asks for. -/

namespace OmpLazy.Commands

open OmpLazy.Activation OmpLazy.Foundation.Text OmpLazy.State

/-- The grammar of each command of the catalog. -/
def grammar : WorkflowActivationId → List String
  | .teammode => ["prepare <team-name> <roster-json-path>", "create <team-name> <roster-reservation-id>",
      "status [team-name]", "cancel <team-name>", "archive <team-name>", "delete <team-name>", "resume <team-name>"]
  | .startWork => ["", "start [plan-path]", "status [run-id]", "pause [run-id]", "resume [run-id]", "cancel [run-id]",
      "adopt <run-id>", "reconcile <run-id> <plan-path>", "status --repair <run-id>",
      "status --repair-lock <nonce> --confirm"]
  | .ultrawork => ["[auto|light|heavy] [-- <task-text>]"]
  | .ulwLoop => ["[<objective-text> | create <objective-text> | -- <objective-text>]", "status [run-id]",
      "pause [run-id]", "resume [run-id]", "cancel [run-id]", "adopt <run-id>",
      "checkpoint <run-id> <criterion-id> <evidence-path>", "steer <run-id> <steering-json-path>"]
  | .ulwPlan => ["[-- <brief>]", "approve <plan-path> <sha256>"]
  | .ulwDeliver => ["[fast|standard|deep] [-- <task-text>]"]
  | .ulwResearch => ["<query-text>"]
  | .doctor => ["[--json] [--deep]"]
  | .reportBug => ["[--target auto|omp-lazy|omp] [--dry-run] <summary-text>"]
  | .contributeBugFix => ["--dry-run <issue-or-bug-ref>"]

/-- The flags that a text names, from the dashes that have been read and the flag, reversed, that is being read. -/
def flagsFrom : ℕ → List Char → List Char → List String
  | _, [], [] => []
  | _, flag, [] => [String.ofList flag.reverse]
  | dashes, [], c :: cs =>
    if c = '-' then flagsFrom (dashes + 1) [] cs
    else if 2 ≤ dashes ∧ c.isLower then flagsFrom 0 [c, '-', '-'] cs
    else flagsFrom 0 [] cs
  | _, flag, c :: cs =>
    if c = '-' ∨ c.isLower then flagsFrom 0 (c :: flag) cs
    else String.ofList flag.reverse :: flagsFrom 0 [] cs

def allowedFlags (workflow : WorkflowActivationId) : List String :=
  flagsFrom 0 [] (" ".intercalate (grammar workflow)).toList

def acceptsDelimiter (workflow : WorkflowActivationId) : Bool :=
  (" ".intercalate (grammar workflow)).toList.tails.any fun rest ↦ "-- <".toList.isPrefixOf rest

def followsGrammar (flags : List String) (delimiter : Bool) : Bool → List String → Bool
  | _, [] => true
  | afterDelimiter, word :: words =>
    if word = "--" then delimiter && !afterDelimiter && followsGrammar flags delimiter true words
    else if !afterDelimiter && startsWith "--" word && !flags.contains word then false
    else followsGrammar flags delimiter afterDelimiter words

def tokensFollowCatalogGrammar (workflow : WorkflowActivationId) (words : List String) : Bool :=
  followsGrammar (allowedFlags workflow) (acceptsDelimiter workflow) false words

def Operation.text : Operation → String
  | .start => "start"
  | .pause => "pause"
  | .resume => "resume"
  | .cancel => "cancel"
  | .adopt => "adopt"
  | .reconcile => "reconcile"
  | .status => "status"
  | .repair => "repair"
  | .repairLock => "repair_lock"
  | .create => "create"
  | .checkpoint => "checkpoint"
  | .steer => "steer"

/-- The operation, if there are so many words. -/
def upTo (most : ℕ) (operation : Operation) (words : List String) : Option (Operation × List String) :=
  if words.length ≤ most then some (operation, words) else none

def exactly (count : ℕ) (operation : Operation) (words : List String) : Option (Operation × List String) :=
  if words.length = count then some (operation, words) else none

def parseStatus (rest : List String) : Option (Operation × List String) :=
  if rest.length ≤ 1 then some (.status, rest)
  else if rest.head? = some "--repair" ∧ rest.length = 2 then some (.repair, rest.drop 1)
  else if rest.head? = some "--repair-lock" ∧ rest.length = 3 ∧ rest[2]? = some "--confirm" then
    some (.repairLock, [rest[1]?.getD ""])
  else none

def parseStart : List String → Option (Operation × List String)
  | [] => some (.start, [])
  | operation :: rest =>
    if operation = "start" then upTo 1 .start rest
    else if operation = "pause" then upTo 1 .pause rest
    else if operation = "resume" then upTo 1 .resume rest
    else if operation = "cancel" then upTo 1 .cancel rest
    else if operation = "adopt" then exactly 1 .adopt rest
    else if operation = "reconcile" then exactly 2 .reconcile rest
    else if operation = "status" then parseStatus rest
    else none

def parseUlwLoop : List String → Option (Operation × List String)
  | [] => some (.status, [])
  | operation :: rest =>
    if operation = "--" then if rest ≠ [] ∧ "--" ∉ rest then some (.create, rest) else none
    else if "--" ∈ rest then none
    else if operation = "create" then if rest ≠ [] then some (.create, rest) else none
    else if operation = "status" then upTo 1 .status rest
    else if operation = "pause" then upTo 1 .pause rest
    else if operation = "resume" then upTo 1 .resume rest
    else if operation = "cancel" then upTo 1 .cancel rest
    else if operation = "adopt" then exactly 1 .adopt rest
    else if operation = "checkpoint" then exactly 3 .checkpoint rest
    else if operation = "steer" then exactly 2 .steer rest
    else some (.create, operation :: rest)

/-- What `parseReport` has left after the flags. -/
def reportSummary : List String → Option (List String)
  | [] => some []
  | [word] => if !startsWith "--" word then some [word] else if word = "--dry-run" then some [] else none
  | word :: value :: words =>
    if !startsWith "--" word then some (word :: value :: words)
    else if word = "--dry-run" then reportSummary (value :: words)
    else if word = "--target" ∧ value ∈ ["auto", "omp-lazy", "omp"] then reportSummary words
    else none

structure ParsedWorkflowCommand where
  operation : String
  words : List String
  deriving DecidableEq, Repr

def parseReport (words : List String) : Option ParsedWorkflowCommand :=
  match reportSummary words with
  | none => none
  | some summary =>
    if summary ≠ [] ∧ summary.all fun word ↦ !startsWith "--" word then some ⟨"draft", summary⟩ else none

def parseTeammode : List String → Option ParsedWorkflowCommand
  | [] => none
  | operation :: rest =>
    if (operation = "status" ∧ rest.length ≤ 1) ∨
        (operation ∈ ["prepare", "create"] ∧ rest.length = 2) ∨
        (operation ∈ ["cancel", "archive", "delete", "resume"] ∧ rest.length = 1) then
      some ⟨operation, rest⟩
    else none

/-- A mode, and the words of a task behind the delimiter, if it is there. -/
def parseModes (modes : List String) (operation : String) (words : List String) : Option ParsedWorkflowCommand :=
  let before := words.takeWhile (· ≠ "--")
  let task := (words.dropWhile (· ≠ "--")).drop 1
  if before.length ≤ 1 ∧ (before.all fun mode ↦ modes.contains mode) ∧ ("--" ∈ words → task ≠ []) then
    some ⟨operation, words⟩
  else none

def parsePlan : List String → Option ParsedWorkflowCommand
  | [] => some ⟨"plan", []⟩
  | operation :: rest =>
    if operation = "approve" then
      if rest.length = 2 ∧ isLowerHexOf 64 (rest[1]?.getD "") then some ⟨"approve", rest⟩ else none
    else if operation = "--" ∧ rest ≠ [] then some ⟨"plan", rest⟩
    else none

def parseWords (words : List String) : WorkflowActivationId → Option ParsedWorkflowCommand
  | .startWork => (parseStart words).map fun parsed ↦ ⟨parsed.1.text, parsed.2⟩
  | .ulwLoop => (parseUlwLoop words).map fun parsed ↦ ⟨parsed.1.text, parsed.2⟩
  | .teammode => parseTeammode words
  | .ultrawork => parseModes ["auto", "light", "heavy"] "activate" words
  | .ulwPlan => parsePlan words
  | .ulwDeliver => parseModes ["fast", "standard", "deep"] "deliver" words
  | .ulwResearch => if words ≠ [] ∧ (words.head?.all fun word ↦ !startsWith "--" word) then some ⟨"research", words⟩ else none
  | .doctor => if (∀ word ∈ words, word = "--json" ∨ word = "--deep") ∧ words.Nodup then some ⟨"doctor", words⟩ else none
  | .reportBug => parseReport words
  | .contributeBugFix => if words.head? = some "--dry-run" ∧ words.length = 2 then some ⟨"dry_run", words.drop 1⟩ else none

/-- The words of a command line that follow the catalog. -/
def commandWords (workflow : WorkflowActivationId) (args : String) : Option (List String) :=
  (tokenize (trim args)).filter (tokensFollowCatalogGrammar workflow)

def parseWorkflowCommand (workflow : WorkflowActivationId) (args : String) : Option ParsedWorkflowCommand :=
  (commandWords workflow args).bind fun words ↦ parseWords words workflow

/-- What a session asks for when it gives one of the two commands that act on a run. -/
def runCommand : WorkflowKind → String → Option (Operation × List String)
  | .startWork, args => (commandWords .startWork args).bind parseStart
  | .ulwLoop, args => (commandWords .ulwLoop args).bind parseUlwLoop

theorem parse_runCommand (args : String) :
    parseWorkflowCommand .startWork args = (runCommand .startWork args).map (fun parsed ↦ ⟨parsed.1.text, parsed.2⟩) ∧
      parseWorkflowCommand .ulwLoop args = (runCommand .ulwLoop args).map fun parsed ↦ ⟨parsed.1.text, parsed.2⟩ := by
  constructor
  · rw [parseWorkflowCommand, runCommand, Option.map_bind]
    rfl
  · rw [parseWorkflowCommand, runCommand, Option.map_bind]
    rfl

section Targets

variable {most count : ℕ} {operation : Operation} {rest words : List String} {workflow : WorkflowKind}
  {args : String}

/-- The operations that act on a run without looking at its owner name it. -/
def NamesRun (operation : Operation) : Prop := operation = .reconcile ∨ operation = .checkpoint ∨ operation = .steer

instance : DecidablePred NamesRun := fun _ ↦ inferInstanceAs (Decidable (_ ∨ _ ∨ _))

/-- Where the operation of a command names its run, the words do. -/
def Named (parsed : Option (Operation × List String)) : Prop :=
  ∀ operation words, parsed = some (operation, words) → NamesRun operation → ∃ target, words[0]? = some target

theorem named_none : Named none := by
  intro operation words h
  cases h

theorem named_some (hoperation : ¬ NamesRun operation) : Named (some (operation, rest)) := by
  intro parsed words h hnames
  rw [← (Prod.mk.inj (Option.some.inj h)).1] at hnames
  exact absurd hnames hoperation

theorem named_upTo (hoperation : ¬ NamesRun operation) : Named (upTo most operation rest) := by
  unfold upTo
  split
  · exact named_some hoperation
  · exact named_none

theorem named_exactly (hcount : 0 < count) : Named (exactly count operation rest) := by
  intro parsed words h _
  unfold exactly at h
  split at h
  · rename_i hlength
    obtain ⟨-, rfl⟩ := Prod.mk.inj (Option.some.inj h)
    exact ⟨_, List.getElem?_eq_getElem (hlength ▸ hcount)⟩
  · cases h

theorem Named.ite {c : Prop} [Decidable c] {first second : Option (Operation × List String)} (hfirst : Named first)
    (hsecond : Named second) : Named (if c then first else second) := by
  split
  · exact hfirst
  · exact hsecond

theorem parseStatus_named : Named (parseStatus rest) :=
  (named_some (by decide)).ite <| (named_some (by decide)).ite <| (named_some (by decide)).ite named_none

theorem parseStart_named : Named (parseStart words) := by
  cases words with
  | nil => exact named_some (by decide)
  | cons operation rest =>
    exact (named_upTo (by decide)).ite <| (named_upTo (by decide)).ite <| (named_upTo (by decide)).ite <|
      (named_upTo (by decide)).ite <| (named_exactly (by decide)).ite <| (named_exactly (by decide)).ite <|
        parseStatus_named.ite named_none

theorem parseUlwLoop_named : Named (parseUlwLoop words) := by
  cases words with
  | nil => exact named_some (by decide)
  | cons operation rest =>
    have hcreate : ∀ {c : Prop} [Decidable c] {words : List String}, Named (if c then some (.create, words) else none) :=
      (named_some (by decide)).ite named_none
    exact hcreate.ite <| named_none.ite <| hcreate.ite <| (named_upTo (by decide)).ite <| (named_upTo (by decide)).ite <|
      (named_upTo (by decide)).ite <| (named_upTo (by decide)).ite <| (named_exactly (by decide)).ite <|
        (named_exactly (by decide)).ite <| (named_exactly (by decide)).ite <| named_some (by decide)

theorem runCommand_named (h : runCommand workflow args = some (operation, words)) (hnames : NamesRun operation) :
    ∃ target, words[0]? = some target := by
  cases workflow with
  | startWork =>
    obtain ⟨_, -, hparsed⟩ := Option.bind_eq_some_iff.mp h
    exact parseStart_named _ _ hparsed hnames
  | ulwLoop =>
    obtain ⟨_, -, hparsed⟩ := Option.bind_eq_some_iff.mp h
    exact parseUlwLoop_named _ _ hparsed hnames

end Targets

end OmpLazy.Commands

import OmpLazy.Context.InjectionReceiptWriter
import OmpLazy.Contracts.CompileTaskPacket

/-! The rules of a repository that match the paths of a turn, in a text of bounded size. -/

namespace OmpLazy.Context

open OmpLazy.Foundation OmpLazy.Contracts

def injectionBudgetBytes : ℕ := 65536

def directiveBudgetBytes : ℕ := 32768

def rulesBudgetBytes : ℕ := 20480

def catalogBudgetBytes : ℕ := 12288

structure RuleUnit where
  fileName : String
  relativePath : String
  displayPath : String
  globs : List String
  order : Option ℤ
  description : Option String
  body : String
  bytes : ℕ
  deriving DecidableEq, Repr

/-! Globs. A string is indexed by its UTF-16 code units. -/

abbrev CodeUnits := List UInt16

def codeUnits (s : String) : CodeUnits := (utf16Units s).map UInt16.ofNat

namespace Glob

def star : UInt16 := 0x2A

def question : UInt16 := 0x3F

def slash : UInt16 := 0x2F

def backslash : UInt16 := 0x5C

end Glob

open Glob

def normalizePath (path : CodeUnits) : CodeUnits := path.map fun c ↦ if c = backslash then slash else c

/-- Where the search goes back to: the pattern behind a star, and the segment from the place that the star
has reached. -/
structure StarPosition where
  pattern : CodeUnits
  segment : CodeUnits
  deriving DecidableEq, Repr

/-- The loop of `segmentMatch`, on what is left of the pattern and of the segment. -/
def segmentLoop (pattern segment : CodeUnits) (saved : Option StarPosition)
    (hsaved : ∀ s ∈ saved, pattern.length ≤ s.pattern.length ∧ segment.length ≤ s.segment.length) : Bool :=
  match segment with
  | [] => pattern.all (· = star)
  | c :: rest =>
    if pattern.head? = some question ∨ pattern.head? = some c then
      segmentLoop pattern.tail rest saved fun s hs ↦ by
        have h := hsaved s hs
        simp only [List.length_tail, List.length_cons] at h ⊢
        omega
    else if pattern.head? = some star then
      segmentLoop pattern.tail (c :: rest) (some ⟨pattern.tail, c :: rest⟩) fun s hs ↦ by
        obtain rfl := Option.some.inj hs
        exact ⟨le_rfl, le_rfl⟩
    else
      match saved with
      | none => false
      | some s =>
        segmentLoop s.pattern s.segment.tail (some ⟨s.pattern, s.segment.tail⟩) fun s hs ↦ by
          obtain rfl := Option.some.inj hs
          exact ⟨le_rfl, le_rfl⟩
  termination_by (if saved.isSome then 0 else 1, saved.elim 0 (·.segment.length), saved.elim 0 (·.pattern.length),
    segment.length)
  decreasing_by
    · exact .right _ (.right _ (.right _ (Nat.lt_succ_self _)))
    · rename_i hstar
      have hpattern : pattern.tail.length < pattern.length := by
        cases pattern with
        | nil => cases hstar
        | cons _ _ => exact Nat.lt_succ_self _
      cases saved with
      | none => exact .left _ _ Nat.zero_lt_one
      | some s =>
        obtain ⟨hp, hs⟩ := hsaved s rfl
        obtain hlt | heq := hs.lt_or_eq
        · exact .right _ (.left _ _ hlt)
        · refine .right _ ?_
          simp only [Option.elim, heq]
          exact .right _ (.left _ _ (hpattern.trans_le hp))
    · refine .right _ (.left _ _ ?_)
      have hs := (hsaved s rfl).2
      simp only [Option.elim, List.length_tail, List.length_cons] at hs ⊢
      omega

def segmentMatch (pattern segment : CodeUnits) : Bool := segmentLoop pattern segment none (by simp)

def globMatchImpl : List CodeUnits → List CodeUnits → Bool
  | g :: globParts, p :: pathParts =>
    if g = [star, star] then globMatchImpl globParts (p :: pathParts) || globMatchImpl (g :: globParts) pathParts
    else segmentMatch g p && globMatchImpl globParts pathParts
  | globParts, pathParts => globParts.all (· = [star, star]) && pathParts.isEmpty
  termination_by globParts pathParts => globParts.length + pathParts.length

def parts (path : CodeUnits) : List CodeUnits := (normalizePath path).splitOn slash

def matchGlob (glob path : CodeUnits) : Bool := globMatchImpl (parts glob) (parts path)

/-! The order of the rules. -/

/-- The most characters of a glob that are no wildcard and, once normalized, no separator. -/
def globSpecificity (globs : List String) : ℕ :=
  (globs.map fun glob ↦ glob.toList.countP fun ch ↦ ch ∉ ['*', '?', '/', '\\']).foldl max 0

structure ScoredRule where
  rule : RuleUnit
  order : ℤ
  specificity : ℕ
  deriving DecidableEq, Repr

def compareRules (a b : ScoredRule) : ℤ :=
  if a.order ≠ b.order then a.order - b.order
  else if a.specificity ≠ b.specificity then b.specificity - a.specificity
  else if utf16Units a.rule.fileName < utf16Units b.rule.fileName then -1
  else if utf16Units b.rule.fileName < utf16Units a.rule.fileName then 1
  else 0

def filterMatchingRules (rules : List RuleUnit) (touchedPaths : List String) : List RuleUnit :=
  rules.filter fun rule ↦ rule.globs.any fun glob ↦ touchedPaths.any fun path ↦
    matchGlob (codeUnits glob) (codeUnits path)

def scoredRule (rule : RuleUnit) : ScoredRule := ⟨rule, rule.order.getD 0, globSpecificity rule.globs⟩

def sortRules (rules : List RuleUnit) : List ScoredRule :=
  (rules.map scoredRule).mergeSort fun a b ↦ compareRules a b ≤ 0

def formatRuleEntry (rule : RuleUnit) : String := "[" ++ rule.fileName ++ "]" ++ "\n" ++ rule.body

/-! The sections under their budgets. -/

structure AssemblyInput where
  rules : List RuleUnit
  touchedPaths : List String
  directiveText : Option String
  catalogText : Option String
  deriving DecidableEq, Repr

structure DroppedUnit where
  id : String
  fromSection : DroppedSection
  reason : String
  deriving DecidableEq, Repr

structure RetainedUnit where
  id : String
  fromSection : DroppedSection
  deriving DecidableEq, Repr

structure AssemblyResult where
  assembledRules : Option String
  assembledDirective : Option String
  assembledCatalog : Option String
  totalBytes : ℕ
  droppedUnits : List DroppedUnit
  retainedUnits : List RetainedUnit
  deriving DecidableEq, Repr

/-- A section that is one text is there in whole or not at all. -/
def assembleText (fromSection : DroppedSection) (budgetName : String) (budget : ℕ) :
    Option String → Option String × List RetainedUnit × List DroppedUnit
  | none => (none, [], [])
  | some text =>
    if text.utf8ByteSize ≤ budget then (some text, [⟨fromSection.name, fromSection⟩], [])
    else (none, [], [⟨fromSection.name, fromSection, fromSection.name ++ " exceeds " ++ budgetName ++ " (" ++
      toString text.utf8ByteSize ++ " > " ++ toString budget ++ ")"⟩])

structure RulesPass where
  ruleSegments : List String
  currentRulesBytes : ℕ
  retainedUnits : List RetainedUnit
  droppedUnits : List DroppedUnit
  deriving DecidableEq, Repr

def RulesPass.place (pass : RulesPass) (scored : ScoredRule) : RulesPass :=
  let ruleText := formatRuleEntry scored.rule
  let separatorBytes := if pass.ruleSegments.isEmpty then 0 else "\n\n".utf8ByteSize
  let wouldBe := pass.currentRulesBytes + separatorBytes + ruleText.utf8ByteSize
  if wouldBe ≤ rulesBudgetBytes then
    { pass with
      ruleSegments := pass.ruleSegments ++ [ruleText]
      currentRulesBytes := wouldBe
      retainedUnits := pass.retainedUnits ++ [⟨scored.rule.fileName, .rules⟩] }
  else
    { pass with
      droppedUnits := pass.droppedUnits ++ [⟨scored.rule.fileName, .rules, "rules budget exceeded (would be " ++
        toString wouldBe ++ " > " ++ toString rulesBudgetBytes ++ ")"⟩] }

def byteLength (text : Option String) : ℕ := (text.getD "").utf8ByteSize

def assembleRules (input : AssemblyInput) : AssemblyResult :=
  let sortedRules := sortRules (filterMatchingRules input.rules input.touchedPaths)
  let (directive, retainedDirective, droppedDirective) :=
    assembleText .directive "DIRECTIVE_BUDGET_BYTES" directiveBudgetBytes input.directiveText
  let (catalog, retainedCatalog, droppedCatalog) :=
    assembleText .catalog "CATALOG_BUDGET_BYTES" catalogBudgetBytes input.catalogText
  let pass := sortedRules.foldl RulesPass.place
    ⟨[], 0, retainedDirective ++ retainedCatalog, droppedDirective ++ droppedCatalog⟩
  let rules := if pass.ruleSegments.isEmpty then none else some ("\n\n".intercalate pass.ruleSegments)
  if injectionBudgetBytes < byteLength directive + byteLength catalog + byteLength rules ∧ rules ≠ none then
    let retainedRules := pass.retainedUnits.filter (·.fromSection = .rules)
    { assembledRules := none
      assembledDirective := directive
      assembledCatalog := catalog
      totalBytes := byteLength directive + byteLength catalog + byteLength none
      droppedUnits := pass.droppedUnits ++
        retainedRules.reverse.map fun retained ↦ ⟨retained.id, .rules, "total budget overflow safety"⟩
      retainedUnits := pass.retainedUnits.filter (·.fromSection ≠ .rules) }
  else
    { assembledRules := rules
      assembledDirective := directive
      assembledCatalog := catalog
      totalBytes := byteLength directive + byteLength catalog + byteLength rules
      droppedUnits := pass.droppedUnits
      retainedUnits := pass.retainedUnits }

end OmpLazy.Context

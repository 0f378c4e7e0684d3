import OmpLazy.Context.RulesAssembly
import OmpLazy.Contracts.OrdinalStrings
import OmpLazy.Foundation.FirstFit
import Mathlib.Data.Prod.Lex

/-! Which rules are retained under the budgets, and in which order. -/

namespace OmpLazy.Context

open OmpLazy.Foundation OmpLazy.Foundation.FirstFit OmpLazy.Contracts

/-! The priority of a rule. -/

section Priority

variable {a b c : ScoredRule} {rules rules' : List RuleUnit} {paths paths' : List String}

/-- What the order of the rules compares, smallest first. -/
def ScoredRule.priority (a : ScoredRule) : ℤ ×ₗ ℤ ×ₗ List ℕ :=
  toLex (a.order, toLex (-(a.specificity : ℤ), utf16Units a.rule.fileName))

theorem compareRules_nonpos : compareRules a b ≤ 0 ↔ a.priority ≤ b.priority := by
  rw [ScoredRule.priority, ScoredRule.priority, Prod.Lex.toLex_le_toLex, Prod.Lex.toLex_le_toLex, compareRules]
  dsimp only
  split
  · rename_i horder
    omega
  rename_i horder
  rw [ne_eq, not_not] at horder
  split
  · omega
  rename_i hspecificity
  rw [ne_eq, not_not] at hspecificity
  simp only [horder, hspecificity, lt_self_iff_false, true_and, false_or]
  split
  · rename_i hlt
    exact iff_of_true (by decide) hlt.le
  split
  · rename_i hlt
    exact iff_of_false (by decide) (not_le_of_gt hlt)
  · rename_i hlt
    exact iff_of_true le_rfl (not_lt.mp hlt)

theorem priority_fileName (h : a.priority = b.priority) : a.rule.fileName = b.rule.fileName := by
  have hrest := congrArg (fun x : ℤ ×ₗ ℤ ×ₗ List ℕ ↦ (ofLex (ofLex x).2).2) h
  exact utf16Units_injective hrest

theorem sortRules_pairwise (rules : List RuleUnit) :
    (sortRules rules).Pairwise fun a b ↦ a.priority ≤ b.priority := by
  have htrans : ∀ a b c : ScoredRule, decide (compareRules a b ≤ 0) = true → decide (compareRules b c ≤ 0) = true →
      decide (compareRules a c ≤ 0) = true := by
    intro a b c
    simp only [decide_eq_true_eq, compareRules_nonpos]
    exact le_trans
  have htotal : ∀ a b : ScoredRule, (decide (compareRules a b ≤ 0) || decide (compareRules b a ≤ 0)) = true := by
    intro a b
    simp only [Bool.or_eq_true, decide_eq_true_eq, compareRules_nonpos]
    exact le_total _ _
  refine (List.pairwise_mergeSort htrans htotal (rules.map scoredRule)).imp fun h ↦ ?_
  exact compareRules_nonpos.mp (of_decide_eq_true h)

theorem sortRules_perm (rules : List RuleUnit) : (sortRules rules).Perm (rules.map scoredRule) :=
  List.mergeSort_perm _ _

theorem sortRules_fileNames (rules : List RuleUnit) :
    ((sortRules rules).map (·.rule.fileName)).Perm (rules.map (·.fileName)) := by
  have h := (sortRules_perm rules).map (·.rule.fileName)
  rwa [List.map_map] at h

theorem eq_of_fileName (hnames : ((sortRules rules).map (·.rule.fileName)).Nodup) (ha : a ∈ sortRules rules)
    (hb : b ∈ sortRules rules) (h : a.rule.fileName = b.rule.fileName) : a = b :=
  List.inj_on_of_nodup_map hnames ha hb h

/-- Rules with file names of their own are sorted in one way only. -/
theorem sortRules_unique (hnames : (rules.map (·.fileName)).Nodup) (h : rules.Perm rules') :
    sortRules rules = sortRules rules' := by
  have hperm : (sortRules rules).Perm (sortRules rules') :=
    ((sortRules_perm rules).trans (h.map scoredRule)).trans (sortRules_perm rules').symm
  have hsorted := (sortRules_fileNames rules).nodup_iff.mpr hnames
  refine List.Perm.eq_of_pairwise (fun a b ha hb hle hle' ↦ ?_) (sortRules_pairwise rules)
    (sortRules_pairwise rules') hperm
  exact eq_of_fileName hsorted ha (hperm.mem_iff.mpr hb) (priority_fileName (le_antisymm hle hle'))

theorem filterMatchingRules_perm (h : rules.Perm rules') (hpaths : paths.Perm paths') :
    (filterMatchingRules rules paths).Perm (filterMatchingRules rules' paths') := by
  have hfilter : filterMatchingRules rules' paths = filterMatchingRules rules' paths' := by
    refine List.filter_congr fun rule _ ↦ ?_
    rw [Bool.eq_iff_iff]
    simp only [List.any_eq_true, hpaths.mem_iff]
  rw [← hfilter]
  exact h.filter _

end Priority

/-! The pass over the sorted rules. -/

section Pass

variable {start pass : RulesPass} {kept dropped sorted : List ScoredRule} {scored : ScoredRule}

def ruleSize (scored : ScoredRule) : ℕ := (formatRuleEntry scored.rule).utf8ByteSize

/-- A rule goes in as long as the text of the rules stays within its budget. -/
def ruleFits : List ScoredRule → ScoredRule → Bool := within ruleSize 2 rulesBudgetBytes

def retainedRule (scored : ScoredRule) : RetainedUnit := ⟨scored.rule.fileName, .rules⟩

def DroppedUnit.names (unit : DroppedUnit) : String × DroppedSection := (unit.id, unit.fromSection)

def droppedRule (scored : ScoredRule) : String × DroppedSection := (scored.rule.fileName, .rules)

/-- What a pass that has kept some rules and dropped others has written down. -/
structure RulesPass.Holds (start pass : RulesPass) (kept dropped : List ScoredRule) : Prop where
  ruleSegments : pass.ruleSegments = kept.map fun scored ↦ formatRuleEntry scored.rule
  currentRulesBytes : pass.currentRulesBytes = load ruleSize 2 kept
  retainedUnits : pass.retainedUnits = start.retainedUnits ++ kept.map retainedRule
  droppedUnits : pass.droppedUnits.map (·.names) = start.droppedUnits.map (·.names) ++ dropped.map droppedRule

/-- What the code adds up is the load with the rule. -/
theorem RulesPass.Holds.wouldBe (h : start.Holds pass kept dropped) (scored : ScoredRule) :
    pass.currentRulesBytes + (if pass.ruleSegments.isEmpty then 0 else "\n\n".utf8ByteSize) +
      (formatRuleEntry scored.rule).utf8ByteSize = load ruleSize 2 (kept ++ [scored]) := by
  have hseparator : "\n\n".utf8ByteSize = 2 := by decide
  rw [load_concat, h.currentRulesBytes, h.ruleSegments, List.isEmpty_map, hseparator]
  rfl

theorem RulesPass.Holds.place_kept (h : start.Holds pass kept dropped) (hfits : ruleFits kept scored = true) :
    start.Holds (pass.place scored) (kept ++ [scored]) dropped := by
  have hwould := h.wouldBe scored
  rw [RulesPass.place]
  rw [hwould, if_pos (of_decide_eq_true hfits)]
  exact {
    ruleSegments := by simp [h.ruleSegments]
    currentRulesBytes := rfl
    retainedUnits := by simp [h.retainedUnits, retainedRule]
    droppedUnits := h.droppedUnits }

theorem RulesPass.Holds.place_dropped (h : start.Holds pass kept dropped) (hfits : ¬ ruleFits kept scored = true) :
    start.Holds (pass.place scored) kept (dropped ++ [scored]) := by
  have hwould := h.wouldBe scored
  rw [RulesPass.place]
  rw [hwould, if_neg (mt decide_eq_true hfits)]
  exact {
    ruleSegments := h.ruleSegments
    currentRulesBytes := h.currentRulesBytes
    retainedUnits := h.retainedUnits
    droppedUnits := by
      rw [List.map_append, h.droppedUnits, List.append_assoc, List.map_append]
      rfl }

theorem RulesPass.Holds.nil (start : RulesPass) (h : start.ruleSegments = [] ∧ start.currentRulesBytes = 0) :
    start.Holds start [] [] where
  ruleSegments := h.1
  currentRulesBytes := h.2
  retainedUnits := (List.append_nil _).symm
  droppedUnits := (List.append_nil _).symm

theorem RulesPass.Holds.placeAll (h : start.Holds pass kept dropped) (sorted : List ScoredRule) :
    start.Holds (sorted.foldl RulesPass.place pass) (firstFit ruleFits kept sorted).1
      (dropped ++ (firstFit ruleFits kept sorted).2) := by
  induction sorted generalizing pass kept dropped with
  | nil => simpa [firstFit] using h
  | cons scored sorted ih =>
    rw [List.foldl_cons]
    by_cases hfits : ruleFits kept scored = true
    · rw [firstFit_cons_pos hfits]
      exact ih (h.place_kept hfits)
    · rw [firstFit_cons_neg hfits, List.append_cons]
      exact ih (h.place_dropped hfits)

/-- The bytes of the joined entries are the load. -/
theorem byteSize_join (kept : List ScoredRule) :
    ("\n\n".intercalate (kept.map fun scored ↦ formatRuleEntry scored.rule)).utf8ByteSize = load ruleSize 2 kept := by
  induction kept with
  | nil => simp
  | cons scored kept ih =>
    cases kept with
    | nil => simp [load, ruleSize]
    | cons next kept =>
      have hseparator : "\n\n".utf8ByteSize = 2 := by decide
      rw [List.map_cons] at ih
      rw [List.map_cons, List.map_cons, String.intercalate_cons_cons, String.utf8ByteSize_append,
        String.utf8ByteSize_append, ih, hseparator]
      simp only [load, ruleSize, List.map_cons, List.sum_cons, List.length_cons, Nat.add_sub_cancel]
      omega

end Pass

/-! The assembled sections. -/

section Assembly

variable {input : AssemblyInput} {sorted kept dropped : List ScoredRule}

theorem assembleText_fst (fromSection : DroppedSection) (budgetName : String) (budget : ℕ) (text : Option String) :
    (assembleText fromSection budgetName budget text).1 = text.filter fun s ↦ s.utf8ByteSize ≤ budget := by
  cases text with
  | none => rfl
  | some s =>
    rw [assembleText]
    rw [Option.filter_some]
    by_cases h : s.utf8ByteSize ≤ budget
    · rw [if_pos h, if_pos (decide_eq_true h)]
    · rw [if_neg h, if_neg (mt of_decide_eq_true h)]

theorem assembleText_section (fromSection : DroppedSection) (budgetName : String) (budget : ℕ)
    (text : Option String) :
    (∀ unit ∈ (assembleText fromSection budgetName budget text).2.1, unit.fromSection = fromSection) ∧
      ∀ unit ∈ (assembleText fromSection budgetName budget text).2.2, unit.fromSection = fromSection := by
  cases text with
  | none => simp [assembleText]
  | some s =>
    rw [assembleText]
    split
    · simp
    · simp

theorem byteLength_filter (text : Option String) (budget : ℕ) :
    byteLength (text.filter fun s ↦ s.utf8ByteSize ≤ budget) ≤ budget := by
  cases text with
  | none => exact Nat.zero_le _
  | some s =>
    rw [Option.filter_some]
    split
    · rename_i h
      exact of_decide_eq_true h
    · exact Nat.zero_le _

/-- The rules that match, in their order. -/
def matchedRules (input : AssemblyInput) : List ScoredRule :=
  sortRules (filterMatchingRules input.rules input.touchedPaths)

def joinRules (kept : List ScoredRule) : Option String :=
  if kept.isEmpty then none else some ("\n\n".intercalate (kept.map fun scored ↦ formatRuleEntry scored.rule))

theorem byteLength_joinRules (kept : List ScoredRule) : byteLength (joinRules kept) = load ruleSize 2 kept := by
  cases kept with
  | nil => simp [joinRules, byteLength]
  | cons scored kept => exact byteSize_join (scored :: kept)

/-- A result in which each matched rule is retained in whole or dropped, and no budget is exceeded. -/
structure Assembled (input : AssemblyInput) (result : AssemblyResult) (kept dropped : List ScoredRule) : Prop where
  matched : (kept ++ dropped).Perm ((filterMatchingRules input.rules input.touchedPaths).map scoredRule)
  ordered : kept.Pairwise fun a b ↦ compareRules a b ≤ 0
  retained : result.retainedUnits.filter (·.fromSection = .rules) = kept.map retainedRule
  dropped : (result.droppedUnits.map (·.names)).filter (·.2 = .rules) = dropped.map droppedRule
  assembledRules : result.assembledRules = joinRules kept
  assembledDirective : result.assembledDirective =
    input.directiveText.filter fun text ↦ text.utf8ByteSize ≤ directiveBudgetBytes
  assembledCatalog : result.assembledCatalog =
    input.catalogText.filter fun text ↦ text.utf8ByteSize ≤ catalogBudgetBytes
  rulesBytes : byteLength result.assembledRules ≤ rulesBudgetBytes
  directiveBytes : byteLength result.assembledDirective ≤ directiveBudgetBytes
  catalogBytes : byteLength result.assembledCatalog ≤ catalogBudgetBytes
  total : result.totalBytes = byteLength result.assembledDirective + byteLength result.assembledCatalog +
    byteLength result.assembledRules
  totalBytes : result.totalBytes ≤ injectionBudgetBytes

/-- No retained rule comes behind a dropped one. -/
def LowestFirst (kept dropped : List ScoredRule) : Prop := ∀ k ∈ kept, ∀ d ∈ dropped, compareRules k d ≤ 0

def passOf (input : AssemblyInput) : List ScoredRule × List ScoredRule := firstFit ruleFits [] (matchedRules input)

/-- The pass starts with the two texts, and the check of the total has nothing to drop. -/
theorem assembleRules_pass (input : AssemblyInput) : ∃ start pass : RulesPass,
    start.Holds pass (passOf input).1 (passOf input).2 ∧
      (∀ unit ∈ start.retainedUnits, unit.fromSection ≠ .rules) ∧
        (∀ unit ∈ start.droppedUnits, unit.fromSection ≠ .rules) ∧
          let directive := input.directiveText.filter fun text ↦ text.utf8ByteSize ≤ directiveBudgetBytes
          let catalog := input.catalogText.filter fun text ↦ text.utf8ByteSize ≤ catalogBudgetBytes
          let rules := joinRules (passOf input).1
          assembleRules input = ⟨rules, directive, catalog, byteLength directive + byteLength catalog + byteLength rules,
            pass.droppedUnits, pass.retainedUnits⟩ := by
  have hdirective := assembleText_section .directive "DIRECTIVE_BUDGET_BYTES" directiveBudgetBytes input.directiveText
  have hcatalog := assembleText_section .catalog "CATALOG_BUDGET_BYTES" catalogBudgetBytes input.catalogText
  have hdirectiveText := assembleText_fst .directive "DIRECTIVE_BUDGET_BYTES" directiveBudgetBytes input.directiveText
  have hcatalogText := assembleText_fst .catalog "CATALOG_BUDGET_BYTES" catalogBudgetBytes input.catalogText
  have hdirectiveBytes := byteLength_filter input.directiveText directiveBudgetBytes
  have hcatalogBytes := byteLength_filter input.catalogText catalogBudgetBytes
  have hrules : byteLength (joinRules (passOf input).1) ≤ rulesBudgetBytes := by
    rw [byteLength_joinRules]
    exact firstFit_load (Nat.zero_le _)
  unfold assembleRules
  generalize assembleText .directive "DIRECTIVE_BUDGET_BYTES" directiveBudgetBytes input.directiveText =
    directive at *
  generalize assembleText .catalog "CATALOG_BUDGET_BYTES" catalogBudgetBytes input.catalogText = catalog at *
  obtain ⟨directive, retainedDirective, droppedDirective⟩ := directive
  obtain ⟨catalog, retainedCatalog, droppedCatalog⟩ := catalog
  obtain rfl : directive = _ := hdirectiveText
  obtain rfl : catalog = _ := hcatalogText
  have hpass := (RulesPass.Holds.nil ⟨[], 0, retainedDirective ++ retainedCatalog,
    droppedDirective ++ droppedCatalog⟩ ⟨rfl, rfl⟩).placeAll (matchedRules input)
  dsimp only
  unfold matchedRules at hpass
  generalize List.foldl RulesPass.place _ _ = pass at hpass ⊢
  have hjoin : (if pass.ruleSegments.isEmpty then none else some ("\n\n".intercalate pass.ruleSegments)) =
      joinRules (passOf input).1 := by
    rw [hpass.ruleSegments, List.isEmpty_map]
    rfl
  refine ⟨_, pass, hpass, fun unit hunit ↦ ?_, fun unit hunit ↦ ?_, ?_⟩
  · obtain hunit | hunit := List.mem_append.mp hunit
    · simp [hdirective.1 unit hunit]
    · simp [hcatalog.1 unit hunit]
  · obtain hunit | hunit := List.mem_append.mp hunit
    · simp [hdirective.2 unit hunit]
    · simp [hcatalog.2 unit hunit]
  · rw [hjoin, if_neg]
    rintro ⟨hbytes, -⟩
    simp only [injectionBudgetBytes, directiveBudgetBytes, catalogBudgetBytes, rulesBudgetBytes] at *
    omega

theorem assembled (input : AssemblyInput) :
    Assembled input (assembleRules input) (passOf input).1 (passOf input).2 := by
  obtain ⟨start, pass, hpass, hretained, hdropped, heq⟩ := assembleRules_pass input
  have hrules : byteLength (joinRules (passOf input).1) ≤ rulesBudgetBytes := by
    rw [byteLength_joinRules]
    exact firstFit_load (Nat.zero_le _)
  have hdirective := byteLength_filter input.directiveText directiveBudgetBytes
  have hcatalog := byteLength_filter input.catalogText catalogBudgetBytes
  have hsorted := sortRules_pairwise (filterMatchingRules input.rules input.touchedPaths)
  rw [heq]
  exact {
    matched := (firstFit_perm ruleFits [] (matchedRules input)).trans (sortRules_perm _)
    ordered := by
      obtain ⟨ys, hys, hkept⟩ := firstFit_sublist ruleFits [] (matchedRules input)
      rw [passOf, hkept, List.nil_append]
      exact (hsorted.sublist hys).imp fun h ↦ compareRules_nonpos.mpr h
    retained := by
      rw [hpass.retainedUnits, List.filter_append, List.filter_eq_nil_iff.mpr (by simpa using hretained),
        List.nil_append, List.filter_eq_self]
      simp [retainedRule]
    dropped := by
      rw [hpass.droppedUnits, List.filter_append, List.filter_eq_nil_iff.mpr, List.nil_append, List.filter_eq_self]
      · simp [droppedRule]
      · simpa [DroppedUnit.names] using hdropped
    assembledRules := rfl
    assembledDirective := rfl
    assembledCatalog := rfl
    rulesBytes := hrules
    directiveBytes := hdirective
    catalogBytes := hcatalog
    total := rfl
    totalBytes := by
      simp only [injectionBudgetBytes, directiveBudgetBytes, catalogBudgetBytes, rulesBudgetBytes] at *
      omega }

theorem lowestFirst_of_closes (h : Closes ruleFits [] (matchedRules input)) :
    LowestFirst (passOf input).1 (passOf input).2 := by
  obtain ⟨pre, post, hsplit, hpass⟩ := firstFit_of_closes h
  intro k hk d hd
  have hsorted := sortRules_pairwise (filterMatchingRules input.rules input.touchedPaths)
  rw [passOf, hpass] at hk hd
  change (matchedRules input).Pairwise _ at hsorted
  rw [hsplit, List.pairwise_append] at hsorted
  exact compareRules_nonpos.mpr (hsorted.2.2 k hk d hd)

theorem closes_of_lowestFirst (hnames : (input.rules.map (·.fileName)).Nodup)
    (h : LowestFirst (passOf input).1 (passOf input).2) : Closes ruleFits [] (matchedRules input) := by
  by_contra hcloses
  obtain ⟨pre, x, post, y, hsplit, hy, hx, hkept⟩ := exists_of_not_closes hcloses
  have hsorted := sortRules_pairwise (filterMatchingRules input.rules input.touchedPaths)
  have hmatched : ((matchedRules input).map (·.rule.fileName)).Nodup :=
    (sortRules_fileNames _).nodup_iff.mpr (hnames.sublist (List.filter_sublist.map _))
  change (matchedRules input).Pairwise _ at hsorted
  rw [hsplit, List.pairwise_append, List.pairwise_cons] at hsorted
  have hle : x.priority ≤ y.priority := hsorted.2.1.1 y hy
  have hge : y.priority ≤ x.priority := compareRules_nonpos.mp (h y hkept x hx)
  rw [hsplit, List.map_append, List.map_cons, List.nodup_append, List.nodup_cons] at hmatched
  exact hmatched.2.1.1 (List.mem_map.mpr ⟨y, hy, priority_fileName (le_antisymm hge hle)⟩)

/-- Rules with file names of their own are assembled in one way, in whatever order they and the paths come. -/
theorem assembleRules_perm {rules' : List RuleUnit} {paths' : List String}
    (hnames : (input.rules.map (·.fileName)).Nodup) (hrules : input.rules.Perm rules')
    (hpaths : input.touchedPaths.Perm paths') :
    assembleRules { input with rules := rules', touchedPaths := paths' } = assembleRules input := by
  have hmatched := filterMatchingRules_perm hrules hpaths
  have hsorted : sortRules (filterMatchingRules input.rules input.touchedPaths) =
      sortRules (filterMatchingRules rules' paths') :=
    sortRules_unique (hnames.sublist (List.filter_sublist.map _)) hmatched
  unfold assembleRules
  dsimp only
  rw [hsorted]

/-- Every rule list is assembled under the budgets, with every matched rule retained in whole or dropped. The
lowest priority is dropped first if no rule fits any more once one did not, and for file names of their own only
then; and then the order of the input does not matter. -/
theorem rules_assembled (input : AssemblyInput) :
    ∃ kept dropped, Assembled input (assembleRules input) kept dropped ∧
      (Closes ruleFits [] (matchedRules input) → LowestFirst kept dropped) ∧
        ((input.rules.map (·.fileName)).Nodup →
          (LowestFirst kept dropped ↔ Closes ruleFits [] (matchedRules input)) ∧
            ∀ rules' paths', input.rules.Perm rules' → input.touchedPaths.Perm paths' →
              assembleRules { input with rules := rules', touchedPaths := paths' } = assembleRules input) :=
  ⟨_, _, assembled input, lowestFirst_of_closes, fun hnames ↦
    ⟨⟨closes_of_lowestFirst hnames, lowestFirst_of_closes⟩, fun _ _ ↦ assembleRules_perm hnames⟩⟩

end Assembly

namespace Sample

def rule (fileName : String) (order : ℤ) (size : ℕ) : RuleUnit :=
  ⟨fileName, ".omo/rules/" ++ fileName, fileName, ["**"], some order, none, String.ofList (List.replicate size 'x'), size⟩

/-- Three rules of some sizes, the first one first. -/
def ruleInput (a b c : ℕ) : AssemblyInput := ⟨[rule "a.md" 1 a, rule "b.md" 2 b, rule "c.md" 3 c], ["x"], none, none⟩

end Sample

theorem byteSize_replicate (n : ℕ) : (String.ofList (List.replicate n 'x')).utf8ByteSize = n := by
  induction n with
  | zero => rfl
  | succ n ih =>
    rw [List.replicate_succ, ← List.singleton_append, String.ofList_append, String.utf8ByteSize_append, ih]
    exact Nat.add_comm _ _

theorem rule_size (fileName : String) (order : ℤ) (size : ℕ) :
    ruleSize (scoredRule (Sample.rule fileName order size)) = fileName.utf8ByteSize + 3 + size := by
  have hbrackets : "[".utf8ByteSize = 1 ∧ "]".utf8ByteSize = 1 ∧ "\n".utf8ByteSize = 1 := by decide
  simp only [ruleSize, scoredRule, Sample.rule, formatRuleEntry, String.utf8ByteSize_append, byteSize_replicate]
  omega

theorem ruleInput_matched (a b c : ℕ) : matchedRules (Sample.ruleInput a b c) =
    [scoredRule (Sample.rule "a.md" 1 a), scoredRule (Sample.rule "b.md" 2 b), scoredRule (Sample.rule "c.md" 3 c)] := by
  have hmatch : matchGlob (codeUnits "**") (codeUnits "x") = true := by
    have hglob : parts (codeUnits "**") = [[Glob.star, Glob.star]] := by decide
    have hpath : parts (codeUnits "x") = [[0x78]] := by decide
    rw [matchGlob, hglob, hpath, globMatchImpl, if_pos rfl, Bool.or_eq_true]
    right
    rw [globMatchImpl]
    · rfl
    · simp
  have hfilter : filterMatchingRules (Sample.ruleInput a b c).rules (Sample.ruleInput a b c).touchedPaths =
      (Sample.ruleInput a b c).rules := by
    rw [filterMatchingRules, List.filter_eq_self]
    simp [Sample.ruleInput, Sample.rule, hmatch]
  rw [matchedRules, hfilter]
  refine List.mergeSort_of_pairwise ?_
  simp [Sample.ruleInput, Sample.rule, scoredRule, compareRules]

/-- The second rule does not fit beside the first one, and the third one does. -/
theorem ruleInput_pass {a b c : ℕ} (ha : a + 7 ≤ 20480) (hb : 20480 < a + b + 16) (hc : a + c + 16 ≤ 20480) :
    passOf (Sample.ruleInput a b c) =
      ([scoredRule (Sample.rule "a.md" 1 a), scoredRule (Sample.rule "c.md" 3 c)],
        [scoredRule (Sample.rule "b.md" 2 b)]) := by
  have hnames : "a.md".utf8ByteSize = 4 ∧ "b.md".utf8ByteSize = 4 ∧ "c.md".utf8ByteSize = 4 := by decide
  rw [passOf, ruleInput_matched, firstFit_cons_pos, firstFit_cons_neg, firstFit_cons_pos]
  · rfl
  all_goals
    simp [ruleFits, within, load, rule_size, rulesBudgetBytes, hnames]
    omega

/-- The third rule is then retained behind the second one. -/
theorem ruleInput_inverted {a b c : ℕ} (ha : a + 7 ≤ 20480) (hb : 20480 < a + b + 16) (hc : a + c + 16 ≤ 20480)
    {kept dropped : List ScoredRule}
    (h : Assembled (Sample.ruleInput a b c) (assembleRules (Sample.ruleInput a b c)) kept dropped) :
    ¬ LowestFirst kept dropped := by
  have hpass := assembled (Sample.ruleInput a b c)
  rw [ruleInput_pass ha hb hc] at hpass
  have hretained := h.retained.symm.trans hpass.retained
  have hdropped := h.dropped.symm.trans hpass.dropped
  have hmatched := h.matched.trans hpass.matched.symm
  have hmem : ∀ scored ∈ kept ++ dropped, scored = scoredRule (Sample.rule "a.md" 1 a) ∨
      scored = scoredRule (Sample.rule "c.md" 3 c) ∨ scored = scoredRule (Sample.rule "b.md" 2 b) := by
    intro scored hscored
    simpa using hmatched.mem_iff.mp hscored
  have hthird : scoredRule (Sample.rule "c.md" 3 c) ∈ kept := by
    have hname : (⟨"c.md", .rules⟩ : RetainedUnit) ∈ kept.map retainedRule := by
      rw [hretained]
      simp [retainedRule, scoredRule, Sample.rule]
    obtain ⟨scored, hscored, hname⟩ := List.mem_map.mp hname
    obtain rfl | rfl | rfl := hmem scored (List.mem_append_left _ hscored)
    · simp [retainedRule, scoredRule, Sample.rule] at hname
    · exact hscored
    · simp [retainedRule, scoredRule, Sample.rule] at hname
  have hsecond : scoredRule (Sample.rule "b.md" 2 b) ∈ dropped := by
    have hname : ("b.md", DroppedSection.rules) ∈ dropped.map droppedRule := by
      rw [hdropped]
      simp [droppedRule, scoredRule, Sample.rule]
    obtain ⟨scored, hscored, hname⟩ := List.mem_map.mp hname
    obtain rfl | rfl | rfl := hmem scored (List.mem_append_right _ hscored)
    · simp [droppedRule, scoredRule, Sample.rule] at hname
    · simp [droppedRule, scoredRule, Sample.rule] at hname
    · exact hscored
  intro hlowest
  have hle := hlowest _ hthird _ hsecond
  simp [compareRules, scoredRule, Sample.rule] at hle

/-- A rule that is small enough is retained behind one that was dropped. -/
theorem small_rule_retained : ¬ ∀ input, ∃ kept dropped,
    Assembled input (assembleRules input) kept dropped ∧ LowestFirst kept dropped := by
  intro h
  obtain ⟨kept, dropped, hassembled, hlowest⟩ := h (Sample.ruleInput 15000 10000 10)
  exact ruleInput_inverted (by decide) (by decide) (by decide) hassembled hlowest

end OmpLazy.Context

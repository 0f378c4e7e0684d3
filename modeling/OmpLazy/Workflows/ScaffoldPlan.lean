import OmpLazy.Workflows.StartWorkPlan

/-! The document that the planning script writes, and what the parser of plans finds in it. -/

namespace OmpLazy.Workflows

open OmpLazy.Foundation OmpLazy.Foundation.Text

/-- What `SLUG_PATTERN` accepts. -/
def isSlug (slug : String) : Bool :=
  match slug.toList with
  | [] => false
  | first :: rest => isSlugHead first && rest.length ≤ 79 && rest.all fun c ↦ isSlugHead c || c = '-'
where
  isSlugHead (c : Char) : Bool := isDigit c || ('a' ≤ c && c ≤ 'z')

structure Slug where
  text : String
  valid : isSlug text = true
  deriving DecidableEq

inductive PlanIntent where
  | clear
  | unclear
  | unspecified
  deriving DecidableEq, Repr

def planMarker : String := "<!-- omp-lazy-ulw-plan:plan:v1 -->"

def decisionLabel : PlanIntent → String
  | .unclear => "Decisions I made for you"
  | .clear | .unspecified => "Decisions to sanity-check"

def planTitle (slug : Slug) : String := "# " ++ (slug.text ++ " - Work Plan")

def planSummary : List String :=
  ["", planMarker, "",
    "## TL;DR (For humans)",
    "<!-- Fill this LAST after the detailed plan is stable. -->",
    "**What you'll get:** <fill last>",
    "**Why this approach:** <fill last>",
    "**What it will NOT do:** <fill last>",
    "**Effort:** <Quick | Short | Medium | Large | XL>",
    "**Risk:** <Low | Medium | High> - <driver>"]

def planBody : List String :=
  ["", "---", "", "> TL;DR (machine): <fill last>", "",
    "## Scope", "### Must have", "### Must NOT have (guardrails, anti-slop, scope boundaries)", "",
    "## Verification strategy",
    "> Zero human intervention. Include agent-executed happy and failure QA.", "",
    "## Execution strategy", "### Parallel execution waves", "### Dependency matrix",
    "| Todo | Depends on | Blocks | Can parallelize with |", "| --- | --- | --- | --- |", "",
    "## Todos", "<!-- APPEND todo batches below this line. Never rewrite emitted headers. -->"]

def planHeader (intent : PlanIntent) : List String :=
  planSummary ++ ("**" ++ (decisionLabel intent ++ ":** <fill last>")) :: planBody

/-- The lines up to the comment that asks for the todos. -/
def planStart (slug : Slug) (intent : PlanIntent) : List String := planTitle slug :: planHeader intent

def finalChecklist : List String :=
  ["- [ ] F1. Plan compliance audit", "- [ ] F2. Code quality review", "- [ ] F3. Real manual QA",
    "- [ ] F4. Scope fidelity"]

def planEnd : List String :=
  ["", "## Final verification wave"] ++ finalChecklist ++ ["", "## Commit strategy", "", "## Success criteria", ""]

def joinLines (lines : List String) : String := "\n".intercalate lines

def buildPlan (slug : Slug) (intent : PlanIntent) : String := joinLines (planStart slug intent ++ planEnd)

/-- A line of its own that the parser reads as an item of a checklist. -/
structure TodoLine where
  text : String
  unbroken : ∀ c ∈ text.toList, c ≠ '\n' ∧ c ≠ '\r'
  item : (matchChecklist text).isSome = true

/-- The document with todos below the comment that asks for them. -/
def appendTodos (slug : Slug) (intent : PlanIntent) (todos : List TodoLine) : String :=
  joinLines (planStart slug intent ++ (todos.map (·.text) ++ planEnd))

/-- The identity that the parser gives to an item of a plan of the first version. -/
def itemId (platform : Platform) (line : String) : Option String :=
  (checklistLine platform true .todos line).map (·.id)

/-- The parser accepts the plan, and its tasks are these items in this order. -/
def HasTasks (platform : Platform) (markdown : String) (items : List String) : Prop :=
  ∃ plan, normalizeStartWorkPlan platform markdown = .ok plan ∧ plan.taskIds.map some = items.map (itemId platform)

/-! The lines of the document are read back as they were written. -/

def Unbroken (line : String) : Prop := ∀ c ∈ line.toList, c ≠ '\n' ∧ c ≠ '\r'

instance (line : String) : Decidable (Unbroken line) := List.decidableBAll _ _

theorem joinLineBreaks_cons {c : Char} {cs : List Char} (h : c = '\r' → cs.head? ≠ some '\n') :
    joinLineBreaks (c :: cs) = c :: joinLineBreaks cs := by
  rw [joinLineBreaks]
  rintro rest hc rfl
  exact h hc rfl

/-- A line is left alone, unless its last return belongs to the line break that follows. -/
theorem joinLineBreaks_append_of_ends {line rest : List Char} (h : '\n' ∉ line)
    (hends : rest.head? = some '\n' → line.getLast? ≠ some '\r') :
    joinLineBreaks (line ++ rest) = line ++ joinLineBreaks rest := by
  induction line with
  | nil => rfl
  | cons c line ih =>
    obtain ⟨-, hline⟩ := not_or.mp (mt List.mem_cons.mpr h)
    cases line with
    | nil =>
      refine joinLineBreaks_cons fun hc hhead ↦ hends hhead ?_
      rw [List.getLast?_singleton, hc]
    | cons d line =>
      have hd : (d :: line ++ rest).head? ≠ some '\n' := fun hhead ↦
        hline (by rw [← Option.some.inj hhead]; exact List.mem_cons_self)
      have hrest : rest.head? = some '\n' → (d :: line).getLast? ≠ some '\r' := fun hhead ↦ hends hhead
      rw [List.cons_append, joinLineBreaks_cons fun _ ↦ hd, ih hline hrest]
      rfl

theorem joinLineBreaks_append {line : List Char} (h : ∀ c ∈ line, c ≠ '\r') (cs : List Char) :
    joinLineBreaks (line ++ cs) = line ++ joinLineBreaks cs := by
  induction line with
  | nil => rfl
  | cons c line ih =>
    obtain ⟨hc, hline⟩ := List.forall_mem_cons.mp h
    rw [List.cons_append, List.cons_append, ← ih hline]
    exact joinLineBreaks_cons fun hreturn ↦ absurd hreturn hc

theorem joinLineBreaks_lines {lines : List String} (h : ∀ line ∈ lines, Unbroken line) :
    joinLineBreaks (joinLines lines).toList = ['\n'].intercalate (lines.map String.toList) := by
  rw [joinLines, String.toList_intercalate]
  generalize hseparator : "\n".toList = separator
  obtain rfl : separator = ['\n'] := hseparator.symm.trans rfl
  induction lines with
  | nil => rfl
  | cons line lines ih =>
    obtain ⟨hline, hlines⟩ := List.forall_mem_cons.mp h
    have hreturn : ∀ c ∈ line.toList, c ≠ '\r' := fun c hc ↦ (hline c hc).2
    cases lines with
    | nil => simpa [joinLineBreaks] using joinLineBreaks_append hreturn []
    | cons next lines =>
      have hrest := ih hlines
      simp only [List.map_cons, List.intercalate_cons_cons] at hrest ⊢
      rw [List.append_assoc, joinLineBreaks_append hreturn, List.singleton_append, joinLineBreaks, hrest]
      · simp

theorem planLines_joinLines {lines : List String} (h : ∀ line ∈ lines, Unbroken line) (hne : lines ≠ []) :
    planLines (joinLines lines) = lines := by
  rw [planLines, joinLineBreaks_lines h, List.splitOn_intercalate, List.map_map]
  · simp [Function.comp_def]
  · intro cs hcs hmem
    obtain ⟨line, hline, rfl⟩ := List.mem_map.mp hcs
    exact (h line hline _ hmem).1 rfl
  · simpa using hne

theorem Slug.unbroken (slug : Slug) : Unbroken slug.text := by
  obtain ⟨slug, hslug⟩ := slug
  intro c hc
  have hclass : isSlug.isSlugHead c = true ∨ c = '-' := by
    rw [isSlug] at hslug
    split at hslug
    · cases hslug
    · rename_i first rest hlist
      rw [hlist] at hc
      simp only [Bool.and_eq_true, List.all_eq_true, Bool.or_eq_true, decide_eq_true_eq] at hslug
      obtain rfl | hrest := List.mem_cons.mp hc
      · exact .inl hslug.1.1
      · exact hslug.2 c hrest
  constructor <;>
  · rintro rfl
    revert hclass
    decide

theorem Unbroken.append {s t : String} (hs : Unbroken s) (ht : Unbroken t) : Unbroken (s ++ t) := by
  intro c hc
  rw [String.toList_append, List.mem_append] at hc
  exact hc.elim (hs c) (ht c)

theorem planTitle_unbroken (slug : Slug) : Unbroken (planTitle slug) :=
  .append (by decide) (slug.unbroken.append (by decide))

theorem appendTodos_unbroken (slug : Slug) (intent : PlanIntent) (todos : List TodoLine) :
    ∀ line ∈ planStart slug intent ++ (todos.map (·.text) ++ planEnd), Unbroken line := by
  have hsummary : ∀ line ∈ planSummary, Unbroken line := by decide +kernel
  have hbody : ∀ line ∈ planBody, Unbroken line := by decide +kernel
  have hlabel : Unbroken ("**" ++ (decisionLabel intent ++ ":** <fill last>")) := by
    cases intent <;> decide +kernel
  have hheader : ∀ line ∈ planHeader intent, Unbroken line :=
    List.forall_mem_append.mpr ⟨hsummary, List.forall_mem_cons.mpr ⟨hlabel, hbody⟩⟩
  have hend : ∀ line ∈ planEnd, Unbroken line := by decide +kernel
  intro line hline
  rw [planStart, List.mem_append, List.mem_append, List.mem_cons] at hline
  obtain (rfl | hline) | hline | hline := hline
  · exact planTitle_unbroken slug
  · exact hheader line hline
  · obtain ⟨todo, -, rfl⟩ := List.mem_map.mp hline
    exact todo.unbroken
  · exact hend line hline

/-! No line of the document is a heading that the parser counts for the version of its marker. -/

/-- A line that the parser takes for nothing but text, or for the end of a section. -/
def Uncounted (line : String) : Prop := line ≠ (countedHeadings .v1).1 ∧ line ≠ (countedHeadings .v1).2

instance (line : String) : Decidable (Uncounted line) := inferInstanceAs (Decidable (_ ∧ _))

theorem TodoLine.head (todo : TodoLine) : ∃ rest, todo.text.toList = '-' :: rest := by
  have hitem := todo.item
  rw [matchChecklist] at hitem
  split at hitem
  · exact ⟨_, by assumption⟩
  · cases hitem

theorem TodoLine.ne_of_head (todo : TodoLine) {line : String} (h : line.toList.head? ≠ some '-') :
    todo.text ≠ line := by
  rintro rfl
  obtain ⟨rest, hrest⟩ := todo.head
  exact h (by rw [hrest, List.head?_cons])

theorem planTitle_ne (slug : Slug) {line : String} (h : ¬ "# ".toList <+: line.toList) : planTitle slug ≠ line := by
  rintro rfl
  rw [planTitle, String.toList_append] at h
  exact h (List.prefix_append ..)

theorem appendTodos_uncounted (slug : Slug) (intent : PlanIntent) (todos : List TodoLine) :
    ∀ line ∈ planStart slug intent ++ (todos.map (·.text) ++ planEnd), Uncounted line := by
  have hheader : ∀ line ∈ planHeader intent, Uncounted line := by cases intent <;> decide +kernel
  have hend : ∀ line ∈ planEnd, Uncounted line := by decide +kernel
  intro line hline
  rw [planStart, List.mem_append, List.mem_append, List.mem_cons] at hline
  obtain (rfl | hline) | hline | hline := hline
  · exact ⟨planTitle_ne slug (by decide), planTitle_ne slug (by decide)⟩
  · exact hheader line hline
  · obtain ⟨todo, -, rfl⟩ := List.mem_map.mp hline
    exact ⟨todo.ne_of_head (by decide), todo.ne_of_head (by decide)⟩
  · exact hend line hline

/-- Lines that no counted heading is among have no tasks. -/
theorem checklistFrom_uncounted (platform : Platform) (assignsLegacyIds : Bool) {lines : List String}
    (h : ∀ line ∈ lines, Uncounted line) : checklistFrom platform .v1 assignsLegacyIds none lines = [] := by
  induction lines with
  | nil => rfl
  | cons line lines ih =>
    obtain ⟨⟨htodos, hfinal⟩, hlines⟩ := List.forall_mem_cons.mp h
    rw [checklistFrom, selectedSection, if_neg htodos, if_neg hfinal]
    by_cases hheading : startsWith "## " line = true
    · simpa [hheading] using ih hlines
    · simpa [hheading] using ih hlines

theorem count_todos {todos : List TodoLine} {marker : String} (h : marker.toList.head? ≠ some '-') :
    (todos.map (·.text)).count marker = 0 := by
  rw [List.count_eq_zero]
  intro hmem
  obtain ⟨todo, -, htext⟩ := List.mem_map.mp hmem
  exact todo.ne_of_head h htext

/-- Only the fixed lines of the document may be markers. -/
theorem count_marker (slug : Slug) (intent : PlanIntent) (todos : List TodoLine) {marker : String}
    (htitle : ¬ "# ".toList <+: marker.toList) (htodo : marker.toList.head? ≠ some '-') :
    (planStart slug intent ++ (todos.map (·.text) ++ planEnd)).count marker =
      (planHeader intent).count marker + planEnd.count marker := by
  rw [List.count_append, List.count_append, count_todos htodo, planStart,
    List.count_cons_of_ne (planTitle_ne slug htitle), Nat.zero_add]

/-- Whatever the todos, the parser accepts the document as a plan of the first version without a task. -/
theorem normalize_appendTodos (platform : Platform) (slug : Slug) (intent : PlanIntent) (todos : List TodoLine) :
    normalizeStartWorkPlan platform (appendTodos slug intent todos) =
      .ok ⟨⟨[], [], platform.sha256 (platform.stringify (.array []))⟩, .v1⟩ := by
  have hlines : planLines (appendTodos slug intent todos) = planStart slug intent ++ (todos.map (·.text) ++ planEnd) :=
    planLines_joinLines (appendTodos_unbroken slug intent todos) (by simp [planStart])
  have hv1 : (planStart slug intent ++ (todos.map (·.text) ++ planEnd)).count v1Marker = 1 := by
    rw [count_marker slug intent todos (by decide) (by decide)]
    cases intent <;> decide +kernel
  have hv2 : (planStart slug intent ++ (todos.map (·.text) ++ planEnd)).count v2Marker = 0 := by
    rw [count_marker slug intent todos (by decide) (by decide)]
    cases intent <;> decide +kernel
  have hnone (assignsLegacyIds : Bool) :=
    checklistFrom_uncounted platform assignsLegacyIds (appendTodos_uncounted slug intent todos)
  simp [normalizeStartWorkPlan, hlines, hv1, hv2, parseChecklist, hnone]

/-- The parser never returns the tasks of a document of the script. -/
theorem scaffolded_tasks_lost (platform : Platform) (slug : Slug) (intent : PlanIntent) (todos : List TodoLine) :
    ¬ HasTasks platform (appendTodos slug intent todos) (todos.map (·.text) ++ finalChecklist) := by
  rintro ⟨plan, hplan, htasks⟩
  rw [normalize_appendTodos] at hplan
  cases hplan
  simp [finalChecklist] at htasks

/-- A plan with one todo. -/
theorem scaffolded_plan_empty :
    ¬ (∀ platform slug intent (todos : List TodoLine), (todos.map (·.text)).Nodup →
      HasTasks platform (appendTodos slug intent todos) (todos.map (·.text) ++ finalChecklist)) := by
  intro hall
  let platform : Platform := ⟨id, fun _ _ ↦ rfl,
    fun _ ↦ "4f53cda18c2baa0c0354bb5f9a3ecbe5ed12ab4d8e11ba873c2f11161202b945", fun _ ↦ List.all_eq_true.mp rfl,
    fun _ ↦ "[]", id, fun _ ↦ false, id, fun _ path ↦ path⟩
  have htodo : Unbroken "- [ ] **BUILD. Build the store**" := by decide
  obtain ⟨plan, hplan, htasks⟩ := hall platform ⟨"demo", by decide⟩ .clear
    [⟨"- [ ] **BUILD. Build the store**", htodo, by decide⟩] (by simp)
  rw [normalize_appendTodos] at hplan
  cases hplan
  simp [finalChecklist] at htasks

end OmpLazy.Workflows

import OmpLazy.Workflows.ScaffoldPlan
import OmpLazy.Workflows.TaskPacketCompiler

/-! The task whose packet is compiled, and the task that the continuation goes on with. -/

namespace OmpLazy.Workflows

open OmpLazy.Foundation OmpLazy.Foundation.Text OmpLazy.Contracts OmpLazy.State

variable {platform : Platform} {version : PlanVersion} {assignsLegacyIds : Bool} {inSection : Option PlanSection}
  {lines : List String} {task : ChecklistLine} {markdown taskId : String} {plan : NormalizedPlan} {i j : ℕ}

/-- The section in which the lines end. -/
def sectionAfter (version : PlanVersion) (inSection : Option PlanSection) (lines : List String) :
    Option PlanSection :=
  lines.foldl (fun current line ↦ (selectedSection line version).getD current) inSection

/-- A line in a counted section that is a task. -/
def TaskAt (platform : Platform) (version : PlanVersion) (assignsLegacyIds : Bool) (inSection : Option PlanSection)
    (lines : List String) (i : ℕ) (task : ChecklistLine) : Prop :=
  ∃ line, lines[i]? = some line ∧ selectedSection line version = none ∧
    ∃ counted, sectionAfter version inSection (lines.take i) = some counted ∧
      checklistLine platform assignsLegacyIds counted line = some task

/-- The line that the parser took the task from. -/
def OwnLine (platform : Platform) (markdown taskId : String) (i : ℕ) : Prop :=
  ∃ plan task, normalizeStartWorkPlan platform markdown = .ok plan ∧
    TaskAt platform plan.version (plan.version = .v1) none (planLines markdown) i task ∧ task.id = taskId

/-- The first line that opens a task with this explicit id, in whatever section. -/
def FirstOpened (lines : List String) (taskId : String) (i : ℕ) : Prop :=
  (∃ line, lines[i]? = some line ∧ startsWith (openTask taskId) line = true) ∧
    ∀ j < i, ∀ line, lines[j]? = some line → startsWith (openTask taskId) line = false

/-- The continuation goes on with a task: its packet is compiled, from the block of its own line. It finds
the plan complete: there is no packet. -/
structure CompilesNextTask (platform : Platform) (run : AnyRun) (payload : StartWorkPayload)
    (repositoryRoot markdown : String) : Prop where
  next : ∀ taskId,
    evaluateStartWorkContinuation payload (parseStartWorkPlan platform markdown) = .ok taskId →
      ∃ i result, OwnLine platform markdown taskId i ∧ planTaskStart (planLines markdown) taskId = some i ∧
        compileRunStepContext platform run repositoryRoot (some markdown) = some result ∧
        result = compileStepContext platform (startWorkInput platform run payload.plan repositoryRoot taskId
          (blockFrom (planLines markdown) i)) ∧
        ∀ context, result = .ok context → context.compiled.packet.taskId = taskId
  complete :
    evaluateStartWorkContinuation payload (parseStartWorkPlan platform markdown) = .error .complete →
      compileRunStepContext platform run repositoryRoot (some markdown) = none

/-- The first remaining task is explicit and no earlier line looks like it; where none remains, no open
line has the id of a task. -/
structure Undisturbed (platform : Platform) (markdown : String) (declaredIds : List String) : Prop where
  next : ∀ taskId, (parseStartWorkPlan platform markdown).remainingTaskIds.head? = some taskId →
    ∃ i, OwnLine platform markdown taskId i ∧ FirstOpened (planLines markdown) taskId i
  complete : (parseStartWorkPlan platform markdown).remainingTaskIds = [] →
    ∀ line ∈ planLines markdown, ∀ taskId, openTaskId line = some taskId → taskId ∉ declaredIds

theorem planTaskStart_eq_some : planTaskStart lines taskId = some i ↔ FirstOpened lines taskId i := by
  rw [planTaskStart, List.findIdx?_eq_some_iff_getElem]
  constructor
  · rintro ⟨hi, hopens, hearlier⟩
    refine ⟨⟨lines[i], List.getElem?_eq_getElem hi, hopens⟩, ?_⟩
    intro j hj line hline
    obtain ⟨hlt, rfl⟩ := List.getElem?_eq_some_iff.mp hline
    exact Bool.eq_false_iff.mpr (hearlier j hj)
  · rintro ⟨⟨line, hline, hopens⟩, hearlier⟩
    obtain ⟨hi, rfl⟩ := List.getElem?_eq_some_iff.mp hline
    refine ⟨hi, hopens, ?_⟩
    intro j hj
    exact Bool.eq_false_iff.mp (hearlier j hj _ (List.getElem?_eq_getElem (hj.trans hi)))

/-! The tasks of a plan are at their lines. -/

theorem taskAt_zero {line : String} : TaskAt platform version assignsLegacyIds inSection (line :: lines) 0 task ↔
    selectedSection line version = none ∧
      ∃ counted, inSection = some counted ∧ checklistLine platform assignsLegacyIds counted line = some task := by
  simp [TaskAt, sectionAfter]

theorem taskAt_succ {line : String} :
    TaskAt platform version assignsLegacyIds inSection (line :: lines) (i + 1) task ↔
      TaskAt platform version assignsLegacyIds ((selectedSection line version).getD inSection) lines i task := by
  simp [TaskAt, sectionAfter]

theorem checklistFrom_cons {line : String} :
    checklistFrom platform version assignsLegacyIds inSection (line :: lines) =
      (if selectedSection line version = none then
        inSection.bind fun counted ↦ checklistLine platform assignsLegacyIds counted line else none).toList ++
        checklistFrom platform version assignsLegacyIds ((selectedSection line version).getD inSection) lines := by
  rw [checklistFrom]
  cases selectedSection line version <;> simp

theorem mem_checklistFrom : task ∈ checklistFrom platform version assignsLegacyIds inSection lines ↔
    ∃ i, TaskAt platform version assignsLegacyIds inSection lines i task := by
  induction lines generalizing inSection with
  | nil => simp [checklistFrom, TaskAt]
  | cons line lines ih =>
    rw [checklistFrom_cons, List.mem_append, ih]
    constructor
    · rintro (hhead | ⟨i, hi⟩)
      · refine ⟨0, taskAt_zero.mpr ?_⟩
        rw [Option.mem_toList] at hhead
        split at hhead
        · rename_i hsection
          exact ⟨hsection, Option.bind_eq_some_iff.mp hhead⟩
        · cases hhead
      · exact ⟨i + 1, taskAt_succ.mpr hi⟩
    · rintro ⟨i, hi⟩
      cases i with
      | zero =>
        obtain ⟨hsection, hcounted⟩ := taskAt_zero.mp hi
        left
        rw [Option.mem_toList, if_pos hsection]
        exact Option.bind_eq_some_iff.mpr hcounted
      | succ i => exact .inr ⟨i, taskAt_succ.mp hi⟩

/-! What the parser returns. -/

/-- The parser accepts the plan with these tasks. -/
theorem normalize_ok (h : normalizeStartWorkPlan platform markdown = .ok plan) :
    plan.taskIds = (parseChecklist platform (planLines markdown) plan.version (plan.version = .v1)).map (·.id) ∧
      plan.remainingTaskIds =
        ((parseChecklist platform (planLines markdown) plan.version (plan.version = .v1)).filter
          (!·.checked)).map (·.id) ∧
      (plan.version = .v2 →
        ∀ task ∈ parseChecklist platform (planLines markdown) plan.version (plan.version = .v1),
          task.explicit = true) := by
  simp only [normalizeStartWorkPlan] at h
  split at h
  · cases h
  rename_i hcount
  have hv1 : decide ((planLines markdown).count v1Marker = 1) =
      decide ((if (planLines markdown).count v2Marker = 1 then PlanVersion.v2 else .v1) = .v1) := by
    by_cases hv2 : (planLines markdown).count v2Marker = 1
    · simp only [hv2, if_true, decide_eq_decide, reduceCtorEq, iff_false]
      omega
    · simp only [hv2, if_false, decide_eq_decide, iff_true]
      omega
  rw [hv1] at h
  generalize (if (planLines markdown).count v2Marker = 1 then PlanVersion.v2 else .v1) = version at h
  split at h
  · cases h
  split at h
  · cases h
  rename_i hexplicit
  split at h
  · cases h
  cases h
  refine ⟨rfl, rfl, ?_⟩
  intro hversion task htask
  by_contra hnot
  refine hexplicit ⟨hversion, List.any_eq_true.mpr ⟨task, htask, ?_⟩⟩
  simpa using hnot

theorem ownLine_of_remaining (h : taskId ∈ (parseStartWorkPlan platform markdown).remainingTaskIds) :
    ∃ i, OwnLine platform markdown taskId i := by
  rw [parseStartWorkPlan] at h
  split at h
  · rename_i plan hplan
    rw [(normalize_ok hplan).2.1] at h
    obtain ⟨task, htask, rfl⟩ := List.mem_map.mp h
    obtain ⟨i, hi⟩ := mem_checklistFrom.mp (List.mem_filter.mp htask).1
    exact ⟨i, plan, task, hplan, hi, rfl⟩
  · cases h

theorem remaining_subset :
    (parseStartWorkPlan platform markdown).remainingTaskIds ⊆ (parseStartWorkPlan platform markdown).taskIds := by
  rw [parseStartWorkPlan]
  split
  · rename_i plan hplan
    obtain ⟨htaskIds, hremaining, -⟩ := normalize_ok hplan
    rw [htaskIds, hremaining]
    exact List.map_subset _ (List.filter_sublist).subset
  · exact List.Subset.refl _

/-! The ids of tasks are plain text. -/

theorem isIdChar_plain {c : Char} (h : isIdChar c = true) : c.toNat < 128 ∧ isSpace c = false := by
  have hrange : 0x2D ≤ c.toNat ∧ c.toNat ≤ 0x5A := by
    simp only [isIdChar, isIdHead, isDigit, Bool.or_eq_true, Bool.and_eq_true, decide_eq_true_eq, Char.le_def,
      UInt32.le_iff_toNat_le] at h
    obtain (⟨hlo, hhi⟩ | ⟨hlo, hhi⟩) | rfl := h
    · exact ⟨le_trans (by decide) hlo, hhi⟩
    · exact ⟨le_trans (by decide) hlo, le_trans hhi (by decide)⟩
    · decide
  constructor
  · omega
  · simp only [isSpace, List.mem_cons, List.not_mem_nil, or_false, Bool.or_eq_false_iff,
      decide_eq_false_iff_not, Bool.and_eq_false_iff]
    omega

theorem isLowerHex_plain {c : Char} (h : isLowerHex c = true) : c.toNat < 128 ∧ isSpace c = false := by
  have hrange : 0x30 ≤ c.toNat ∧ c.toNat ≤ 0x66 := by
    simp only [isLowerHex, isDigit, Bool.or_eq_true, Bool.and_eq_true, decide_eq_true_eq, Char.le_def,
      UInt32.le_iff_toNat_le] at h
    obtain ⟨hlo, hhi⟩ | ⟨hlo, hhi⟩ := h
    · exact ⟨hlo, le_trans hhi (by decide)⟩
    · exact ⟨le_trans (by decide) hlo, hhi⟩
  constructor
  · omega
  · simp only [isSpace, List.mem_cons, List.not_mem_nil, or_false, Bool.or_eq_false_iff,
      decide_eq_false_iff_not, Bool.and_eq_false_iff]
    omega

theorem explicitId_plain {label id : String} (h : explicitId label = some id) : Plain id := by
  simp only [explicitId, Option.bind_eq_bind, Option.bind_eq_some_iff] at h
  obtain ⟨rest, -, title, -, h⟩ := h
  split at h
  · rename_i hchecks
    cases h
    simp only [Bool.and_eq_true] at hchecks
    have hhead := hchecks.1.1.1.1.1
    constructor
    · rw [Ne, ← String.toList_eq_nil_iff, String.toList_ofList]
      intro hnil
      rw [hnil] at hhead
      cases hhead
    · intro c hc
      rw [String.toList_ofList] at hc
      exact isIdChar_plain (List.mem_takeWhile_imp hc)
  · cases h

theorem legacyId_plain (line : String) : Plain (legacyId platform line) := by
  constructor
  · rw [Ne, ← String.toList_eq_nil_iff, legacyId, String.toList_append]
    simp
  · intro c hc
    rw [legacyId, String.toList_append, List.mem_append] at hc
    obtain hc | hc := hc
    · have hall : "LEGACY-".toList.all (fun c ↦ c.toNat < 128 && !isSpace c) = true := rfl
      simpa using List.all_eq_true.mp hall c hc
    · rw [String.toList_ofList] at hc
      exact isLowerHex_plain (platform.sha256_hex _ c (List.mem_of_mem_take hc))

theorem checklistLine_plain {counted : PlanSection} {line : String}
    (h : checklistLine platform assignsLegacyIds counted line = some task)
    (hid : assignsLegacyIds = true ∨ task.explicit = true) : Plain task.id := by
  obtain ⟨found, -, rfl⟩ := Option.map_eq_some_iff.mp h
  dsimp only at hid ⊢
  cases hexplicit : explicitId (platform.nfc found.2) with
  | some id => exact explicitId_plain hexplicit
  | none =>
    rw [hexplicit] at hid
    obtain rfl | hnone := hid
    · exact legacyId_plain line
    · cases hnone

theorem OwnLine.plain (h : OwnLine platform markdown taskId i) : Plain taskId := by
  obtain ⟨plan, task, hplan, htask, rfl⟩ := h
  have hmem := mem_checklistFrom.mpr ⟨i, htask⟩
  obtain ⟨line, -, -, counted, -, hline⟩ := htask
  refine checklistLine_plain hline ?_
  cases hversion : plan.version with
  | v1 => exact .inl (by simp)
  | v2 => exact .inr ((normalize_ok hplan).2.2 hversion task hmem)

/-! The two next tasks. -/

section NextTask

variable {run : AnyRun} {payload : StartWorkPayload} {repositoryRoot : String}

/-- A plan that matches what the run has recorded of it. -/
theorem evaluate_eq (hactive : payload.status = .active)
    (hmatches : evaluateStartWorkContinuation payload (parseStartWorkPlan platform markdown) ≠
      .error .planIdentityMismatch) :
    payload.plan.taskIds = (parseStartWorkPlan platform markdown).taskIds ∧
      evaluateStartWorkContinuation payload (parseStartWorkPlan platform markdown) =
        ((parseStartWorkPlan platform markdown).remainingTaskIds.head?.elim (.error .complete) .ok) := by
  rw [evaluateStartWorkContinuation, if_neg (not_not.mpr hactive)] at hmatches ⊢
  split at hmatches
  · exact absurd rfl hmatches
  · rename_i hsame
    rw [if_neg hsame]
    rw [not_or, not_not, not_not] at hsame
    refine ⟨hsame.2, ?_⟩
    cases (parseStartWorkPlan platform markdown).remainingTaskIds <;> rfl

theorem remainingTaskId_eq {declaredIds : List String}
    (hdeclared : declaredIds = (parseStartWorkPlan platform markdown).taskIds) :
    remainingTaskId platform markdown declaredIds =
      (parseStartWorkPlan platform markdown).remainingTaskIds.head?.or
        ((planLines markdown).findSome? fun line ↦ (openTaskId line).filter (· ∈ declaredIds)) := by
  rw [remainingTaskId]
  have hsubset : (parseStartWorkPlan platform markdown).remainingTaskIds ⊆
      (parseStartWorkPlan platform markdown).taskIds := remaining_subset
  rw [← hdeclared] at hsubset
  cases hremaining : (parseStartWorkPlan platform markdown).remainingTaskIds with
  | nil => rfl
  | cons taskId remaining =>
    rw [hremaining] at hsubset
    simp [hsubset List.mem_cons_self]

theorem compileRunStepContext_eq (hrun : run.payload = .startWork payload) (hactive : payload.status = .active) :
    compileRunStepContext platform run repositoryRoot (some markdown) =
      (remainingTaskId platform markdown payload.plan.taskIds).map fun taskId ↦
        compileStepContext platform (startWorkInput platform run payload.plan repositoryRoot taskId
          (planTaskBlock markdown taskId)) := by
  have hstatus : run.status = .active := by rw [AnyRun.status, hrun]; exact hactive
  rw [compileRunStepContext, if_neg (not_not.mpr hstatus), hrun]
  cases hnext : remainingTaskId platform markdown payload.plan.taskIds <;> simp [hnext]

theorem compileStepContext_taskId {input : TaskPacketInput} {context : StepContext} (hplain : Plain input.taskId)
    (h : compileStepContext platform input = .ok context) : context.compiled.packet.taskId = input.taskId := by
  rw [compileStepContext] at h
  cases hcompiled : compileTaskPacket platform input with
  | error => rw [hcompiled] at h; cases h
  | ok compiled =>
    rw [hcompiled] at h
    cases h
    exact compileTaskPacket_taskId hplain hcompiled

/-- For every active run and every plan that matches it, the packet is that of the next task, from its own
block, if and only if nothing in the plan looks like the task before its own line. -/
theorem compilesNextTask_iff (platform : Platform) (run : AnyRun) (payload : StartWorkPayload)
    (repositoryRoot markdown : String) (hrun : run.payload = .startWork payload) (hactive : payload.status = .active)
    (hmatches : evaluateStartWorkContinuation payload (parseStartWorkPlan platform markdown) ≠
      .error .planIdentityMismatch) :
    CompilesNextTask platform run payload repositoryRoot markdown ↔
      Undisturbed platform markdown payload.plan.taskIds := by
  obtain ⟨hdeclared, hevaluate⟩ := evaluate_eq hactive hmatches
  have hremaining := remainingTaskId_eq hdeclared
  have hcompile : compileRunStepContext platform run repositoryRoot (some markdown) = _ :=
    compileRunStepContext_eq hrun hactive
  constructor
  · rintro ⟨hnext, hcomplete⟩
    constructor
    · intro taskId htaskId
      obtain ⟨i, -, hown, hstart, -⟩ := hnext taskId (by rw [hevaluate, htaskId]; rfl)
      exact ⟨i, hown, planTaskStart_eq_some.mp hstart⟩
    · intro hnone line hline taskId hopen hmem
      have hcompiled := hcomplete (by rw [hevaluate, hnone]; rfl)
      rw [hcompile, hremaining, hnone, List.head?_nil, Option.none_or, Option.map_eq_none_iff,
        List.findSome?_eq_none_iff] at hcompiled
      have hfilter := hcompiled line hline
      rw [hopen, Option.filter_some, if_pos (by simpa using hmem)] at hfilter
      cases hfilter
  · rintro ⟨hnext, hcomplete⟩
    constructor
    · intro taskId htaskId
      have hhead : (parseStartWorkPlan platform markdown).remainingTaskIds.head? = some taskId := by
        rw [hevaluate] at htaskId
        cases hhead : (parseStartWorkPlan platform markdown).remainingTaskIds.head? with
        | none => rw [hhead] at htaskId; cases htaskId
        | some head => rw [hhead] at htaskId; cases htaskId; rfl
      obtain ⟨i, hown, hfirst⟩ := hnext taskId hhead
      have hstart := planTaskStart_eq_some.mpr hfirst
      refine ⟨i, _, hown, hstart, ?_, rfl, ?_⟩
      · rw [hcompile, hremaining, hhead, Option.some_or, Option.map_some, planTaskBlock, hstart]
      · intro context hcontext
        exact compileStepContext_taskId hown.plain hcontext
    · intro hnone
      have hnil : (parseStartWorkPlan platform markdown).remainingTaskIds = [] := by
        rw [hevaluate] at hnone
        cases hlist : (parseStartWorkPlan platform markdown).remainingTaskIds with
        | nil => rfl
        | cons => rw [hlist] at hnone; cases hnone
      rw [hcompile, hremaining, hnil, List.head?_nil, Option.none_or, Option.map_eq_none_iff,
        List.findSome?_eq_none_iff]
      intro line hline
      cases hopen : openTaskId line with
      | none => rfl
      | some taskId => simpa using hcomplete hnil line hline taskId hopen

/-! A plan with a note that looks like its first task. -/

def reviewPlan (reviewed : String) : List String :=
  ["<!-- omp-lazy-ulw-plan:plan:v1 -->", "## TODOs", "- [x] **BUILD. Build**", "## Final Verification Wave",
    "- [" ++ (reviewed ++ "] **REVIEW. Read**"), "## Notes", "- [ ] **BUILD. Again**"]

def reviewFingerprint : String := "c581755b7722cab9b3f937659a03cf25821b44772d4d77367c9ff5b0972ccfff"

/-- A platform on ASCII text, with the JSON and the hash of the identities of the plan. -/
def reviewPlatform : Platform where
  nfc := id
  nfc_ascii := id_ascii
  sha256 _ := reviewFingerprint
  sha256_hex _ := List.all_eq_true.mp rfl
  stringify
    | .array _ => "[\x7b\"section\":\"todos\",\"id\":\"BUILD\"\x7d,\x7b\"section\":\"final\",\"id\":\"REVIEW\"\x7d]"
    | _ => "\x7b\x7d"
  toLowerCase := id
  isAbsolute := startsWith "/"
  posixNormalize := id
  relative _ path := path

def reviewPayload : StartWorkPayload where
  status := .active
  plan := ⟨"22222222-2222-4222-8222-222222222222", "/repo/plans/store.md", "/repo/plans/store.md", "/repo", "/repo",
    reviewFingerprint, ["BUILD", "REVIEW"]⟩

def reviewRun : AnyRun where
  version := .v2 none none
  runId := "11111111-1111-4111-8111-111111111111"
  revision := 2
  transactionRevision := 2
  owner := ⟨"session-1", 1⟩
  progressRevision := 1
  continuation := ⟨none, 0, 0, false⟩
  createdAt := "2026-07-23T00:00:00.000Z"
  updatedAt := "2026-07-23T00:00:00.000Z"
  payload := .startWork reviewPayload

theorem reviewPlan_unbroken {reviewed : String} (h : Unbroken reviewed) :
    ∀ line ∈ reviewPlan reviewed, Unbroken line := by
  have hline : Unbroken ("- [" ++ (reviewed ++ "] **REVIEW. Read**")) := .append (by decide) (h.append (by decide))
  simp only [reviewPlan, List.forall_mem_cons]
  exact ⟨by decide, by decide, by decide, by decide, hline, by decide, by decide, List.forall_mem_nil _⟩

theorem planLines_review (reviewed : String) (h : Unbroken reviewed) :
    planLines (joinLines (reviewPlan reviewed)) = reviewPlan reviewed :=
  planLines_joinLines (reviewPlan_unbroken h) (by simp [reviewPlan])

theorem compilesNextTask_review :
    CompilesNextTask reviewPlatform reviewRun reviewPayload "/repo" (joinLines (reviewPlan " ")) := by
  have hlines := planLines_review " " (by decide)
  have hplan : normalizeStartWorkPlan reviewPlatform (joinLines (reviewPlan " ")) =
      .ok ⟨⟨["BUILD", "REVIEW"], ["REVIEW"], reviewFingerprint⟩, .v1⟩ := by
    rw [normalizeStartWorkPlan, hlines]
    decide
  have hparsed : parseStartWorkPlan reviewPlatform (joinLines (reviewPlan " ")) =
      ⟨["BUILD", "REVIEW"], ["REVIEW"], reviewFingerprint⟩ := by rw [parseStartWorkPlan, hplan]
  refine (compilesNextTask_iff reviewPlatform reviewRun reviewPayload "/repo" (joinLines (reviewPlan " ")) rfl rfl
    ?_).mpr ?_
  · rw [hparsed]
    decide
  · constructor
    · intro taskId htaskId
      rw [hparsed] at htaskId
      obtain rfl := Option.some.inj htaskId
      rw [hlines]
      refine ⟨4, ⟨_, ⟨"REVIEW", false, .final, true⟩, hplan, ?_, rfl⟩, planTaskStart_eq_some.mp (by decide)⟩
      rw [hlines]
      exact ⟨"- [ ] **REVIEW. Read**", rfl, by decide, .final, by decide, by decide⟩
    · intro hnone
      rw [hparsed] at hnone
      cases hnone

/-- Both tasks are done, and the note is taken for the first one. -/
theorem completed_task_compiled :
    ¬ (∀ platform run payload repositoryRoot markdown, run.payload = .startWork payload → payload.status = .active →
      evaluateStartWorkContinuation payload (parseStartWorkPlan platform markdown) ≠ .error .planIdentityMismatch →
        CompilesNextTask platform run payload repositoryRoot markdown) := by
  intro hall
  have hlines := planLines_review "x" (by decide)
  have hcomplete : evaluateStartWorkContinuation reviewPayload
      (parseStartWorkPlan reviewPlatform (joinLines (reviewPlan "x"))) = .error .complete := by
    rw [parseStartWorkPlan, normalizeStartWorkPlan, hlines]
    decide
  have hcompiled := (hall reviewPlatform reviewRun reviewPayload "/repo" (joinLines (reviewPlan "x")) rfl rfl
    (by rw [hcomplete]; decide)).complete hcomplete
  have hnext : remainingTaskId reviewPlatform (joinLines (reviewPlan "x")) ["BUILD", "REVIEW"] = some "BUILD" := by
    rw [remainingTaskId, parseStartWorkPlan, normalizeStartWorkPlan, hlines]
    decide
  rw [compileRunStepContext_eq rfl rfl, Option.map_eq_none_iff] at hcompiled
  exact absurd (hnext.symm.trans hcompiled) (by decide)

end NextTask

end OmpLazy.Workflows

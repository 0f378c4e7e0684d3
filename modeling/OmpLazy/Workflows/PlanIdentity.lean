import OmpLazy.Workflows.NextTaskPacket
import OmpLazy.Workflows.ScaffoldPlan

/-! The identity of a plan does not see which boxes are marked and how its lines end. -/

namespace OmpLazy.Workflows

open OmpLazy.Foundation OmpLazy.Foundation.Text

inductive LineEnding where
  | lf
  | crlf
  deriving DecidableEq, Repr

def LineEnding.text : LineEnding → List Char
  | .lf => ['\n']
  | .crlf => ['\r', '\n']

/-- A line with its ending. A line feed after a carriage return is the ending CRLF. -/
structure EndedLine where
  content : List Char
  ending : LineEnding
  single : '\n' ∉ content
  closed : ending = .lf → content.getLast? ≠ some '\r'

/-- A text by its lines, of which only the last has no ending. -/
structure Document where
  ended : List EndedLine
  last : List Char
  single : '\n' ∉ last

namespace Document

def chars (document : Document) : List Char :=
  document.ended.flatMap (fun line ↦ line.content ++ line.ending.text) ++ document.last

def text (document : Document) : String := String.ofList document.chars

def lines (document : Document) : List String :=
  (document.ended.map (·.content) ++ [document.last]).map String.ofList

/-- A character before a document. -/
theorem exists_cons (c : Char) (document : Document) : ∃ next : Document, next.chars = c :: document.chars := by
  obtain ⟨ended, last, hlast⟩ := document
  by_cases hbreak : c = '\n'
  · subst hbreak
    exact ⟨⟨⟨[], .lf, by simp, by simp⟩ :: ended, last, hlast⟩, rfl⟩
  · have hsingle {cs : List Char} (h : '\n' ∉ cs) : '\n' ∉ c :: cs := by
      simpa [Ne.symm hbreak] using h
    cases ended with
    | nil => exact ⟨⟨[], c :: last, hsingle hlast⟩, rfl⟩
    | cons line ended =>
      obtain ⟨content, ending, hcontent, hclosed⟩ := line
      cases content with
      | cons d content =>
        refine ⟨⟨⟨c :: d :: content, ending, hsingle hcontent, fun hlf ↦ ?_⟩ :: ended, last, hlast⟩, rfl⟩
        rw [List.getLast?_cons_cons]
        exact hclosed hlf
      | nil =>
        by_cases hreturn : c = '\r' ∧ ending = .lf
        · obtain ⟨rfl, rfl⟩ := hreturn
          exact ⟨⟨⟨[], .crlf, by simp, by simp⟩ :: ended, last, hlast⟩, rfl⟩
        · refine ⟨⟨⟨[c], ending, hsingle hcontent, fun hlf hc ↦ ?_⟩ :: ended, last, hlast⟩, rfl⟩
          exact hreturn ⟨Option.some.inj hc, hlf⟩

/-- Every text is a document. -/
theorem exists_text (markdown : String) : ∃ document : Document, document.text = markdown := by
  have hchars (cs : List Char) : ∃ document : Document, document.chars = cs := by
    induction cs with
    | nil => exact ⟨⟨[], [], by simp⟩, rfl⟩
    | cons c cs ih =>
      obtain ⟨document, rfl⟩ := ih
      exact exists_cons c document
  obtain ⟨document, hdocument⟩ := hchars markdown.toList
  exact ⟨document, by rw [text, hdocument, String.ofList_toList]⟩

/-- The lines of a text are read whatever their endings are. -/
theorem planLines_text (document : Document) : planLines document.text = document.lines := by
  have hjoined : joinLineBreaks document.chars =
      ['\n'].intercalate (document.ended.map (·.content) ++ [document.last]) := by
    obtain ⟨ended, last, hlast⟩ := document
    induction ended with
    | nil =>
      have hself := @joinLineBreaks_append_of_ends last [] hlast (by simp)
      simpa [chars, joinLineBreaks] using hself
    | cons line ended ih =>
      obtain ⟨content, ending, hcontent, hclosed⟩ := line
      have hrest : joinLineBreaks (content ++ (ending.text ++ chars ⟨ended, last, hlast⟩)) =
          content ++ '\n' :: joinLineBreaks (chars ⟨ended, last, hlast⟩) := by
        cases ending with
        | lf =>
          rw [joinLineBreaks_append_of_ends hcontent fun _ ↦ hclosed rfl]
          simp [LineEnding.text, joinLineBreaks]
        | crlf =>
          rw [joinLineBreaks_append_of_ends hcontent (by simp [LineEnding.text])]
          rfl
      have hne : ended.map (·.content) ++ [last] ≠ [] := by simp
      rw [List.map_cons, List.cons_append, List.intercalate_cons_of_ne_nil hne, ← ih, List.append_assoc,
        List.singleton_append, ← hrest]
      simp [chars]
  rw [planLines, text, String.toList_ofList, hjoined, List.splitOn_intercalate, lines]
  · intro cs hcs
    obtain hcs | hcs := List.mem_append.mp hcs
    · obtain ⟨line, -, rfl⟩ := List.mem_map.mp hcs
      exact line.single
    · obtain rfl := List.mem_singleton.mp hcs
      exact document.single
  · simp

end Document

section Marks

def boxMarks : List Char := [' ', 'x', 'X']

/-- A line that starts with a box. -/
def boxed (mark : Char) (rest : List Char) : String := String.ofList ('-' :: ' ' :: '[' :: mark :: ']' :: rest)

/-- The line as it is, or with another mark in its box. -/
inductive Remarked : String → String → Prop
  | same (line : String) : Remarked line line
  | marked {mark mark' : Char} (rest : List Char) (hmark : mark ∈ boxMarks) (hmark' : mark' ∈ boxMarks) :
      Remarked (boxed mark rest) (boxed mark' rest)

/-- The normalization leaves ASCII text before a blank alone: a blank does not compose. -/
def BlanksSeparate (platform : Platform) : Prop :=
  ∀ s t : String, (∀ c ∈ s.toList, c.toNat < 128) → platform.nfc (s ++ " " ++ t) = s ++ " " ++ platform.nfc t

/-- The checklist lines of the counted sections, from a section on. -/
def countedItems (version : PlanVersion) : Option PlanSection → List String → List String
  | _, [] => []
  | inSection, line :: lines =>
    match selectedSection line version with
    | some next => countedItems version next lines
    | none =>
      if inSection.isSome && (matchChecklist line).isSome then line :: countedItems version inSection lines
      else countedItems version inSection lines

def boxEmpty (line : String) : Bool := startsWith "- [ ]" line

variable {platform : Platform} {line line' : String} {mark mark' : Char} {rest : List Char} {version : PlanVersion}
  {assignsLegacyIds : Bool} {inSection : Option PlanSection} {lines lines' : List String}

theorem Remarked.eq_iff (h : Remarked line line') {heading : String} (hhead : heading.toList.head? ≠ some '-') :
    line' = heading ↔ line = heading := by
  have hboxed {mark : Char} {rest : List Char} : boxed mark rest ≠ heading := by
    rintro rfl
    exact hhead (by simp [boxed])
  cases h with
  | same => exact Iff.rfl
  | marked => exact ⟨fun h ↦ absurd h hboxed, fun h ↦ absurd h hboxed⟩

theorem Remarked.selectedSection_eq (h : Remarked line line') :
    selectedSection line' version = selectedSection line version := by
  have hboxed {mark : Char} {rest : List Char} : selectedSection (boxed mark rest) version = none := by
    have hne {heading : String} (hhead : heading.toList.head? ≠ some '-') : boxed mark rest ≠ heading := by
      rintro rfl
      exact hhead (by simp [boxed])
    have hstart : startsWith "## " (boxed mark rest) = false := by
      simp [startsWith, boxed, List.isPrefixOf]
    rw [selectedSection, if_neg (hne (by cases version <;> decide)), if_neg (hne (by cases version <;> decide)),
      hstart]
    rfl
  cases h with
  | same => rfl
  | marked => rw [hboxed, hboxed]

/-- Another mark leaves the label. -/
theorem matchChecklist_boxed (hmark : mark ∈ boxMarks) (hmark' : mark' ∈ boxMarks) :
    matchChecklist (boxed mark' rest) = (matchChecklist (boxed mark rest)).map fun found ↦ (mark', found.2) := by
  have hmark : mark ∈ [' ', 'x', 'X'] := hmark
  have hmark' : mark' ∈ [' ', 'x', 'X'] := hmark'
  rw [matchChecklist, matchChecklist, boxed, boxed, String.toList_ofList, String.toList_ofList]
  cases rest with
  | nil => rfl
  | cons c rest =>
    by_cases hc : c = ' '
    · subst hc
      simp only [hmark, hmark', decide_true, Bool.true_and]
      generalize (if (rest.rdropWhile isSpace).isEmpty then rest.take 1 else rest.rdropWhile isSpace) = label
      by_cases hlabel : (!label.isEmpty && label.all (!isLineTerminator ·)) = true
      · simp only [hlabel, if_true, Option.map_some]
      · simp only [hlabel, if_false, Option.map_none, Bool.false_eq_true]
    · simp [hc]

theorem mark_of_matchChecklist {found : Char × String} (h : matchChecklist (boxed mark rest) = some found) :
    found.1 = mark ∧ ∃ label, rest = ' ' :: label := by
  rw [matchChecklist, boxed, String.toList_ofList] at h
  cases rest with
  | nil => cases h
  | cons c rest =>
    by_cases hc : c = ' '
    · subst hc
      obtain ⟨-, hfound⟩ := Option.ite_none_right_eq_some.mp h
      obtain rfl := Option.some.inj hfound
      exact ⟨rfl, rest, rfl⟩
    · simp [hc] at h

theorem unmarked_boxed (hmark : mark ∈ boxMarks) : unmarked (boxed mark rest) = boxed ' ' rest := by
  rw [unmarked, boxed, String.toList_ofList]
  exact if_pos hmark

theorem boxMarks_ascii (hmark : mark ∈ boxMarks) : mark.toNat < 128 := by
  simp only [boxMarks, List.mem_cons, List.not_mem_nil, or_false] at hmark
  rcases hmark with rfl | rfl | rfl <;> decide

/-- The id that is made of a line does not see its mark. -/
theorem legacyId_boxed (hnfc : BlanksSeparate platform) (hmark : mark ∈ boxMarks) (label : List Char) :
    legacyId platform (boxed mark (' ' :: label)) =
      legacyId platform (boxed ' ' (' ' :: label)) := by
  have hunmarked {mark : Char} (hmark : mark ∈ boxMarks) :
      unmarked (platform.nfc (boxed mark (' ' :: label))) =
        boxed ' ' (' ' :: (platform.nfc (String.ofList label)).toList) := by
    have hline : boxed mark (' ' :: label) = boxed mark [] ++ " " ++ String.ofList label := by
      apply String.toList_inj.mp
      simp [boxed]
    have hascii : ∀ c ∈ (boxed mark []).toList, c.toNat < 128 := by
      intro c hc
      simp only [boxed, String.toList_ofList, List.mem_cons, List.not_mem_nil, or_false] at hc
      rcases hc with rfl | rfl | rfl | rfl | rfl
      · decide
      · decide
      · decide
      · exact boxMarks_ascii hmark
      · decide
    have hnormal : boxed mark [] ++ " " ++ platform.nfc (String.ofList label) =
        boxed mark (' ' :: (platform.nfc (String.ofList label)).toList) := by
      apply String.toList_inj.mp
      simp [boxed]
    rw [hline, hnfc _ _ hascii, hnormal, unmarked_boxed hmark]
  rw [legacyId, legacyId, hunmarked hmark, hunmarked (by decide)]

/-- What identifies a task. -/
def ChecklistLine.identity (task : ChecklistLine) : PlanSection × String × Bool := (task.inSection, task.id, task.explicit)

theorem Remarked.checklistLine_identity (hnfc : BlanksSeparate platform) (h : Remarked line line')
    (counted : PlanSection) :
    (checklistLine platform assignsLegacyIds counted line').map ChecklistLine.identity =
      (checklistLine platform assignsLegacyIds counted line).map ChecklistLine.identity := by
  cases h with
  | same => rfl
  | @marked mark mark' rest hmark hmark' =>
    rw [checklistLine, checklistLine, matchChecklist_boxed hmark hmark', Option.map_map, Option.map_map,
      Option.map_map]
    refine Option.map_congr fun found hfound ↦ ?_
    obtain ⟨-, label, rfl⟩ := mark_of_matchChecklist hfound
    simp only [Function.comp_apply, ChecklistLine.identity, legacyId_boxed hnfc hmark,
      legacyId_boxed hnfc hmark']

theorem checklistFrom_identity (hnfc : BlanksSeparate platform) (h : List.Forall₂ Remarked lines lines') :
    (checklistFrom platform version assignsLegacyIds inSection lines').map ChecklistLine.identity =
      (checklistFrom platform version assignsLegacyIds inSection lines).map ChecklistLine.identity := by
  induction h generalizing inSection with
  | nil => rfl
  | @cons line line' lines lines' hline _ ih =>
    rw [checklistFrom_cons, checklistFrom_cons, hline.selectedSection_eq, List.map_append, List.map_append, ih]
    congr 1
    cases inSection with
    | none => simp
    | some counted =>
      split
      · rw [← Option.toList_map, ← Option.toList_map]
        exact congrArg Option.toList (hline.checklistLine_identity hnfc counted)
      · rfl

theorem v2Headings_head : ∀ heading ∈ v2Headings, heading.toList.head? ≠ some '-' := by decide

theorem count_remarked (h : List.Forall₂ Remarked lines lines') {heading : String}
    (hhead : heading.toList.head? ≠ some '-') : lines'.count heading = lines.count heading := by
  induction h with
  | nil => rfl
  | cons hline _ ih =>
    rw [List.count_cons, List.count_cons, ih]
    congr 1
    simp only [beq_iff_eq, hline.eq_iff hhead]

theorem headingsRead_remarked (h : List.Forall₂ Remarked lines lines') (position : ℕ) :
    lines'.foldl (fun position line ↦ if v2Headings[position]? = some line then position + 1 else position) position =
      lines.foldl (fun position line ↦ if v2Headings[position]? = some line then position + 1 else position)
        position := by
  induction h generalizing position with
  | nil => rfl
  | @cons line line' lines lines' hline _ ih =>
    have hstep : v2Headings[position]? = some line' ↔ v2Headings[position]? = some line := by
      cases hheading : v2Headings[position]? with
      | none => simp
      | some heading =>
        have hiff := hline.eq_iff (v2Headings_head heading (List.mem_of_getElem? hheading))
        rw [Option.some_inj, Option.some_inj, eq_comm, hiff, eq_comm]
    rw [List.foldl_cons, List.foldl_cons, ih]
    simp only [hstep]

/-- The headings are read in order from the same lines. -/
theorem v2HeadingsAreOrdered_remarked (h : List.Forall₂ Remarked lines lines') :
    v2HeadingsAreOrdered lines' = v2HeadingsAreOrdered lines := by
  have hcounts : v2Headings.all (fun heading ↦ lines'.count heading = 1) =
      v2Headings.all (fun heading ↦ lines.count heading = 1) := by
    rw [Bool.eq_iff_iff, List.all_eq_true, List.all_eq_true]
    refine forall₂_congr fun heading hmem ↦ ?_
    rw [count_remarked h (v2Headings_head heading hmem)]
  rw [v2HeadingsAreOrdered, v2HeadingsAreOrdered, hcounts, headingsRead_remarked h]

theorem boxEmpty_of_matchChecklist {found : Char × String} (h : matchChecklist line = some found) :
    boxEmpty line = decide (found.1 = ' ') := by
  have hline : ∃ rest, line = boxed found.1 rest := by
    rw [matchChecklist] at h
    split at h
    · rename_i mark rest hchars
      obtain ⟨-, hfound⟩ := Option.ite_none_right_eq_some.mp h
      obtain rfl := Option.some.inj hfound
      exact ⟨' ' :: rest, String.toList_inj.mp (by rw [hchars, boxed, String.toList_ofList])⟩
    · cases h
  obtain ⟨rest, rfl⟩ := hline
  have hbox : boxEmpty (boxed found.1 rest) = (' ' == found.1) := by
    simp [boxEmpty, startsWith, boxed, List.isPrefixOf]
  rw [hbox, Bool.eq_iff_iff, beq_iff_eq, decide_eq_true_iff]
  exact eq_comm

/-- The boxes of the counted lines are the marks of the tasks. -/
theorem checklistFrom_boxes : (checklistFrom platform version assignsLegacyIds inSection lines).map (!·.checked) =
    (countedItems version inSection lines).map boxEmpty := by
  induction lines generalizing inSection with
  | nil => rfl
  | cons line lines ih =>
    rw [checklistFrom, countedItems]
    cases selectedSection line version with
    | some next => exact ih
    | none =>
      cases inSection with
      | none => simpa using ih
      | some counted =>
        cases hfound : matchChecklist line with
        | none => simpa [checklistLine, hfound] using ih
        | some found =>
          simpa [checklistLine, hfound, boxEmpty_of_matchChecklist hfound] using ih

theorem remaining_of_boxes {tasks : List ChecklistLine} {boxes : List String}
    (h : tasks.map (!·.checked) = boxes.map boxEmpty) :
    (tasks.filter (!·.checked)).map (·.id) =
      ((boxes.zip (tasks.map (·.id))).filter fun item ↦ boxEmpty item.1).map (·.2) := by
  induction tasks generalizing boxes with
  | nil => simp
  | cons task tasks ih =>
    cases boxes with
    | nil => cases h
    | cons line boxes =>
      obtain ⟨hbox, hrest⟩ := List.cons.inj h
      cases hempty : boxEmpty line with
      | false => simpa [hbox, hempty] using ih hrest
      | true => simpa [hbox, hempty] using ih hrest

/-- What is read of the identities of tasks alone. -/
theorem map_of_identity {α : Type} {tasks tasks' : List ChecklistLine}
    (h : tasks'.map ChecklistLine.identity = tasks.map ChecklistLine.identity)
    (f : PlanSection × String × Bool → α) :
    tasks'.map (fun task ↦ f task.identity) = tasks.map fun task ↦ f task.identity := by
  have hmap := congrArg (List.map f) h
  rwa [List.map_map, List.map_map] at hmap

/-- A plan is accepted as the same one after its boxes were marked anew. -/
theorem normalize_remarked (hnfc : BlanksSeparate platform) {markdown markdown' : String} {plan : NormalizedPlan}
    (h : List.Forall₂ Remarked (planLines markdown) (planLines markdown'))
    (hplan : normalizeStartWorkPlan platform markdown = .ok plan) :
    ∃ plan', normalizeStartWorkPlan platform markdown' = .ok plan' ∧ plan'.version = plan.version ∧
      plan'.taskIds = plan.taskIds ∧ plan'.fingerprint = plan.fingerprint ∧ plan'.taskIds.Nodup := by
  have hv1 := @count_remarked _ _ h v1Marker (by decide)
  have hv2 := @count_remarked _ _ h v2Marker (by decide)
  have hordered := v2HeadingsAreOrdered_remarked h
  simp only [normalizeStartWorkPlan] at hplan ⊢
  rw [hv1, hv2, hordered]
  generalize hversion : (if (planLines markdown).count v2Marker = 1 then PlanVersion.v2 else .v1) = version
    at hplan ⊢
  generalize hlegacy : decide ((planLines markdown).count v1Marker = 1) = assignsLegacyIds at hplan ⊢
  have hidentity : (parseChecklist platform (planLines markdown') version assignsLegacyIds).map
      ChecklistLine.identity = (parseChecklist platform (planLines markdown) version assignsLegacyIds).map
        ChecklistLine.identity := checklistFrom_identity hnfc h
  generalize parseChecklist platform (planLines markdown) version assignsLegacyIds = tasks at hplan hidentity
  generalize parseChecklist platform (planLines markdown') version assignsLegacyIds = tasks' at hidentity ⊢
  have hids : tasks'.map (·.id) = tasks.map (·.id) := map_of_identity hidentity fun identity ↦ identity.2.1
  have hencoded : tasks'.map encodeIdentity = tasks.map encodeIdentity :=
    map_of_identity hidentity fun identity ↦
      Json.object [("section", .string identity.1.name), ("id", .string identity.2.1)]
  have hexplicit : tasks'.any (!·.explicit) = tasks.any (!·.explicit) := by
    have hmap : tasks'.map (!·.explicit) = tasks.map (!·.explicit) :=
      map_of_identity hidentity fun identity ↦ !identity.2.2
    have hany := congrArg (List.any · id) hmap
    rwa [List.any_map, List.any_map] at hany
  rw [hids, hexplicit, hencoded]
  split at hplan
  · cases hplan
  rename_i hmarkers
  split at hplan
  · cases hplan
  rename_i hheadings
  split at hplan
  · cases hplan
  rename_i hnamed
  split at hplan
  · cases hplan
  rename_i hdistinct
  cases hplan
  rw [if_neg hmarkers, if_neg hheadings, if_neg hnamed, if_neg hdistinct]
  exact ⟨_, rfl, rfl, rfl, rfl, not_not.mp hdistinct⟩

/-- The lines of a document with the boxes marked anew, each line with any ending. -/
def Document.Remarked (document document' : Document) : Prop :=
  List.Forall₂ Workflows.Remarked document.lines document'.lines

/-- A plan keeps its tasks and its fingerprint while its boxes are marked and its line endings change,
and what remains of it are the tasks whose boxes are empty. -/
theorem checkbox_toggles_identity (hnfc : BlanksSeparate platform) {markdown : String} {plan : NormalizedPlan}
    (hplan : normalizeStartWorkPlan platform markdown = .ok plan) :
    (∃ document : Document, document.text = markdown) ∧
    ∀ document document' : Document, document.text = markdown → document.Remarked document' →
      ∃ plan', normalizeStartWorkPlan platform document'.text = .ok plan' ∧ plan'.taskIds = plan.taskIds ∧
        plan'.fingerprint = plan.fingerprint ∧ plan'.taskIds.Nodup ∧
        (countedItems plan'.version none document'.lines).length = plan'.taskIds.length ∧
        plan'.remainingTaskIds = (((countedItems plan'.version none document'.lines).zip plan'.taskIds).filter
          fun item ↦ boxEmpty item.1).map (·.2) := by
  refine ⟨Document.exists_text markdown, ?_⟩
  rintro document document' rfl hremarked
  have hlines : List.Forall₂ Remarked (planLines document.text) (planLines document'.text) := by
    rw [Document.planLines_text, Document.planLines_text]
    exact hremarked
  obtain ⟨plan', hplan', -, hids, hfingerprint, hdistinct⟩ := normalize_remarked hnfc hlines hplan
  refine ⟨plan', hplan', hids, hfingerprint, hdistinct, ?_⟩
  obtain ⟨htaskIds, hremaining, -⟩ := normalize_ok hplan'
  have hboxes := @checklistFrom_boxes platform plan'.version (plan'.version = .v1) none (planLines document'.text)
  rw [Document.planLines_text] at htaskIds hremaining hboxes
  rw [hremaining, htaskIds]
  refine ⟨?_, remaining_of_boxes hboxes⟩
  have hlength := congrArg List.length hboxes
  rw [List.length_map, List.length_map] at hlength
  rw [List.length_map]
  exact hlength.symm

end Marks

/-- Lines that all end alike. -/
def writtenWith (ending : LineEnding) (lines : List String) (h : ∀ line ∈ lines, Unbroken line) : Document where
  ended := lines.attach.map fun line ↦
    { content := line.1.toList
      ending
      single := fun hmem ↦ (h line.1 line.2 _ hmem).1 rfl
      closed := fun _ hlast ↦ (h line.1 line.2 _ (List.mem_of_getLast? hlast)).2 rfl }
  last := []
  single := List.not_mem_nil

theorem lines_writtenWith (ending : LineEnding) {lines : List String} (h : ∀ line ∈ lines, Unbroken line) :
    (writtenWith ending lines h).lines = lines ++ [""] := by
  simp only [writtenWith, Document.lines, List.map_append, List.map_map, List.map_cons, List.map_nil]
  congr 1
  exact (List.map_congr_left fun line _ ↦ String.ofList_toList).trans (List.attach_map_subtype_val lines)

/-- The review that remains is marked as done, and the lines end with CRLF. -/
theorem checkbox_toggles_review : ∃ plan',
    normalizeStartWorkPlan reviewPlatform
      (writtenWith .crlf (reviewPlan "X") (reviewPlan_unbroken (by decide))).text = .ok plan' ∧
    plan'.taskIds = ["BUILD", "REVIEW"] ∧ plan'.taskIds.Nodup := by
  have hplan : normalizeStartWorkPlan reviewPlatform
      (writtenWith .lf (reviewPlan " ") (reviewPlan_unbroken (by decide))).text =
        .ok ⟨⟨["BUILD", "REVIEW"], ["REVIEW"], reviewFingerprint⟩, .v1⟩ := by
    rw [normalizeStartWorkPlan, Document.planLines_text, lines_writtenWith]
    decide
  have hopen : "- [" ++ (" " ++ "] **REVIEW. Read**") = boxed ' ' " **REVIEW. Read**".toList := by decide
  have hdone : "- [" ++ ("X" ++ "] **REVIEW. Read**") = boxed 'X' " **REVIEW. Read**".toList := by decide
  have hreview : Remarked ("- [" ++ (" " ++ "] **REVIEW. Read**")) ("- [" ++ ("X" ++ "] **REVIEW. Read**")) := by
    rw [hopen, hdone]
    exact .marked _ (by decide) (by decide)
  obtain ⟨plan', hplan', hids, -, hdistinct, -⟩ := (checkbox_toggles_identity (fun _ _ _ ↦ rfl) hplan).2 _
    (writtenWith .crlf (reviewPlan "X") (reviewPlan_unbroken (by decide))) rfl (by
      rw [Document.Remarked, lines_writtenWith, lines_writtenWith]
      exact .cons (.same _) (.cons (.same _) (.cons (.same _) (.cons (.same _) (.cons hreview
        (.cons (.same _) (.cons (.same _) (.cons (.same _) .nil))))))))
  exact ⟨plan', hplan', hids, hdistinct⟩

end OmpLazy.Workflows

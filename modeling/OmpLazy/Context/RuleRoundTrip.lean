import OmpLazy.Context.RuleDocuments
import Mathlib.Data.Bool.AllAny

/-! A document of a rule, read back as a whole. -/

namespace OmpLazy.Context

open OmpLazy.Foundation OmpLazy.Foundation.Text
open OmpLazy.Workflows (joinLineBreaks joinLineBreaks_append isLineTerminator)

/-! Orders. -/

section Orders

variable {order : ℤ}

theorem isDigit_iff {c : Char} : isDigit c = true ↔ 48 ≤ c.toNat ∧ c.toNat ≤ 57 := by
  simp only [isDigit, Bool.and_eq_true, decide_eq_true_eq]
  exact Iff.rfl

theorem isDigit_toDigits {n : ℕ} : ∀ c ∈ Nat.toDigits 10 n, isDigit c = true := by
  intro c hc
  have hdigit := Nat.isDigit_of_mem_toDigits (by omega) (by omega) hc
  simp only [Char.isDigit, Bool.and_eq_true, decide_eq_true_eq] at hdigit
  exact isDigit_iff.mpr hdigit

theorem isDigit_ne {c d : Char} (h : isDigit c = true) (hd : isDigit d = false) : c ≠ d := by
  rintro rfl
  rw [h] at hd
  cases hd

theorem isDigit_notSpace {c : Char} (h : isDigit c = true) : isSpace c = false := by
  obtain ⟨hlo, hhi⟩ := isDigit_iff.mp h
  simp only [isSpace, List.mem_cons, List.not_mem_nil, or_false, Bool.or_eq_false_iff,
    decide_eq_false_iff_not, Bool.and_eq_false_iff]
  omega

theorem orderText_eq (order : ℤ) : orderText order =
    if order < 0 then '-' :: Nat.toDigits 10 order.natAbs else Nat.toDigits 10 order.natAbs := by
  rw [orderText, Int.toString_eq_repr, Int.repr_eq_if]
  by_cases hneg : order < 0
  · have habs : (-order).toNat = order.natAbs := by omega
    rw [if_neg (by omega), if_pos hneg, habs, String.toList_append, Nat.repr, String.toList_ofList,
      String.toList_ofList]
    rfl
  · have habs : order.toNat = order.natAbs := by omega
    rw [if_pos (by omega), if_neg hneg, habs, Nat.repr, String.toList_ofList]

theorem mem_orderText {c : Char} (hc : c ∈ orderText order) : c = '-' ∨ isDigit c = true := by
  rw [orderText_eq] at hc
  by_cases hneg : order < 0
  · rw [if_pos hneg, List.mem_cons] at hc
    exact hc.imp id (isDigit_toDigits c)
  · rw [if_neg hneg] at hc
    exact Or.inr (isDigit_toDigits c hc)

theorem orderText_space {c : Char} (hc : c ∈ orderText order) : isSpace c = false := by
  obtain rfl | hdigit := mem_orderText hc
  · decide
  · exact isDigit_notSpace hdigit

theorem orderText_ne {c d : Char} (hc : c ∈ orderText order) (hd : isDigit d = false) (hdash : d ≠ '-') : c ≠ d := by
  obtain rfl | hdigit := mem_orderText hc
  · exact hdash.symm
  · exact isDigit_ne hdigit hd

/-- An order is written without spaces. -/
theorem scalar_orderText (order : ℤ) : Scalar (orderText order) where
  trimmed := trimList_eq_self.mpr ⟨fun _ hc ↦ orderText_space (List.mem_of_mem_head? hc),
    fun _ hc ↦ orderText_space (List.mem_of_mem_getLast? hc)⟩
  nonempty := by
    rw [orderText_eq]
    split
    · exact List.cons_ne_nil _ _
    · exact Nat.toDigits_ne_nil
  single := fun c hc ↦ by
    have hspace := orderText_space hc
    by_contra hline
    rw [Bool.not_eq_false] at hline
    rw [isSpace_lineTerminator hline] at hspace
    cases hspace
  unquoted := fun c hc ↦
    ⟨orderText_ne (List.mem_of_mem_head? hc) (by decide) (by decide),
      orderText_ne (List.mem_of_mem_head? hc) (by decide) (by decide)⟩

theorem readOrder_orderText (h : -9999 ≤ order ∧ order ≤ 9999) : readOrder (orderText order) = some order := by
  have hlength : (Nat.toDigits 10 order.natAbs).length ≤ 4 := by
    rw [Nat.length_toDigits_le_iff (by omega) (by omega)]
    omega
  have hdigits : (Nat.toDigits 10 order.natAbs).all isDigit = true := List.all_eq_true.mpr isDigit_toDigits
  have hvalue : Nat.ofDigitChars 10 (Nat.toDigits 10 order.natAbs) 0 = order.natAbs :=
    Nat.ofDigitChars_toDigits (by omega) (by omega)
  have hgood : ¬ (Nat.toDigits 10 order.natAbs = [] ∨ 4 < (Nat.toDigits 10 order.natAbs).length ∨
      !(Nat.toDigits 10 order.natAbs).all isDigit) := by
    simp only [hdigits, Nat.toDigits_ne_nil, Bool.not_true, Bool.false_eq_true, or_false, false_or]
    omega
  rw [orderText_eq]
  by_cases hneg : order < 0
  · rw [if_pos hneg, readOrder]
    simp only [List.head?_cons, if_true, List.drop_succ_cons, List.drop_zero]
    rw [if_neg hgood, hvalue]
    congr 1
    omega
  · have hhead : (Nat.toDigits 10 order.natAbs).head? ≠ some '-' := by
      intro hhead
      exact isDigit_ne (isDigit_toDigits _ (List.mem_of_mem_head? hhead)) (by decide) rfl
    rw [if_neg hneg, readOrder]
    simp only [if_neg hhead]
    rw [if_neg hgood, hvalue]
    congr 1
    omega

end Orders

/-! The keys. -/

section Keys

variable {isAbsolute : String → Bool} {document : RuleDocument} {fields : Fields}

/-- What stands under a key. -/
def RuleDocument.entry (document : RuleDocument) : RuleKey → Option FieldValue
  | .globs => some (.list (document.globs.map String.toList))
  | .order => document.order.map fun order ↦ .scalar (orderText order)
  | .description => document.description.map fun text ↦ .scalar text.toList

def RuleDocument.fieldsOf (document : RuleDocument) (keys : List RuleKey) : Fields :=
  keys.filterMap fun key ↦ (document.entry key).map fun value ↦ (key.text, value)

theorem lookup_fields {keys : List RuleKey} {key : RuleKey} (hkeys : keys.Nodup) :
    (document.fieldsOf keys).lookup key.text = if key ∈ keys then document.entry key else none := by
  induction keys with
  | nil => rfl
  | cons first keys ih =>
    obtain ⟨hfirst, hrest⟩ := List.nodup_cons.mp hkeys
    have ih := ih hrest
    rw [RuleDocument.fieldsOf] at ih
    by_cases heq : key = first
    · subst heq
      rw [if_neg hfirst] at ih
      cases hentry : document.entry key with
      | none => simp [RuleDocument.fieldsOf, hentry, ih]
      | some value => simp [RuleDocument.fieldsOf, hentry]
    · have htext : (key.text == first.text) = false := by
        rw [beq_eq_false_iff_ne]
        exact fun h ↦ heq (keyText_injective h)
      cases hentry : document.entry first with
      | none => simp [RuleDocument.fieldsOf, hentry, ih, heq]
      | some value =>
        simp only [RuleDocument.fieldsOf, List.filterMap_cons, hentry, Option.map_some, List.lookup_cons, htext, ih,
          List.mem_cons, heq, false_or]

theorem DescriptionOk.scalar {text : String} (h : DescriptionOk text) : Scalar text.toList where
  trimmed := by
    have htrim := congrArg String.toList h.trimmed.1
    rwa [trim, String.toList_ofList] at htrim
  nonempty := fun hnil ↦ h.trimmed.2 (String.toList_eq_nil_iff.mp hnil)
  single := h.single
  unquoted := fun c hc ↦ (h.start c hc).2

/-- The lines of a key add what stands under it. -/
theorem foldlM_linesOf (current : Option (List Char)) (style : RuleStyle) (h : document.Ok isAbsolute) {key : RuleKey}
    (hnew : fields.lookup key.text = none) :
    ∃ current', (style.linesOf document key).foldlM readLine ⟨fields, current⟩ =
      .ok ⟨fields ++ document.fieldsOf [key], current'⟩ := by
  have hglobs : ∀ glob ∈ document.globs, Scalar glob.toList := fun glob hglob ↦ (h.globs glob hglob).scalar
  cases key with
  | globs =>
    refine ⟨some globsKey, ?_⟩
    cases hstyle : style.globs with
    | block indent quoting =>
      simp only [RuleStyle.linesOf, hstyle]
      rw [List.foldlM_cons]
      have hread := readLine_block ⟨fields, current⟩ .globs hnew
      rw [RuleKey.text] at hread
      rw [hread]
      exact foldlM_items hglobs hnew
    | inline blanks =>
      simp only [RuleStyle.linesOf, hstyle]
      have hplain : ∀ glob ∈ document.globs, ∀ c ∈ glob.toList,
          c ≠ doubleQuote ∧ 0x20 ≤ c.toNat ∧ isLineTerminator c = false := by
        intro glob hglob c hc
        obtain ⟨hdouble, -, -, hcontrol, hline⟩ := (h.globs glob hglob).plain c hc
        exact ⟨hdouble, hcontrol, hline⟩
      have hread := readLine_inline ⟨fields, current⟩ .globs blanks h.some hplain hnew
      rw [RuleKey.text] at hread
      rw [List.foldlM_cons, hread]
      rfl
  | order =>
    cases horder : document.order with
    | none =>
      refine ⟨current, ?_⟩
      simp [RuleStyle.linesOf, RuleDocument.fieldsOf, RuleDocument.entry, horder, pure, Except.pure]
    | some order =>
      have hstart : ∀ c ∈ (orderText order).head?, c ≠ '[' := fun c hc ↦
        orderText_ne (List.mem_of_mem_head? hc) (by decide) (by decide)
      have hread := readLine_scalar ⟨fields, current⟩ .order style.order (scalar_orderText order) hstart hnew
      refine ⟨some orderKey, ?_⟩
      simp only [RuleStyle.linesOf, horder, Option.map_some, Option.toList_some]
      rw [List.foldlM_cons, hread]
      simp [RuleDocument.fieldsOf, RuleDocument.entry, horder, RuleKey.text, bind, Except.bind, pure, Except.pure]
  | description =>
    cases hdescription : document.description with
    | none =>
      refine ⟨current, ?_⟩
      simp [RuleStyle.linesOf, RuleDocument.fieldsOf, RuleDocument.entry, hdescription, pure, Except.pure]
    | some text =>
      have hok := h.description text hdescription
      have hstart : ∀ c ∈ text.toList.head?, c ≠ '[' := fun c hc ↦ (hok.start c hc).1
      have hread := readLine_scalar ⟨fields, current⟩ .description style.description hok.scalar hstart hnew
      refine ⟨some descriptionKey, ?_⟩
      simp only [RuleStyle.linesOf, hdescription, Option.map_some, Option.toList_some]
      rw [List.foldlM_cons, hread]
      simp [RuleDocument.fieldsOf, RuleDocument.entry, hdescription, RuleKey.text, bind, Except.bind, pure, Except.pure]

/-- The lines of all the keys, one key after the other. -/
theorem foldlM_keys (current : Option (List Char)) (style : RuleStyle) (h : document.Ok isAbsolute)
    {keys : List RuleKey} (hkeys : keys.Nodup) (hnew : ∀ key ∈ keys, fields.lookup key.text = none) :
    ∃ current', (keys.flatMap (style.linesOf document)).foldlM readLine ⟨fields, current⟩ =
      .ok ⟨fields ++ document.fieldsOf keys, current'⟩ := by
  induction keys generalizing fields current with
  | nil => exact ⟨current, by simp [RuleDocument.fieldsOf, pure, Except.pure]⟩
  | cons key keys ih =>
    obtain ⟨hkey, hrest⟩ := List.nodup_cons.mp hkeys
    obtain ⟨hfirst, hothers⟩ := List.forall_mem_cons.mp hnew
    obtain ⟨current', hread⟩ := foldlM_linesOf current style h hfirst
    have hnew' : ∀ other ∈ keys, (fields ++ document.fieldsOf [key]).lookup other.text = none := by
      intro other hother
      have hne : other ∉ [key] := by
        rw [List.mem_singleton]
        rintro rfl
        exact hkey hother
      rw [List.lookup_append, hothers other hother, lookup_fields (List.nodup_singleton key), if_neg hne]
      rfl
    obtain ⟨current'', hrun⟩ := ih current' hrest hnew'
    refine ⟨current'', ?_⟩
    rw [List.flatMap_cons, List.foldlM_append, hread]
    refine hrun.trans ?_
    rw [List.append_assoc]
    congr 3
    rw [RuleDocument.fieldsOf, RuleDocument.fieldsOf, RuleDocument.fieldsOf, ← List.filterMap_append]
    rfl

end Keys

/-! The lines between the fences. -/

section Fences

variable {isAbsolute : String → Bool} {document : RuleDocument} {style : RuleStyle} {line : List Char}

theorem notFence {c : Char} (hc : c ∈ line) (hspace : isSpace c = false) (hdash : c ≠ '-') : isFence line = false := by
  rw [isFence, decide_eq_false_iff_not]
  intro htrim
  have hmem := mem_trimList hc hspace
  rw [htrim] at hmem
  simp only [List.mem_cons, List.not_mem_nil, or_false, or_self] at hmem
  exact hdash hmem

/-- An item has a space behind its dash. -/
theorem itemLine_notFence (indent : ℕ) (quoting : Quoting) {glob : String} (h : Scalar glob.toList) :
    isFence (itemLine indent quoting glob) = false := by
  have hblanks : ∀ c ∈ List.replicate indent ' ', isSpace c = true := by
    intro c hc
    rw [List.eq_of_mem_replicate hc]
    decide
  have hne := wrap_ne_nil quoting h.nonempty
  have hdrop : (itemLine indent quoting glob).dropWhile isSpace = '-' :: ' ' :: quoting.wrap glob.toList := by
    rw [itemLine, List.dropWhile_append_of_pos hblanks]
    exact List.dropWhile_cons_of_neg (by decide)
  have hends : trimList ('-' :: ' ' :: quoting.wrap glob.toList) = '-' :: ' ' :: quoting.wrap glob.toList := by
    refine trimList_eq_self.mpr ⟨fun c hc ↦ ?_, fun c hc ↦ ?_⟩
    · cases hc
      decide
    · rw [List.getLast?_cons_of_ne_nil (List.cons_ne_nil _ _), List.getLast?_cons_of_ne_nil hne] at hc
      exact (wrap_ends quoting h.trimmed).2 c hc
  rw [trimList, List.dropWhile_cons_of_neg (by decide)] at hends
  rw [isFence, decide_eq_false_iff_not, trimList, hdrop, hends]
  intro hfence
  exact absurd (List.cons.inj (List.cons.inj hfence).2).1 (by decide)

/-- A line begins with its key, or it is an item. -/
theorem mem_linesOf (h : document.Ok isAbsolute) {key : RuleKey} (hline : line ∈ style.linesOf document key) :
    (∃ value, line = key.text ++ ':' :: value ∧ ∀ c ∈ value, isLineTerminator c = false) ∨
      ∃ indent quoting, ∃ glob ∈ document.globs, line = itemLine indent quoting glob := by
  have hblank : isLineTerminator ' ' = false := by decide
  cases key with
  | globs =>
    cases hstyle : style.globs with
    | block indent quoting =>
      simp only [RuleStyle.linesOf, hstyle, List.mem_cons] at hline
      obtain rfl | hline := hline
      · exact Or.inl ⟨[], rfl, by simp⟩
      · obtain ⟨i, hi, rfl⟩ := List.mem_mapIdx.mp hline
        exact Or.inr ⟨indent i, quoting i, document.globs[i], List.getElem_mem hi, rfl⟩
    | inline blanks =>
      simp only [RuleStyle.linesOf, hstyle, List.mem_singleton] at hline
      refine Or.inl ⟨' ' :: inlineList blanks document.globs, hline, List.forall_mem_cons.mpr ⟨hblank, ?_⟩⟩
      exact inlineList_lines fun glob hglob c hc ↦ ((h.globs glob hglob).plain c hc).2.2.2.2
  | order =>
    simp only [RuleStyle.linesOf, Option.mem_toList, Option.map_eq_some_iff] at hline
    obtain ⟨order, -, rfl⟩ := hline
    exact Or.inl ⟨_, rfl, List.forall_mem_cons.mpr ⟨hblank, wrap_lines style.order (scalar_orderText order).single⟩⟩
  | description =>
    simp only [RuleStyle.linesOf, Option.mem_toList, Option.map_eq_some_iff] at hline
    obtain ⟨text, htext, rfl⟩ := hline
    have hsingle := (h.description text htext).single
    exact Or.inl ⟨_, rfl, List.forall_mem_cons.mpr ⟨hblank, wrap_lines style.description hsingle⟩⟩

theorem linesOf_notFence (h : document.Ok isAbsolute) {key : RuleKey} (hline : line ∈ style.linesOf document key) :
    isFence line = false := by
  obtain ⟨value, rfl, -⟩ | ⟨indent, quoting, glob, hglob, rfl⟩ := mem_linesOf h hline
  · exact notFence (c := ':') (by simp) (by decide) (by decide)
  · exact itemLine_notFence indent quoting (h.globs glob hglob).scalar

/-- No line of a key has a break in it. -/
theorem linesOf_unbroken (h : document.Ok isAbsolute) {key : RuleKey} (hline : line ∈ style.linesOf document key) :
    ∀ c ∈ line, isLineTerminator c = false := by
  obtain ⟨value, rfl, hvalue⟩ | ⟨indent, quoting, glob, hglob, rfl⟩ := mem_linesOf h hline
  · have hkey : key.text.all (fun c ↦ !isLineTerminator c) = true := by cases key <;> decide
    intro c hc
    obtain hc | hc := List.mem_append.mp hc
    · simpa using List.all_eq_true.mp hkey c hc
    · obtain rfl | hc := List.mem_cons.mp hc
      · decide
      · exact hvalue c hc
  · intro c hc
    rw [itemLine, List.mem_append, List.mem_cons, List.mem_cons] at hc
    obtain hc | rfl | rfl | hc := hc
    · rw [List.eq_of_mem_replicate hc]
      decide
    · decide
    · decide
    · exact wrap_lines quoting (h.globs glob hglob).scalar.single c hc

/-- No line of the document has a break in it. -/
theorem lines_unbroken (h : document.Ok isAbsolute) (hline : line ∈ style.lines document) :
    ∀ c ∈ line, c ≠ '\n' ∧ c ≠ '\r' := by
  have hfence : ∀ c ∈ fenceLine, c ≠ '\n' ∧ c ≠ '\r' := List.all_iff_forall_prop.mp (by decide)
  simp only [RuleStyle.lines, List.mem_cons, List.mem_append, List.mem_flatMap] at hline
  obtain rfl | ⟨key, -, hline⟩ | rfl | hline := hline
  · exact hfence
  · intro c hc
    have hsingle := linesOf_unbroken h hline c hc
    constructor
    · rintro rfl
      exact absurd hsingle (by decide)
    · rintro rfl
      exact absurd hsingle (by decide)
  · exact hfence
  · intro c hc
    constructor
    · rintro rfl
      exact Paths.separator_notMem hline hc
    · rintro rfl
      exact h.body (Paths.part_subset hline hc)

/-- Either line ending is read as a line break. -/
theorem joinLineBreaks_intercalate {separator : List Char} {lines : List (List Char)}
    (hseparator : separator = ['\r', '\n'] ∨ separator = ['\n'])
    (h : ∀ line ∈ lines, ∀ c ∈ line, c ≠ '\n' ∧ c ≠ '\r') :
    joinLineBreaks (separator.intercalate lines) = ['\n'].intercalate lines := by
  have hbreak : ∀ cs, joinLineBreaks (separator ++ cs) = '\n' :: joinLineBreaks cs := by
    intro cs
    obtain rfl | rfl := hseparator
    · rfl
    · simp [joinLineBreaks]
  induction lines with
  | nil => rfl
  | cons line lines ih =>
    obtain ⟨hline, hrest⟩ := List.forall_mem_cons.mp h
    have hreturn : ∀ c ∈ line, c ≠ '\r' := fun c hc ↦ (hline c hc).2
    cases lines with
    | nil =>
      have hself := joinLineBreaks_append hreturn []
      rw [List.append_nil, joinLineBreaks, List.append_nil] at hself
      rw [List.intercalate_singleton, List.intercalate_singleton, hself]
    | cons next lines =>
      rw [List.intercalate_cons_cons, List.intercalate_cons_cons, List.append_assoc, joinLineBreaks_append hreturn,
        hbreak, ih hrest]
      simp

theorem splitFrontmatter_render (h : document.Ok isAbsolute) : splitFrontmatter (style.render document).toList =
    .ok ⟨document.fieldsOf style.keys, document.body.toList⟩ := by
  have hnl : ∀ line ∈ style.lines document, '\n' ∉ line := fun line hline hmem ↦
    (lines_unbroken h hline '\n' hmem).1 rfl
  have hsplit : (joinLineBreaks (style.render document).toList).splitOn '\n' = style.lines document := by
    have hseparator : ∀ crlf : Bool, (if crlf then ['\r', '\n'] else ['\n']) = ['\r', '\n'] ∨
        (if crlf then ['\r', '\n'] else ['\n']) = ['\n'] := by decide
    rw [RuleStyle.render, String.toList_ofList,
      joinLineBreaks_intercalate (hseparator style.crlf) fun line hline ↦ lines_unbroken h hline,
      List.splitOn_intercalate _ hnl (List.cons_ne_nil _ _)]
  have hfence : isFence fenceLine = true := by decide
  have hinner : ∀ line ∈ style.keys.flatMap (style.linesOf document), (!isFence line) = true := by
    intro line hline
    obtain ⟨key, -, hline⟩ := List.mem_flatMap.mp hline
    rw [linesOf_notFence h hline, Bool.not_false]
  have hkeys : style.keys.Nodup := style.complete.nodup_iff.mpr (by decide)
  obtain ⟨current, hread⟩ := foldlM_keys none style h hkeys fun key _ ↦ List.lookup_nil
  have hbody : trimList document.body.toList = document.body.toList := by
    have htrim := congrArg String.toList h.trimmed
    rwa [trim, String.toList_ofList] at htrim
  have hopen : ∀ rest, ¬ (!(fenceLine :: rest).head?.any isFence) = true := fun rest ↦ by simp [hfence]
  rw [splitFrontmatter, hsplit, RuleStyle.lines, if_neg (hopen _), List.tail_cons, List.takeWhile_append_of_pos hinner, List.dropWhile_append_of_pos hinner,
    List.takeWhile_cons_of_neg (by simp [hfence]), List.dropWhile_cons_of_neg (by simp [hfence]), List.append_nil, hread]
  dsimp only
  rw [List.intercalate_splitOn, hbody, List.nil_append]
  rfl

end Fences

/-! The schema. -/

section Schema

variable {isAbsolute : String → Bool} {document : RuleDocument}

theorem globSchema_glob {glob : String} (h : GlobOk isAbsolute glob) : globSchema isAbsolute glob.toList = some glob := by
  have htrim : String.ofList (trimList glob.toList) = glob := h.trimmed.1
  have hplain : glob.toList.map (fun c ↦ if c = '\\' then '/' else c) = glob.toList := by
    refine (List.map_congr_left fun c hc ↦ ?_).trans (List.map_id _)
    exact if_neg (h.plain c hc).2.2.1
  have hshort : ¬ (glob = "" ∨ 200 < utf16Length glob) := by
    rintro (hempty | hlong)
    · exact h.trimmed.2 hempty
    · exact absurd h.length (by omega)
  rw [globSchema, htrim, if_neg hshort, hplain, String.ofList_toList, Option.filter_some, if_pos h.relative]

theorem mapM_globSchema {globs : List String} (h : ∀ glob ∈ globs, GlobOk isAbsolute glob) :
    (globs.map String.toList).mapM (globSchema isAbsolute) = some globs := by
  induction globs with
  | nil => rfl
  | cons glob globs ih =>
    obtain ⟨hglob, hrest⟩ := List.forall_mem_cons.mp h
    rw [List.map_cons, List.mapM_cons, globSchema_glob hglob, ih hrest]
    rfl

theorem ruleFrontmatterSchema_fields (h : document.Ok isAbsolute) {keys : List RuleKey}
    (hkeys : keys.Perm [.globs, .order, .description]) : ruleFrontmatterSchema isAbsolute (document.fieldsOf keys) =
      some ⟨document.globs, document.order, document.description⟩ := by
  have hnodup : keys.Nodup := hkeys.nodup_iff.mpr (by decide)
  have hmem : ∀ key, key ∈ keys := fun key ↦ hkeys.mem_iff.mpr (by cases key <;> decide)
  have hlookup : ∀ key : RuleKey, (document.fieldsOf keys).lookup key.text = document.entry key := fun key ↦ by
    rw [lookup_fields hnodup, if_pos (hmem key)]
  have hknown : (document.fieldsOf keys).all (fun field ↦ [globsKey, orderKey, descriptionKey].contains field.1) = true := by
    rw [List.all_eq_true]
    intro field hfield
    obtain ⟨key, -, hfield⟩ := List.mem_filterMap.mp hfield
    obtain ⟨value, -, rfl⟩ := Option.map_eq_some_iff.mp hfield
    have htext : [globsKey, orderKey, descriptionKey].contains key.text = true := by cases key <;> decide
    exact htext
  have hglobs : globsSchema isAbsolute ((document.fieldsOf keys).lookup globsKey) = some document.globs := by
    have hcount : ¬ (document.globs.map String.toList = [] ∨ 64 < (document.globs.map String.toList).length) := by
      rw [List.map_eq_nil_iff, List.length_map]
      rintro (hnil | hlong)
      · exact h.some hnil
      · exact absurd h.most (by omega)
    rw [← RuleKey.text, hlookup, RuleDocument.entry, globsSchema, if_neg hcount, mapM_globSchema h.globs]
  have horder : orderSchema ((document.fieldsOf keys).lookup orderKey) = some document.order := by
    rw [← RuleKey.text, hlookup, RuleDocument.entry]
    cases hcase : document.order with
    | none => rfl
    | some order =>
      have hread := readOrder_orderText (h.order order hcase)
      rw [Option.map_some, orderSchema, (scalar_orderText order).trimmed, hread]
      rfl
  have hdescription : descriptionSchema ((document.fieldsOf keys).lookup descriptionKey) = some document.description := by
    rw [← RuleKey.text, hlookup, RuleDocument.entry]
    cases hcase : document.description with
    | none => rfl
    | some text =>
      have hok := h.description text hcase
      have htrim : String.ofList (trimList text.toList) = text := hok.trimmed.1
      have hshort : ¬ (text = "" ∨ 500 < utf16Length text) := by
        rintro (hempty | hlong)
        · exact hok.trimmed.2 hempty
        · exact absurd hok.length (by omega)
      rw [Option.map_some, descriptionSchema, htrim, if_neg hshort]
  rw [ruleFrontmatterSchema, hknown, hglobs, horder, hdescription]
  rfl

/-- What was written of a rule is what is read of it. -/
theorem rule_round_trip (style : RuleStyle) (h : document.Ok isAbsolute) (fileName relativePath displayPath : String)
    (bytes : ℕ) : parseRule isAbsolute fileName relativePath displayPath (style.render document) bytes =
      .ok {
        fileName, relativePath, displayPath, bytes
        globs := document.globs
        order := document.order
        description := document.description
        body := document.body } := by
  rw [parseRule, splitFrontmatter_render h]
  dsimp only
  rw [ruleFrontmatterSchema_fields h style.complete]
  dsimp only
  rw [String.ofList_toList]

/-- A rule whose values look like items, lists and fences. -/
def disguisedRule : RuleDocument where
  globs := ["- src/*.ts", "[ab]/**", "order: 3"]
  order := some (-12)
  description := some "--- globs: x"
  body := "---\nkeep"

def backwardStyle : RuleStyle where
  keys := [.description, .order, .globs]
  complete := by decide
  globs := .block (fun i ↦ i) fun i ↦ if i = 0 then .bare else .single
  order := .double
  description := .bare
  crlf := true

theorem disguisedRule_ok : disguisedRule.Ok (startsWith "/") where
  some := by decide
  most := by decide
  globs := by
    have hall : ∀ glob ∈ disguisedRule.globs, Trimmed glob ∧ utf16Length glob ≤ 200 ∧
        isRelativeGlob (startsWith "/") glob = true ∧ glob.toList.all (fun c ↦ c ≠ doubleQuote ∧ c ≠ singleQuote ∧
          c ≠ '\\' ∧ 0x20 ≤ c.toNat ∧ isLineTerminator c = false) = true := by decide
    intro glob hglob
    obtain ⟨htrimmed, hlength, hrelative, hplain⟩ := hall glob hglob
    exact ⟨htrimmed, hlength, hrelative, List.all_iff_forall_prop.mp hplain⟩
  order := by decide
  description := by
    rintro text ⟨⟩
    have hstart : "--- globs: x".toList.head? = some '-' := by decide
    refine ⟨by decide, by decide, List.all_iff_forall_prop.mp (by decide), fun c hc ↦ ?_⟩
    obtain rfl : '-' = c := Option.some.inj (hstart.symm.trans hc)
    decide
  trimmed := by decide
  body := by decide

theorem disguisedRule_read : parseRule (startsWith "/") "a.md" ".omo/rules/a.md" "a.md"
    (backwardStyle.render disguisedRule) 112 =
      .ok {
        fileName := "a.md"
        relativePath := ".omo/rules/a.md"
        displayPath := "a.md"
        bytes := 112
        globs := ["- src/*.ts", "[ab]/**", "order: 3"]
        order := some (-12)
        description := some "--- globs: x"
        body := "---\nkeep" } :=
  rule_round_trip backwardStyle disguisedRule_ok "a.md" ".omo/rules/a.md" "a.md" 112

end Schema

end OmpLazy.Context

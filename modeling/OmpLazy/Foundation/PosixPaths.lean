import OmpLazy.Foundation.Paths

/-! Paths of POSIX: what their normal form is and where one lies below another. -/

namespace OmpLazy.Foundation.PosixPaths

open OmpLazy.Foundation.Paths

/-- One segment after those before it. -/
def pushSegment (allowAboveRoot : Bool) (resolved : List (List Char)) (segment : List Char) : List (List Char) :=
  if segment = [] ∨ segment = ['.'] then resolved
  else if segment = ['.', '.'] then
    if resolved.getLast?.any (· ≠ ['.', '.']) then resolved.dropLast
    else if allowAboveRoot then resolved ++ [segment] else resolved
  else resolved ++ [segment]

/-- `posix.normalize` -/
def posixNormalize (path : String) : String :=
  let chars := path.toList
  let isAbsolute : Bool := chars.head? = some '/'
  let trailing : Bool := chars.getLast? = some '/'
  let joined := ['/'].intercalate ((chars.splitOn '/').foldl (pushSegment !isAbsolute) [])
  if chars = [] then "."
  else if joined = [] then if isAbsolute then "/" else if trailing then "./" else "."
  else String.ofList ((if isAbsolute then ['/'] else []) ++ joined ++ if trailing then ['/'] else [])

example : posixNormalize "./a//b/./c/" = "a/b/c/" := by decide

example : posixNormalize "/a/../../b" = "/b" := by decide

/-- The segments that count. -/
def segments (path : String) : List (List Char) :=
  (path.toList.splitOn '/').filter fun segment ↦ segment ≠ [] && segment ≠ ['.']

/-- A path that is the other one or lies below it. -/
def AtOrBelow (claim path : String) : Prop := segments claim <+: segments path

variable {path claim claim' : String} {segment : List Char} {parts parts' : List (List Char)}

theorem comparable_of_common (h : AtOrBelow claim path) (h' : AtOrBelow claim' path) :
    AtOrBelow claim claim' ∨ AtOrBelow claim' claim := List.prefix_or_prefix_of_prefix h h'

theorem segment_spec (h : segment ∈ segments path) : segment ≠ [] ∧ segment ≠ ['.'] ∧ '/' ∉ segment := by
  obtain ⟨hpart, hcounts⟩ := List.mem_filter.mp h
  rw [Bool.and_eq_true, decide_eq_true_eq, decide_eq_true_eq] at hcounts
  exact ⟨hcounts.1, hcounts.2, separator_notMem hpart⟩

/-- Segments without `..` are kept as they are. -/
theorem foldl_pushSegment (allowAboveRoot : Bool) (resolved : List (List Char)) (h : ['.', '.'] ∉ parts) :
    parts.foldl (pushSegment allowAboveRoot) resolved =
      resolved ++ parts.filter fun segment ↦ segment ≠ [] && segment ≠ ['.'] := by
  induction parts generalizing resolved with
  | nil => rw [List.foldl_nil, List.filter_nil, List.append_nil]
  | cons part parts ih =>
    obtain ⟨hpart, hparts⟩ := not_or.mp (List.mem_cons.not.mp h)
    rw [List.foldl_cons, ih _ hparts, pushSegment]
    by_cases hempty : part = [] ∨ part = ['.']
    · rw [if_pos hempty, List.filter_cons_of_neg (by simpa [or_iff_not_imp_left] using hempty)]
    · rw [if_neg hempty, if_neg (Ne.symm hpart), List.filter_cons_of_pos (by simpa [not_or] using hempty),
        List.append_assoc, List.singleton_append]

theorem intercalate_eq_nil (h : ∀ part ∈ parts, part ≠ []) : ['/'].intercalate parts = [] ↔ parts = [] := by
  cases parts with
  | nil => simp
  | cons part parts =>
    have hpart := h part List.mem_cons_self
    cases parts with
    | nil => simpa using hpart
    | cons next parts => simp [List.intercalate_cons_cons]

/-- What is joined of one prefix of segments begins what is joined of all of them. -/
theorem intercalate_append (h : parts ≠ []) (h' : parts' ≠ []) :
    ['/'].intercalate (parts ++ parts') = ['/'].intercalate parts ++ '/' :: ['/'].intercalate parts' := by
  induction parts with
  | nil => exact absurd rfl h
  | cons part parts ih =>
    cases parts with
    | nil =>
      cases parts' with
      | nil => exact absurd rfl h'
      | cons next parts' => simp [List.intercalate_cons_cons]
    | cons next parts =>
      have hrest := ih (List.cons_ne_nil next parts)
      rw [List.cons_append] at hrest
      rw [List.cons_append, List.cons_append, List.intercalate_cons_cons, hrest, List.intercalate_cons_cons]
      simp

/-- The normal form of a relative path without `..` has its segments, and the slash at its end. -/
theorem posixNormalize_relative (hpath : path ≠ "") (hrelative : path.toList.head? ≠ some '/')
    (hparent : ['.', '.'] ∉ path.toList.splitOn '/') : (posixNormalize path).toList =
      (if segments path = [] then ['.'] else ['/'].intercalate (segments path)) ++
        if path.toList.getLast? = some '/' then ['/'] else [] := by
  have hchars : path.toList ≠ [] := fun h ↦ hpath (String.toList_eq_nil_iff.mp h)
  have hsegments : (path.toList.splitOn '/').foldl (pushSegment true) [] = segments path :=
    foldl_pushSegment true [] hparent
  have hempty : ['/'].intercalate (segments path) = [] ↔ segments path = [] :=
    intercalate_eq_nil fun _ h ↦ (segment_spec h).1
  simp only [posixNormalize, hrelative, decide_false, Bool.not_false, hsegments, if_neg hchars, hempty,
    Bool.false_eq_true, if_false, List.nil_append, decide_eq_true_eq]
  by_cases hnone : segments path = []
  · rw [if_pos hnone, if_pos hnone]
    split <;> rfl
  · rw [if_neg hnone, if_neg hnone, String.toList_ofList]

/-- The joined segments end without a slash and do not begin with `./`. -/
theorem intercalate_segments (h : segments path ≠ []) :
    (['/'].intercalate (segments path)).getLast? ≠ some '/' ∧
      ∀ tail rest, ['/'].intercalate (segments path) ++ tail ≠ '.' :: '/' :: rest := by
  have hspec : ∀ segment ∈ segments path, segment ≠ [] ∧ segment ≠ ['.'] ∧ '/' ∉ segment := fun _ h ↦ segment_spec h
  generalize segments path = parts at h hspec
  constructor
  · obtain ⟨hlast, -, hslash⟩ := hspec _ (List.getLast_mem h)
    have hend : (['/'].intercalate parts).getLast? = (parts.getLast h).getLast? := by
      nth_rewrite 1 [← List.dropLast_concat_getLast h]
      by_cases hinit : parts.dropLast = []
      · rw [hinit, List.nil_append, List.intercalate_singleton]
      · rw [intercalate_append hinit (List.cons_ne_nil _ _), List.intercalate_singleton,
          List.getLast?_append_of_ne_nil _ (List.cons_ne_nil _ _), List.getLast?_cons_of_ne_nil hlast]
    rw [hend]
    exact fun heq ↦ hslash (List.mem_of_getLast? heq)
  · intro tail rest hstart
    cases parts with
    | nil => exact h rfl
    | cons first parts =>
      obtain ⟨hfirst, hdot, hslash⟩ := hspec first List.mem_cons_self
      obtain ⟨others, hothers⟩ : ∃ others, ['/'].intercalate (first :: parts) = first ++ others := by
        cases parts with
        | nil => exact ⟨[], by simp⟩
        | cons next parts => exact ⟨_, List.intercalate_cons_cons.trans (List.append_assoc _ _ _)⟩
      rw [hothers, List.append_assoc] at hstart
      rcases first with _ | ⟨c, _ | ⟨d, first⟩⟩
      · exact hfirst rfl
      · obtain ⟨rfl, -⟩ := List.cons.inj hstart
        exact hdot rfl
      · obtain ⟨-, hrest⟩ := List.cons.inj hstart
        obtain ⟨rfl, -⟩ := List.cons.inj hrest
        exact hslash (by simp)

end OmpLazy.Foundation.PosixPaths

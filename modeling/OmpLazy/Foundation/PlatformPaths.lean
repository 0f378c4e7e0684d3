import Mathlib.Algebra.GroupWithZero.Nat
import Mathlib.Data.Bool.AllAny
import Mathlib.Data.List.Basic
import Mathlib.Data.List.Induction
import Mathlib.Tactic.Common

/-! Absolute paths of a platform, by the names below their device. -/

namespace OmpLazy.Foundation

/-- What separates the segments of a path, and which names are one. -/
structure PathRules where
  isSeparator : Char → Bool
  separator : Char
  sameName : List Char → List Char → Bool
  slash : isSeparator '/' = true
  slashes : ∀ c, isSeparator c = true → c = '/' ∨ c = '\\'
  separates : isSeparator separator = true
  same : ∀ name, sameName name name = true

namespace PathRules

def posix : PathRules where
  isSeparator c := c = '/'
  separator := '/'
  sameName a b := a = b
  slash := by decide
  slashes c h := Or.inl (of_decide_eq_true h)
  separates := by decide
  same name := decide_eq_true rfl

def win32 (toLowerCase : List Char → List Char) : PathRules where
  isSeparator c := c = '/' || c = '\\'
  separator := '\\'
  sameName a b := toLowerCase a = toLowerCase b
  slash := by decide
  slashes c h := by simpa using h
  separates := by decide
  same name := decide_eq_true rfl

section Functions

variable (rules : PathRules)

def segments (path : List Char) : List (List Char) := path.splitOnP rules.isSeparator

def enter (names : List (List Char)) (segment : List Char) : List (List Char) :=
  if segment = [] ∨ segment = ['.'] then names
  else if segment = ['.', '.'] then names.dropLast
  else names ++ [segment]

/-- `join(path, ...parts)` -/
def join (names : List (List Char)) (parts : List (List Char)) : List (List Char) :=
  (parts.flatMap rules.segments).foldl enter names

def commonLength (same : List Char → List Char → Bool) : List (List Char) → List (List Char) → ℕ
  | a :: names, b :: names' => if same a b then commonLength same names names' + 1 else 0
  | _, _ => 0

/-- `relative(start, finish)`, with one device. -/
def relative (start finish : List (List Char)) : List Char :=
  let common := commonLength rules.sameName start finish
  [rules.separator].intercalate (List.replicate (start.length - common) ['.', '.'] ++ finish.drop common)

def withSlashes (path : List Char) : List Char := path.map fun c ↦ if c = '\\' then '/' else c

end Functions

/-! Pieces. -/

section Pieces

variable {rules : PathRules} {path path' : List Char} {names parts : List (List Char)} {c : Char}

/-- What stands between the slashes of a path, whichever they are. -/
def pieces (path : List Char) : List (List Char) := (withSlashes path).splitOn '/'

def Redundant (segment : List Char) : Prop := segment = [] ∨ segment = ['.'] ∨ segment = ['.', '.']

instance (segment : List Char) : Decidable (Redundant segment) := inferInstanceAs (Decidable (_ ∨ _))

def redundancy (path : List Char) : ℕ := (pieces path).countP fun piece ↦ decide (Redundant piece)

def weight (names : List (List Char)) : ℕ := (names.map redundancy).sum

theorem pieces_ne_nil (path : List Char) : pieces path ≠ [] := List.splitOnP_ne_nil _ _

theorem pieces_append (hc : c = '/' ∨ c = '\\') : pieces (path ++ c :: path') = pieces path ++ pieces path' := by
  have hslash : (if c = '\\' then '/' else c) = '/' := by
    obtain rfl | rfl := hc <;> decide
  rw [pieces, withSlashes, List.map_append, List.map_cons, hslash]
  exact List.splitOnP_append_cons _ _ (by simp)

theorem pieces_intercalate (hc : c = '/' ∨ c = '\\') (hne : parts ≠ []) :
    pieces ([c].intercalate parts) = parts.flatMap pieces := by
  induction parts with
  | nil => exact absurd rfl hne
  | cons part parts ih =>
    cases parts with
    | nil => simp
    | cons next parts =>
      rw [List.intercalate_cons_cons, List.append_assoc, List.singleton_append, pieces_append hc,
        ih (List.cons_ne_nil _ _)]
      rfl

theorem pieces_slash (hc : c = '/' ∨ c = '\\') : pieces (c :: path) = [] :: pieces path := by
  have happend : pieces ([] ++ c :: path) = pieces [] ++ pieces path := pieces_append hc
  exact happend

theorem pieces_cons (hslash : c ≠ '/') (hback : c ≠ '\\') :
    pieces (c :: path) = (pieces path).modifyHead (List.cons c) := by
  rw [pieces, withSlashes, List.map_cons, if_neg hback, List.splitOn, List.splitOnP_cons_eq_if_modifyHead,
    if_neg (by simpa using hslash)]
  rfl

/-- The pieces of a path are those of its segments. -/
theorem pieces_segments (rules : PathRules) (path : List Char) : pieces path = (rules.segments path).flatMap pieces := by
  induction path with
  | nil => rfl
  | cons c path ih =>
    by_cases hc : rules.isSeparator c = true
    · have hsegments : rules.segments (c :: path) = [] :: rules.segments path := by
        rw [segments, List.splitOnP_cons_eq_if_modifyHead, if_pos hc]
        rfl
      rw [hsegments, List.flatMap_cons, ← ih, pieces_slash (rules.slashes c hc)]
      rfl
    · obtain ⟨segment, others, hsplit⟩ := List.exists_cons_of_ne_nil (List.splitOnP_ne_nil rules.isSeparator path)
      have hsegments : rules.segments (c :: path) = (c :: segment) :: others := by
        rw [segments, List.splitOnP_cons_eq_if_modifyHead, if_neg hc, hsplit]
        rfl
      have hpath : pieces path = pieces segment ++ others.flatMap pieces := by
        rw [ih, segments, hsplit, List.flatMap_cons]
      have hslash : c ≠ '/' := by
        rintro rfl
        exact hc rules.slash
      rw [hsegments, List.flatMap_cons]
      by_cases hback : c = '\\'
      · rw [pieces_slash (Or.inr hback), pieces_slash (Or.inr hback), hpath, List.cons_append]
      · obtain ⟨piece, pieces', hpieces⟩ := List.exists_cons_of_ne_nil (pieces_ne_nil segment)
        rw [pieces_cons hslash hback, pieces_cons hslash hback, hpath, hpieces]
        rfl

theorem weight_append (names names' : List (List Char)) : weight (names ++ names') = weight names + weight names' := by
  rw [weight, List.map_append, List.sum_append, weight, weight]

theorem redundancy_segments (rules : PathRules) (path : List Char) : redundancy path = weight (rules.segments path) := by
  rw [redundancy, pieces_segments rules, List.countP_flatMap]
  rfl

theorem redundancy_intercalate (hc : c = '/' ∨ c = '\\') (hne : parts ≠ []) :
    redundancy ([c].intercalate parts) = weight parts := by
  rw [redundancy, pieces_intercalate hc hne, List.countP_flatMap]
  rfl

theorem redundancy_of_redundant {segment : List Char} (h : Redundant segment) : redundancy segment = 1 := by
  obtain rfl | rfl | rfl := h <;> decide

end Pieces

/-! Paths that are entered. -/

section Entering

variable {rules : PathRules} {names added segments : List (List Char)} {segment : List Char}

theorem enter_dot (h : segment = [] ∨ segment = ['.']) : enter names segment = names := if_pos h

theorem enter_parent : enter names ['.', '.'] = names.dropLast := by
  rw [enter, if_neg (by decide), if_pos rfl]

theorem enter_name (h : ¬ Redundant segment) : enter names segment = names ++ [segment] := by
  rw [Redundant, not_or, not_or] at h
  rw [enter, if_neg (not_or.mpr ⟨h.1, h.2.1⟩), if_neg h.2.2]

/-- Names alone are added as they are. -/
theorem foldl_enter_names (h : ∀ segment ∈ segments, ¬ Redundant segment) :
    segments.foldl enter names = names ++ segments := by
  induction segments generalizing names with
  | nil => rw [List.foldl_nil, List.append_nil]
  | cons segment segments ih =>
    obtain ⟨hsegment, hrest⟩ := List.forall_mem_cons.mp h
    rw [List.foldl_cons, enter_name hsegment, ih hrest, List.append_assoc, List.singleton_append]

/-- What becomes of names when segments are entered: some of them are kept, and others are added. Every name that is
lost, and every segment that adds none, is paid for by a redundant segment. -/
structure Entered (names segments : List (List Char)) (kept : ℕ) (added : List (List Char)) : Prop where
  result : segments.foldl enter names = names.take kept ++ added
  kept_le : kept ≤ names.length
  lost : names.length ≤ kept + segments.countP fun segment ↦ decide (Redundant segment)
  paid : weight added + segments.countP (fun segment ↦ decide (Redundant segment)) ≤ weight segments

theorem Entered.concat_name {kept : ℕ} (h : Entered names segments kept added) (hsegment : ¬ Redundant segment) :
    Entered names (segments ++ [segment]) kept (added ++ [segment]) where
  result := by
    rw [List.foldl_append, h.result, List.foldl_cons, List.foldl_nil, enter_name hsegment, List.append_assoc]
  kept_le := h.kept_le
  lost := by
    have hlost := h.lost
    rw [List.countP_append]
    omega
  paid := by
    have hpaid := h.paid
    have hcount : [segment].countP (fun segment ↦ decide (Redundant segment)) = 0 := by simp [hsegment]
    rw [List.countP_append, weight_append, weight_append, hcount]
    omega

theorem Entered.concat_redundant {kept kept' : ℕ} {added' : List (List Char)} (h : Entered names segments kept added)
    (hsegment : Redundant segment) (hresult : enter (names.take kept ++ added) segment = names.take kept' ++ added')
    (hkept : kept' ≤ kept) (hlost : kept ≤ kept' + 1) (hweight : weight added' ≤ weight added) :
    Entered names (segments ++ [segment]) kept' added' where
  result := by
    rw [List.foldl_append, h.result, List.foldl_cons, List.foldl_nil, hresult]
  kept_le := Nat.le_trans hkept h.kept_le
  lost := by
    have hcount : [segment].countP (fun segment ↦ decide (Redundant segment)) = 1 := by simp [hsegment]
    have hbound := h.lost
    rw [List.countP_append, hcount]
    omega
  paid := by
    have hcount : [segment].countP (fun segment ↦ decide (Redundant segment)) = 1 := by simp [hsegment]
    have hone : weight [segment] = 1 := by rw [weight, List.map_singleton, List.sum_singleton, redundancy_of_redundant hsegment]
    have hpaid := h.paid
    rw [List.countP_append, weight_append, hcount, hone]
    omega

theorem entered (names segments : List (List Char)) : ∃ kept added, Entered names segments kept added := by
  induction segments using List.reverseRecOn with
  | nil => exact ⟨names.length, [], by simp, Nat.le_refl _, by simp, by simp [weight]⟩
  | append_singleton segments segment ih =>
    obtain ⟨kept, added, h⟩ := ih
    by_cases hsegment : Redundant segment
    · by_cases hparent : segment = ['.', '.']
      · subst hparent
        obtain rfl | ⟨added', name, rfl⟩ := List.eq_nil_or_concat' added
        · refine ⟨kept - 1, [], h.concat_redundant hsegment ?_ (by omega) (by omega) (Nat.le_refl _)⟩
          rw [enter_parent, List.append_nil, List.append_nil, List.dropLast_eq_take, List.length_take_of_le h.kept_le,
            List.take_take, Nat.min_eq_left (by omega)]
        · refine ⟨kept, added', h.concat_redundant hsegment ?_ (Nat.le_refl _) (by omega) ?_⟩
          · rw [enter_parent, ← List.append_assoc, List.dropLast_concat]
          · rw [weight_append]
            omega
      · have hdot : segment = [] ∨ segment = ['.'] := by
          obtain hnil | hdot | hdots := hsegment
          · exact Or.inl hnil
          · exact Or.inr hdot
          · exact absurd hdots hparent
        exact ⟨kept, added, h.concat_redundant hsegment (enter_dot hdot) (Nat.le_refl _) (by omega) (Nat.le_refl _)⟩
    · exact ⟨kept, added ++ [segment], h.concat_name hsegment⟩

/-- A name that every platform takes for one name. -/
def Plain (name : List Char) : Prop := ¬ Redundant name ∧ ∀ c ∈ name, c ≠ '/' ∧ c ≠ '\\'

instance (name : List Char) : Decidable (Plain name) :=
  decidable_of_iff (¬ Redundant name ∧ name.all (fun c ↦ c ≠ '/' ∧ c ≠ '\\') = true)
    (and_congr_right fun _ ↦ List.all_iff_forall_prop)

theorem segments_plain (h : Plain segment) : rules.segments segment = [segment] := by
  refine List.splitOnP_eq_singleton fun c hc ↦ Bool.eq_false_iff.mpr fun hseparator ↦ ?_
  obtain ⟨hslash, hback⟩ := h.2 c hc
  obtain heq | heq := rules.slashes c hseparator
  · exact hslash heq
  · exact hback heq

theorem pieces_whole (h : ∀ c ∈ segment, c ≠ '/' ∧ c ≠ '\\') : pieces segment = [segment] := by
  have hslashes : withSlashes segment = segment :=
    (List.map_congr_left fun c hc ↦ if_neg (h c hc).2).trans (List.map_id _)
  rw [pieces, hslashes]
  exact List.splitOnP_eq_singleton fun c hc ↦ beq_eq_false_iff_ne.mpr (h c hc).1

theorem redundancy_plain (h : Plain segment) : redundancy segment = 0 := by
  rw [redundancy, pieces_whole h.2]
  simp [h.1]

theorem join_plain (h : ∀ segment ∈ segments, Plain segment) : rules.join names segments = names ++ segments := by
  have hflat : segments.flatMap rules.segments = segments := by
    induction segments with
    | nil => rfl
    | cons segment segments ih =>
      obtain ⟨hsegment, hrest⟩ := List.forall_mem_cons.mp h
      rw [List.flatMap_cons, segments_plain hsegment, ih hrest, List.singleton_append]
  rw [join, hflat, foldl_enter_names fun segment hsegment ↦ (h segment hsegment).1]

end Entering

/-! Relative paths. -/

section Relative

variable {rules : PathRules} {start finish names added : List (List Char)}

theorem commonLength_le (same : List Char → List Char → Bool) (start finish : List (List Char)) :
    commonLength same start finish ≤ start.length := by
  induction start generalizing finish with
  | nil => exact Nat.zero_le _
  | cons name start ih =>
    cases finish with
    | nil => exact Nat.zero_le _
    | cons name' finish =>
      rw [commonLength, List.length_cons]
      split
      · exact Nat.succ_le_succ (ih finish)
      · exact Nat.zero_le _

theorem le_commonLength {same : List Char → List Char → Bool} (hsame : ∀ name, same name name = true) (start : List (List Char))
    {kept : ℕ} (hkept : kept ≤ start.length) (added : List (List Char)) :
    kept ≤ commonLength same start (start.take kept ++ added) := by
  induction start generalizing kept with
  | nil => rw [List.length_nil, Nat.le_zero] at hkept; rw [hkept]; exact Nat.zero_le _
  | cons name start ih =>
    cases kept with
    | zero => exact Nat.zero_le _
    | succ kept =>
      rw [List.take_succ_cons, List.cons_append, commonLength, if_pos (hsame name)]
      exact Nat.succ_le_succ (ih (Nat.le_of_succ_le_succ hkept))

/-- The first names lead the others, whichever way they are written. -/
def Leads (same : List Char → List Char → Bool) (names names' : List (List Char)) : Prop :=
  ∃ front rest, names' = front ++ rest ∧ List.Forall₂ (fun a b ↦ same a b = true) names front

theorem leads_iff {same : List Char → List Char → Bool} {names names' : List (List Char)} :
    Leads same names names' ↔ commonLength same names names' = names.length := by
  constructor
  · rintro ⟨front, rest, rfl, hsame⟩
    induction hsame with
    | nil => rfl
    | cons hname _ ih => rw [List.cons_append, commonLength, if_pos hname, ih, List.length_cons]
  · intro h
    induction names generalizing names' with
    | nil => exact ⟨[], names', rfl, .nil⟩
    | cons name names ih =>
      cases names' with
      | nil => cases h
      | cons name' names' =>
        rw [commonLength, List.length_cons] at h
        split at h
        · rename_i hname
          obtain ⟨front, rest, rfl, hsame⟩ := ih (Nat.succ.inj h)
          exact ⟨name' :: front, rest, rfl, .cons hname hsame⟩
        · cases h

theorem forall₂_map {same : List Char → List Char → Bool} {f : List Char → List Char}
    (hsame : ∀ a b, same a b = true ↔ f a = f b) {names names' : List (List Char)} :
    List.Forall₂ (fun a b ↦ same a b = true) names names' ↔ names.map f = names'.map f := by
  constructor
  · intro h
    induction h with
    | nil => rfl
    | cons hname _ ih => rw [List.map_cons, List.map_cons, (hsame _ _).mp hname, ih]
  · intro h
    induction names generalizing names' with
    | nil =>
      obtain rfl := List.map_eq_nil_iff.mp h.symm
      exact .nil
    | cons name names ih =>
      cases names' with
      | nil => cases h
      | cons name' names' =>
        obtain ⟨hname, hnames⟩ := List.cons.inj h
        exact .cons ((hsame _ _).mpr hname) (ih hnames)

theorem leads_map {same : List Char → List Char → Bool} {f : List Char → List Char}
    (hsame : ∀ a b, same a b = true ↔ f a = f b) {names names' : List (List Char)} :
    Leads same names names' ↔ names.map f <+: names'.map f := by
  constructor
  · rintro ⟨front, rest, rfl, hfront⟩
    rw [List.map_append, (forall₂_map hsame).mp hfront]
    exact List.prefix_append _ _
  · rintro ⟨rest, hrest⟩
    obtain ⟨front, others, rfl, hfront, -⟩ := List.map_eq_append_iff.mp hrest.symm
    exact ⟨front, others, rfl, (forall₂_map hsame).mpr hfront.symm⟩

theorem weight_drop_le (names : List (List Char)) (count : ℕ) : weight (names.drop count) ≤ weight names := by
  have happend := weight_append (names.take count) (names.drop count)
  rw [List.take_append_drop] at happend
  omega

theorem weight_parents (count : ℕ) : weight (List.replicate count ['.', '.']) = count := by
  rw [weight, List.map_replicate, redundancy_of_redundant (Or.inr (Or.inr rfl)), List.sum_replicate_nat, Nat.mul_one]

theorem redundancy_intercalate_le {c : Char} (hc : c = '/' ∨ c = '\\') (parts : List (List Char)) :
    redundancy ([c].intercalate parts) ≤ weight parts + 1 := by
  by_cases hne : parts = []
  · rw [hne, List.intercalate_nil]
    decide
  · rw [redundancy_intercalate hc hne]
    exact Nat.le_succ _

theorem relative_below (rules : PathRules) (start names : List (List Char)) :
    rules.relative start (start ++ names) = [rules.separator].intercalate names := by
  have hle := commonLength_le rules.sameName start (start ++ names)
  have hge := le_commonLength rules.same start (Nat.le_refl _) names
  rw [List.take_length] at hge
  have hcommon : commonLength rules.sameName start (start ++ names) = start.length := Nat.le_antisymm hle hge
  rw [relative, hcommon, Nat.sub_self, List.replicate_zero, List.nil_append, List.drop_left]

/-- What leads back to a path above has no more redundant pieces than there are names to climb. -/
theorem redundancy_relative_le (rules : PathRules) (start : List (List Char)) {kept : ℕ} (hkept : kept ≤ start.length)
    (added : List (List Char)) :
    redundancy (rules.relative start (start.take kept ++ added)) ≤ start.length - kept + weight added + 1 := by
  have hle := commonLength_le rules.sameName start (start.take kept ++ added)
  have hge := le_commonLength rules.same start hkept added
  rw [relative]
  generalize commonLength rules.sameName start (start.take kept ++ added) = common at hle hge
  have hdrop : (start.take kept ++ added).drop common = added.drop (common - kept) := by
    rw [List.drop_append, List.length_take_of_le hkept, List.drop_eq_nil_of_le (by simp; omega), List.nil_append]
  refine Nat.le_trans (redundancy_intercalate_le (rules.slashes _ rules.separates) _) ?_
  have hweight := weight_drop_le added (common - kept)
  rw [hdrop, weight_append, weight_parents]
  omega

/-- A path that is entered below some names is not what leads to it from above them: where it climbs out of the names
it has more redundant pieces than what leads to it, and where it does not it lacks the names. -/
theorem relative_ne {path : List Char} {below : List (List Char)} (hbelow : ∀ name ∈ below, redundancy name = 0)
    (htwo : 2 ≤ below.length) (rules : PathRules) (start : List (List Char)) :
    withSlashes (rules.relative start ((rules.segments path).foldl enter (start ++ below))) ≠ withSlashes path := by
  have hseparator := rules.slashes _ rules.separates
  obtain ⟨kept, added, h⟩ := entered (start ++ below) (rules.segments path)
  have hlost := h.lost
  have hpaid := h.paid
  rw [List.length_append] at hlost
  intro heq
  have hpieces : pieces (rules.relative start ((rules.segments path).foldl enter (start ++ below))) = pieces path := by
    rw [pieces, pieces, heq]
  have hredundancy : redundancy (rules.relative start ((rules.segments path).foldl enter (start ++ below))) =
      weight (rules.segments path) := by
    rw [redundancy, hpieces, ← redundancy, redundancy_segments rules]
  by_cases hclimbs : kept ≤ start.length
  · have hbound := redundancy_relative_le rules start hclimbs added
    rw [h.result, List.take_append_of_le_length hclimbs] at hredundancy
    omega
  · have htake : (start ++ below).take kept = start ++ below.take (kept - start.length) := by
      rw [List.take_append, List.take_of_length_le (by omega)]
    have hne : below.take (kept - start.length) ++ added ≠ [] := by
      refine List.append_ne_nil_of_left_ne_nil ?_ _
      rw [Ne, List.take_eq_nil_iff, ← List.length_eq_zero_iff]
      omega
    have hzero : weight (below.take (kept - start.length)) = 0 := by
      rw [weight, List.sum_eq_zero_iff_forall_eq_nat]
      intro count hcount
      obtain ⟨name, hname, rfl⟩ := List.mem_map.mp hcount
      exact hbelow name (List.mem_of_mem_take hname)
    rw [h.result, htake, List.append_assoc, relative_below, redundancy_intercalate hseparator hne, weight_append,
      hzero] at hredundancy
    have hcount : (rules.segments path).countP (fun segment ↦ decide (Redundant segment)) = 0 := by omega
    have hnames : ∀ segment ∈ rules.segments path, ¬ Redundant segment := by
      simpa [List.countP_eq_zero] using hcount
    have hlonger : below ++ rules.segments path ≠ [] :=
      List.append_ne_nil_of_right_ne_nil _ (List.splitOnP_ne_nil _ _)
    rw [foldl_enter_names hnames, List.append_assoc, relative_below, pieces_intercalate hseparator hlonger,
      List.flatMap_append, ← pieces_segments, List.append_left_eq_self] at hpieces
    obtain ⟨name, below, rfl⟩ := List.exists_cons_of_ne_nil (List.ne_nil_of_length_pos (Nat.lt_of_lt_of_le Nat.zero_lt_two htwo))
    rw [List.flatMap_cons, List.append_eq_nil_iff] at hpieces
    exact pieces_ne_nil name hpieces.1

end Relative

end PathRules

end OmpLazy.Foundation

import Mathlib.Data.List.Basic
import Mathlib.Data.List.Zip

/-! Spans that are cut out of a text, and the runs of a text between stops. -/

namespace OmpLazy.Foundation.Spans

variable {α : Type*}

/-- How long the match is that begins at a place, from the item before it and those from it on. -/
abbrev Finder (α : Type*) := Option α → List α → ℕ

/-- A text without its matches, while some items of a match are still to be skipped. -/
def cutFrom (find : Finder α) : ℕ → Option α → List α → List α
  | _, _, [] => []
  | skip + 1, _, x :: xs => cutFrom find skip (some x) xs
  | 0, prev, x :: xs =>
    if find prev (x :: xs) = 0 then x :: cutFrom find 0 (some x) xs
    else cutFrom find (find prev (x :: xs) - 1) (some x) xs

/-- `text.replace(pattern, "")` for a global pattern that matches no empty text. -/
def cut (find : Finder α) (xs : List α) : List α := cutFrom find 0 none xs

/-- The same places, with whether each of them stays. -/
def staysFrom (find : Finder α) : ℕ → Option α → List α → List Bool
  | _, _, [] => []
  | skip + 1, _, x :: xs => false :: staysFrom find skip (some x) xs
  | 0, prev, x :: xs =>
    if find prev (x :: xs) = 0 then true :: staysFrom find 0 (some x) xs
    else false :: staysFrom find (find prev (x :: xs) - 1) (some x) xs

def stays (find : Finder α) (xs : List α) : List Bool := staysFrom find 0 none xs

/-- What stays of what stayed. -/
def spread : List Bool → List Bool → List Bool
  | true :: outer, mark :: inner => mark :: spread outer inner
  | false :: outer, inner => false :: spread outer inner
  | true :: outer, [] => false :: spread outer []
  | [], _ => []

/-- The items that stay. -/
def kept (marked : List (α × Bool)) : List α := (marked.filter (·.2)).map (·.1)

@[simp] theorem kept_nil : kept ([] : List (α × Bool)) = [] := rfl

@[simp] theorem kept_cons (x : α) (mark : Bool) (marked : List (α × Bool)) :
    kept ((x, mark) :: marked) = if mark then x :: kept marked else kept marked := by
  cases mark <;> rfl

theorem staysFrom_length (find : Finder α) (skip : ℕ) (prev : Option α) (xs : List α) :
    (staysFrom find skip prev xs).length = xs.length := by
  induction xs generalizing skip prev with
  | nil => cases skip <;> rfl
  | cons x xs ih =>
    cases skip with
    | succ skip => rw [staysFrom, List.length_cons, ih, List.length_cons]
    | zero =>
      rw [staysFrom]
      split <;> rw [List.length_cons, ih, List.length_cons]

theorem stays_length (find : Finder α) (xs : List α) : (stays find xs).length = xs.length :=
  staysFrom_length find 0 none xs

theorem kept_staysFrom (find : Finder α) (skip : ℕ) (prev : Option α) (xs : List α) :
    kept (xs.zip (staysFrom find skip prev xs)) = cutFrom find skip prev xs := by
  induction xs generalizing skip prev with
  | nil => cases skip <;> rfl
  | cons x xs ih =>
    cases skip with
    | succ skip => rw [staysFrom, List.zip_cons_cons, kept_cons, if_neg Bool.false_ne_true, ih, cutFrom]
    | zero =>
      rw [staysFrom, cutFrom]
      split
      · rw [List.zip_cons_cons, kept_cons, if_pos rfl, ih]
      · rw [List.zip_cons_cons, kept_cons, if_neg Bool.false_ne_true, ih]

/-- What stays is the text without its matches. -/
theorem kept_stays (find : Finder α) (xs : List α) : kept (xs.zip (stays find xs)) = cut find xs :=
  kept_staysFrom find 0 none xs

theorem spread_length (outer inner : List Bool) : (spread outer inner).length = outer.length := by
  induction outer generalizing inner with
  | nil => rfl
  | cons mark outer ih =>
    cases mark with
    | false => rw [spread, List.length_cons, ih, List.length_cons]
    | true => cases inner <;> rw [spread, List.length_cons, ih, List.length_cons]

/-- The second marks are those of the text that the first ones leave. -/
theorem kept_spread {outer inner : List Bool} {xs : List α} (houter : outer.length = xs.length)
    (hinner : inner.length = (kept (xs.zip outer)).length) :
    kept (xs.zip (spread outer inner)) = kept ((kept (xs.zip outer)).zip inner) := by
  induction outer generalizing inner xs with
  | nil => simp [spread]
  | cons mark outer ih =>
    cases xs with
    | nil => cases houter
    | cons x xs =>
      have hlength := Nat.succ.inj houter
      rw [List.zip_cons_cons, kept_cons] at hinner ⊢
      cases mark with
      | false =>
        rw [if_neg Bool.false_ne_true] at hinner ⊢
        rw [spread, List.zip_cons_cons, kept_cons, if_neg Bool.false_ne_true, ih hlength hinner]
      | true =>
        rw [if_pos rfl] at hinner ⊢
        cases inner with
        | nil => cases hinner
        | cons next inner =>
          rw [spread, List.zip_cons_cons, kept_cons, List.zip_cons_cons, kept_cons,
            ih hlength (Nat.succ.inj hinner)]

/-! Runs between stops. -/

section Runs

variable {p q : α → Bool} {xs run pre post : List α}

theorem exists_first_stop (h : ∃ x ∈ xs, p x = true) :
    ∃ front stop back, xs = front ++ stop :: back ∧ (∀ x ∈ front, p x = false) ∧ p stop = true := by
  induction xs with
  | nil => obtain ⟨_, hx, -⟩ := h; cases hx
  | cons x xs ih =>
    by_cases hx : p x = true
    · exact ⟨[], x, xs, rfl, List.forall_mem_nil _, hx⟩
    · obtain ⟨y, hy, hstop⟩ := h
      obtain rfl | hy := List.mem_cons.mp hy
      · exact absurd hstop hx
      · obtain ⟨front, stop, back, rfl, hfront, hstop⟩ := ih ⟨y, hy, hstop⟩
        exact ⟨x :: front, stop, back, rfl, List.forall_mem_cons.mpr ⟨by simpa using hx, hfront⟩, hstop⟩

theorem takeWhile_run (hrun : ∀ x ∈ run, p x = true) (hpost : ∀ x ∈ post.head?, p x = false) :
    (run ++ post).takeWhile p = run := by
  rw [List.takeWhile_append_of_pos hrun]
  cases post with
  | nil => rw [List.takeWhile_nil, List.append_nil]
  | cons x post => rw [List.takeWhile_cons_of_neg (Bool.eq_false_iff.mp (hpost x rfl)), List.append_nil]

theorem dropWhile_run (hrun : ∀ x ∈ run, p x = true) (hpost : ∀ x ∈ post.head?, p x = false) :
    (run ++ post).dropWhile p = post := by
  rw [List.dropWhile_append_of_pos hrun]
  cases post with
  | nil => rfl
  | cons x post => exact List.dropWhile_cons_of_neg (Bool.eq_false_iff.mp (hpost x rfl))

theorem mem_splitOnP_of_run (hrun : ∀ x ∈ run, p x = false) (hpre : ∀ x ∈ pre.getLast?, p x = true)
    (hpost : ∀ x ∈ post.head?, p x = true) : run ∈ (pre ++ run ++ post).splitOnP p := by
  have hback : ∃ runs, (run ++ post).splitOnP p = run :: runs := by
    cases post with
    | nil => exact ⟨[], by rw [List.append_nil, List.splitOnP_eq_singleton hrun]⟩
    | cons stop post =>
      exact ⟨_, List.splitOnP_append_cons_of_forall_mem hrun stop (hpost stop rfl) post⟩
  obtain ⟨runs, hruns⟩ := hback
  rcases List.eq_nil_or_concat' pre with rfl | ⟨front, stop, rfl⟩
  · rw [List.nil_append, hruns]
    exact List.mem_cons_self
  · rw [List.append_assoc, List.append_assoc, List.singleton_append,
      List.splitOnP_append_cons _ _ (hpre stop (List.getLast?_concat)), hruns]
    exact List.mem_append_right _ List.mem_cons_self

/-- The parts of a split are the runs without a stop that end at one, or at an end, on both sides. -/
theorem mem_splitOnP : run ∈ xs.splitOnP p ↔ ∃ pre post, xs = pre ++ run ++ post ∧ (∀ x ∈ run, p x = false) ∧
    (∀ x ∈ pre.getLast?, p x = true) ∧ ∀ x ∈ post.head?, p x = true := by
  constructor
  · induction hlength : xs.length using Nat.strong_induction_on generalizing xs with
    | _ n ih =>
      intro hmem
      by_cases hstops : ∃ x ∈ xs, p x = true
      · obtain ⟨front, stop, back, rfl, hfront, hstop⟩ := exists_first_stop hstops
        rw [List.splitOnP_append_cons_of_forall_mem hfront stop hstop back] at hmem
        obtain rfl | hmem := List.mem_cons.mp hmem
        · exact ⟨[], stop :: back, rfl, hfront, by simp, by simpa using hstop⟩
        · obtain ⟨pre, post, rfl, hrun, hpre, hpost⟩ := ih back.length (by simp at hlength; omega) rfl hmem
          refine ⟨front ++ stop :: pre, post, by simp, hrun, fun x hx ↦ ?_, hpost⟩
          rw [List.getLast?_append_of_ne_nil _ (List.cons_ne_nil _ _)] at hx
          cases pre with
          | nil => cases hx; exact hstop
          | cons y pre => exact hpre x (by rwa [List.getLast?_cons_cons] at hx)
      · have hnone : ∀ x ∈ xs, p x = false := fun x hx ↦ by
          by_contra h
          exact hstops ⟨x, hx, by simpa using h⟩
        rw [List.splitOnP_eq_singleton hnone, List.mem_singleton] at hmem
        exact ⟨[], [], by simp [hmem], hmem ▸ hnone, by simp, by simp⟩
  · rintro ⟨pre, post, rfl, hrun, hpre, hpost⟩
    exact mem_splitOnP_of_run hrun hpre hpost

theorem splitOnP_or (p q : α → Bool) (xs : List α) :
    xs.splitOnP (fun x ↦ p x || q x) = (xs.splitOnP p).flatMap (List.splitOnP q) := by
  induction xs with
  | nil => rfl
  | cons x xs ih =>
    rw [List.splitOnP_cons_eq_if_modifyHead, List.splitOnP_cons_eq_if_modifyHead, ih]
    by_cases hp : p x = true
    · rw [if_pos (by rw [hp, Bool.true_or]), if_pos hp, List.flatMap_cons]
      rfl
    · cases hruns : xs.splitOnP p with
      | nil => exact absurd hruns (List.splitOnP_ne_nil p xs)
      | cons run runs =>
        rw [if_neg hp, List.modifyHead_cons, List.flatMap_cons, List.flatMap_cons,
          List.splitOnP_cons_eq_if_modifyHead, Bool.eq_false_iff.mpr hp, Bool.false_or]
        split
        · rfl
        · cases hparts : run.splitOnP q with
          | nil => exact absurd hparts (List.splitOnP_ne_nil q run)
          | cons part parts => rfl

/-- Splitting what is kept is splitting where a kept item stops. -/
theorem splitOnP_kept (p : α → Bool) (marked : List (α × Bool)) :
    (kept marked).splitOnP p = (marked.splitOnP fun item ↦ item.2 && p item.1).map kept := by
  induction marked with
  | nil => rfl
  | cons item marked ih =>
    obtain ⟨x, mark⟩ := item
    rw [kept_cons, List.splitOnP_cons_eq_if_modifyHead]
    cases hruns : marked.splitOnP fun item ↦ item.2 && p item.1 with
    | nil => exact absurd hruns (List.splitOnP_ne_nil _ marked)
    | cons run runs =>
      rw [hruns, List.map_cons] at ih
      cases mark with
      | false => simp [ih]
      | true =>
        rw [if_pos rfl, List.splitOnP_cons_eq_if_modifyHead, ih]
        by_cases hp : p x = true <;> simp [hp]

end Runs

end OmpLazy.Foundation.Spans

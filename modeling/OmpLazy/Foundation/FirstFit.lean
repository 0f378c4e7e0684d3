import Mathlib.Algebra.BigOperators.Group.List.Basic
import Mathlib.Algebra.GroupWithZero.Nat
import Mathlib.Data.List.Perm.Basic
import Mathlib.Data.List.Nodup

/-! One pass over a list that keeps what still fits. -/

namespace OmpLazy.Foundation.FirstFit

variable {α : Type*}

/-- What is kept and what is dropped, when a decision may look at all that was kept before. -/
def firstFit (fits : List α → α → Bool) (kept : List α) : List α → List α × List α
  | [] => (kept, [])
  | x :: xs =>
    if fits kept x then firstFit fits (kept ++ [x]) xs
    else ((firstFit fits kept xs).1, x :: (firstFit fits kept xs).2)

section

variable {fits : List α → α → Bool} {kept xs pre post : List α} {x : α}

theorem firstFit_cons_pos (h : fits kept x = true) :
    firstFit fits kept (x :: xs) = firstFit fits (kept ++ [x]) xs := if_pos h

theorem firstFit_cons_neg (h : ¬ fits kept x = true) :
    firstFit fits kept (x :: xs) = ((firstFit fits kept xs).1, x :: (firstFit fits kept xs).2) := if_neg h

theorem firstFit_sublist (fits : List α → α → Bool) (kept xs : List α) :
    ∃ ys, ys.Sublist xs ∧ (firstFit fits kept xs).1 = kept ++ ys := by
  induction xs generalizing kept with
  | nil => exact ⟨[], List.Sublist.slnil, (List.append_nil kept).symm⟩
  | cons x xs ih =>
    by_cases h : fits kept x = true
    · obtain ⟨ys, hys, hkept⟩ := ih (kept ++ [x])
      refine ⟨x :: ys, hys.cons_cons x, ?_⟩
      rw [firstFit_cons_pos h, hkept, List.append_assoc, List.singleton_append]
    · obtain ⟨ys, hys, hkept⟩ := ih kept
      refine ⟨ys, hys.cons x, ?_⟩
      rw [firstFit_cons_neg h]
      exact hkept

theorem firstFit_dropped (fits : List α → α → Bool) (kept xs : List α) :
    (firstFit fits kept xs).2.Sublist xs := by
  induction xs generalizing kept with
  | nil => exact List.Sublist.slnil
  | cons x xs ih =>
    by_cases h : fits kept x = true
    · rw [firstFit_cons_pos h]
      exact (ih _).cons x
    · rw [firstFit_cons_neg h]
      exact (ih _).cons_cons x

/-- Nothing is lost and nothing is there twice. -/
theorem firstFit_perm (fits : List α → α → Bool) (kept xs : List α) :
    ((firstFit fits kept xs).1 ++ (firstFit fits kept xs).2).Perm (kept ++ xs) := by
  induction xs generalizing kept with
  | nil => exact List.Perm.refl _
  | cons x xs ih =>
    by_cases h : fits kept x = true
    · rw [firstFit_cons_pos h]
      refine (ih _).trans ?_
      rw [List.append_assoc, List.singleton_append]
    · rw [firstFit_cons_neg h]
      refine List.perm_middle.trans (.trans ?_ List.perm_middle.symm)
      exact (ih kept).cons x

/-- What holds of all that is kept at the start, and of one more that fits, holds at the end. -/
theorem firstFit_invariant {P : List α → Prop}
    (hstep : ∀ kept x, P kept → fits kept x = true → P (kept ++ [x])) (hkept : P kept) :
    P (firstFit fits kept xs).1 := by
  induction xs generalizing kept with
  | nil => exact hkept
  | cons x xs ih =>
    by_cases h : fits kept x = true
    · rw [firstFit_cons_pos h]
      exact ih (hstep kept x hkept h)
    · rw [firstFit_cons_neg h]
      exact ih hkept

theorem firstFit_none (h : ∀ x ∈ xs, ¬ fits kept x = true) : firstFit fits kept xs = (kept, xs) := by
  induction xs with
  | nil => rfl
  | cons x xs ih =>
    obtain ⟨hx, hxs⟩ := List.forall_mem_cons.mp h
    rw [firstFit_cons_neg hx, ih hxs]

/-- A front all of which fits, one after the other. -/
def FitsAll (fits : List α → α → Bool) (kept : List α) : List α → Prop
  | [] => True
  | x :: xs => fits kept x = true ∧ FitsAll fits (kept ++ [x]) xs

theorem firstFit_append (h : FitsAll fits kept pre) :
    firstFit fits kept (pre ++ post) = firstFit fits (kept ++ pre) post := by
  induction pre generalizing kept with
  | nil => rw [List.nil_append, List.append_nil]
  | cons x pre ih =>
    rw [List.cons_append, firstFit_cons_pos h.1, ih h.2, List.append_assoc, List.singleton_append]

/-- Nothing fits any more once something did not. -/
def Closes (fits : List α → α → Bool) (kept xs : List α) : Prop :=
  ∀ pre x post, xs = pre ++ x :: post → FitsAll fits kept pre → ¬ fits (kept ++ pre) x = true →
    ∀ y ∈ post, ¬ fits (kept ++ pre) y = true

theorem Closes.cons (h : Closes fits kept (x :: xs)) (hx : fits kept x = true) : Closes fits (kept ++ [x]) xs := by
  rintro pre y post rfl hpre
  have hnext := h (x :: pre) y post rfl ⟨hx, hpre⟩
  rwa [List.append_cons] at hnext

/-- What is dropped is then the end of the list. -/
theorem firstFit_of_closes (h : Closes fits kept xs) :
    ∃ pre post, xs = pre ++ post ∧ firstFit fits kept xs = (kept ++ pre, post) := by
  induction xs generalizing kept with
  | nil => exact ⟨[], [], rfl, by rw [firstFit, List.append_nil]⟩
  | cons x xs ih =>
    by_cases hx : fits kept x = true
    · obtain ⟨pre, post, rfl, hpass⟩ := ih (h.cons hx)
      refine ⟨x :: pre, post, rfl, ?_⟩
      rw [firstFit_cons_pos hx, hpass, List.append_assoc, List.singleton_append]
    · refine ⟨[], x :: xs, rfl, ?_⟩
      have hrest := h [] x xs rfl trivial (by rwa [List.append_nil])
      rw [List.append_nil] at hrest ⊢
      exact firstFit_none (List.forall_mem_cons.mpr ⟨hx, hrest⟩)

/-- Something is kept of a list in which something fits. -/
theorem firstFit_some (hx : x ∈ xs) (hfits : fits kept x = true) :
    ∃ y ∈ xs, y ∈ (firstFit fits kept xs).1 := by
  induction xs with
  | nil => cases hx
  | cons z xs ih =>
    by_cases hz : fits kept z = true
    · refine ⟨z, List.mem_cons_self, ?_⟩
      obtain ⟨ys, -, hkept⟩ := firstFit_sublist fits (kept ++ [z]) xs
      rw [firstFit_cons_pos hz, hkept]
      simp
    · obtain rfl | hx := List.mem_cons.mp hx
      · exact absurd hfits hz
      · obtain ⟨y, hy, hkept⟩ := ih hx
        rw [firstFit_cons_neg hz]
        exact ⟨y, List.mem_cons_of_mem _ hy, hkept⟩

/-- Otherwise something is kept that stands behind something dropped. -/
theorem exists_of_not_closes (h : ¬ Closes fits kept xs) :
    ∃ pre x post y, xs = pre ++ x :: post ∧ y ∈ post ∧ x ∈ (firstFit fits kept xs).2 ∧
      y ∈ (firstFit fits kept xs).1 := by
  simp only [Closes, not_forall, not_not] at h
  obtain ⟨pre, x, post, rfl, hpre, hx, z, hz, hfits⟩ := h
  obtain ⟨y, hy, hkept⟩ := firstFit_some hz hfits
  refine ⟨pre, x, post, y, rfl, hy, ?_⟩
  rw [firstFit_append hpre, firstFit_cons_neg hx]
  exact ⟨List.mem_cons_self, hkept⟩

end

/-! Sizes with a gap between one item and the next. -/

section Load

variable {size : α → ℕ} {gap capacity : ℕ} {kept xs : List α} {x : α}

def load (size : α → ℕ) (gap : ℕ) (xs : List α) : ℕ := (xs.map size).sum + gap * (xs.length - 1)

@[simp] theorem load_nil : load size gap [] = 0 := by simp [load]

theorem load_concat (size : α → ℕ) (gap : ℕ) (xs : List α) (x : α) :
    load size gap (xs ++ [x]) = load size gap xs + (if xs.isEmpty then 0 else gap) + size x := by
  cases xs with
  | nil => simp [load]
  | cons y ys =>
    simp only [load, List.map_append, List.sum_append, List.length_append, List.map_cons, List.map_nil,
      List.sum_cons, List.sum_nil, List.length_cons, List.length_nil, List.isEmpty_cons, Bool.false_eq_true,
      if_false, Nat.add_sub_cancel, Nat.mul_add]
    omega

/-- One more goes in as long as the load stays within the capacity. -/
def within (size : α → ℕ) (gap capacity : ℕ) (kept : List α) (x : α) : Bool :=
  load size gap (kept ++ [x]) ≤ capacity

theorem load_le_append (size : α → ℕ) (gap : ℕ) (xs ys : List α) : load size gap xs ≤ load size gap (xs ++ ys) := by
  simp only [load, List.map_append, List.sum_append, List.length_append]
  have hgaps : gap * (xs.length - 1) ≤ gap * (xs.length + ys.length - 1) := Nat.mul_le_mul_left gap (by omega)
  omega

theorem load_perm {ys : List α} (h : xs.Perm ys) : load size gap xs = load size gap ys := by
  rw [load, load, (h.map size).sum_eq, h.length_eq]

theorem fitsAll_within (h : load size gap (kept ++ xs) ≤ capacity) : FitsAll (within size gap capacity) kept xs := by
  induction xs generalizing kept with
  | nil => trivial
  | cons x xs ih =>
    rw [List.append_cons] at h
    exact ⟨decide_eq_true (Nat.le_trans (load_le_append size gap _ _) h), ih h⟩

/-- Where all of it fits all of it is kept. -/
theorem firstFit_all (h : load size gap xs ≤ capacity) : firstFit (within size gap capacity) [] xs = (xs, []) := by
  have hfits : FitsAll (within size gap capacity) [] xs := fitsAll_within h
  have hpass : firstFit (within size gap capacity) [] (xs ++ []) = _ := firstFit_append hfits
  rwa [List.append_nil, List.nil_append] at hpass

theorem firstFit_load (hkept : load size gap kept ≤ capacity) :
    load size gap (firstFit (within size gap capacity) kept xs).1 ≤ capacity :=
  firstFit_invariant (P := fun kept ↦ load size gap kept ≤ capacity) (fun _ _ _ h ↦ of_decide_eq_true h) hkept

end Load

end OmpLazy.Foundation.FirstFit

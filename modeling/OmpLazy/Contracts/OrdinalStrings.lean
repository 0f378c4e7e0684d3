import OmpLazy.Contracts.CompileTaskPacket
import Mathlib.Data.List.Lex

/-! Strings in the order of their UTF-16 code units. -/

namespace OmpLazy.Contracts

theorem isValidChar_toNat (c : Char) : c.toNat < 0xD800 ∨ 0xDFFF < c.toNat ∧ c.toNat < 0x110000 := c.valid

/-- Where two texts have the same code units their first characters are the same. -/
theorem utf16Units_injective : Function.Injective utf16Units := by
  intro s t h
  rw [utf16Units, utf16Units] at h
  rw [← String.toList_inj]
  generalize s.toList = xs at h
  generalize t.toList = ys at h
  induction xs generalizing ys with
  | nil =>
    cases ys with
    | nil => rfl
    | cons y ys =>
      rw [List.flatMap_cons] at h
      split at h <;> simp at h
  | cons x xs ih =>
    cases ys with
    | nil =>
      rw [List.flatMap_cons] at h
      split at h <;> simp at h
    | cons y ys =>
      have hx := isValidChar_toNat x
      have hy := isValidChar_toNat y
      rw [List.flatMap_cons, List.flatMap_cons] at h
      split at h <;> split at h <;>
        simp only [List.cons_append, List.nil_append, List.cons.injEq] at h
      · rw [Char.toNat_inj.mp h.1, ih ys h.2]
      · omega
      · omega
      · obtain ⟨hhigh, hlow, h⟩ := h
        have hnat : x.toNat = y.toNat := by omega
        rw [Char.toNat_inj.mp hnat, ih ys h]

/-! The order of `compareOrdinalStrings`. -/

section Order

variable {s t u : String} {values values' : List String}

theorem ordinalLe_iff : ordinalLe s t = true ↔ utf16Units s ≤ utf16Units t := by
  rw [ordinalLe, decide_eq_true_eq]

theorem ordinalLe_trans (h : ordinalLe s t = true) (h' : ordinalLe t u = true) : ordinalLe s u = true :=
  ordinalLe_iff.mpr ((ordinalLe_iff.mp h).trans (ordinalLe_iff.mp h'))

theorem ordinalLe_total (s t : String) : (ordinalLe s t || ordinalLe t s) = true := by
  rw [Bool.or_eq_true, ordinalLe_iff, ordinalLe_iff]
  exact le_total _ _

theorem ordinalLe_antisymm (h : ordinalLe s t = true) (h' : ordinalLe t s = true) : s = t :=
  utf16Units_injective (le_antisymm (ordinalLe_iff.mp h) (ordinalLe_iff.mp h'))

/-! Sorting by a key. -/

variable {α : Type*} {key : α → String} {xs ys : List α}

def sortByKey (key : α → String) (xs : List α) : List α := xs.mergeSort fun x y ↦ ordinalLe (key x) (key y)

theorem sortByKey_perm (key : α → String) (xs : List α) : (sortByKey key xs).Perm xs := List.mergeSort_perm _ _

theorem sortByKey_pairwise (key : α → String) (xs : List α) :
    (sortByKey key xs).Pairwise fun x y ↦ ordinalLe (key x) (key y) = true := by
  have htrans : ∀ x y z, ordinalLe (key x) (key y) = true → ordinalLe (key y) (key z) = true →
      ordinalLe (key x) (key z) = true := fun _ _ _ h h' ↦ ordinalLe_trans h h'
  exact List.pairwise_mergeSort htrans (fun x y ↦ ordinalLe_total (key x) (key y)) xs

/-- What is sorted stays as it is. -/
theorem sortByKey_sortByKey (key : α → String) (xs : List α) :
    sortByKey key (sortByKey key xs) = sortByKey key xs := List.mergeSort_of_pairwise (sortByKey_pairwise key xs)

/-- Values that their keys tell apart are sorted in one way only. -/
theorem sortByKey_congr (hkey : ∀ x ∈ xs, ∀ y ∈ xs, key x = key y → x = y) (h : xs.Perm ys) :
    sortByKey key xs = sortByKey key ys := by
  have hantisymm : ∀ x y, x ∈ sortByKey key xs → y ∈ sortByKey key ys → ordinalLe (key x) (key y) = true →
      ordinalLe (key y) (key x) = true → x = y := by
    intro x y hx hy hle hge
    have hx' := (sortByKey_perm key xs).mem_iff.mp hx
    have hy' := h.mem_iff.mpr ((sortByKey_perm key ys).mem_iff.mp hy)
    exact hkey x hx' y hy' (ordinalLe_antisymm hle hge)
  refine List.Perm.eq_of_pairwise hantisymm (sortByKey_pairwise key xs) (sortByKey_pairwise key ys) ?_
  exact ((sortByKey_perm key xs).trans h).trans (sortByKey_perm key ys).symm

theorem sortedStrings_eq (values : List String) : sortedStrings values = sortByKey id values := rfl

theorem sortedStrings_pairwise (values : List String) :
    (sortedStrings values).Pairwise fun s t ↦ ordinalLe s t = true := sortByKey_pairwise id values

/-- Strings are sorted in one way only. -/
theorem sortedStrings_perm (h : values.Perm values') : sortedStrings values = sortedStrings values' :=
  sortByKey_congr (fun _ _ _ _ heq ↦ heq) h

end Order

end OmpLazy.Contracts

import Mathlib.Data.List.Basic
import Mathlib.Data.Nat.Notation

/-! Lists that keep what they hold, each element at its place, and grow at the end. -/

namespace OmpLazy.Foundation

variable {α : Type*} {R : α → α → Prop} {xs ys zs : List α}

/-- Every element of `xs` is in `ys` at its place, as far as `R` keeps it. -/
def Grows (R : α → α → Prop) (xs ys : List α) : Prop :=
  ∀ (i : ℕ) (x : α), xs[i]? = some x → ∃ y, ys[i]? = some y ∧ R x y

namespace Grows

theorem refl (h : ∀ x, R x x) (xs : List α) : Grows R xs xs := fun _ x hx ↦ ⟨x, hx, h x⟩

theorem trans (h : ∀ ⦃x y z⦄, R x y → R y z → R x z) (hxy : Grows R xs ys) (hyz : Grows R ys zs) :
    Grows R xs zs := by
  intro i x hx
  obtain ⟨y, hy, hkept⟩ := hxy i x hx
  obtain ⟨z, hz, hkept'⟩ := hyz i y hy
  exact ⟨z, hz, h hkept hkept'⟩

theorem mono {S : α → α → Prop} (h : ∀ x ∈ xs, ∀ y, R x y → S x y) (hxy : Grows R xs ys) :
    Grows S xs ys := by
  intro i x hx
  obtain ⟨y, hy, hkept⟩ := hxy i x hx
  exact ⟨y, hy, h x (List.mem_of_getElem? hx) y hkept⟩

theorem map {f : α → α} (h : ∀ x ∈ xs, R x (f x)) : Grows R xs (xs.map f) := by
  intro i x hx
  exact ⟨f x, by rw [List.getElem?_map, hx]; rfl, h x (List.mem_of_getElem? hx)⟩

theorem append (h : Grows R xs ys) (added : List α) : Grows R xs (ys ++ added) := by
  intro i x hx
  obtain ⟨y, hy, hkept⟩ := h i x hx
  obtain ⟨hi, -⟩ := List.getElem?_eq_some_iff.mp hy
  exact ⟨y, by rw [List.getElem?_append_left hi, hy], hkept⟩

/-- What is in the list before has its image after. -/
theorem exists_of_mem (h : Grows R xs ys) {x : α} (hx : x ∈ xs) : ∃ y ∈ ys, R x y := by
  obtain ⟨i, hi⟩ := List.mem_iff_getElem?.mp hx
  obtain ⟨y, hy, hkept⟩ := h i x hi
  exact ⟨y, List.mem_of_getElem? hy, hkept⟩

end Grows

end OmpLazy.Foundation

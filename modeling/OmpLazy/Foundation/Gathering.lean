import Mathlib.Algebra.GroupWithZero.Nat
import Mathlib.Algebra.BigOperators.Group.List.Basic
import Mathlib.Data.List.Dedup
import Mathlib.Data.List.Perm.Basic

/-! Lists that are gathered by a key. -/

namespace OmpLazy.Foundation

variable {α κ : Type} {key : α → κ} {keys : List κ} {xs ys : List α}

section Gathered

variable [DecidableEq κ]

theorem nodup_of_dedup_length (h : keys.dedup.length = keys.length) : keys.Nodup :=
  List.dedup_eq_self.mp ((List.dedup_sublist keys).eq_of_length h)

/-- Two lists that are as long as their sets, with the same sets. -/
theorem perm_of_sets {keys' : List κ} (hlength : keys.dedup.length = keys.length)
    (hlength' : keys'.dedup.length = keys'.length) (h : ∀ k ∈ keys.dedup, k ∈ keys'.dedup)
    (h' : ∀ k ∈ keys'.dedup, k ∈ keys.dedup) : keys.Perm keys' := by
  simp only [List.mem_dedup] at h h'
  exact (List.perm_ext_iff_of_nodup (nodup_of_dedup_length hlength) (nodup_of_dedup_length hlength')).mpr
    fun k ↦ ⟨h k, h' k⟩

/-- What has one of these keys, key by key. -/
theorem gathered_perm (hkeys : keys.Nodup) (h : ∀ x ∈ xs, key x ∈ keys) :
    (keys.flatMap fun k ↦ xs.filter (key · = k)).Perm xs := by
  induction keys generalizing xs with
  | nil => rw [List.eq_nil_iff_forall_not_mem.mpr fun x hx ↦ List.not_mem_nil (h x hx), List.flatMap_nil]
  | cons k keys ih =>
    obtain ⟨hk, hkeys⟩ := List.nodup_cons.mp hkeys
    have hrest : ∀ x ∈ xs.filter fun x ↦ !decide (key x = k), key x ∈ keys := by
      intro x hx
      obtain ⟨hx, hne⟩ := List.mem_filter.mp hx
      exact (List.mem_cons.mp (h x hx)).resolve_left (by simpa using hne)
    have hsame : (keys.flatMap fun k' ↦ (xs.filter fun x ↦ !decide (key x = k)).filter (key · = k')) =
        keys.flatMap fun k' ↦ xs.filter (key · = k') := by
      refine List.flatMap_congr fun k' hk' ↦ ?_
      rw [List.filter_filter]
      refine List.filter_congr fun x _ ↦ ?_
      by_cases hx : key x = k'
      · have hne : k' ≠ k := by
          rintro rfl
          exact hk hk'
        simp [hx, hne]
      · simp [hx]
    rw [List.flatMap_cons, ← hsame]
    exact ((ih hkeys hrest).append_left _).trans (List.filter_append_perm _ xs)

theorem sum_gathered {weight : α → ℕ} (hkeys : keys.Nodup) (h : ∀ x ∈ xs, key x ∈ keys) :
    (keys.map fun k ↦ ((xs.filter (key · = k)).map weight).sum).sum = (xs.map weight).sum := by
  rw [← ((gathered_perm hkeys h).map weight).sum_eq, List.map_flatMap, List.flatMap_def, List.sum_flatten,
    List.map_map]
  rfl

end Gathered

/-- Two lists without duplicates from one whose keys differ, with the same keys. -/
theorem perm_of_keys {zs : List α} (hkeys : (zs.map key).Nodup) (hxs : xs ⊆ zs) (hys : ys ⊆ zs)
    (hnodup : (xs.map key).Nodup) (hnodup' : (ys.map key).Nodup) (h : ∀ k, k ∈ xs.map key ↔ k ∈ ys.map key) :
    xs.Perm ys := by
  have hinj := List.inj_on_of_nodup_map hkeys
  have hmem : ∀ {xs ys : List α}, xs ⊆ zs → ys ⊆ zs → xs.map key ⊆ ys.map key → xs ⊆ ys := by
    intro xs ys hxs hys hsub x hx
    obtain ⟨y, hy, heq⟩ := List.mem_map.mp (hsub (List.mem_map_of_mem hx))
    rwa [← hinj (hys hy) (hxs hx) heq]
  refine (List.perm_ext_iff_of_nodup hnodup.of_map hnodup'.of_map).mpr fun x ↦ ?_
  exact ⟨fun hx ↦ hmem hxs hys (fun k ↦ (h k).mp) hx, fun hx ↦ hmem hys hxs (fun k ↦ (h k).mpr) hx⟩

end OmpLazy.Foundation

import Mathlib.Data.List.Basic

/-! Lists that are split at a separator and joined by one. -/

namespace OmpLazy.Foundation.Paths

variable {α : Type*} {a x : α} {xs part : List α}

theorem mem_intercalate {separator : List α} {parts : List (List α)} (h : x ∈ separator.intercalate parts) :
    x ∈ separator ∨ ∃ part ∈ parts, x ∈ part := by
  induction parts with
  | nil => simp at h
  | cons first parts ih =>
    cases parts with
    | nil =>
      rw [List.intercalate_singleton] at h
      exact .inr ⟨first, List.mem_cons_self, h⟩
    | cons second parts =>
      rw [List.intercalate_cons_cons, List.mem_append, List.mem_append] at h
      obtain (h | h) | h := h
      · exact .inr ⟨first, List.mem_cons_self, h⟩
      · exact .inl h
      · obtain h | ⟨part, hpart, h⟩ := ih h
        · exact .inl h
        · exact .inr ⟨part, List.mem_cons_of_mem _ hpart, h⟩

theorem intercalate_cons (separator first : List α) (others : List (List α)) :
    separator.intercalate (first :: others) = first ++ others.flatMap fun other ↦ separator ++ other := by
  induction others generalizing first with
  | nil => simp
  | cons other others ih =>
    rw [List.intercalate_cons_cons, ih, List.flatMap_cons, List.append_assoc, List.append_assoc]

/-- Pairs that are joined by the separator are joined as what they consist of. -/
theorem intercalate_pairs {β : Type*} (separator : List α) (first second : β → List α) (items : List β) :
    separator.intercalate (items.map fun item ↦ first item ++ separator ++ second item) =
      separator.intercalate (items.flatMap fun item ↦ [first item, second item]) := by
  cases items with
  | nil => rfl
  | cons item items =>
    rw [List.map_cons, List.flatMap_cons, List.cons_append, intercalate_cons, intercalate_cons, List.flatMap_append,
      List.flatMap_singleton, List.flatMap_map, List.flatMap_assoc]
    simp only [List.flatMap_cons, List.flatMap_nil, List.append_assoc, List.append_nil]

theorem flatMap_pairs_injective {β γ : Type*} {first second : β → γ} {items items' : List β}
    (h : (items.flatMap fun item ↦ [first item, second item]) = items'.flatMap fun item ↦ [first item, second item]) :
    List.Forall₂ (fun item item' ↦ first item = first item' ∧ second item = second item') items items' := by
  induction items generalizing items' with
  | nil =>
    cases items' with
    | nil => exact .nil
    | cons item' items' => cases h
  | cons item items ih =>
    cases items' with
    | nil => cases h
    | cons item' items' =>
      simp only [List.flatMap_cons, List.cons_append, List.nil_append, List.cons.injEq] at h
      exact .cons ⟨h.1, h.2.1⟩ (ih h.2.2)

variable [DecidableEq α]

/-- Parts that lack the separator are known from what they are joined to. -/
theorem intercalate_injective {parts parts' : List (List α)} (hlacks : ∀ part ∈ parts, a ∉ part)
    (hlacks' : ∀ part ∈ parts', a ∉ part) (hne : parts ≠ []) (hne' : parts' ≠ [])
    (h : [a].intercalate parts = [a].intercalate parts') : parts = parts' := by
  rw [← List.splitOn_intercalate a hlacks hne, h, List.splitOn_intercalate a hlacks' hne']

theorem part_subset (h : part ∈ xs.splitOn a) (hx : x ∈ part) : x ∈ xs := by
  induction xs generalizing part with
  | nil =>
    rw [List.splitOn_nil, List.mem_singleton] at h
    rwa [h] at hx
  | cons y ys ih =>
    rw [List.splitOn_cons_eq_if_modifyHead] at h
    split at h
    · obtain rfl | h := List.mem_cons.mp h
      · cases hx
      · exact List.mem_cons_of_mem _ (ih h hx)
    · cases hsplit : ys.splitOn a with
      | nil => exact absurd hsplit (List.splitOn_ne_nil a ys)
      | cons first parts =>
        rw [hsplit, List.modifyHead_cons] at h
        rw [hsplit] at ih
        obtain rfl | h := List.mem_cons.mp h
        · obtain rfl | hx := List.mem_cons.mp hx
          · exact List.mem_cons_self
          · exact List.mem_cons_of_mem _ (ih List.mem_cons_self hx)
        · exact List.mem_cons_of_mem _ (ih (List.mem_cons_of_mem _ h) hx)

theorem separator_notMem (h : part ∈ xs.splitOn a) : a ∉ part := by
  induction xs generalizing part with
  | nil =>
    rw [List.splitOn_nil, List.mem_singleton] at h
    rw [h]
    exact List.not_mem_nil
  | cons y ys ih =>
    rw [List.splitOn_cons_eq_if_modifyHead] at h
    split at h
    · obtain rfl | h := List.mem_cons.mp h
      · exact List.not_mem_nil
      · exact ih h
    · rename_i hne
      cases hsplit : ys.splitOn a with
      | nil => exact absurd hsplit (List.splitOn_ne_nil a ys)
      | cons first parts =>
        rw [hsplit, List.modifyHead_cons] at h
        rw [hsplit] at ih
        obtain rfl | h := List.mem_cons.mp h
        · rw [List.mem_cons, not_or]
          exact ⟨fun heq ↦ hne (beq_iff_eq.mpr heq.symm), ih List.mem_cons_self⟩
        · exact ih (List.mem_cons_of_mem _ h)

/-- One list leads another segment by segment where it leads it up to a separator. -/
theorem splitOn_isPrefix {ys : List α} : xs.splitOn a <+: ys.splitOn a ↔ ys = xs ∨ xs ++ [a] <+: ys := by
  constructor
  · rintro ⟨rest, hrest⟩
    have hxs : [a].intercalate (xs.splitOn a) = xs := List.intercalate_splitOn a
    have hys : [a].intercalate (ys.splitOn a) = ys := List.intercalate_splitOn a
    obtain ⟨first, others, hsplit⟩ := List.exists_cons_of_ne_nil (List.splitOn_ne_nil a xs)
    rw [← hrest] at hys
    rw [hsplit, intercalate_cons] at hxs
    rw [hsplit, List.cons_append, intercalate_cons, List.flatMap_append, ← List.append_assoc, hxs] at hys
    cases rest with
    | nil => exact .inl (by rw [← hys, List.flatMap_nil, List.append_nil])
    | cons part rest =>
      rw [List.flatMap_cons, ← List.append_assoc, ← List.append_assoc] at hys
      exact .inr ⟨_, (List.append_assoc _ _ _).symm.trans hys⟩
  · rintro (rfl | ⟨rest, rfl⟩)
    · exact List.prefix_rfl
    · rw [List.append_assoc, List.singleton_append, List.splitOn_append_cons_self]
      exact List.prefix_append _ _

end OmpLazy.Foundation.Paths

import Mathlib.Data.List.Nodup

/-! Lists whose elements have distinct keys, and maps as such lists. -/

namespace OmpLazy.Foundation

variable {α κ : Type*} [DecidableEq κ] {key : α → κ} {xs : List α} {x : α}

/-- The element with a key is found by it. -/
theorem find?_key (h : (xs.map key).Nodup) (hx : x ∈ xs) : xs.find? (key · = key x) = some x := by
  obtain ⟨y, hy⟩ := Option.isSome_iff_exists.mp
    (List.find?_isSome.mpr ⟨x, hx, by simp⟩ : (xs.find? (key · = key x)).isSome)
  have hkey : key y = key x := by simpa using List.find?_some hy
  rw [hy, List.inj_on_of_nodup_map h (List.mem_of_find?_eq_some hy) hx hkey]

/-- Elements with a key give way to another one with it. -/
theorem find?_replace {k k' : κ} (hx : key x = k) :
    (xs.map fun y ↦ if key y = k then x else y).find? (key · = k') =
      if k' = k then (xs.find? (key · = k)).map fun _ ↦ x else xs.find? (key · = k') := by
  induction xs with
  | nil => simp
  | cons y ys ih =>
    rw [List.map_cons, List.find?_cons, ih, List.find?_cons, List.find?_cons]
    by_cases hk : k' = k
    · subst hk
      by_cases hy : key y = k' <;> simp [hy, hx]
    · by_cases hy : key y = k
      · subst hy
        simp [hk, hx, Ne.symm hk]
      · simp [hy, hk]

theorem find?_append_key {k : κ} (hx : ∀ y ∈ xs, key y ≠ key x) :
    (xs ++ [x]).find? (key · = k) = if k = key x then some x else xs.find? (key · = k) := by
  rw [List.find?_append]
  split
  · rename_i hk
    subst hk
    rw [List.find?_eq_none.mpr (by simpa using hx)]
    simp
  · rename_i hk
    simp [Ne.symm hk]

/-! A map that keeps its entries in the order in which their keys were first set. -/

section Map

variable {β : Type*} {k k' : κ} {value : β}

def getEntry (k : κ) (entries : List (κ × β)) : Option β := (entries.find? (·.1 = k)).map (·.2)

def setEntry (k : κ) (value : β) : List (κ × β) → List (κ × β)
  | [] => [(k, value)]
  | (k', value') :: entries =>
    if k' = k then (k', value) :: entries else (k', value') :: setEntry k value entries

@[simp] theorem getEntry_nil : getEntry k ([] : List (κ × β)) = none := rfl

theorem getEntry_cons (entries : List (κ × β)) :
    getEntry k' ((k, value) :: entries) = if k = k' then some value else getEntry k' entries := by
  by_cases h : k = k' <;> simp [getEntry, h]

theorem getEntry_mem {entries : List (κ × β)} (h : getEntry k entries = some value) :
    (k, value) ∈ entries := by
  obtain ⟨entry, hfind, rfl⟩ := Option.map_eq_some_iff.mp h
  obtain rfl : entry.1 = k := by simpa using List.find?_some hfind
  exact List.mem_of_find?_eq_some hfind

theorem getEntry_setEntry (entries : List (κ × β)) :
    getEntry k' (setEntry k value entries) = if k = k' then some value else getEntry k' entries := by
  induction entries with
  | nil => exact getEntry_cons []
  | cons entry entries ih =>
    obtain ⟨l, v⟩ := entry
    rw [setEntry]
    split
    · rename_i h
      subst h
      rw [getEntry_cons, getEntry_cons]
      split <;> rfl
    · rename_i h
      rw [getEntry_cons, getEntry_cons, ih]
      split
      · rename_i h'
        rw [if_neg fun heq ↦ h (h'.trans heq.symm)]
      · rfl

theorem keys_setEntry (entries : List (κ × β)) :
    (setEntry k value entries).map (·.1) =
      if k ∈ entries.map (·.1) then entries.map (·.1) else entries.map (·.1) ++ [k] := by
  induction entries with
  | nil => simp [setEntry]
  | cons entry entries ih =>
    obtain ⟨l, v⟩ := entry
    rw [setEntry]
    split
    · rename_i h
      simp [h]
    · rename_i h
      have hne : k ≠ l := fun heq ↦ h heq.symm
      simp only [List.map_cons, ih, List.mem_cons, hne, false_or]
      split <;> rfl

theorem mem_setEntry {entries : List (κ × β)} {entry : κ × β} (h : entry ∈ setEntry k value entries) :
    entry = (k, value) ∨ entry ∈ entries := by
  induction entries with
  | nil => exact .inl (List.mem_singleton.mp h)
  | cons first entries ih =>
    obtain ⟨l, v⟩ := first
    rw [setEntry] at h
    split at h
    · rename_i hkey
      obtain rfl | hmem := List.mem_cons.mp h
      · exact .inl (by rw [hkey])
      · exact .inr (List.mem_cons_of_mem _ hmem)
    · obtain rfl | hmem := List.mem_cons.mp h
      · exact .inr List.mem_cons_self
      · exact (ih hmem).imp_right (List.mem_cons_of_mem _)

theorem nodup_setEntry {entries : List (κ × β)} (h : (entries.map (·.1)).Nodup) :
    ((setEntry k value entries).map (·.1)).Nodup := by
  rw [keys_setEntry]
  split
  · exact h
  · rename_i hnot
    exact List.nodup_append.mpr ⟨h, List.nodup_singleton k, fun l hl l' hl' ↦ by
      rw [List.mem_singleton.mp hl']
      exact fun heq ↦ hnot (heq ▸ hl)⟩

end Map

end OmpLazy.Foundation

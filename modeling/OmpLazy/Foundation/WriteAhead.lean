import Mathlib.Data.List.Basic

/-! A snapshot of a list, and a log of its entries that may be ahead of the snapshot. -/

namespace OmpLazy.Foundation.WriteAhead

variable {Entry : Type*} [DecidableEq Entry] {position : Entry → ℕ} {entries : List Entry} {entry : Entry} {m : ℕ}

/-- The entries with those of a log, each at its position. An entry that is there already must be the same. -/
def merge (position : Entry → ℕ) : List Entry → List Entry → Option (List Entry)
  | entries, [] => some entries
  | entries, entry :: log =>
    match entries[position entry]? with
    | some existing => if existing = entry then merge position entries log else none
    | none => merge position (entries ++ [entry]) log

/-- Every entry is at its position. -/
def Numbered (position : Entry → ℕ) (entries : List Entry) : Prop :=
  ∀ i (h : i < entries.length), position entries[i] = i

omit [DecidableEq Entry] in
theorem Numbered.snoc (h : Numbered position entries) (hentry : position entry = entries.length) :
    Numbered position (entries ++ [entry]) := by
  intro i hi
  rw [List.getElem_append]
  split
  · exact h i _
  · rw [List.length_append, List.length_singleton] at hi
    rw [List.getElem_singleton, hentry]
    omega

/-- A log goes on from any place that the snapshot has reached. -/
theorem merge_drop (h : Numbered position entries) {j : ℕ} (hj : j ≤ m) (hm : m ≤ entries.length) :
    merge position (entries.take m) (entries.drop j) = some entries := by
  generalize hlog : entries.drop j = log
  induction log generalizing j m with
  | nil =>
    have hlength := congrArg List.length hlog
    rw [List.length_drop, List.length_nil] at hlength
    rw [merge, List.take_of_length_le (by omega)]
  | cons entry log ih =>
    have hlt : j < entries.length := by
      by_contra hge
      rw [List.drop_of_length_le (by omega)] at hlog
      cases hlog
    rw [List.drop_eq_getElem_cons hlt] at hlog
    obtain ⟨rfl, hlater⟩ := List.cons.inj hlog
    rw [merge, h j hlt]
    by_cases hreached : j < m
    · rw [List.getElem?_take_of_lt hreached, List.getElem?_eq_getElem hlt]
      simp only [if_true]
      exact ih hreached hm hlater
    · obtain rfl : j = m := by omega
      rw [List.getElem?_take_eq_none (Nat.le_refl j)]
      simp only [List.take_append_getElem hlt]
      exact ih (Nat.le_refl _) hlt hlater

/-- The log of all entries brings a snapshot of the first of them up to date. -/
theorem merge_take (h : Numbered position entries) (hm : m ≤ entries.length) :
    merge position (entries.take m) entries = some entries := by
  have hmerged := merge_drop h (Nat.zero_le m) hm
  rwa [List.drop_zero] at hmerged

end OmpLazy.Foundation.WriteAhead

import Mathlib.Data.List.Infix
import Mathlib.Data.List.Forall2
import Mathlib.Data.List.ReduceOption

/-! Patterns with a wildcard for any run. -/

namespace OmpLazy.Foundation.Wildcard

variable {α β : Type*} {R R' : β → α → Prop} {a : α} {b : β} {p q : List (Option β)} {bs : List β}
  {s t u : List α}

/-- A pattern against a word: `none` stands for any run, `some b` for one element that `b` takes. -/
inductive Matches (R : β → α → Prop) : List (Option β) → List α → Prop
  | nil : Matches R [] []
  | skip {p : List (Option β)} {s : List α} : Matches R p s → Matches R (none :: p) s
  | more {p : List (Option β)} {a : α} {s : List α} : Matches R (none :: p) s → Matches R (none :: p) (a :: s)
  | one {b : β} {p : List (Option β)} {a : α} {s : List α} :
      R b a → Matches R p s → Matches R (some b :: p) (a :: s)

namespace Matches

theorem nil_iff : Matches R [] s ↔ s = [] := by
  constructor
  · intro h
    cases h
    rfl
  · rintro rfl
    exact .nil

theorem some_iff : Matches R (some b :: p) (a :: s) ↔ R b a ∧ Matches R p s := by
  constructor
  · intro h
    cases h with
    | one hone h => exact ⟨hone, h⟩
  · rintro ⟨hone, h⟩
    exact .one hone h

theorem none_nil_iff : Matches R (none :: p) ([] : List α) ↔ Matches R p [] := by
  constructor
  · intro h
    cases h with
    | skip h => exact h
  · exact .skip

theorem none_cons_iff : Matches R (none :: p) (a :: s) ↔ Matches R p (a :: s) ∨ Matches R (none :: p) s := by
  constructor
  · intro h
    cases h with
    | skip h => exact .inl h
    | more h => exact .inr h
  · rintro (h | h)
    · exact .skip h
    · exact .more h

/-- A wildcard takes what stands before a word that matches the rest. -/
theorem of_suffix (h : Matches R (none :: p) s) (hsuffix : s <:+ t) : Matches R (none :: p) t := by
  obtain ⟨u, rfl⟩ := hsuffix
  induction u with
  | nil => exact h
  | cons a u ih => exact .more ih

theorem none_iff : Matches R (none :: p) t ↔ ∃ s, s <:+ t ∧ Matches R p s := by
  constructor
  · intro h
    induction t with
    | nil => exact ⟨[], List.suffix_rfl, none_nil_iff.mp h⟩
    | cons a t ih =>
      obtain h | h := none_cons_iff.mp h
      · exact ⟨a :: t, List.suffix_rfl, h⟩
      · obtain ⟨s, hsuffix, hs⟩ := ih h
        exact ⟨s, hsuffix.trans (List.suffix_cons a t), hs⟩
  · rintro ⟨s, hsuffix, h⟩
    exact h.skip.of_suffix hsuffix

theorem length_le (h : Matches R p s) : p.reduceOption.length ≤ s.length := by
  induction h with
  | nil => exact le_rfl
  | skip _ ih => simpa using ih
  | more _ ih => exact ih.trans (Nat.le_succ _)
  | one _ _ ih => simpa using ih

theorem nil_right_iff : Matches R p ([] : List α) ↔ ∀ b ∈ p, b = none := by
  induction p with
  | nil => simp [nil_iff]
  | cons b p ih =>
    cases b with
    | none => simp [none_nil_iff, ih]
    | some b =>
      refine iff_of_false (fun h ↦ by cases h) fun h ↦ ?_
      simpa using h (some b) List.mem_cons_self

theorem mono (himp : ∀ b, some b ∈ p → ∀ a ∈ s, R b a → R' b a) (h : Matches R p s) : Matches R' p s := by
  induction h with
  | nil => exact .nil
  | skip _ ih => exact .skip (ih fun b hb ↦ himp b (List.mem_cons_of_mem _ hb))
  | more _ ih => exact .more (ih fun b hb a ha ↦ himp b hb a (List.mem_cons_of_mem _ ha))
  | one hone _ ih =>
    refine .one (himp _ List.mem_cons_self _ List.mem_cons_self hone) (ih fun b hb a ha ↦ ?_)
    exact himp b (List.mem_cons_of_mem _ hb) a (List.mem_cons_of_mem _ ha)

/-- A word without any element to spare is taken one by one. -/
theorem forall₂_of_length (h : Matches R p s) (hlength : s.length ≤ p.reduceOption.length) :
    List.Forall₂ R p.reduceOption s := by
  induction h with
  | nil => exact .nil
  | skip _ ih => exact ih hlength
  | more h _ => exact absurd h.length_le (not_le_of_gt hlength)
  | one hone _ ih => exact .cons hone (ih (Nat.le_of_succ_le_succ hlength))

theorem of_forall₂ (h : List.Forall₂ R p.reduceOption s) : Matches R p s := by
  induction p generalizing s with
  | nil =>
    cases h
    exact .nil
  | cons b p ih =>
    cases b with
    | none => exact .skip (ih h)
    | some b =>
      cases h with
      | cons hone h => exact .one hone (ih h)

theorem append (h : Matches R p s) (h' : Matches R q t) : Matches R (p ++ q) (s ++ t) := by
  induction h with
  | nil => exact h'
  | skip _ ih => exact .skip ih
  | more _ ih => exact .more ih
  | one hone _ ih => exact .one hone ih

theorem drop_of_append (h : Matches R (bs.map some ++ p) s) : Matches R p (s.drop bs.length) := by
  induction bs generalizing s with
  | nil => exact h
  | cons b bs ih =>
    cases h with
    | one _ h => exact ih h

/-- Between one wildcard and the next only lengths count: what matches from the first wildcard on does so
with its rest somewhere from the second one on. -/
theorem forget (h : Matches R (none :: (bs.map some ++ p)) t) (hlength : bs.length = u.length)
    (hsuffix : t <:+ u ++ s) : ∃ r, r <:+ s ∧ Matches R p r := by
  obtain ⟨r, hr, hmatches⟩ := none_iff.mp h
  refine ⟨r.drop bs.length, ?_, drop_of_append hmatches⟩
  obtain ⟨v, hv⟩ := hr.trans hsuffix
  have hrest : r.drop bs.length = (u ++ s).drop (v.length + bs.length) := by
    rw [← hv, ← List.drop_drop, List.drop_left]
  have hs : (u ++ s).drop bs.length = s := by rw [hlength, List.drop_left]
  have hle : (u ++ s).drop (v.length + bs.length) <:+ (u ++ s).drop bs.length :=
    List.drop_suffix_drop_left _ (Nat.le_add_left _ _)
  rwa [← hrest, hs] at hle

end Matches

end OmpLazy.Foundation.Wildcard

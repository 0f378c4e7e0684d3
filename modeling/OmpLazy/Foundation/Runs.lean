import Mathlib.Data.List.Induction
import Mathlib.Logic.Relation

/-! Runs of a transition system: what every step preserves, and what a simulation carries over. -/

namespace OmpLazy.Foundation

open Relation

variable {S T : Type*} {step : S → S → Prop} {spec : T → T → Prop} {inv : S → Prop}
  {ok : S → S → Prop} {rel : S → T → Prop}

/-- A property that no step loses. -/
def Preserves (step : S → S → Prop) (inv : S → Prop) : Prop := ∀ ⦃s t⦄, inv s → step s t → inv t

theorem Preserves.run (h : Preserves step inv) {s t : S} (hrun : ReflTransGen step s t) (hs : inv s) :
    inv t := by
  induction hrun with
  | refl => exact hs
  | tail _ hstep ih => exact h ih hstep

/-- The steps that meet a condition. -/
def Guarded (ok : S → S → Prop) (step : S → S → Prop) : S → S → Prop := fun s t ↦ ok s t ∧ step s t

theorem Preserves.guarded (h : ∀ ⦃s t⦄, ok s t → inv s → step s t → inv t) :
    Preserves (Guarded ok step) inv := fun _ _ hs hstep ↦ h hstep.1 hs hstep.2

/-- Every step is matched by a run of the specification. -/
def Simulates (rel : S → T → Prop) (step : S → S → Prop) (spec : T → T → Prop) : Prop :=
  ∀ ⦃s s' t⦄, rel s t → step s s' → ∃ t', ReflTransGen spec t t' ∧ rel s' t'

theorem Simulates.run (h : Simulates rel step spec) {s s' : S} {t : T} (hrun : ReflTransGen step s s')
    (hrel : rel s t) : ∃ t', ReflTransGen spec t t' ∧ rel s' t' := by
  induction hrun with
  | refl => exact ⟨t, .refl, hrel⟩
  | tail _ hstep ih =>
    obtain ⟨u, hspec, hu⟩ := ih
    obtain ⟨t', hspec', ht'⟩ := h hu hstep
    exact ⟨t', hspec.trans hspec', ht'⟩

/-- What the specification never loses holds of whatever is related to it. -/
theorem Simulates.run_preserves {specInv : T → Prop} (h : Simulates rel step spec)
    (hspec : Preserves spec specInv) {s s' : S} {t : T} (hrun : ReflTransGen step s s') (hrel : rel s t)
    (ht : specInv t) : ∃ t', rel s' t' ∧ specInv t' := by
  obtain ⟨t', hrun', hrel'⟩ := h.run hrun hrel
  exact ⟨t', hrel', hspec.run hrun' ht⟩

/-- A run that writes down what each step was. -/
inductive Recorded {L : Type*} (step : S → L → S → Prop) (start : S) : List L → S → Prop
  | nil : Recorded step start [] start
  | snoc {labels : List L} {label : L} {s t : S} :
      Recorded step start labels s → step s label t → Recorded step start (labels ++ [label]) t

section Recorded

variable {L : Type*} {labelled labelled' : S → L → S → Prop} {start s t : S} {labels later : List L} {label : L}

/-- The last step of a run. -/
theorem Recorded.last (h : Recorded labelled start (labels ++ [label]) t) :
    ∃ s, Recorded labelled start labels s ∧ labelled s label t := by
  generalize hall : labels ++ [label] = all at h
  cases h with
  | nil => simp at hall
  | snoc hrun hstep =>
    obtain ⟨rfl, hlast⟩ := List.append_inj' hall rfl
    obtain rfl := List.singleton_inj.mp hlast
    exact ⟨_, hrun, hstep⟩

/-- A run that is cut in two. -/
theorem Recorded.split (h : Recorded labelled start (labels ++ later) t) :
    ∃ s, Recorded labelled start labels s ∧ Recorded labelled s later t := by
  induction later using List.reverseRecOn generalizing t with
  | nil => exact ⟨t, by simpa using h, .nil⟩
  | append_singleton later label ih =>
    rw [← List.append_assoc] at h
    obtain ⟨s', hrun, hstep⟩ := h.last
    obtain ⟨s, hfirst, hlater⟩ := ih hrun
    exact ⟨s, hfirst, hlater.snoc hstep⟩

/-- Every label of a run is that of a step of it. -/
theorem Recorded.exists_step (h : Recorded labelled start labels t) (hlabel : label ∈ labels) :
    ∃ before s s', before ⊆ labels ∧ Recorded labelled start before s ∧ labelled s label s' := by
  induction h with
  | nil => cases hlabel
  | snoc hrun hstep ih =>
    obtain hlabel | hlabel := List.mem_append.mp hlabel
    · obtain ⟨before, s, s', hbefore, hfound⟩ := ih hlabel
      exact ⟨before, s, s', List.subset_append_of_subset_left _ hbefore, hfound⟩
    · obtain rfl := List.mem_singleton.mp hlabel
      exact ⟨_, _, _, List.subset_append_left _ _, hrun, hstep⟩

theorem Recorded.mono (hstep : ∀ ⦃s label t⦄, labelled s label t → labelled' s label t)
    (h : Recorded labelled start labels t) : Recorded labelled' start labels t := by
  induction h with
  | nil => exact .nil
  | snoc _ hlast ih => exact ih.snoc (hstep hlast)

/-- A run is no longer than what its steps can spend. -/
theorem Recorded.length_le {potential : S → ℕ} (hstep : ∀ ⦃s label t⦄, labelled s label t → potential t < potential s)
    (h : Recorded labelled start labels t) : labels.length + potential t ≤ potential start := by
  induction h with
  | nil => simp
  | snoc _ hlast ih =>
    have hspent := hstep hlast
    rw [List.length_append, List.length_singleton]
    omega

end Recorded

end OmpLazy.Foundation

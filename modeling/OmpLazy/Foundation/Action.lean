import Mathlib.Data.List.Basic

/-! Programs over a state that may stop early, and the rules for what holds before and after them. -/

namespace OmpLazy.Foundation

/-- A program over a state that may stop with an error; what it has written by then stays written. -/
abbrev Action (ε σ : Type) := ExceptT ε (StateM σ)

namespace Action

variable {ε σ α β : Type}

/-- The outcome of an action, and the state it leaves whatever the outcome is. -/
def exec (action : Action ε σ α) (s : σ) : Except ε α × σ := StateT.run (ExceptT.run action) s

@[simp] theorem exec_pure (x : α) (s : σ) : exec (pure x : Action ε σ α) s = (.ok x, s) := rfl

@[simp] theorem exec_throw (error : ε) (s : σ) :
    exec (throw error : Action ε σ α) s = (.error error, s) := rfl

theorem exec_bind (action : Action ε σ α) (next : α → Action ε σ β) (s : σ) :
    exec (action >>= next) s =
      match exec action s with
      | (.ok x, t) => exec (next x) t
      | (.error error, t) => (.error error, t) := by
  unfold exec
  rw [ExceptT.run_bind, StateT.run_bind]
  obtain ⟨outcome, t⟩ := StateT.run (ExceptT.run action) s
  cases outcome <;> rfl

@[simp] theorem exec_get (s : σ) : exec (get : Action ε σ σ) s = (.ok s, s) := rfl

@[simp] theorem exec_modify (write : σ → σ) (s : σ) :
    exec (modify write : Action ε σ PUnit) s = (.ok (), write s) := rfl

theorem exec_ite (p : Prop) [Decidable p] (yes no : Action ε σ α) (s : σ) :
    exec (if p then yes else no) s = if p then exec yes s else exec no s := by
  split <;> rfl

/-- From every state that meets `pre` the action ends in one that meets `post`, or stops in one that
meets `stopped`. -/
def Triple (pre : σ → Prop) (action : Action ε σ α) (post : α → σ → Prop) (stopped : σ → Prop) :
    Prop :=
  ∀ s, pre s → match exec action s with
    | (.ok x, t) => post x t
    | (.error _, t) => stopped t

namespace Triple

variable {pre pre' stopped : σ → Prop} {post mid : α → σ → Prop} {post' : β → σ → Prop}
  {action : Action ε σ α} {next : α → Action ε σ β}

theorem ret {x : α} (h : ∀ s, pre s → post x s) :
    Triple pre (pure x : Action ε σ α) post stopped := h

theorem stop {error : ε} (h : ∀ s, pre s → stopped s) :
    Triple pre (throw error : Action ε σ α) post stopped := h

theorem write {write : σ → σ} {post : PUnit → σ → Prop} (h : ∀ s, pre s → post () (write s)) :
    Triple pre (modify write : Action ε σ PUnit) post stopped := h

theorem seq (h : Triple pre action mid stopped) (hnext : ∀ x, Triple (mid x) (next x) post' stopped) :
    Triple pre (action >>= next) post' stopped := by
  intro s hs
  have hmid := h s hs
  rw [exec_bind]
  split at hmid
  · exact hnext _ _ hmid
  · exact hmid

/-- What an action reads is the state it goes on from. -/
theorem read {next : σ → Action ε σ β} (h : ∀ s, pre s → Triple (· = s) (next s) post' stopped) :
    Triple pre (get >>= next) post' stopped := by
  intro s hs
  have hnext := h s hs s rfl
  rwa [exec_bind, exec_get]

theorem branch {p : Prop} [Decidable p] {yes no : Action ε σ α}
    (hyes : p → Triple pre yes post stopped) (hno : ¬ p → Triple pre no post stopped) :
    Triple pre (if p then yes else no) post stopped := by
  split
  · exact hyes ‹_›
  · exact hno ‹_›

theorem strengthen (h : Triple pre action post stopped) (hpre : ∀ s, pre' s → pre s) :
    Triple pre' action post stopped := fun s hs ↦ h s (hpre s hs)

theorem weaken {post'' : α → σ → Prop} (h : Triple pre action post stopped)
    (hpost : ∀ x s, post x s → post'' x s) : Triple pre action post'' stopped := by
  intro s hs
  have hexec := h s hs
  split at hexec
  · exact hpost _ _ hexec
  · exact hexec

/-- What an action returned is also what its execution says. -/
theorem traced (h : Triple pre action post stopped) :
    Triple pre action (fun x t ↦ post x t ∧ ∃ s, pre s ∧ exec action s = (.ok x, t)) stopped := by
  intro s hs
  have hpost := h s hs
  split at hpost
  · exact ⟨hpost, s, hs, ‹_›⟩
  · exact hpost

/-- Of an action that has no rule, only its execution is known. -/
theorem executed : Triple pre action (fun x t ↦ ∃ s, pre s ∧ exec action s = (.ok x, t)) fun _ ↦ True := by
  intro s hs
  split
  · exact ⟨s, hs, ‹_›⟩
  · trivial

/-- A loop keeps what each of its rounds carries from the items before it to the items up to it. -/
theorem loop {ι : Type} {items : List ι} {body : ι → Action ε σ PUnit} {I : List ι → σ → Prop}
    (h : ∀ done item rest, items = done ++ item :: rest →
      Triple (I done) (body item) (fun _ ↦ I (done ++ [item])) stopped) :
    Triple (I []) (items.forM body) (fun _ ↦ I items) stopped := by
  suffices hsuffix : ∀ done rest, items = done ++ rest →
      Triple (I done) (rest.forM body) (fun _ ↦ I items) stopped from hsuffix [] items rfl
  intro done rest hitems
  induction rest generalizing done with
  | nil =>
    obtain rfl : items = done := by simpa using hitems
    exact ret fun _ hs ↦ hs
  | cons item rest ih =>
    have hrest := ih (done ++ [item]) (by simp [hitems])
    exact seq (h done item rest hitems) fun _ ↦ hrest

end Triple

end Action

end OmpLazy.Foundation

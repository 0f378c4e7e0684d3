import Mathlib.Data.List.Basic

/-! Checks that are made one after the other until one of them refuses. -/

namespace OmpLazy.Foundation

variable {ε α β : Type} {condition : Bool} {code : ε} {x : β}

def refuseIf (condition : Bool) (code : ε) : Except ε Unit := if condition then .error code else .ok ()

/-- The check of each of these, in their order. -/
def checkEach (check : α → Except ε Unit) : List α → Except ε Unit
  | [] => .ok ()
  | a :: as => do
    check a
    checkEach check as

theorem andThen_eq_ok {first : Except ε α} {rest : α → Except ε β} :
    (first >>= rest) = .ok x ↔ ∃ a, first = .ok a ∧ rest a = .ok x := by
  cases first <;> simp [bind, Except.bind]

theorem check_bind_eq_ok {first : Except ε Unit} {rest : Except ε β} :
    (first >>= fun _ ↦ rest) = .ok x ↔ first = .ok () ∧ rest = .ok x := by
  rw [andThen_eq_ok]
  exact ⟨fun ⟨_, hfirst, hrest⟩ ↦ ⟨hfirst, hrest⟩, fun ⟨hfirst, hrest⟩ ↦ ⟨(), hfirst, hrest⟩⟩

theorem refuseIf_eq_ok : refuseIf condition code = .ok () ↔ condition = false := by
  cases condition <;> simp [refuseIf]

theorem refuseIf_bind_eq_ok {rest : Except ε β} :
    (refuseIf condition code >>= fun _ ↦ rest) = .ok x ↔ condition = false ∧ rest = .ok x := by
  rw [check_bind_eq_ok, refuseIf_eq_ok]

theorem checkEach_eq_ok {check : α → Except ε Unit} {as : List α} :
    checkEach check as = .ok () ↔ ∀ a ∈ as, check a = .ok () := by
  induction as with
  | nil => simp [checkEach]
  | cons a as ih => rw [checkEach, check_bind_eq_ok, ih, List.forall_mem_cons]

end OmpLazy.Foundation

import Mathlib.Algebra.Order.BigOperators.Group.List
import Mathlib.Algebra.Order.Ring.Nat
import OmpLazy.Continuation.NoProgressBound
import OmpLazy.State.ReceiptLaws
import OmpLazy.State.ReceiptLedgers

/-! What the coordinator can do to a run on its own, before it comes to rest. -/

namespace OmpLazy.Continuation

open OmpLazy.Foundation OmpLazy.State OmpLazy.State.Sample OmpLazy.Workflows ReceiptAuthority

/-! The runs on which it decides. -/

section Deciding

variable {sessionId leafId : String} {snapshot : ContinuationSnapshot} {run : AnyRun}
  {authority : ReceiptAuthority} {decision : ContinuationDecision}

end Deciding

/-! What its events leave to do. -/

section Spending

variable {attempts : ℕ} {run next : AnyRun} {event : PersistedStateEvent} {authority : Option ReceiptAuthority}

end Spending

end OmpLazy.Continuation

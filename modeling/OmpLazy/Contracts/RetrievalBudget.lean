import OmpLazy.Contracts.TaskPacket

namespace OmpLazy.Contracts

open OmpLazy.Foundation OmpLazy.Foundation.Schema OmpLazy.Foundation.Text

structure RetrievalBudget where
  tier : TaskTier
  generalCalls : ℕ
  retrievalCalls : ℕ
  retrievalBytes : ℕ
  deriving DecidableEq, Repr

/-- What the schema of a budget asks of its counters. -/
def RetrievalBudget.accepted (budget : RetrievalBudget) : Bool :=
  let limits := tierBudgets budget.tier
  [budget.generalCalls, budget.retrievalCalls, budget.retrievalBytes].all (· ≤ maxSafeInteger) &&
    !(limits.maxCalls < budget.generalCalls || limits.maxRetrievalCalls < budget.retrievalCalls ||
      budget.generalCalls < budget.retrievalCalls || limits.maxRetrievalBytes < budget.retrievalBytes)

inductive RetrievalResult where
  | delivered (content : String)
  | empty
  | status
  deriving DecidableEq, Repr

/-- What the schema of a result asks of its content. -/
def RetrievalResult.accepted : RetrievalResult → Bool
  | .delivered content => 1 ≤ utf16Length content && utf16Length content ≤ 160 * 1024
  | .empty | .status => true

inductive RetrievalRefusalCode where
  | malformedRetrievalBudget
  | malformedRetrievalResult
  | generalCallBudgetExceeded
  | retrievalCallBudgetExceeded
  | retrievalByteBudgetExceeded
  deriving DecidableEq, Repr

def RetrievalRefusalCode.text : RetrievalRefusalCode → String
  | .malformedRetrievalBudget => "malformed_retrieval_budget"
  | .malformedRetrievalResult => "malformed_retrieval_result"
  | .generalCallBudgetExceeded => "general_call_budget_exceeded"
  | .retrievalCallBudgetExceeded => "retrieval_call_budget_exceeded"
  | .retrievalByteBudgetExceeded => "retrieval_byte_budget_exceeded"

def createRetrievalBudget (tier : TaskTier) : RetrievalBudget := ⟨tier, 0, 0, 0⟩

/-- A result against a budget: the next budget, or a refusal with the budget that was read. -/
def meterRetrievalResult (budget : RetrievalBudget) (result : RetrievalResult) :
    Except (RetrievalRefusalCode × RetrievalBudget) RetrievalBudget :=
  if !budget.accepted then .error (.malformedRetrievalBudget, createRetrievalBudget .fast)
  else if !result.accepted then .error (.malformedRetrievalResult, budget)
  else
    let limits := tierBudgets budget.tier
    if limits.maxCalls < budget.generalCalls + 1 then .error (.generalCallBudgetExceeded, budget)
    else
      match result with
      | .empty | .status => .ok { budget with generalCalls := budget.generalCalls + 1 }
      | .delivered content =>
        if limits.maxRetrievalCalls < budget.retrievalCalls + 1 then
          .error (.retrievalCallBudgetExceeded, budget)
        else
          let retrievalBytes := budget.retrievalBytes + content.utf8ByteSize
          if limits.maxRetrievalBytes < retrievalBytes then .error (.retrievalByteBudgetExceeded, budget)
          else .ok { budget with
            generalCalls := budget.generalCalls + 1
            retrievalCalls := budget.retrievalCalls + 1
            retrievalBytes }

/-- A call that is paid for. -/
def RetrievalBudget.charge (budget : RetrievalBudget) : RetrievalResult → RetrievalBudget
  | .empty | .status => { budget with generalCalls := budget.generalCalls + 1 }
  | .delivered content => { budget with
      generalCalls := budget.generalCalls + 1
      retrievalCalls := budget.retrievalCalls + 1
      retrievalBytes := budget.retrievalBytes + content.utf8ByteSize }

def RetrievalResult.bytes : RetrievalResult → ℕ
  | .delivered content => content.utf8ByteSize
  | .empty | .status => 0

section Laws

variable {budget next : RetrievalBudget} {result : RetrievalResult}

theorem createRetrievalBudget_accepted (tier : TaskTier) : (createRetrievalBudget tier).accepted := by
  cases tier <;> decide

theorem accepted_iff : budget.accepted = true ↔
    budget.generalCalls ≤ (tierBudgets budget.tier).maxCalls ∧
      budget.retrievalCalls ≤ (tierBudgets budget.tier).maxRetrievalCalls ∧
      budget.retrievalCalls ≤ budget.generalCalls ∧
      budget.retrievalBytes ≤ (tierBudgets budget.tier).maxRetrievalBytes := by
  -- the limits of the tiers are safe integers
  have hlimits : (tierBudgets budget.tier).maxCalls ≤ maxSafeInteger ∧
      (tierBudgets budget.tier).maxRetrievalBytes ≤ maxSafeInteger := by
    cases budget.tier <;> decide
  simp only [RetrievalBudget.accepted, List.all_cons, List.all_nil, Bool.and_true, Bool.and_eq_true,
    decide_eq_true_eq, Bool.not_eq_true', Bool.or_eq_false_iff, decide_eq_false_iff_not, not_lt]
  constructor
  · rintro ⟨-, ⟨⟨hcalls, hretrievals⟩, hordered⟩, hbytes⟩
    exact ⟨hcalls, hretrievals, hordered, hbytes⟩
  · rintro ⟨hcalls, hretrievals, hordered, hbytes⟩
    refine ⟨⟨?_, ?_, ?_⟩, ⟨⟨hcalls, hretrievals⟩, hordered⟩, hbytes⟩ <;> omega

theorem charge_tier : (budget.charge result).tier = budget.tier := by cases result <;> rfl

theorem charge_generalCalls : (budget.charge result).generalCalls = budget.generalCalls + 1 := by
  cases result <;> rfl

theorem charge_retrievalBytes :
    (budget.charge result).retrievalBytes = budget.retrievalBytes + result.bytes := by
  cases result <;> rfl

/-- A budget that is within its limits stays so. -/
theorem meterRetrievalResult_ok (hbudget : budget.accepted) (h : meterRetrievalResult budget result = .ok next) :
    next = budget.charge result ∧ next.accepted ∧ result.accepted := by
  simp only [meterRetrievalResult, hbudget, Bool.not_true, Bool.false_eq_true, if_false] at h
  rw [accepted_iff] at hbudget ⊢
  obtain ⟨hcalls, hretrievals, hordered, hbytes⟩ := hbudget
  split at h
  · cases h
  rename_i hresult
  simp only [Bool.not_eq_true', Bool.not_eq_false] at hresult
  split at h
  · cases h
  cases result with
  | empty | status =>
    cases h
    exact ⟨rfl, ⟨by simp only; omega, hretrievals, by simp only; omega, hbytes⟩, hresult⟩
  | delivered content =>
    simp only at h
    split at h
    · cases h
    split at h
    · cases h
    cases h
    exact ⟨rfl, ⟨by simp only; omega, by simp only; omega, by simp only; omega, by simp only; omega⟩, hresult⟩

end Laws

end OmpLazy.Contracts

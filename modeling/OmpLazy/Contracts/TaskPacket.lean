import OmpLazy.Foundation.Schema

namespace OmpLazy.Contracts

open OmpLazy.Foundation OmpLazy.Foundation.Schema OmpLazy.Foundation.Text

inductive TaskTier where
  | fast
  | standard
  | deep
  deriving DecidableEq, Repr

structure TierBudget where
  maxCalls : ℕ
  maxPacketBytes : ℕ
  maxRetrievalCalls : ℕ
  maxRetrievalBytes : ℕ
  deriving DecidableEq, Repr

def tierBudgets : TaskTier → TierBudget
  | .fast => ⟨3, 4 * 1024, 4, 16 * 1024⟩
  | .standard => ⟨11, 8 * 1024, 10, 64 * 1024⟩
  | .deep => ⟨28, 12 * 1024, 20, 160 * 1024⟩

inductive BoundaryTag where
  | none
  | unknown
  | authorization
  | containment
  | externalWrite
  | network
  | privacy
  | security
  deriving DecidableEq, Repr

structure PacketCriterion where
  id : String
  scenario : String
  observable : String
  expected : String
  evidenceLogicalId : String
  deriving DecidableEq, Repr

inductive EvidenceKind where
  | artifact
  | test
  | cleanup
  | citation
  deriving DecidableEq, Repr

structure EvidenceRequirement where
  logicalId : String
  kind : EvidenceKind
  required : Bool
  deriving DecidableEq, Repr

/-- A packet whose tags are not normalized yet, or are. -/
structure TaskPacketOf (Tag : Type) where
  runId : String
  taskId : String
  generation : ℕ
  objective : String
  deliverable : String
  allowedPaths : List String
  referenceIds : List String
  dependencyIds : List String
  criteria : List PacketCriterion
  boundaryTags : List Tag
  publicBehavior : Bool
  tier : TaskTier
  budgets : TierBudget
  evidenceRequirements : List EvidenceRequirement
  deriving DecidableEq, Repr

abbrev TaskPacketInput := TaskPacketOf String

abbrev TaskPacket := TaskPacketOf BoundaryTag

def tierMatchesBudget (tier : TaskTier) (budget : TierBudget) : Bool := budget = tierBudgets tier

/-- A packet that was compiled has the budget of its tier. -/
structure CompiledTaskPacket where
  packet : TaskPacket
  canonicalJson : String
  packetHash : String
  packetBytes : ℕ
  budgeted : tierMatchesBudget packet.tier packet.budgets
  deriving DecidableEq

def classifyTaskTier (allowedPaths : List String) (boundaryTags : List BoundaryTag)
    (publicBehavior : Bool) : TaskTier :=
  if boundaryTags.any (fun tag ↦ tag ≠ .none && tag ≠ .unknown) || 8 < allowedPaths.length then .deep
  else if .unknown ∈ boundaryTags || 3 ≤ allowedPaths.length || publicBehavior then .standard
  else .fast

theorem CompiledTaskPacket.budgets_eq (compiled : CompiledTaskPacket) :
    compiled.packet.budgets = tierBudgets compiled.packet.tier :=
  of_decide_eq_true compiled.budgeted

end OmpLazy.Contracts

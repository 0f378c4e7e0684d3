import OmpLazy.Contracts.CanonicalPacket

/-! The tier of some work, from its paths, its tags and what else is known of it. -/

namespace OmpLazy.Workflows.RiskClassifier

open OmpLazy.Foundation OmpLazy.Foundation.Text OmpLazy.Contracts

structure ClassifierInput where
  allowedPaths : List String
  moduleRoots : List String
  boundaryTags : List BoundaryTag
  explicitReview : Bool
  mutating : Bool
  publicBehavior : Bool
  deriving DecidableEq, Repr

inductive CriticPolicy where
  | none
  | afterDeterministicFailure
  | required
  deriving DecidableEq, Repr

structure TierCeiling extends TierBudget where
  maxActivePackets : ℕ
  maxSemanticRolesPerPacket : ℕ
  criticPolicy : CriticPolicy
  deriving DecidableEq, Repr

def riskTierCeilings : TaskTier → TierCeiling
  | .fast => ⟨tierBudgets .fast, 1, 1, .none⟩
  | .standard => ⟨tierBudgets .standard, 2, 2, .afterDeterministicFailure⟩
  | .deep => ⟨tierBudgets .deep, 4, 3, .required⟩

inductive RiskReason where
  | concreteBoundary
  | explicitReview
  | fileCount
  | unknownBoundary
  | moduleCount
  | publicBehavior
  | unknownMutationPath
  | boundedLocal
  deriving DecidableEq, Repr

structure RiskFeatures where
  fileCount : ℕ
  moduleCount : ℕ
  boundaryTags : List BoundaryTag
  explicitReview : Bool
  mutating : Bool
  publicBehavior : Bool
  deriving DecidableEq, Repr

structure RiskClassification where
  tier : TaskTier
  reason : RiskReason
  features : RiskFeatures
  ceilings : TierCeiling
  deriving DecidableEq, Repr

inductive RiskClassificationReceipt where
  | pass (classification : RiskClassification)
  | invalidClassifierInput
  deriving DecidableEq, Repr

variable (platform : Platform) (localeLe : String → String → Bool)

def canonicalPath (value : String) : Option String :=
  let value := trim value
  if value = "" ∨ 512 < utf16Length value ∨ '\\' ∈ value.toList ∨ platform.isAbsolute value ∨ startsWith "/" value ∨
      (value.toList.splitOn '/').contains ['.', '.'] ∨ (value ≠ "." ∧ platform.posixNormalize value ≠ value) then none
  else some value

def classifierInputSchema (input : ClassifierInput) : Option ClassifierInput := do
  let allowedPaths ← boundedItems 0 64 (canonicalPath platform) input.allowedPaths
  let moduleRoots ← boundedItems 0 64 (canonicalPath platform) input.moduleRoots
  let boundaryTags ← boundedItems 1 8 some input.boundaryTags
  guard (allowedPaths.Nodup && moduleRoots.Nodup)
  guard !(allowedPaths.isEmpty && !moduleRoots.isEmpty)
  guard !(boundaryTags.contains .none && boundaryTags.length ≠ 1)
  return { input with allowedPaths, moduleRoots, boundaryTags }

def orderedUnique (tags : List BoundaryTag) : List BoundaryTag :=
  tags.dedup.mergeSort fun left right ↦ localeLe left.name right.name

def concreteTags (tags : List BoundaryTag) : List BoundaryTag :=
  tags.filter fun tag ↦ tag ≠ .none && tag ≠ .unknown

def riskFeatures (input : ClassifierInput) : RiskFeatures where
  fileCount := input.allowedPaths.length
  moduleCount := input.moduleRoots.length
  boundaryTags := orderedUnique localeLe
    (if (concreteTags input.boundaryTags).isEmpty then input.boundaryTags else concreteTags input.boundaryTags)
  explicitReview := input.explicitReview
  mutating := input.mutating
  publicBehavior := input.publicBehavior

/-- The first signal that is there decides. -/
def tierAndReason (isConcrete : Bool) (features : RiskFeatures) : TaskTier × RiskReason :=
  if isConcrete then (.deep, .concreteBoundary)
  else if features.explicitReview then (.deep, .explicitReview)
  else if 8 < features.fileCount then (.deep, .fileCount)
  else if features.boundaryTags.contains .unknown then (.standard, .unknownBoundary)
  else if 3 ≤ features.fileCount then (.standard, .fileCount)
  else if 1 < features.moduleCount then (.standard, .moduleCount)
  else if features.publicBehavior then (.standard, .publicBehavior)
  else if features.mutating && features.fileCount = 0 then (.standard, .unknownMutationPath)
  else (.fast, .boundedLocal)

def classifyWorkflowRisk (input : ClassifierInput) : RiskClassificationReceipt :=
  match classifierInputSchema platform input with
  | none => .invalidClassifierInput
  | some parsed =>
    let features := riskFeatures localeLe parsed
    let (tier, reason) := tierAndReason (!(concreteTags parsed.boundaryTags).isEmpty) features
    .pass ⟨tier, reason, features, riskTierCeilings tier⟩

end OmpLazy.Workflows.RiskClassifier

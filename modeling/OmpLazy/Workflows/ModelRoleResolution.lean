import OmpLazy.Contracts.CompileTaskPacket

/-! Which model a worker runs on, from one role or along a chain of them. -/

namespace OmpLazy.Workflows.ModelRole

open OmpLazy.Foundation OmpLazy.Foundation.Text OmpLazy.Contracts

inductive ModelPattern where
  | one (value : String)
  | many (values : List String)
  deriving DecidableEq, Repr

inductive RoleName where
  | smol
  | task
  | slow
  deriving DecidableEq, Repr

def RoleName.name : RoleName → String
  | .smol => "smol"
  | .task => "task"
  | .slow => "slow"

structure RoleModels where
  smol : Option String
  task : Option String
  slow : Option String
  deriving DecidableEq, Repr

def RoleModels.get (models : RoleModels) : RoleName → Option String
  | .smol => models.smol
  | .task => models.task
  | .slow => models.slow

structure CatalogModel where
  provider : String
  model : String
  deriving DecidableEq, Repr

structure ResolutionInput where
  agentName : String
  agentModel : Option ModelPattern
  agentModelOverrides : List (String × ModelPattern)
  roleModels : RoleModels
  catalogModels : List CatalogModel
  availableProviders : List String
  deriving DecidableEq, Repr

inductive ResolutionSource where
  | userOverride
  | agentDefault
  deriving DecidableEq, Repr

inductive ResolutionCode where
  | invalidResolutionInput
  | invalidModelRole
  | providerUnavailable
  | modelUnavailable
  deriving DecidableEq, Repr

/-- The role of one of the agents that are registered. -/
def resolveAgentDefaultRole : String → Option String
  | "omp-lazy-worker-low" => some "@smol"
  | "omp-lazy-worker-medium" => some "@task"
  | "omp-lazy-worker-high" => some "@slow"
  | "omp-lazy-explorer" => some "@smol"
  | "omp-lazy-librarian" => some "@smol"
  | "omp-lazy-researcher" => some "@task"
  | "omp-lazy-planner" => some "@slow"
  | "omp-lazy-metis" => some "@slow"
  | "omp-lazy-momus" => some "@slow"
  | "omp-lazy-qa" => some "@task"
  | "omp-lazy-reviewer" => some "@slow"
  | _ => none

/-- `ModelRoleAliasSchema` and `roleName` -/
def modelRoleAlias : String → Option RoleName
  | "@smol" => some .smol
  | "@task" => some .task
  | "@slow" => some .slow
  | _ => none

/-- `candidate.slice(1) || null` -/
def unknownRole (candidate : String) : Option String :=
  if candidate.toList.drop 1 = [] then none else some (String.ofList (candidate.toList.drop 1))

/-- What stands before and after the first `/`, when there is something on both sides. -/
def splitSelector (selector : String) : Option (String × String) :=
  let provider := selector.toList.takeWhile (· ≠ '/')
  let model := (selector.toList.dropWhile (· ≠ '/')).drop 1
  if provider = [] ∨ model = [] then none else some (String.ofList provider, String.ofList model)

def patterns (value : ModelPattern) : List String :=
  let values := match value with
    | .one value => [value]
    | .many values => values
  ((values.flatMap fun entry ↦ (entry.toList.splitOn ',').map String.ofList).map trim).filter (· ≠ "")

/-! Along a chain. -/

inductive AttemptOutcome where
  | resolved
  | providerUnavailable
  | modelUnavailable
  | invalidModelRole
  deriving DecidableEq, Repr

structure ProvenanceAttempt where
  agentName : String
  attemptIndex : ℕ
  selector : String
  role : Option RoleName
  outcome : AttemptOutcome
  deriving DecidableEq, Repr

structure ChainResolutionInput where
  agentName : String
  chain : List String
  agentModelOverrides : List (String × ModelPattern)
  roleModels : RoleModels
  catalogModels : List CatalogModel
  availableProviders : List String
  runId : String
  deriving DecidableEq, Repr

structure ResolvedModel where
  agentName : String
  source : ResolutionSource
  selector : String
  role : Option RoleName
  provider : String
  model : String
  deriving DecidableEq, Repr

inductive ModelRoleResolutionReceiptV2 where
  | pass (resolved : ResolvedModel) (attemptIndex : ℕ) (attempts : List ProvenanceAttempt)
  | blocked (agentName : String) (source : Option ResolutionSource) (selector role : Option String)
      (code : ResolutionCode) (attempts : List ProvenanceAttempt)
  deriving DecidableEq, Repr

inductive FinalStatus where
  | pass
  | blocked
  deriving DecidableEq, Repr

structure ModelChainProvenanceRecord where
  runId : String
  agentName : String
  attempts : List ProvenanceAttempt
  finalStatus : FinalStatus
  resolvedAttemptIndex : Option ℕ
  deriving DecidableEq, Repr

structure ChainResolutionResult where
  receipt : ModelRoleResolutionReceiptV2
  provenance : Option ModelChainProvenanceRecord
  deriving DecidableEq, Repr

section Chain

variable (input : ChainResolutionInput) (source : ResolutionSource)

/-- The candidates from some place of the chain on, after the attempts before it. -/
def resolveCandidates (i : ℕ) (attempts : List ProvenanceAttempt) : List String → ModelRoleResolutionReceiptV2
  | [] =>
    .blocked input.agentName source (attempts.getLast?.map (·.selector))
      (attempts.getLast?.bind fun attempt ↦ attempt.role.map RoleName.name) .modelUnavailable attempts
  | candidate :: rest =>
    let role := modelRoleAlias candidate
    let attempt := fun outcome ↦ attempts ++ [⟨input.agentName, i, candidate, role, outcome⟩]
    if startsWith "@" candidate ∧ role = none then
      .blocked input.agentName source candidate (unknownRole candidate) .invalidModelRole (attempt .invalidModelRole)
    else
      let resolvedSelector := match role with
        | none => some candidate
        | some role => input.roleModels.get role
      match resolvedSelector with
      | none =>
        .blocked input.agentName source candidate (role.map RoleName.name) .invalidModelRole
          (attempt .invalidModelRole)
      | some resolvedSelector =>
        match splitSelector resolvedSelector with
        | none =>
          .blocked input.agentName source candidate (role.map RoleName.name) .invalidModelRole
            (attempt .invalidModelRole)
        | some (provider, model) =>
          if provider ∉ input.availableProviders then
            resolveCandidates (i + 1) (attempt .providerUnavailable) rest
          else if ⟨provider, model⟩ ∉ input.catalogModels then
            resolveCandidates (i + 1) (attempt .modelUnavailable) rest
          else .pass ⟨input.agentName, source, candidate, role, provider, model⟩ i (attempt .resolved)

end Chain

def maxChainLength : ℕ := 8

def buildProvenance (runId agentName : String) : ModelRoleResolutionReceiptV2 → ModelChainProvenanceRecord
  | .pass _ attemptIndex attempts => ⟨runId, agentName, attempts, .pass, some attemptIndex⟩
  | .blocked _ _ _ _ _ attempts => ⟨runId, agentName, attempts, .blocked, none⟩

def resolveWorkerModelChain (input : ChainResolutionInput) : ChainResolutionResult :=
  if input.chain.length = 0 ∨ maxChainLength < input.chain.length then
    ⟨.blocked input.agentName none none none .invalidModelRole [], none⟩
  else
    let override := input.agentModelOverrides.lookup input.agentName
    let source := if override.isSome then ResolutionSource.userOverride else .agentDefault
    let effectiveChain := match override with
      | some value => patterns value
      | none => input.chain
    let receipt := resolveCandidates input source 0 [] effectiveChain
    ⟨receipt, some (buildProvenance input.runId input.agentName receipt)⟩

/-! From a role. -/

def selector : String → Option String := boundedText 512

def modelPattern : ModelPattern → Option ModelPattern
  | .one value => (selector value).map .one
  | .many values => (boundedItems 1 8 selector values).map .many

/-- `schema.optional()` -/
def ifPresent {α : Type} (schema : α → Option α) : Option α → Option (Option α)
  | none => some none
  | some value => (schema value).map some

def catalogModel (entry : CatalogModel) : Option CatalogModel := do
  return ⟨← selector entry.provider, ← selector entry.model⟩

def resolutionInputSchema (input : ResolutionInput) : Option ResolutionInput := do
  return {
    agentName := ← boundedText 160 input.agentName
    agentModel := ← ifPresent modelPattern input.agentModel
    agentModelOverrides := ← input.agentModelOverrides.mapM fun entry ↦ (modelPattern entry.2).map (entry.1, ·)
    roleModels := ⟨← ifPresent selector input.roleModels.smol, ← ifPresent selector input.roleModels.task,
      ← ifPresent selector input.roleModels.slow⟩
    catalogModels := ← input.catalogModels.mapM catalogModel
    availableProviders := ← input.availableProviders.mapM selector }

inductive ModelRoleResolutionReceipt where
  | pass (resolved : ResolvedModel)
  | blocked (agentName : Option String) (source : Option ResolutionSource) (selector role : Option String)
      (code : ResolutionCode)
  deriving DecidableEq, Repr

section Role

variable (input : ResolutionInput) (source : ResolutionSource)

def blocked (selector : String) (role : Option String) (code : ResolutionCode) : ModelRoleResolutionReceipt :=
  .blocked input.agentName source selector role code

/-- The candidates that are left, after the last failure so far. -/
def tryCandidates (lastFailure : Option ModelRoleResolutionReceipt) : List String → ModelRoleResolutionReceipt
  | [] => lastFailure.getD (blocked input source "" none .invalidModelRole)
  | candidate :: rest =>
    let role := modelRoleAlias candidate
    if startsWith "@" candidate ∧ role = none then
      blocked input source candidate (unknownRole candidate) .invalidModelRole
    else
      let resolvedSelector := match role with
        | none => some candidate
        | some role => input.roleModels.get role
      match resolvedSelector with
      | none => blocked input source candidate (role.map RoleName.name) .invalidModelRole
      | some resolvedSelector =>
        match splitSelector resolvedSelector with
        | none => blocked input source candidate (role.map RoleName.name) .invalidModelRole
        | some (provider, model) =>
          if provider ∉ input.availableProviders then
            tryCandidates (blocked input source candidate (role.map RoleName.name) .providerUnavailable) rest
          else if ⟨provider, model⟩ ∉ input.catalogModels then
            tryCandidates (blocked input source candidate (role.map RoleName.name) .modelUnavailable) rest
          else .pass ⟨input.agentName, source, candidate, role, provider, model⟩

end Role

def resolveWorkerModelRole (inputValue : ResolutionInput) : ModelRoleResolutionReceipt :=
  match resolutionInputSchema inputValue with
  | none => .blocked none none none none .invalidResolutionInput
  | some input =>
    let override := input.agentModelOverrides.lookup input.agentName
    let source := if override.isSome then ResolutionSource.userOverride else .agentDefault
    match override.or (input.agentModel.or ((resolveAgentDefaultRole input.agentName).map .one)) with
    | none => blocked input source "" none .invalidModelRole
    | some configured => tryCandidates input source none (patterns configured)

end OmpLazy.Workflows.ModelRole

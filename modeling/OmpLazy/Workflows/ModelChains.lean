import OmpLazy.Workflows.ModelRoleResolution
import Mathlib.Data.List.Induction

/-! A chain of models and the role it stands for. -/

namespace OmpLazy.Workflows.ModelRole

open OmpLazy.Foundation OmpLazy.Foundation.Text OmpLazy.Contracts

/-! One candidate. -/

section Probe

/-- What becomes of a candidate. -/
inductive Probe where
  | invalid (role : Option String)
  | missingProvider
  | missingModel
  | found (provider model : String)
  deriving DecidableEq

namespace Probe

def outcome : Probe → AttemptOutcome
  | invalid _ => .invalidModelRole
  | missingProvider => .providerUnavailable
  | missingModel => .modelUnavailable
  | found _ _ => .resolved

def code : Probe → ResolutionCode
  | missingProvider => .providerUnavailable
  | missingModel => .modelUnavailable
  | _ => .invalidModelRole

/-- The next candidate has its turn. -/
def Passes (probe : Probe) : Prop := probe = missingProvider ∨ probe = missingModel

instance (probe : Probe) : Decidable probe.Passes := inferInstanceAs (Decidable (_ ∨ _))

def elim {α : Type} (onInvalid : Option String → α) (onMissingProvider onMissingModel : α)
    (onFound : String → String → α) : Probe → α
  | invalid role => onInvalid role
  | missingProvider => onMissingProvider
  | missingModel => onMissingModel
  | found provider model => onFound provider model

end Probe

structure Registry where
  roleModels : RoleModels
  catalogModels : List CatalogModel
  availableProviders : List String

def Registry.probeSelector (registry : Registry) (role : Option String) (resolvedSelector : Option String) : Probe :=
  match resolvedSelector.bind splitSelector with
  | none => .invalid role
  | some (provider, model) =>
    if provider ∉ registry.availableProviders then .missingProvider
    else if ⟨provider, model⟩ ∉ registry.catalogModels then .missingModel
    else .found provider model

def Registry.probe (registry : Registry) (candidate : String) : Probe :=
  match modelRoleAlias candidate with
  | none =>
    if startsWith "@" candidate then .invalid (unknownRole candidate) else registry.probeSelector none candidate
  | some role => registry.probeSelector role.name (registry.roleModels.get role)

def ChainResolutionInput.registry (input : ChainResolutionInput) : Registry :=
  ⟨input.roleModels, input.catalogModels, input.availableProviders⟩

def ResolutionInput.registry (input : ResolutionInput) : Registry :=
  ⟨input.roleModels, input.catalogModels, input.availableProviders⟩

def ChainResolutionInput.attemptAt (input : ChainResolutionInput) (i : ℕ) (candidate : String) : ProvenanceAttempt :=
  ⟨input.agentName, i, candidate, modelRoleAlias candidate, (input.registry.probe candidate).outcome⟩

end Probe

/-! One turn of each loop. -/

section Turns

variable {source : ResolutionSource} {i : ℕ} {attempts : List ProvenanceAttempt} {candidate : String}
  {rest : List String} {lastFailure : Option ModelRoleResolutionReceipt}

theorem resolveCandidates_cons (input : ChainResolutionInput) :
    resolveCandidates input source i attempts (candidate :: rest) =
      let next := resolveCandidates input source (i + 1) (attempts ++ [input.attemptAt i candidate]) rest
      (input.registry.probe candidate).elim
        (fun role ↦ .blocked input.agentName source candidate role .invalidModelRole
          (attempts ++ [input.attemptAt i candidate]))
        next next
        (fun provider model ↦ .pass ⟨input.agentName, source, candidate, modelRoleAlias candidate, provider, model⟩ i
          (attempts ++ [input.attemptAt i candidate])) := by
  rw [resolveCandidates]
  unfold ChainResolutionInput.attemptAt Registry.probe Registry.probeSelector ChainResolutionInput.registry
  cases halias : modelRoleAlias candidate with
  | none => grind [Probe.elim, Probe.outcome]
  | some role => grind [Probe.elim, Probe.outcome]

theorem tryCandidates_cons (input : ResolutionInput) :
    tryCandidates input source lastFailure (candidate :: rest) =
      let failure := fun code ↦ blocked input source candidate ((modelRoleAlias candidate).map RoleName.name) code
      (input.registry.probe candidate).elim (fun role ↦ blocked input source candidate role .invalidModelRole)
        (tryCandidates input source (failure .providerUnavailable) rest)
        (tryCandidates input source (failure .modelUnavailable) rest)
        (fun provider model ↦ .pass ⟨input.agentName, source, candidate, modelRoleAlias candidate, provider, model⟩) := by
  rw [tryCandidates]
  unfold Registry.probe Registry.probeSelector ResolutionInput.registry
  cases halias : modelRoleAlias candidate with
  | none => grind [Probe.elim]
  | some role => grind [Probe.elim]

end Turns

/-! Both loops along one list. -/

section Loops

variable {source : ResolutionSource} {i : ℕ} {attempts : List ProvenanceAttempt} {candidate : String}
  {pre rest : List String} {lastFailure : Option ModelRoleResolutionReceipt}

/-- Behind candidates that pass, the chain has recorded each of them. -/
theorem resolveCandidates_append {input : ChainResolutionInput} (h : ∀ c ∈ pre, (input.registry.probe c).Passes) :
    resolveCandidates input source i attempts (pre ++ rest) =
      resolveCandidates input source (i + pre.length)
        (attempts ++ pre.mapIdx fun j c ↦ input.attemptAt (i + j) c) rest := by
  induction pre generalizing i attempts with
  | nil => simp
  | cons candidate pre ih =>
    obtain ⟨hcandidate, hpre⟩ := List.forall_mem_cons.mp h
    have hturn : resolveCandidates input source i attempts (candidate :: (pre ++ rest)) =
        resolveCandidates input source (i + 1) (attempts ++ [input.attemptAt i candidate]) (pre ++ rest) := by
      rw [resolveCandidates_cons]
      obtain hprobe | hprobe := hcandidate <;> rw [hprobe] <;> rfl
    rw [List.cons_append, hturn, ih hpre, List.mapIdx_cons, List.append_assoc, List.singleton_append, List.length_cons]
    simp only [Nat.add_zero, Nat.add_assoc, Nat.add_comm 1]

/-- The failure that the role resolver keeps of a candidate that passes. -/
def ResolutionInput.failureAt (input : ResolutionInput) (source : ResolutionSource) (candidate : String) :
    ModelRoleResolutionReceipt :=
  blocked input source candidate ((modelRoleAlias candidate).map RoleName.name) (input.registry.probe candidate).code

theorem tryCandidates_append {input : ResolutionInput} (h : ∀ c ∈ pre, (input.registry.probe c).Passes) :
    tryCandidates input source lastFailure (pre ++ rest) =
      tryCandidates input source ((pre.getLast?.map (input.failureAt source)).or lastFailure) rest := by
  induction pre generalizing lastFailure with
  | nil => simp
  | cons candidate pre ih =>
    obtain ⟨hcandidate, hpre⟩ := List.forall_mem_cons.mp h
    have hturn : tryCandidates input source lastFailure (candidate :: (pre ++ rest)) =
        tryCandidates input source (input.failureAt source candidate) (pre ++ rest) := by
      rw [tryCandidates_cons, ResolutionInput.failureAt]
      obtain hprobe | hprobe := hcandidate <;> rw [hprobe] <;> rfl
    rw [List.cons_append, hturn, ih hpre]
    cases pre with
    | nil => rfl
    | cons next pre =>
      rw [List.getLast?_cons_cons, List.getLast?_eq_some_getLast (List.cons_ne_nil next pre)]
      rfl

/-- Every list passes as a whole or up to a candidate that decides. -/
theorem exists_decisive (probe : String → Probe) (candidates : List String) :
    (∀ c ∈ candidates, (probe c).Passes) ∨ ∃ pre candidate rest, candidates = pre ++ candidate :: rest ∧
      (∀ c ∈ pre, (probe c).Passes) ∧ ¬ (probe candidate).Passes := by
  induction candidates with
  | nil => exact .inl (List.forall_mem_nil _)
  | cons candidate candidates ih =>
    by_cases hcandidate : (probe candidate).Passes
    · obtain hall | ⟨pre, next, rest, rfl, hpre, hnext⟩ := ih
      · exact .inl (List.forall_mem_cons.mpr ⟨hcandidate, hall⟩)
      · exact .inr ⟨candidate :: pre, next, rest, rfl, List.forall_mem_cons.mpr ⟨hcandidate, hpre⟩, hnext⟩
    · exact .inr ⟨[], candidate, candidates, rfl, List.forall_mem_nil _, hcandidate⟩

end Loops

/-! Inputs whose texts are trimmed. -/

section Inputs

variable {input : ChainResolutionInput} {α β : Type}

def Pattern (s : String) : Prop := Trimmed s ∧ ',' ∉ s.toList

instance (s : String) : Decidable (Pattern s) := inferInstanceAs (Decidable (_ ∧ _))

/-- One to eight patterns. -/
def Patterns (values : List String) : Prop := values ≠ [] ∧ values.length ≤ 8 ∧ ∀ s ∈ values, Pattern s

instance (values : List String) : Decidable (Patterns values) := inferInstanceAs (Decidable (_ ∧ _ ∧ _))

def ModelPattern.values : ModelPattern → List String
  | .one value => [value]
  | .many values => values

structure WellFormed (input : ChainResolutionInput) : Prop where
  agentName : Trimmed input.agentName
  chain : Patterns input.chain
  overrides : ∀ entry ∈ input.agentModelOverrides, Patterns entry.2.values
  roleModels : ∀ role, ∀ s ∈ input.roleModels.get role, Trimmed s
  catalogModels : ∀ entry ∈ input.catalogModels, Trimmed entry.provider ∧ Trimmed entry.model
  availableProviders : ∀ s ∈ input.availableProviders, Trimmed s

/-- The input of the role resolver for the chain of an agent. -/
def ChainResolutionInput.roleInput (input : ChainResolutionInput) : ResolutionInput where
  agentName := input.agentName
  agentModel := some (.many input.chain)
  agentModelOverrides := input.agentModelOverrides
  roleModels := input.roleModels
  catalogModels := input.catalogModels
  availableProviders := input.availableProviders

theorem patterns_eq {value : ModelPattern} (h : ∀ s ∈ value.values, Pattern s) : patterns value = value.values := by
  have hvalues : patterns value =
      ((value.values.flatMap fun entry ↦ (entry.toList.splitOn ',').map String.ofList).map trim).filter (· ≠ "") := by
    cases value <;> rfl
  rw [hvalues]
  generalize value.values = values at h
  induction values with
  | nil => rfl
  | cons s values ih =>
    obtain ⟨⟨htrim, hcomma⟩, hvalues⟩ := List.forall_mem_cons.mp h
    have hsplit : s.toList.splitOn ',' = [s.toList] := List.splitOn_eq_singleton hcomma
    rw [List.flatMap_cons, hsplit, List.map_cons, List.map_nil, String.ofList_toList, List.singleton_append,
      List.map_cons, htrim.1, List.filter_cons_of_pos (by simpa using htrim.2), ih hvalues]

/-- A schema that changes nothing in what it accepts of some value. -/
def Keeps (schema : α → Option α) (x : α) : Prop := ∀ y, schema x = some y → y = x

theorem keeps_text {most : ℕ} {s : String} (h : Trimmed s) : Keeps (boundedText most) s := by
  intro t ht
  rw [boundedText] at ht
  split at ht
  · cases ht
  · exact (Option.some.inj ht).symm.trans h.1

theorem keeps_mapM {schema : α → Option α} {xs : List α} (h : ∀ x ∈ xs, Keeps schema x) :
    Keeps (List.mapM schema) xs := by
  intro ys hys
  have hsame := Schema.mapM_eq_some.mp hys
  clear hys
  induction hsame with
  | nil => rfl
  | cons hxy _ ih =>
    obtain ⟨hx, hxs⟩ := List.forall_mem_cons.mp h
    rw [hx _ hxy, ih hxs]

theorem keeps_boundedItems {least most : ℕ} {schema : α → Option α} {xs : List α} (h : ∀ x ∈ xs, Keeps schema x) :
    Keeps (boundedItems least most schema) xs := by
  intro ys hys
  rw [boundedItems] at hys
  split at hys
  · cases hys
  · exact keeps_mapM h ys hys

theorem keeps_modelPattern {value : ModelPattern} (h : ∀ s ∈ value.values, Pattern s) : Keeps modelPattern value := by
  intro read hread
  cases value with
  | one s =>
    obtain ⟨t, ht, rfl⟩ := Option.map_eq_some_iff.mp hread
    rw [keeps_text (h s List.mem_cons_self).1 t ht]
  | many values =>
    obtain ⟨read, hvalues, rfl⟩ := Option.map_eq_some_iff.mp hread
    have hsame : read = values := keeps_boundedItems (fun s hs ↦ keeps_text (h s hs).1) read hvalues
    rw [hsame]

theorem keeps_ifPresent {schema : α → Option α} {o : Option α} (h : ∀ x ∈ o, Keeps schema x) :
    Keeps (ifPresent schema) o := by
  intro p hp
  cases o with
  | none => exact (Option.some.inj hp).symm
  | some x =>
    obtain ⟨y, hy, rfl⟩ := Option.map_eq_some_iff.mp hp
    rw [h x rfl y hy]

theorem keeps_catalogModel {entry : CatalogModel} (h : Trimmed entry.provider ∧ Trimmed entry.model) :
    Keeps catalogModel entry := by
  intro read hread
  obtain ⟨provider, hprovider, hread⟩ := Option.bind_eq_some_iff.mp hread
  obtain ⟨model, hmodel, hread⟩ := Option.bind_eq_some_iff.mp hread
  obtain rfl := Option.some.inj hread
  rw [keeps_text h.1 provider hprovider, keeps_text h.2 model hmodel]

theorem keeps_override {entry : String × ModelPattern} (h : ∀ s ∈ entry.2.values, Pattern s) :
    Keeps (fun entry : String × ModelPattern ↦ (modelPattern entry.2).map (entry.1, ·)) entry := by
  intro read hread
  obtain ⟨value, hvalue, rfl⟩ := Option.map_eq_some_iff.mp hread
  rw [keeps_modelPattern h value hvalue]

/-- The schema accepts an input as it is or not at all. -/
theorem keeps_roleInput (h : WellFormed input) : Keeps resolutionInputSchema input.roleInput := by
  intro read hread
  simp only [resolutionInputSchema, Option.bind_eq_bind, Option.bind_eq_some_iff, Option.pure_def,
    Option.some.injEq] at hread
  obtain ⟨agentName, hagentName, agentModel, hagentModel, overrides, hoverrides, smol, hsmol, task, htask, slow, hslow,
    catalog, hcatalog, providers, hproviders, rfl⟩ := hread
  have hmodel : ∀ value ∈ input.roleInput.agentModel, Keeps modelPattern value := by
    intro value hvalue
    obtain rfl := Option.some.inj hvalue
    exact keeps_modelPattern h.chain.2.2
  have hroles : ∀ role, Keeps (ifPresent selector) (input.roleModels.get role) :=
    fun role ↦ keeps_ifPresent fun s hs ↦ keeps_text (h.roleModels role s hs)
  rw [keeps_text h.agentName agentName hagentName, keeps_ifPresent hmodel agentModel hagentModel,
    keeps_mapM (fun entry hentry ↦ keeps_override (h.overrides entry hentry).2.2) overrides hoverrides,
    hroles .smol smol hsmol, hroles .task task htask, hroles .slow slow hslow,
    keeps_mapM (fun entry hentry ↦ keeps_catalogModel (h.catalogModels entry hentry)) catalog hcatalog,
    keeps_mapM (fun s hs ↦ keeps_text (h.availableProviders s hs)) providers hproviders]
  rfl

end Inputs

/-! The two resolvers. -/

section Resolvers

variable {input : ChainResolutionInput}

def sourceOf (input : ChainResolutionInput) : ResolutionSource :=
  if (input.agentModelOverrides.lookup input.agentName).isSome then .userOverride else .agentDefault

/-- The candidates of an agent: those that a user gave it, or the chain. -/
def effectiveChain (input : ChainResolutionInput) : List String :=
  ((input.agentModelOverrides.lookup input.agentName).getD (.many input.chain)).values

theorem lookup_mem {key : String} {value : ModelPattern} {entries : List (String × ModelPattern)}
    (h : entries.lookup key = some value) : ∃ entry ∈ entries, entry.2 = value := by
  induction entries with
  | nil => cases h
  | cons entry entries ih =>
    rw [List.lookup_cons] at h
    split at h
    · exact ⟨entry, List.mem_cons_self, Option.some.inj h⟩
    · obtain ⟨found, hfound, heq⟩ := ih h
      exact ⟨found, List.mem_cons_of_mem _ hfound, heq⟩

theorem effectiveChain_patterns (h : WellFormed input) : Patterns (effectiveChain input) := by
  rw [effectiveChain]
  cases hlookup : input.agentModelOverrides.lookup input.agentName with
  | none => exact h.chain
  | some value =>
    obtain ⟨entry, hentry, rfl⟩ := lookup_mem hlookup
    exact h.overrides entry hentry

theorem resolveWorkerModelChain_eq (h : WellFormed input) : (resolveWorkerModelChain input).receipt =
    resolveCandidates input (sourceOf input) 0 [] (effectiveChain input) := by
  have hlength : ¬ (input.chain.length = 0 ∨ maxChainLength < input.chain.length) := by
    have hpos := List.length_pos_iff.mpr h.chain.1
    have hmost := h.chain.2.1
    rw [maxChainLength]
    omega
  have hpatterns := effectiveChain_patterns h
  rw [resolveWorkerModelChain, if_neg hlength, effectiveChain, sourceOf]
  rw [effectiveChain] at hpatterns
  cases hlookup : input.agentModelOverrides.lookup input.agentName with
  | none => rfl
  | some value =>
    rw [hlookup, Option.getD_some] at hpatterns
    dsimp only
    rw [patterns_eq hpatterns.2.2, Option.getD_some]

theorem resolveWorkerModelRole_eq (h : WellFormed input)
    (haccepts : (resolutionInputSchema input.roleInput).isSome = true) : resolveWorkerModelRole input.roleInput =
      tryCandidates input.roleInput (sourceOf input) none (effectiveChain input) := by
  obtain ⟨read, hread⟩ := Option.isSome_iff_exists.mp haccepts
  obtain rfl := keeps_roleInput h read hread
  have hpatterns := effectiveChain_patterns h
  rw [resolveWorkerModelRole, hread, effectiveChain, sourceOf]
  rw [effectiveChain] at hpatterns
  dsimp only [ChainResolutionInput.roleInput]
  cases hlookup : input.agentModelOverrides.lookup input.agentName with
  | none =>
    rw [hlookup] at hpatterns
    exact congrArg _ (patterns_eq hpatterns.2.2)
  | some value =>
    rw [hlookup] at hpatterns
    exact congrArg _ (patterns_eq hpatterns.2.2)

/-- The first candidate that is found, with the attempts up to it. -/
structure FirstResolvable (input : ChainResolutionInput) (resolved : ResolvedModel) (attemptIndex : ℕ)
    (attempts : List ProvenanceAttempt) : Prop where
  source : resolved.source = sourceOf input
  role : resolved.role = modelRoleAlias resolved.selector
  found : input.registry.probe resolved.selector = .found resolved.provider resolved.model
  first : ∃ pre rest, effectiveChain input = pre ++ resolved.selector :: rest ∧
    (∀ c ∈ pre, (input.registry.probe c).Passes) ∧ attemptIndex = pre.length ∧
    attempts = (pre ++ [resolved.selector]).mapIdx input.attemptAt

/-- The two resolvers agree on the chain of an agent. -/
def ResolversAgree (input : ChainResolutionInput) : Prop :=
  match (resolveWorkerModelChain input).receipt, resolveWorkerModelRole input.roleInput with
  | .pass resolved attemptIndex attempts, .pass resolved' =>
    resolved' = resolved ∧ FirstResolvable input resolved attemptIndex attempts
  | .blocked _ _ _ _ code _, .blocked _ _ _ _ code' => code = code'
  | _, _ => False

/-- The chain comes to its end at a provider that is not there. -/
def EndsWithoutProvider (input : ChainResolutionInput) : Prop :=
  (∀ c ∈ effectiveChain input, (input.registry.probe c).Passes) ∧
    ∃ last ∈ (effectiveChain input).getLast?, input.registry.probe last = .missingProvider

theorem agree_of_decisive (h : WellFormed input) (haccepts : (resolutionInputSchema input.roleInput).isSome = true)
    {pre rest : List String} {candidate : String} (hchain : effectiveChain input = pre ++ candidate :: rest)
    (hpre : ∀ c ∈ pre, (input.registry.probe c).Passes) (hcandidate : ¬ (input.registry.probe candidate).Passes) :
    ResolversAgree input := by
  rw [ResolversAgree, resolveWorkerModelChain_eq h, resolveWorkerModelRole_eq h haccepts, hchain,
    resolveCandidates_append hpre, tryCandidates_append hpre, resolveCandidates_cons, tryCandidates_cons]
  have hregistry : input.roleInput.registry = input.registry := rfl
  rw [hregistry]
  cases hprobe : input.registry.probe candidate with
  | invalid role => exact rfl
  | missingProvider => exact absurd (.inl hprobe) hcandidate
  | missingModel => exact absurd (.inr hprobe) hcandidate
  | found provider model =>
    refine ⟨rfl, rfl, rfl, hprobe, pre, rest, hchain, hpre, Nat.zero_add _, ?_⟩
    rw [List.mapIdx_append]
    simp

theorem agree_of_exhausted (h : WellFormed input) (haccepts : (resolutionInputSchema input.roleInput).isSome = true)
    (hall : ∀ c ∈ effectiveChain input, (input.registry.probe c).Passes) :
    ResolversAgree input ↔ ¬ EndsWithoutProvider input := by
  have hlast := List.getLast?_eq_some_getLast (effectiveChain_patterns h).1
  have hpasses := hall _ (List.getLast_mem (effectiveChain_patterns h).1)
  rw [ResolversAgree, resolveWorkerModelChain_eq h, resolveWorkerModelRole_eq h haccepts, EndsWithoutProvider,
    ← List.append_nil (effectiveChain input), resolveCandidates_append hall, tryCandidates_append hall,
    List.append_nil, hlast]
  generalize (effectiveChain input).getLast (effectiveChain_patterns h).1 = last at hpasses
  rw [resolveCandidates, tryCandidates]
  change ResolutionCode.modelUnavailable = (input.registry.probe last).code ↔ _
  rw [and_iff_right hall]
  simp only [Option.mem_some_iff, exists_eq_left']
  obtain hprobe | hprobe := hpasses <;> rw [hprobe] <;> decide

/-- An input that the role resolver's schema refuses: the chain resolver never does. -/
theorem disagree_of_refused (h : WellFormed input) (hrefused : resolutionInputSchema input.roleInput = none) :
    ¬ ResolversAgree input := by
  have hrole : resolveWorkerModelRole input.roleInput = .blocked none none none none .invalidResolutionInput := by
    rw [resolveWorkerModelRole, hrefused]
  rw [ResolversAgree, resolveWorkerModelChain_eq h, hrole]
  obtain hall | ⟨pre, candidate, rest, hchain, hpre, hcandidate⟩ :=
    exists_decisive input.registry.probe (effectiveChain input)
  · rw [← List.append_nil (effectiveChain input), resolveCandidates_append hall, resolveCandidates]
    intro hcode
    cases hcode
  · rw [hchain, resolveCandidates_append hpre, resolveCandidates_cons]
    cases hprobe : input.registry.probe candidate with
    | invalid role =>
      intro hcode
      cases hcode
    | missingProvider => exact absurd (.inl hprobe) hcandidate
    | missingModel => exact absurd (.inr hprobe) hcandidate
    | found provider model => exact id

/-- The resolvers agree on what the schema accepts, except at the end of a chain whose last provider is missing. -/
theorem model_resolvers_agree_iff (input : ChainResolutionInput) (h : WellFormed input) : ResolversAgree input ↔
    (resolutionInputSchema input.roleInput).isSome = true ∧ ¬ EndsWithoutProvider input := by
  cases hschema : resolutionInputSchema input.roleInput with
  | none =>
    simp only [Option.isSome_none, Bool.false_eq_true, false_and, iff_false]
    exact disagree_of_refused h hschema
  | some read =>
    have haccepts : (resolutionInputSchema input.roleInput).isSome = true := by rw [hschema]; rfl
    simp only [Option.isSome_some, true_and]
    obtain hall | ⟨pre, candidate, rest, hchain, hpre, hcandidate⟩ :=
      exists_decisive input.registry.probe (effectiveChain input)
    · exact agree_of_exhausted h haccepts hall
    · refine iff_of_true (agree_of_decisive h haccepts hchain hpre hcandidate) fun hends ↦ ?_
      exact hcandidate (hends.1 candidate (hchain ▸ List.mem_append_right pre List.mem_cons_self))

end Resolvers

/-! A chain whose only provider is missing. -/

section Missing

namespace Sample

def missingProvider : ChainResolutionInput where
  agentName := "omp-lazy-qa"
  chain := ["p/m"]
  agentModelOverrides := []
  roleModels := ⟨none, none, none⟩
  catalogModels := []
  availableProviders := []
  runId := "r"

theorem missingProvider_wellFormed : WellFormed missingProvider where
  agentName := by decide
  chain := by decide
  overrides := List.forall_mem_nil _
  roleModels role s hs := by cases role <;> cases hs
  catalogModels := List.forall_mem_nil _
  availableProviders := List.forall_mem_nil _

end Sample

theorem missingProvider_disagree : ¬ ResolversAgree Sample.missingProvider := by
  intro h
  have hends : EndsWithoutProvider Sample.missingProvider := by
    have hprobe : Sample.missingProvider.registry.probe "p/m" = .missingProvider := by decide
    refine ⟨?_, "p/m", rfl, hprobe⟩
    intro c hc
    obtain rfl := List.mem_singleton.mp hc
    exact .inl hprobe
  exact ((model_resolvers_agree_iff Sample.missingProvider Sample.missingProvider_wellFormed).mp h).2 hends

/-- Two codes for one chain: the only provider that it names is missing. -/
theorem provider_unavailable_unnamed : ¬ ∀ input, WellFormed input → ResolversAgree input := by
  intro h
  have hagree := h Sample.missingProvider Sample.missingProvider_wellFormed
  have hchain : (resolveWorkerModelChain Sample.missingProvider).receipt =
      .blocked "omp-lazy-qa" (some .agentDefault) (some "p/m") none .modelUnavailable
        [⟨"omp-lazy-qa", 0, "p/m", none, .providerUnavailable⟩] := by decide
  have hrole : resolveWorkerModelRole Sample.missingProvider.roleInput =
      .blocked (some "omp-lazy-qa") (some .agentDefault) (some "p/m") none .providerUnavailable := by decide
  rw [ResolversAgree, hchain, hrole] at hagree
  cases hagree

end Missing

end OmpLazy.Workflows.ModelRole

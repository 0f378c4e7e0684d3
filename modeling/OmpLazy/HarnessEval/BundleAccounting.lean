import OmpLazy.HarnessEval.Verifier
import OmpLazy.Foundation.Gathering
import Mathlib.Data.List.ProdSigma

/-! What the receipts of a verified bundle account for. -/

namespace OmpLazy.HarnessEval

open OmpLazy.Foundation OmpLazy.Foundation.Text OmpLazy.Contracts

/-! Keys are written so that they can be read back. -/

section Keys

variable {xs xs' ys ys' : List Char} {first first' second second' : String} {n n' : ℕ}

theorem cut_inj {c : Char} (h : c ∉ xs) (h' : c ∉ xs') (heq : xs ++ c :: ys = xs' ++ c :: ys') :
    xs = xs' ∧ ys = ys' := by
  obtain ⟨between, rfl, hrest⟩ | ⟨between, rfl, hrest⟩ := List.append_eq_append_iff.mp heq
  · cases between with
    | nil => exact ⟨(List.append_nil xs).symm, (List.cons.inj hrest).2⟩
    | cons d between => exact absurd (List.mem_append_right xs ((List.cons.inj hrest).1 ▸ List.mem_cons_self)) h'
  · cases between with
    | nil => exact ⟨List.append_nil xs', (List.cons.inj hrest).2.symm⟩
    | cons d between => exact absurd (List.mem_append_right xs' ((List.cons.inj hrest).1 ▸ List.mem_cons_self)) h

theorem joined_inj (hfirst : ':' ∉ first.toList) (hfirst' : ':' ∉ first'.toList) (hsecond : ':' ∉ second.toList)
    (hsecond' : ':' ∉ second'.toList)
    (h : first ++ ":" ++ second ++ ":" ++ toString n = first' ++ ":" ++ second' ++ ":" ++ toString n') :
    first = first' ∧ second = second' ∧ n = n' := by
  have hlist := congrArg String.toList h
  simp only [String.toList_append, List.append_assoc] at hlist
  obtain ⟨hone, hrest⟩ := cut_inj hfirst hfirst' hlist
  obtain ⟨htwo, hthree⟩ := cut_inj hsecond hsecond' hrest
  exact ⟨String.toList_inj.mp hone, String.toList_inj.mp htwo, JsonText.repr_injective (String.toList_inj.mp hthree)⟩

theorem scopeId_colon (scopeId : ScopeId) : ':' ∉ scopeId.val.toList := by
  intro hmem
  have hhex := (matchesClasses_replicate.mp scopeId.property).2 ':' hmem
  exact absurd hhex (by decide)

theorem route_colon (route : Route) : ':' ∉ route.val.toList := by
  obtain ⟨route, hroute⟩ := route
  rw [isRoute, after] at hroute
  split at hroute
  · rename_i hstart
    obtain ⟨rest, hrest⟩ := List.isPrefixOf_iff_prefix.mp hstart
    rw [← hrest, List.drop_left' String.length_toList, Option.any_some, String.toList_ofList] at hroute
    rw [← hrest, List.mem_append, not_or]
    refine ⟨by decide, fun hmem ↦ ?_⟩
    cases rest with
    | nil => cases hmem
    | cons c rest =>
      simp only [isNameOf, Bool.and_eq_true, List.all_eq_true] at hroute
      obtain rfl | hmem := List.mem_cons.mp hmem
      · exact absurd hroute.1.1 (by decide)
      · exact absurd (hroute.2 _ hmem) (by decide)
  · cases hroute

theorem keyOf_injective : Function.Injective keyOf := by
  rintro ⟨route, proxyCallId, scopeId⟩ ⟨route', proxyCallId', scopeId'⟩ h
  obtain ⟨hscope, hroute, hid⟩ :=
    joined_inj (scopeId_colon scopeId) (scopeId_colon scopeId') (route_colon route) (route_colon route') h
  obtain rfl := Subtype.ext hscope
  obtain rfl := Subtype.ext hroute
  obtain rfl := Subtype.ext hid
  rfl

theorem scenarioName_colon (scenarioId : ScenarioId) : ':' ∉ scenarioId.name.toList := by
  cases scenarioId <;> decide

theorem profileName_colon (profileId : ProfileId) : ':' ∉ profileId.name.toList := by cases profileId <;> decide

theorem mem_scenarioIds (scenarioId : ScenarioId) : scenarioId ∈ scenarioIds := by cases scenarioId <;> decide

theorem mem_profileIds (profileId : ProfileId) : profileId ∈ profileIds := by cases profileId <;> decide

theorem scenarioName_injective : Function.Injective ScenarioId.name := fun a b h ↦
  List.inj_on_of_nodup_map (l := scenarioIds) (by decide) (mem_scenarioIds a) (mem_scenarioIds b) h

theorem profileName_injective : Function.Injective ProfileId.name := fun a b h ↦
  List.inj_on_of_nodup_map (l := profileIds) (by decide) (mem_profileIds a) (mem_profileIds b) h

theorem trialKey_inj {scenarioId scenarioId' : ScenarioId} {profileId profileId' : ProfileId} :
    trialKey scenarioId profileId n = trialKey scenarioId' profileId' n' ↔
      scenarioId = scenarioId' ∧ profileId = profileId' ∧ n = n' := by
  refine ⟨fun h ↦ ?_, by rintro ⟨rfl, rfl, rfl⟩; rfl⟩
  obtain ⟨hscenario, hprofile, hn⟩ := joined_inj (scenarioName_colon scenarioId) (scenarioName_colon scenarioId')
    (profileName_colon profileId) (profileName_colon profileId') h
  exact ⟨scenarioName_injective hscenario, profileName_injective hprofile, hn⟩

end Keys

/-! The trials. -/

section Trials

variable {bundle : HarnessBundle}

theorem expectedTrials_eq : expectedTrials =
    (scenarioIds ×ˢ profileIds ×ˢ [1, 2, 3]).map fun triple ↦ trialKey triple.1 triple.2.1 triple.2.2 := by
  simp only [SProd.sprod, List.product, List.map_flatMap, List.map_map]
  rfl

theorem expectedTrials_nodup : expectedTrials.Nodup := by
  have hscenarios : scenarioIds.Nodup := by decide
  have hprofiles : profileIds.Nodup := by decide
  rw [expectedTrials_eq]
  refine (hscenarios.product (hprofiles.product (by decide))).map fun triple triple' h ↦ ?_
  obtain ⟨hscenario, hprofile, htrial⟩ := trialKey_inj.mp h
  exact Prod.ext hscenario (Prod.ext hprofile htrial)

theorem expectedTrials_length : expectedTrials.length = scenarioIds.length * profileIds.length * 3 := by
  rw [expectedTrials_eq, List.length_map, List.length_product, List.length_product, mul_assoc]
  rfl

theorem mem_expectedTrials (scenarioId : ScenarioId) (profileId : ProfileId) (trial : TrialNumber) :
    trialKey scenarioId profileId trial ∈ expectedTrials := by
  have htrial : trial.val ∈ [1, 2, 3] := by
    have hbounds := trial.property
    simp only [List.mem_cons, List.not_mem_nil, or_false]
    omega
  rw [expectedTrials_eq, List.mem_map]
  refine ⟨(scenarioId, profileId, trial.val), List.pair_mem_product.mpr ⟨mem_scenarioIds _, ?_⟩, rfl⟩
  exact List.pair_mem_product.mpr ⟨mem_profileIds _, htrial⟩

def keyOfTrial (trial : TrialReceipt) : String := trialKey trial.scenarioId trial.profileId trial.trial

theorem scopes_nodup (h : verifyTrialCardinality bundle = .ok ()) : (bundle.trials.map (·.scopeId)).Nodup := by
  simp only [verifyTrialCardinality, refuseIf_bind_eq_ok, ne_eq, decide_not, Bool.not_eq_false',
    decide_eq_true_eq] at h
  refine nodup_of_dedup_length ?_
  rw [h.2.1, List.length_map]

/-- As many trials as keys that are expected, and each of them is there. -/
theorem keys_nodup (h : verifyTrialCardinality bundle = .ok ()) :
    (bundle.trials.map keyOfTrial).Nodup ∧ expectedTrials ⊆ bundle.trials.map keyOfTrial := by
  simp only [verifyTrialCardinality, refuseIf_bind_eq_ok, refuseIf_eq_ok, ne_eq, decide_not, Bool.not_eq_false',
    decide_eq_true_eq, Bool.and_eq_true, List.all_eq_true, List.mem_dedup] at h
  obtain ⟨hlength, -, hsize, hall⟩ := h
  refine ⟨nodup_of_dedup_length ?_, hall⟩
  change (bundle.trials.map fun trial ↦ trialKey trial.scenarioId trial.profileId trial.trial).dedup.length = _
  rw [List.length_map, hlength, hsize, List.dedup_eq_self.mpr expectedTrials_nodup, expectedTrials_length]

/-- Every triple is that of exactly one trial. -/
theorem trial_unique (h : verifyTrialCardinality bundle = .ok ()) (scenarioId : ScenarioId) (profileId : ProfileId)
    (number : TrialNumber) : (bundle.trials.filter fun trial ↦
      trial.scenarioId = scenarioId ∧ trial.profileId = profileId ∧ trial.trial = number).length = 1 := by
  obtain ⟨hnodup, hall⟩ := keys_nodup h
  have hone := List.count_eq_one_of_mem hnodup (hall (mem_expectedTrials scenarioId profileId number))
  rw [List.count, List.countP_map] at hone
  rw [← List.countP_eq_length_filter]
  refine Eq.trans (List.countP_congr ?_) hone
  intro trial _
  simp [keyOfTrial, trialKey_inj, Subtype.ext_iff]

end Trials

/-! The calls. -/

section Calls

variable {bundle : HarnessBundle}

def callKeys (bundle : HarnessBundle) : List ReconciliationKey :=
  (workflowCalls bundle).map (·.toReconciliationKey)

def usageKeys (bundle : HarnessBundle) : List ReconciliationKey := bundle.usage.map (·.toReconciliationKey)

def proxyKeys (bundle : HarnessBundle) : List ReconciliationKey := bundle.proxy.map (·.toReconciliationKey)

theorem keys_reconciled (h : verifyCalls bundle = .ok ()) :
    (callKeys bundle).Nodup ∧ (usageKeys bundle).Perm (callKeys bundle) ∧
      (proxyKeys bundle).Perm (callKeys bundle) := by
  have hcalls : (workflowCalls bundle).map (keyOf ·.toReconciliationKey) = (callKeys bundle).map keyOf := by
    rw [callKeys, List.map_map]
    rfl
  have husage : bundle.usage.map (keyOf ·.toReconciliationKey) = (usageKeys bundle).map keyOf := by
    rw [usageKeys, List.map_map]
    rfl
  have hproxy : bundle.proxy.map (keyOf ·.toReconciliationKey) = (proxyKeys bundle).map keyOf := by
    rw [proxyKeys, List.map_map]
    rfl
  simp only [verifyCalls, refuseIf_bind_eq_ok, refuseIf_eq_ok, hcalls, husage, hproxy, Bool.or_eq_false_iff,
    List.any_eq_false, decide_eq_true_eq, decide_eq_false_iff_not, Bool.or_eq_true, not_or, not_not, ne_eq] at h
  obtain ⟨hboth, ⟨husage', hproxy'⟩, -, ⟨hcallLength, husageLength⟩, hproxyLength⟩ := h
  have hcallLength' : ((callKeys bundle).map keyOf).dedup.length = ((callKeys bundle).map keyOf).length := by
    rw [hcallLength, List.length_map, callKeys, List.length_map]
  have husageLength' : ((usageKeys bundle).map keyOf).dedup.length = ((usageKeys bundle).map keyOf).length := by
    rw [husageLength, List.length_map, usageKeys, List.length_map]
  have hproxyLength' : ((proxyKeys bundle).map keyOf).dedup.length = ((proxyKeys bundle).map keyOf).length := by
    rw [hproxyLength, List.length_map, proxyKeys, List.length_map]
  refine ⟨(nodup_of_dedup_length hcallLength').of_map, ?_, ?_⟩
  · exact (List.map_perm_map_iff keyOf_injective).mp
      (perm_of_sets husageLength' hcallLength' husage' fun k hk ↦ (hboth k hk).1)
  · exact (List.map_perm_map_iff keyOf_injective).mp
      (perm_of_sets hproxyLength' hcallLength' hproxy' fun k hk ↦ (hboth k hk).2)

theorem proxyCallIds (h : verifyCalls bundle = .ok ()) :
    bundle.proxy.map (·.proxyCallId.val) = List.range' 1 bundle.proxy.length := by
  simp only [verifyCalls, refuseIf_bind_eq_ok, List.any_eq_false, decide_eq_true_eq, not_not, ne_eq] at h
  obtain ⟨-, -, hids, -⟩ := h
  refine List.ext_getElem (by simp) fun index hindex _ ↦ ?_
  rw [List.length_map] at hindex
  have hid := hids (bundle.proxy[index], index) (List.mem_zipIdx_iff_getElem?.mpr (List.getElem?_eq_getElem hindex))
  rw [List.getElem_map, List.getElem_range', hid]
  omega

end Calls

/-! The tokens. -/

section Tokens

variable {host : Host} {bundle : HarnessBundle} {trial : TrialReceipt} {calls : List WorkflowCall}
  {call : WorkflowCall} {total result : ℕ} {usages : List UsageReceipt}

def UsageReceipt.tokens (usage : UsageReceipt) : ℕ := usage.promptTokens + usage.completionTokens

def tokensOf (usages : List UsageReceipt) : ℕ := (usages.map (·.tokens)).sum

def usageOf (bundle : HarnessBundle) (scopeId : ScopeId) : List UsageReceipt :=
  bundle.usage.filter (·.scopeId = scopeId)

theorem addNumbers_exact {a b : ℕ} (h : a + b < 2 ^ 53) : addNumbers a b = a + b := if_pos h

theorem sum_exact (h : total + tokensOf usages < 2 ^ 53) :
    usages.foldl (fun total usage ↦ addNumbers total (addNumbers usage.promptTokens usage.completionTokens)) total =
      total + tokensOf usages := by
  induction usages generalizing total with
  | nil => rfl
  | cons usage usages ih =>
    have hsum : tokensOf (usage :: usages) = usage.promptTokens + usage.completionTokens + tokensOf usages := rfl
    rw [hsum] at h ⊢
    have hinner := @addNumbers_exact usage.promptTokens usage.completionTokens (by omega)
    rw [List.foldl_cons, hinner, addNumbers_exact (by omega), ih (by omega)]
    omega

theorem usageByKey_eq_some {usage : UsageReceipt}
    (h : usageByKey bundle (keyOf call.toReconciliationKey) = some usage) : usage ∈ bundle.usage ∧
    usage.toReconciliationKey = call.toReconciliationKey :=
  ⟨List.mem_reverse.mp (List.mem_of_find?_eq_some h),
    keyOf_injective (of_decide_eq_true (List.find?_some h :))⟩

/-- A call that passes has the route of its actor and a usage of its own key. -/
theorem verifyCall_ok (h : verifyCall bundle trial total call = .ok result) :
    call.configuredActorRoute.val = frozenActorRoute call.actorId ∧
      ∃ usage ∈ bundle.usage, usage.toReconciliationKey = call.toReconciliationKey ∧
        result = addNumbers total (addNumbers usage.promptTokens usage.completionTokens) := by
  rw [verifyCall, check_bind_eq_ok] at h
  obtain ⟨hroute, h⟩ := h
  simp only [verifyRoute, refuseIf_bind_eq_ok, decide_eq_false_iff_not, ne_eq, not_not] at hroute
  refine ⟨hroute.1, ?_⟩
  dsimp only at h
  split at h
  · rename_i usage proxy husage hproxy
    simp only [check_bind_eq_ok] at h
    obtain ⟨-, -, -, -, -, -, -, hresult⟩ := h
    obtain ⟨hmem, hkey⟩ := usageByKey_eq_some husage
    exact ⟨usage, hmem, hkey, (Except.ok.inj hresult).symm⟩
  · cases h

theorem tally_ok (h : tally bundle trial total calls = .ok result) :
    (∀ call ∈ calls, call.configuredActorRoute.val = frozenActorRoute call.actorId) ∧
      ∃ usages ⊆ bundle.usage,
        usages.map (·.toReconciliationKey) = calls.map (·.toReconciliationKey) ∧
        result = usages.foldl
          (fun total usage ↦ addNumbers total (addNumbers usage.promptTokens usage.completionTokens)) total := by
  induction calls generalizing total with
  | nil =>
    refine ⟨fun _ hcall ↦ absurd hcall List.not_mem_nil, [], List.nil_subset _, rfl, ?_⟩
    exact (Except.ok.inj h).symm
  | cons call calls ih =>
    rw [tally, andThen_eq_ok] at h
    obtain ⟨next, hcall, hrest⟩ := h
    obtain ⟨hroute, usage, hmem, hkey, hnext⟩ := verifyCall_ok hcall
    obtain ⟨hroutes, usages, hsub, hkeys, hresult⟩ := ih hrest
    refine ⟨List.forall_mem_cons.mpr ⟨hroute, hroutes⟩, usage :: usages, List.cons_subset.mpr ⟨hmem, hsub⟩, ?_, ?_⟩
    · rw [List.map_cons, List.map_cons, hkey, hkeys]
    · rw [List.foldl_cons, ← hnext, hresult]

end Tokens

/-! A trial that passes, and what the whole bundle says of its usage. -/

section Accounting

variable {host : Host} {bundle : HarnessBundle} {trial : TrialReceipt} {authority : ScenarioRow}

/-- A call by an actor that the scenario allows, within its calls and on its route. -/
def Permitted (authority : ScenarioRow) (calls : List WorkflowCall) (call : WorkflowCall) : Prop :=
  ∃ allowed ∈ authority.actorCalls, allowed.actorId = call.actorId ∧
    (calls.filter (·.actorId = call.actorId)).length ≤ allowed.maxCalls ∧
    call.configuredActorRoute.val = frozenActorRoute call.actorId

structure TrialPassed (bundle : HarnessBundle) (trial : TrialReceipt) : Prop where
  sameScope : ∀ call ∈ trial.workflow.calls, call.scopeId = trial.scopeId
  tallied : tally bundle trial 0 trial.workflow.calls = .ok trial.workflow.workflowTokens
  permitted : ∃ authority ∈ scenarios, authority.id = trial.scenarioId ∧
    ∀ call ∈ trial.workflow.calls, Permitted authority trial.workflow.calls call

theorem scenarios_ids : scenarios.map (·.id) = scenarioIds := by
  rw [scenarios, List.map_map]
  rfl

theorem authority_id {scenarioId : ScenarioId} (h : scenarios[scenarioIds.idxOf scenarioId]? = some authority) :
    authority.id = scenarioId := by
  have hid := List.getElem?_idxOf (mem_scenarioIds scenarioId)
  rw [← scenarios_ids, List.getElem?_map, scenarios_ids, h] at hid
  exact Option.some.inj hid

theorem trialPassed (h : verifyTrial host bundle trial = .ok ()) : TrialPassed bundle trial := by
  rw [verifyTrial] at h
  split at h
  · cases h
  · rename_i authority hauthority
    simp only [check_bind_eq_ok, refuseIf_eq_ok, checkEach_eq_ok, List.any_eq_false,
      decide_eq_true_eq, decide_eq_false_iff_not, ne_eq, not_not, Bool.not_eq_true'] at h
    obtain ⟨-, hscoped, -, hallowed, hactors, -, -, h⟩ := h
    obtain ⟨total, htally, h⟩ := andThen_eq_ok.mp h
    simp only [refuseIf_bind_eq_ok, decide_eq_false_iff_not, not_not] at h
    obtain ⟨htotal, -⟩ := h
    obtain ⟨hroutes, -⟩ := tally_ok htally
    refine ⟨hscoped, htotal ▸ htally, authority, List.mem_of_getElem? hauthority, authority_id hauthority, ?_⟩
    intro call hcall
    obtain ⟨allowed, hmem, hactor⟩ : ∃ allowed ∈ authority.actorCalls, allowed.actorId = call.actorId := by
      by_contra hnone
      exact hactors call hcall fun allowed hmem heq ↦ hnone ⟨allowed, hmem, heq⟩
    have hbounded := hallowed allowed hmem
    simp only [verifyAllowed, refuseIf_bind_eq_ok, refuseIf_eq_ok, Bool.or_eq_false_iff, decide_eq_false_iff_not,
      not_lt] at hbounded
    exact ⟨allowed, hmem, hactor, hactor ▸ hbounded.2.1, hroutes call hcall⟩

/-- The usage of the calls of a trial is all the usage of its scope. -/
theorem usage_of_trial (hcalls : verifyCalls bundle = .ok ()) (hcardinality : verifyTrialCardinality bundle = .ok ())
    (hpassed : ∀ trial ∈ bundle.trials, TrialPassed bundle trial) (htrial : trial ∈ bundle.trials)
    {usages : List UsageReceipt} (hsub : usages ⊆ bundle.usage)
    (hkeys : usages.map (·.toReconciliationKey) = trial.workflow.calls.map (·.toReconciliationKey)) :
    usages.Perm (usageOf bundle trial.scopeId) := by
  obtain ⟨hnodup, husage, -⟩ := keys_reconciled hcalls
  have husageNodup : (bundle.usage.map (·.toReconciliationKey)).Nodup := husage.nodup_iff.mpr hnodup
  have htrialNodup : (trial.workflow.calls.map (·.toReconciliationKey)).Nodup := by
    rw [callKeys, workflowCalls, List.map_flatMap, List.nodup_flatMap] at hnodup
    exact hnodup.1 trial htrial
  refine perm_of_keys husageNodup hsub (List.filter_subset_self _) (hkeys ▸ htrialNodup)
    (husageNodup.sublist (List.filter_sublist.map _)) fun key ↦ ?_
  rw [hkeys]
  constructor
  · intro hkey
    obtain ⟨call, hcall, rfl⟩ := List.mem_map.mp hkey
    have hmem : call.toReconciliationKey ∈ callKeys bundle :=
      List.mem_map_of_mem (List.mem_flatMap.mpr ⟨trial, htrial, hcall⟩)
    obtain ⟨usage, husage, heq⟩ := List.mem_map.mp (husage.mem_iff.mpr hmem)
    have hscope : usage.scopeId = trial.scopeId :=
      (congrArg ReconciliationKey.scopeId heq).trans ((hpassed trial htrial).sameScope call hcall)
    exact List.mem_map.mpr ⟨usage, List.mem_filter.mpr ⟨husage, by simpa using hscope⟩, heq⟩
  · intro hkey
    obtain ⟨usage, hmem, rfl⟩ := List.mem_map.mp hkey
    obtain ⟨hmem, hscope⟩ := List.mem_filter.mp hmem
    obtain ⟨call, hcall, heq⟩ := List.mem_map.mp (husage.mem_iff.mp (List.mem_map_of_mem hmem))
    obtain ⟨other, hother, hcall⟩ := List.mem_flatMap.mp hcall
    -- no other trial has the scope
    have hsame : other = trial := by
      refine List.inj_on_of_nodup_map (scopes_nodup hcardinality) hother htrial ?_
      rw [← (hpassed other hother).sameScope call hcall, ← of_decide_eq_true hscope]
      exact congrArg ReconciliationKey.scopeId heq
    exact List.mem_map.mpr ⟨call, hsame ▸ hcall, heq⟩

theorem workflowTokens_eq (hcalls : verifyCalls bundle = .ok ())
    (hcardinality : verifyTrialCardinality bundle = .ok ())
    (hpassed : ∀ trial ∈ bundle.trials, TrialPassed bundle trial) (htrial : trial ∈ bundle.trials)
    (hsum : tokensOf (usageOf bundle trial.scopeId) < 2 ^ 53) :
    trial.workflow.workflowTokens.val = tokensOf (usageOf bundle trial.scopeId) := by
  obtain ⟨-, usages, hsub, hkeys, htotal⟩ := tally_ok (hpassed trial htrial).tallied
  have hperm := usage_of_trial hcalls hcardinality hpassed htrial hsub hkeys
  have hsame : tokensOf usages = tokensOf (usageOf bundle trial.scopeId) := (hperm.map _).sum_eq
  rw [htotal, sum_exact (by omega), Nat.zero_add, hsame]

/-- What a bundle accounts for: no call without its usage and its proxy record, no usage twice or
of nobody, and the tokens of each trial those of its own scope. -/
structure Accounted (bundle : HarnessBundle) : Prop where
  calls_nodup : (callKeys bundle).Nodup
  usage_calls : (usageKeys bundle).Perm (callKeys bundle)
  proxy_calls : (proxyKeys bundle).Perm (callKeys bundle)
  proxyCallIds : bundle.proxy.map (·.proxyCallId.val) = List.range' 1 bundle.proxy.length
  trial_once : ∀ (scenarioId : ScenarioId) (profileId : ProfileId) (number : TrialNumber),
    (bundle.trials.filter fun trial ↦
      trial.scenarioId = scenarioId ∧ trial.profileId = profileId ∧ trial.trial = number).length = 1
  scopes_nodup : (bundle.trials.map (·.scopeId)).Nodup
  workflowTokens : ∀ trial ∈ bundle.trials,
    trial.workflow.workflowTokens.val = tokensOf (usageOf bundle trial.scopeId)
  total : (bundle.trials.map (·.workflow.workflowTokens.val)).sum = tokensOf bundle.usage
  permitted : ∀ trial ∈ bundle.trials, ∃ authority ∈ scenarios, authority.id = trial.scenarioId ∧
    ∀ call ∈ trial.workflow.calls, call.scopeId = trial.scopeId ∧ Permitted authority trial.workflow.calls call

theorem checks_of_pass (h : verifyHarnessBundle host (.ok bundle) = .pass) :
    verifyTrialCardinality bundle = .ok () ∧ verifyCalls bundle = .ok () ∧
      ∀ trial ∈ bundle.trials, TrialPassed bundle trial := by
  rw [verifyHarnessBundle] at h
  split at h
  · rename_i hbundle
    simp only [verifyBundle, check_bind_eq_ok] at hbundle
    obtain ⟨-, -, -, -, -, hcardinality, hcalls, htrials, -⟩ := hbundle
    exact ⟨hcardinality, hcalls, fun trial htrial ↦ trialPassed (checkEach_eq_ok.mp htrials trial htrial)⟩
  · cases h

theorem usage_scope (hcalls : verifyCalls bundle = .ok ())
    (hpassed : ∀ trial ∈ bundle.trials, TrialPassed bundle trial) {usage : UsageReceipt} (h : usage ∈ bundle.usage) : usage.scopeId ∈ bundle.trials.map (·.scopeId) := by
  obtain ⟨-, husage, -⟩ := keys_reconciled hcalls
  obtain ⟨call, hcall, heq⟩ := List.mem_map.mp (husage.mem_iff.mp (List.mem_map_of_mem h))
  obtain ⟨trial, htrial, hcall⟩ := List.mem_flatMap.mp hcall
  rw [← congrArg ReconciliationKey.scopeId heq, (hpassed trial htrial).sameScope call hcall]
  exact List.mem_map_of_mem htrial

/-- A bundle that passes accounts for its calls and their tokens, where the tokens of a trial are
few enough to be added exactly. -/
theorem verified_bundle_accounted (host : Host) (bundle : HarnessBundle)
    (h : verifyHarnessBundle host (.ok bundle) = .pass)
    (hsums : ∀ trial ∈ bundle.trials, tokensOf (usageOf bundle trial.scopeId) < 2 ^ 53) : Accounted bundle := by
  obtain ⟨hcardinality, hcalls, hpassed⟩ := checks_of_pass h
  obtain ⟨hnodup, husage, hproxy⟩ := keys_reconciled hcalls
  have htokens := fun trial htrial ↦ workflowTokens_eq hcalls hcardinality hpassed htrial (hsums trial htrial)
  have hscopes := scopes_nodup hcardinality
  refine ⟨hnodup, husage, hproxy, proxyCallIds hcalls, trial_unique hcardinality, hscopes, htokens, ?_, ?_⟩
  · have hgathered : ((bundle.trials.map (·.scopeId)).map fun scopeId ↦ tokensOf (usageOf bundle scopeId)).sum =
        tokensOf bundle.usage := sum_gathered hscopes fun usage husage ↦ usage_scope hcalls hpassed husage
    rw [List.map_map] at hgathered
    rw [← hgathered]
    exact congrArg List.sum (List.map_congr_left htokens)
  · intro trial htrial
    obtain ⟨authority, hmem, hid, hpermitted⟩ := (hpassed trial htrial).permitted
    exact ⟨authority, hmem, hid, fun call hcall ↦
      ⟨(hpassed trial htrial).sameScope call hcall, hpermitted call hcall⟩⟩

end Accounting

end OmpLazy.HarnessEval

import OmpLazy.HarnessEval.BundleAccounting
import OmpLazy.Foundation.Sha256

/-! The synthetic bundle, which the verifier passes. -/

namespace OmpLazy.HarnessEval

open OmpLazy.Foundation OmpLazy.Foundation.Text OmpLazy.Contracts JsonText

section Build

/-- A digit sixty-four times. -/
def hash (digit : Fin 16) : Sha256 :=
  ⟨String.ofList (List.replicate 64 (hexDigit digit)),
    isLowerHexOf_replicate (Sha256.isLowerHex_hexDigit digit.isLt) 64⟩

def settingsHash : Sha256 := hash 0xb

def modelConfigHash : Sha256 := hash 0xc

theorem isRuntimeId_model (profileId : ProfileId) : isRuntimeId (profileId.name ++ ".model") = true := by
  rw [isRuntimeId, String.toList_append]
  cases profileId <;> decide

def modelId (profileId : ProfileId) : RuntimeId := ⟨profileId.name ++ ".model", isRuntimeId_model profileId⟩

def modelRevision : ProfileId → Sha256
  | .legacyLow => hash 0xe
  | .candidateHigh => hash 0xf
  | .candidateLow => hash 0x1

theorem isRoute_frozen (actorId : ActorId) : isRoute (frozenActorRoute actorId) = true := by
  rw [isRoute, frozenActorRoute, after_append]
  cases actorId <;> decide

def actorRoute (actorId : ActorId) : Route := ⟨frozenActorRoute actorId, isRoute_frozen actorId⟩

/-- `toString(16).padStart(2, "0")` of a byte -/
def hexByte (n : ℕ) : List Char := [hexDigit (n / 16), hexDigit (n % 16)]

theorem hexByte_hex {n : ℕ} (h : n < 256) : ∀ c ∈ hexByte n, isLowerHex c = true := by
  simp only [hexByte, List.mem_cons, List.not_mem_nil, or_false, forall_eq_or_imp, forall_eq]
  exact ⟨Sha256.isLowerHex_hexDigit (by omega), Sha256.isLowerHex_hexDigit (by omega)⟩

def scopeText (scenarioId : ScenarioId) (profileId : ProfileId) (trial : TrialNumber) : List Char :=
  hexByte (scenarioIds.idxOf scenarioId) ++ (hexByte (profileIds.idxOf profileId) ++
    (hexByte trial ++ List.replicate 26 'd'))

theorem scopeText_hex (scenarioId : ScenarioId) (profileId : ProfileId) (trial : TrialNumber) :
    isLowerHexOf 32 (String.ofList (scopeText scenarioId profileId trial)) = true := by
  have hscenario := List.idxOf_lt_length_of_mem (mem_scenarioIds scenarioId)
  have hprofile := List.idxOf_lt_length_of_mem (mem_profileIds profileId)
  have hscenarios : scenarioIds.length = 24 := rfl
  have hprofiles : profileIds.length = 3 := rfl
  have htrial := trial.property
  rw [isLowerHexOf, String.toList_ofList, matchesClasses_replicate]
  refine ⟨by simp [scopeText, hexByte], ?_⟩
  simp only [scopeText, List.forall_mem_append]
  refine ⟨hexByte_hex (by omega), hexByte_hex (by omega), hexByte_hex (by omega), fun c hc ↦ ?_⟩
  rw [List.eq_of_mem_replicate hc]
  decide

def scope (scenarioId : ScenarioId) (profileId : ProfileId) (trial : TrialNumber) : ScopeId :=
  ⟨String.ofList (scopeText scenarioId profileId trial), scopeText_hex scenarioId profileId trial⟩

theorem isPositive_one : isPositive 1 = true := by decide

/-- A number as the id of a call; the schema refuses others, which are not reached. -/
def callNumber (n : ℕ) : PositiveCount := if h : isPositive n = true then ⟨n, h⟩ else ⟨1, isPositive_one⟩

def workflowCall (scopeId : ScopeId) (actor : ActorCall) (callId : ℕ) : WorkflowCall where
  actorId := actor.actorId
  configuredActorRoute := actorRoute actor.actorId
  metricBucket := actor.metricBucket
  proxyCallId := callNumber callId
  scopeId := scopeId

def callsFrom (scopeId : ScopeId) (actors : List ActorCall) (callId : ℕ) : List WorkflowCall :=
  (actors.zipIdx callId).map fun (actor, callId) ↦ workflowCall scopeId actor callId

theorem few_le (n : Fin 128) : n.val ≤ Schema.maxSafeInteger := by
  rw [Schema.maxSafeInteger]
  omega

def few (n : Fin 128) : Count := ⟨n.val, few_le n⟩

def literal {α : Type} (value : α) : Literal value := ⟨value, rfl⟩

def usageReceipt (call : WorkflowCall) : UsageReceipt where
  toReconciliationKey := call.toReconciliationKey
  cachedTokens := few 2
  completionTokens := few 5
  promptTokens := few 10
  reasoningTokens := few 3

def proxyReceipt (commit : Commit) (profileId : ProfileId) (call : WorkflowCall) : ProxyReceipt where
  toReconciliationKey := call.toReconciliationKey
  modelConfigHash := modelConfigHash
  modelId := modelId profileId
  modelRevision := modelRevision profileId
  returnedModelId := modelId profileId
  returnedRevision := modelRevision profileId
  seed := literal 0
  seedSource := literal "compat.extraBody"
  settingsHash := settingsHash
  targetCommit := commit
  temperature := literal 0
  topP := literal 1
  terminal := literal "responded"

theorem few_actors : ∀ row ∈ scenarios, row.actorCalls.length ≤ 5 := by decide

/-- A scenario, a profile and the number of a trial. -/
abbrev Entry := { row : ScenarioRow // row ∈ scenarios } × ProfileId × TrialNumber

theorem one_trial : 1 ≤ 1 ∧ 1 ≤ 3 := by decide

theorem two_trial : 1 ≤ 2 ∧ 2 ≤ 3 := by decide

theorem three_trial : 1 ≤ 3 ∧ 3 ≤ 3 := by decide

def trialNumbers : List TrialNumber := [⟨1, one_trial⟩, ⟨2, two_trial⟩, ⟨3, three_trial⟩]

def entries : List Entry := scenarios.attach ×ˢ profileIds ×ˢ trialNumbers

def Entry.scopeId (entry : Entry) : ScopeId := scope entry.1.val.id entry.2.1 entry.2.2

def Entry.calls (entry : Entry) (callId : ℕ) : List WorkflowCall :=
  callsFrom entry.scopeId entry.1.val.actorCalls callId

theorem calls_length (entry : Entry) (callId : ℕ) : (entry.calls callId).length = entry.1.val.actorCalls.length := by
  rw [Entry.calls, callsFrom, List.length_map, List.length_zipIdx]

theorem calls_length_le (entry : Entry) (callId : ℕ) : (entry.calls callId).length ≤ 5 :=
  (calls_length entry callId).trans_le (few_actors _ entry.1.property)

theorem calls_bounded (entry : Entry) (callId : ℕ) : (entry.calls callId).length ≤ 28 :=
  (calls_length_le entry callId).trans (by omega)

theorem tokens_bounded (entry : Entry) (callId : ℕ) :
    (entry.calls callId).length * 15 ≤ Schema.maxSafeInteger := by
  have hfew := calls_length_le entry callId
  rw [Schema.maxSafeInteger]
  omega

def Entry.trial (host : Host) (commit : Commit) (entry : Entry) (callId : ℕ) : TrialReceipt where
  outcome := .pass
  profileId := entry.2.1
  scenarioId := entry.1.val.id
  scopeId := entry.scopeId
  targetCommit := commit
  trial := entry.2.2
  workflow := {
    calls := entry.calls callId
    modelConfigHash := modelConfigHash
    scopeHash := host.sha256 entry.scopeId
    settingsHash := settingsHash
    workflowTokens := ⟨(entry.calls callId).length * 15, tokens_bounded entry callId⟩
    calls_length := calls_bounded entry callId }

def buildTrials (host : Host) (commit : Commit) : ℕ → List Entry → List TrialReceipt
  | _, [] => []
  | callId, entry :: entries =>
    entry.trial host commit callId :: buildTrials host commit (callId + entry.1.val.actorCalls.length) entries

def mapping (actorId : ActorId) : ActorRouteMapping where
  actorId := actorId
  candidateHighRoute := actorRoute actorId
  candidateLowRoute := actorRoute actorId
  legacyLowRoute := actorRoute actorId

def price (profileId : ProfileId) (index : ℕ) : PriceRecord where
  effectiveDate := "2026-07-21"
  inputNanos := few (Fin.ofNat 128 (index + 1))
  modelId := modelId profileId
  modelRevision := modelRevision profileId
  outputNanos := few (Fin.ofNat 128 (index + 2))
  retrievalDate := "2026-07-21"
  sourceSha256 := hash 0x5
  sourceUrl := "https://example.invalid/" ++ profileId.name

def mappings : List ActorRouteMapping := actorIds.map mapping

def prices : List PriceRecord := profileIds.zipIdx.map fun (profileId, index) ↦ price profileId index

theorem mappings_length : mappings.length = actorIds.length := List.length_map _

theorem prices_length : prices.length = profileIds.length := by rw [prices, List.length_map, List.length_zipIdx]

theorem scenarios_length : scenarios.length = scenarioIds.length := by rw [← scenarios_ids, List.length_map]

theorem scenarioIds_length : scenarioIds.length = scenarioIds.length := rfl

def manifest (commit targetSourceHash : Commit) : Manifest where
  actorMappings := mappings
  baselineTargetCommit := commit
  baselineTargetTree := targetSourceHash
  hostExecutableSha256 := hash 0x4
  liveProfileInputSchemaSha256 := hash 0x7
  modelConfigHash := modelConfigHash
  priceCatalog := prices
  scenarios := scenarios
  scenarioIds := scenarioIds
  settingsHash := settingsHash
  targetCommit := commit
  actorMappings_length := mappings_length
  priceCatalog_length := prices_length
  scenarios_length := scenarios_length
  scenarioIds_length := scenarioIds_length

def usageOfTrials (trials : List TrialReceipt) : List UsageReceipt :=
  trials.flatMap fun trial ↦ trial.workflow.calls.map usageReceipt

def proxyOfTrials (commit : Commit) (trials : List TrialReceipt) : List ProxyReceipt :=
  trials.flatMap fun trial ↦ trial.workflow.calls.map (proxyReceipt commit trial.profileId)

def buildBundle (host : Host) (commit targetSourceHash : Commit) : HarnessBundle where
  manifest := manifest commit targetSourceHash
  manifestHash := hashManifest host (manifest commit targetSourceHash)
  proxy := proxyOfTrials commit (buildTrials host commit 1 entries)
  trials := buildTrials host commit 1 entries
  usage := usageOfTrials (buildTrials host commit 1 entries)
  sourceBinding := ⟨commit, targetSourceHash⟩

end Build

/-! The manifest. -/

section Manifest

variable {host : Host} {commit targetSourceHash : Commit}

theorem namesSecret_model (profileId : ProfileId) : namesSecret (modelId profileId) = false := by
  rw [namesSecret, modelId, String.toList_append]
  cases profileId <;> decide

theorem prices_modelIds : prices.map (·.modelId) = profileIds.map modelId := rfl

theorem modelId_injective : Function.Injective modelId := by
  intro profileId profileId' h
  have hname := congrArg (fun model : RuntimeId ↦ model.val.toList) h
  simp only [modelId, String.toList_append, List.append_cancel_right_eq] at hname
  exact profileName_injective (String.toList_inj.mp hname)

theorem bounded_scenarios : scenarios.any (fun authority ↦ !authorityCallsAreBounded authority) = false := by decide

theorem verifyManifest_ok : verifyManifest host (manifest commit targetSourceHash) = .ok () := by
  have hactors : ((mappings.map (·.actorId)).dedup).length = actorIds.length := by decide
  have hmodels : (prices.map (·.modelId)).dedup.length = profileIds.length := by
    have hnodup : (profileIds.map modelId).Nodup := List.Nodup.map modelId_injective (by decide)
    rw [prices_modelIds, List.dedup_eq_self.mpr hnodup, List.length_map]
  have hids : scenarios.map (·.id.name) = scenarioIds.map (·.name) := by
    rw [← scenarios_ids, List.map_map]
    rfl
  simp only [verifyManifest, refuseIf_bind_eq_ok, refuseIf_eq_ok, bounded_scenarios, and_true, manifest]
  refine ⟨?_, ?_, ?_, ?_, ?_, ?_⟩
  · simp [hasExactValues]
  · simp [hactors]
  · simp [hmodels]
  · simp [mappings, mapping, actorRoute]
  · simp [hasExactValues, hids]
  · rw [List.any_eq_false]
    rintro ⟨row, index⟩ hmem
    rw [List.mem_zipIdx_iff_getElem?.mp hmem]
    simp

end Manifest

/-! The trials that are built. -/

section Trials

variable {host : Host} {commit : Commit} {trial : TrialReceipt} {callId : ℕ} {scheduled : List Entry}

theorem hexDigit_inj : ∀ m n : Fin 16, hexDigit m = hexDigit n → m = n := by decide

theorem hexByte_inj {m n : ℕ} (hm : m < 256) (hn : n < 256) (h : hexByte m = hexByte n) : m = n := by
  obtain ⟨hhigh, hlow⟩ : hexDigit (m / 16) = hexDigit (n / 16) ∧ hexDigit (m % 16) = hexDigit (n % 16) := by
    simpa [hexByte] using h
  have hhigh' := congrArg Fin.val (hexDigit_inj ⟨m / 16, by omega⟩ ⟨n / 16, by omega⟩ hhigh)
  have hlow' := congrArg Fin.val (hexDigit_inj ⟨m % 16, by omega⟩ ⟨n % 16, by omega⟩ hlow)
  simp only at hhigh' hlow'
  omega

theorem scope_inj {scenarioId scenarioId' : ScenarioId} {profileId profileId' : ProfileId}
    {number number' : TrialNumber} (h : scope scenarioId profileId number = scope scenarioId' profileId' number') :
    scenarioId = scenarioId' ∧ profileId = profileId' ∧ number = number' := by
  have hscenarios : scenarioIds.length = 24 := rfl
  have hprofiles : profileIds.length = 3 := rfl
  have hscenario := List.idxOf_lt_length_of_mem (mem_scenarioIds scenarioId)
  have hscenario' := List.idxOf_lt_length_of_mem (mem_scenarioIds scenarioId')
  have hprofile := List.idxOf_lt_length_of_mem (mem_profileIds profileId)
  have hprofile' := List.idxOf_lt_length_of_mem (mem_profileIds profileId')
  have hnumber := number.property
  have hnumber' := number'.property
  have htext : scopeText scenarioId profileId number = scopeText scenarioId' profileId' number' :=
    String.ofList_inj.mp (congrArg Subtype.val h)
  obtain ⟨hone, hrest⟩ := List.append_inj htext rfl
  obtain ⟨htwo, hrest⟩ := List.append_inj hrest rfl
  obtain ⟨hthree, -⟩ := List.append_inj hrest rfl
  exact ⟨(List.idxOf_inj (mem_scenarioIds _)).mp (hexByte_inj (by omega) (by omega) hone),
    (List.idxOf_inj (mem_profileIds _)).mp (hexByte_inj (by omega) (by omega) htwo),
    Subtype.ext (hexByte_inj (by omega) (by omega) hthree)⟩

theorem mem_buildTrials (h : trial ∈ buildTrials host commit callId scheduled) :
    ∃ entry ∈ scheduled, ∃ callId, trial = entry.trial host commit callId := by
  induction scheduled generalizing callId with
  | nil => cases h
  | cons entry scheduled ih =>
    obtain rfl | h := List.mem_cons.mp h
    · exact ⟨entry, List.mem_cons_self, callId, rfl⟩
    · obtain ⟨entry', hmem, hbuilt⟩ := ih h
      exact ⟨entry', List.mem_cons_of_mem _ hmem, hbuilt⟩

/-- What does not depend on the ids of calls is read off the schedule. -/
theorem buildTrials_map {α : Type} {read : TrialReceipt → α} {plan : Entry → α}
    (h : ∀ entry callId, read (entry.trial host commit callId) = plan entry) :
    (buildTrials host commit callId scheduled).map read = scheduled.map plan := by
  induction scheduled generalizing callId with
  | nil => rfl
  | cons entry scheduled ih => rw [buildTrials, List.map_cons, List.map_cons, h, ih]

def Entry.key (entry : Entry) : String := trialKey entry.1.val.id entry.2.1 entry.2.2

theorem entries_keys : entries.map Entry.key = expectedTrials := by
  have hids : scenarioIds = scenarios.attach.map fun row ↦ row.val.id := by
    rw [← scenarios_ids, ← List.attach_map_subtype_val scenarios, List.map_map]
    simp
  have hkeys : ∀ row : { row : ScenarioRow // row ∈ scenarios }, ∀ profileId,
      trialNumbers.map (fun number ↦ Entry.key (row, profileId, number)) =
        [1, 2, 3].map fun number ↦ trialKey row.val.id profileId number := fun row profileId ↦ rfl
  rw [expectedTrials, hids, List.flatMap_map, entries]
  simp only [SProd.sprod, List.product, List.map_flatMap, List.map_map, Function.comp_def, hkeys]

theorem entries_scopes : (entries.map Entry.scopeId).Nodup := by
  have hkeys : (entries.map Entry.key).Nodup := entries_keys ▸ expectedTrials_nodup
  refine List.Nodup.map_on (fun entry hentry entry' hentry' h ↦ ?_) hkeys.of_map
  obtain ⟨hscenario, hprofile, hnumber⟩ := scope_inj h
  refine List.inj_on_of_nodup_map hkeys hentry hentry' ?_
  rw [Entry.key, Entry.key, hscenario, hprofile, hnumber]

theorem verifyTrialCardinality_ok {targetSourceHash : Commit} :
    verifyTrialCardinality (buildBundle host commit targetSourceHash) = .ok () := by
  have hkeys : (buildTrials host commit 1 entries).map
      (fun trial ↦ trialKey trial.scenarioId trial.profileId trial.trial) = expectedTrials :=
    (buildTrials_map fun _ _ ↦ rfl).trans entries_keys
  have hscopes : ((buildTrials host commit 1 entries).map (·.scopeId)).Nodup := by
    have hplan : (buildTrials host commit 1 entries).map (·.scopeId) = entries.map Entry.scopeId :=
      buildTrials_map fun _ _ ↦ rfl
    exact hplan ▸ entries_scopes
  have hlength : (buildTrials host commit 1 entries).length = scenarioIds.length * profileIds.length * 3 := by
    rw [← List.length_map, hkeys, expectedTrials_length]
  simp only [verifyTrialCardinality, refuseIf_bind_eq_ok, refuseIf_eq_ok, buildBundle, hkeys,
    List.dedup_eq_self.mpr hscopes, List.length_map, hlength]
  simp

end Trials

/-! The calls that are built. -/

section Calls

variable {host : Host} {commit targetSourceHash : Commit} {callId : ℕ} {scheduled : List Entry}

def callCount (scheduled : List Entry) : ℕ := (scheduled.map (·.1.val.actorCalls.length)).sum

theorem callNumber_val {n : ℕ} (h : 0 < n ∧ n ≤ Schema.maxSafeInteger) : (callNumber n).val = n := by
  have hpositive : isPositive n = true := by simpa [isPositive] using h
  rw [callNumber, dif_pos hpositive]

theorem calls_ids {entry : Entry} (hpositive : 0 < callId)
    (hlast : callId + entry.1.val.actorCalls.length ≤ Schema.maxSafeInteger) :
    (entry.calls callId).map (·.proxyCallId.val) = List.range' callId entry.1.val.actorCalls.length := by
  have hread : ∀ numbered ∈ entry.1.val.actorCalls.zipIdx callId,
      (workflowCall entry.scopeId numbered.1 numbered.2).proxyCallId.val = numbered.2 := by
    intro numbered hmem
    have hindex := List.mem_zipIdx hmem
    exact callNumber_val (by omega)
  rw [Entry.calls, callsFrom, List.map_map, ← List.zipIdx_map_snd]
  exact List.map_congr_left hread

theorem buildTrials_ids (hpositive : 0 < callId) (hlast : callId + callCount scheduled ≤ Schema.maxSafeInteger) :
    ((buildTrials host commit callId scheduled).flatMap (·.workflow.calls)).map (·.proxyCallId.val) =
      List.range' callId (callCount scheduled) := by
  induction scheduled generalizing callId with
  | nil => rfl
  | cons entry scheduled ih =>
    have hcount : callCount (entry :: scheduled) = entry.1.val.actorCalls.length + callCount scheduled := rfl
    rw [hcount] at hlast ⊢
    rw [buildTrials, List.flatMap_cons, List.map_append, ih (by omega) (by omega), ← List.range'_append_1]
    exact congrArg (· ++ _) (calls_ids hpositive (by omega))

theorem callCount_le : callCount scheduled ≤ 5 * scheduled.length := by
  induction scheduled with
  | nil => exact le_rfl
  | cons entry scheduled ih =>
    have hcount : callCount (entry :: scheduled) = entry.1.val.actorCalls.length + callCount scheduled := rfl
    have hfew := few_actors _ entry.1.property
    rw [hcount, List.length_cons]
    omega

/-- What the checks of calls and trials read of the bundle. -/
structure Built (host : Host) (commit : Commit) (bundle : HarnessBundle) : Prop where
  trials : ∀ trial ∈ bundle.trials, ∃ entry callId, trial = Entry.trial host commit entry callId
  ids : (workflowCalls bundle).map (·.proxyCallId.val) = List.range' 1 (workflowCalls bundle).length
  usage : bundle.usage = usageOfTrials bundle.trials
  proxy : bundle.proxy = proxyOfTrials commit bundle.trials
  prices : bundle.manifest.priceCatalog = prices
  settingsHash : bundle.manifest.settingsHash = HarnessEval.settingsHash
  modelConfigHash : bundle.manifest.modelConfigHash = HarnessEval.modelConfigHash
  targetCommit : bundle.manifest.targetCommit = commit

theorem buildBundle_built : Built host commit (buildBundle host commit targetSourceHash) where
  trials := fun trial htrial ↦ by
    obtain ⟨entry, -, callId, hbuilt⟩ := mem_buildTrials htrial
    exact ⟨entry, callId, hbuilt⟩
  ids := by
    have hlength : entries.length = 216 := by
      rw [← List.length_map, entries_keys, expectedTrials_length]
      rfl
    have hcount : callCount entries ≤ 5 * entries.length := callCount_le
    have hids : (workflowCalls (buildBundle host commit targetSourceHash)).map (·.proxyCallId.val) =
        List.range' 1 (callCount entries) :=
      buildTrials_ids Nat.one_pos (by rw [Schema.maxSafeInteger]; omega)
    have hcounted := congrArg List.length hids
    rw [List.length_map, List.length_range'] at hcounted
    rw [hids, hcounted]
  usage := rfl
  proxy := rfl
  prices := rfl
  settingsHash := rfl
  modelConfigHash := rfl
  targetCommit := rfl

namespace Built

variable {bundle : HarnessBundle} (hbuilt : Built host commit bundle)

include hbuilt

theorem usageKeys : usageKeys bundle = callKeys bundle := by
  rw [HarnessEval.usageKeys, hbuilt.usage, usageOfTrials, callKeys, workflowCalls, List.map_flatMap, List.map_flatMap]
  exact List.flatMap_congr fun _ _ ↦ List.map_map

theorem proxyKeys : proxyKeys bundle = callKeys bundle := by
  rw [HarnessEval.proxyKeys, hbuilt.proxy, proxyOfTrials, callKeys, workflowCalls, List.map_flatMap, List.map_flatMap]
  exact List.flatMap_congr fun _ _ ↦ List.map_map

theorem callKeys_nodup : ((callKeys bundle).map keyOf).Nodup := by
  have hids : ((callKeys bundle).map (·.proxyCallId.val)).Nodup := by
    rw [callKeys, List.map_map]
    exact hbuilt.ids ▸ List.nodup_range'
  exact hids.of_map.map keyOf_injective

theorem usageNames : bundle.usage.map (keyOf ·.toReconciliationKey) = (callKeys bundle).map keyOf := by
  rw [← hbuilt.usageKeys, HarnessEval.usageKeys, List.map_map]
  rfl

theorem proxyNames : bundle.proxy.map (keyOf ·.toReconciliationKey) = (callKeys bundle).map keyOf := by
  rw [← hbuilt.proxyKeys, HarnessEval.proxyKeys, List.map_map]
  rfl

theorem proxyIds : bundle.proxy.map (·.proxyCallId.val) = List.range' 1 (workflowCalls bundle).length := by
  have hkeys := congrArg (List.map (·.proxyCallId.val)) hbuilt.proxyKeys
  rw [HarnessEval.proxyKeys, callKeys, List.map_map, List.map_map] at hkeys
  exact hkeys.trans hbuilt.ids

theorem verifyCalls : verifyCalls bundle = .ok () := by
  have hcallNames : (workflowCalls bundle).map (keyOf ·.toReconciliationKey) = (callKeys bundle).map keyOf := by
    rw [callKeys, List.map_map]
    rfl
  have hdedup := List.dedup_eq_self.mpr hbuilt.callKeys_nodup
  have hcallLength := congrArg List.length hcallNames
  have husageLength := congrArg List.length hbuilt.usageNames
  have hproxyLength := congrArg List.length hbuilt.proxyNames
  rw [List.length_map] at hcallLength husageLength hproxyLength
  have hnone : ∀ keys : List String, (keys.any fun key ↦ key ∉ keys) = false := by simp
  simp only [HarnessEval.verifyCalls, refuseIf_bind_eq_ok, refuseIf_eq_ok, hcallNames, hbuilt.usageNames,
    hbuilt.proxyNames, hdedup, hcallLength, husageLength, hproxyLength]
  refine ⟨?_, by rw [hnone, Bool.or_self], ?_, by simp⟩
  · simpa only [Bool.or_self] using hnone _
  rw [List.any_eq_false]
  rintro ⟨proxy, index⟩ hmem
  have hid := congrArg (·[index]?) hbuilt.proxyIds
  rw [List.getElem?_map, List.mem_zipIdx_iff_getElem?.mp hmem, Option.map_some] at hid
  obtain ⟨hindex, hid⟩ := List.getElem?_eq_some_iff.mp hid.symm
  rw [List.getElem_range'] at hid
  rw [decide_eq_true_eq, not_not, ← hid]
  omega

end Built

end Calls

/-! Every check of the trials. -/

section Checks

variable {host : Host} {commit targetSourceHash : Commit} {entry : Entry} {callId total : ℕ} {call : WorkflowCall}

theorem lastAt_key {α : Type} {keyed : α → String} {all : List α} (h : (all.map keyed).Nodup) {x : α} (hx : x ∈ all) :
    lastAt keyed all (keyed x) = some x := by
  have hx' : x ∈ all.reverse := List.mem_reverse.mpr hx
  have hfound : (all.reverse.find? (keyed · = keyed x)).isSome = true :=
    List.find?_isSome.mpr ⟨x, hx', by simp⟩
  obtain ⟨y, hy⟩ := Option.isSome_iff_exists.mp hfound
  have hkey : keyed y = keyed x := of_decide_eq_true (List.find?_some hy :)
  have hmem : y ∈ all := List.mem_reverse.mp (List.mem_of_find?_eq_some hy)
  rw [lastAt, hy, List.inj_on_of_nodup_map h hmem hx hkey]

theorem routes_verified : ∀ row ∈ scenarios, ∀ actor ∈ row.actorCalls,
    ¬ (actor.metricBucket = .critic ∧ actor.actorId ≠ .momus ∧ actor.actorId ≠ .reviewer) ∧
    ¬ (actor.metricBucket = .workflow ∧ (actor.actorId = .evaluator ∨ actor.actorId = .critic)) ∧
    ¬ (actor.actorId = .momus ∧ actor.metricBucket ≠ .critic) := by decide

theorem allowed_verified : ∀ row ∈ scenarios, ∀ allowed ∈ row.actorCalls,
    (row.actorCalls.filter (·.actorId = allowed.actorId)).length ≤ allowed.maxCalls ∧
    ∀ actor ∈ row.actorCalls, actor.actorId = allowed.actorId → actor.metricBucket = allowed.metricBucket := by decide

theorem callCount_verified : ∀ row ∈ scenarios, row.actorCalls.length ≤ row.workflowCallCount := by decide

theorem metric_verified : ∀ row ∈ scenarios, isMetricScenario row.id = true ↔ row.actorCalls ≠ [] := by decide

theorem scenarios_getElem? {row : ScenarioRow} (h : row ∈ scenarios) :
    scenarios[scenarioIds.idxOf row.id]? = some row := by
  have hids : (scenarios.map (·.id)).Nodup := by
    rw [scenarios_ids]
    decide
  have hindex : scenarioIds.idxOf row.id < scenarios.length :=
    scenarios_length ▸ List.idxOf_lt_length_of_mem (mem_scenarioIds row.id)
  have hfound := List.getElem?_eq_getElem hindex
  rw [hfound, List.inj_on_of_nodup_map hids (List.getElem_mem hindex) h (authority_id hfound)]

theorem mem_calls (h : call ∈ entry.calls callId) :
    ∃ actor ∈ entry.1.val.actorCalls, ∃ n, call = workflowCall entry.scopeId actor n := by
  obtain ⟨⟨actor, n⟩, hmem, rfl⟩ := List.mem_map.mp h
  exact ⟨actor, List.fst_mem_of_mem_zipIdx hmem, n, rfl⟩

theorem calls_filter (p : ActorId → Bool) :
    ((entry.calls callId).filter fun call ↦ p call.actorId).length =
      (entry.1.val.actorCalls.filter fun actor ↦ p actor.actorId).length := by
  have hactors : (entry.calls callId).map (·.actorId) = entry.1.val.actorCalls.map (·.actorId) := by
    rw [Entry.calls, callsFrom, List.map_map]
    conv_rhs => rw [← List.zipIdx_map_fst callId entry.1.val.actorCalls, List.map_map]
    rfl
  have hcount := congrArg (List.countP p) hactors
  rw [List.countP_map, List.countP_map, List.countP_eq_length_filter, List.countP_eq_length_filter] at hcount
  exact hcount

theorem verifyAllowed_ok {allowed : ActorCall} (h : allowed ∈ entry.1.val.actorCalls) :
    verifyAllowed entry.1.val (entry.calls callId) allowed = .ok () := by
  obtain ⟨hmost, hbucket⟩ := allowed_verified _ entry.1.property allowed h
  have hfilter := @calls_filter entry callId (· = allowed.actorId)
  simp only [verifyAllowed, refuseIf_bind_eq_ok, refuseIf_eq_ok, Bool.or_eq_false_iff, decide_eq_false_iff_not,
    not_lt, List.any_eq_false, hfilter]
  refine ⟨le_rfl, hmost, fun call hcall ↦ ?_⟩
  obtain ⟨hcall, hactor⟩ := List.mem_filter.mp hcall
  obtain ⟨actor, hmem, n, rfl⟩ := mem_calls hcall
  rw [decide_eq_true_eq, not_not]
  exact hbucket actor hmem (of_decide_eq_true hactor)

theorem verifyRoute_ok (h : call ∈ entry.calls callId) : verifyRoute call = .ok () := by
  obtain ⟨actor, hmem, n, rfl⟩ := mem_calls h
  obtain ⟨hcritic, hworkflow, hmomus⟩ := routes_verified _ entry.1.property actor hmem
  simp only [verifyRoute, refuseIf_bind_eq_ok, refuseIf_eq_ok, Bool.eq_false_iff, ne_eq, Bool.and_eq_true,
    Bool.or_eq_true, decide_eq_true_eq, not_not, and_assoc]
  exact ⟨rfl, hcritic, hworkflow, hmomus⟩

namespace Built

variable {bundle : HarnessBundle} (hbuilt : Built host commit bundle)

include hbuilt

theorem priceByProfile (profileId : ProfileId) :
    priceByProfile bundle profileId = some (price profileId (profileIds.idxOf profileId)) := by
  rw [HarnessEval.priceByProfile, hbuilt.prices]
  cases profileId <;> rfl

theorem usageByKey (htrial : entry.trial host commit callId ∈ bundle.trials) (hcall : call ∈ entry.calls callId) :
    usageByKey bundle (keyOf call.toReconciliationKey) = some (usageReceipt call) := by
  have hmem : usageReceipt call ∈ bundle.usage := by
    rw [hbuilt.usage]
    exact List.mem_flatMap.mpr ⟨_, htrial, List.mem_map_of_mem hcall⟩
  have hkey : (usageReceipt call).toReconciliationKey = call.toReconciliationKey := rfl
  have hlast := lastAt_key (hbuilt.usageNames ▸ hbuilt.callKeys_nodup) hmem
  rw [hkey] at hlast
  exact hlast

theorem proxyByKey (htrial : entry.trial host commit callId ∈ bundle.trials) (hcall : call ∈ entry.calls callId) :
    proxyByKey bundle (keyOf call.toReconciliationKey) = some (proxyReceipt commit entry.2.1 call) := by
  have hmem : proxyReceipt commit entry.2.1 call ∈ bundle.proxy := by
    rw [hbuilt.proxy]
    exact List.mem_flatMap.mpr ⟨_, htrial, List.mem_map_of_mem hcall⟩
  have hkey : (proxyReceipt commit entry.2.1 call).toReconciliationKey = call.toReconciliationKey := rfl
  have hlast := lastAt_key (hbuilt.proxyNames ▸ hbuilt.callKeys_nodup) hmem
  rw [hkey] at hlast
  exact hlast

theorem verifyModel :
    verifyModel bundle (entry.trial host commit callId) (proxyReceipt commit entry.2.1 call) = .ok () := by
  have hprice : HarnessEval.priceByProfile bundle (entry.trial host commit callId).profileId = _ :=
    hbuilt.priceByProfile entry.2.1
  rw [HarnessEval.verifyModel, hprice]
  simp [price, proxyReceipt, refuseIf_bind_eq_ok, refuseIf_eq_ok]

theorem verifyCall (htrial : entry.trial host commit callId ∈ bundle.trials) (hcall : call ∈ entry.calls callId)
    (hfits : total + 15 < 2 ^ 53) :
    verifyCall bundle (entry.trial host commit callId) total call = .ok (total + 15) := by
  have hsum : addNumbers total 15 = total + 15 := addNumbers_exact hfits
  rw [HarnessEval.verifyCall, check_bind_eq_ok]
  refine ⟨verifyRoute_ok hcall, ?_⟩
  dsimp only
  rw [hbuilt.usageByKey htrial hcall, hbuilt.proxyByKey htrial hcall]
  simp only [check_bind_eq_ok, hbuilt.verifyModel, true_and, refuseIf_eq_ok]
  refine ⟨rfl, rfl, ?_, ?_, ?_, ?_, congrArg Except.ok hsum⟩
  · exact decide_eq_false (not_not_intro rfl)
  · exact decide_eq_false (not_not_intro rfl)
  · exact decide_eq_false (not_not_intro rfl)
  · rw [Bool.or_eq_false_iff]
    exact ⟨decide_eq_false (not_not_intro rfl), decide_eq_false (not_not_intro rfl)⟩

theorem tally (htrial : entry.trial host commit callId ∈ bundle.trials) {calls : List WorkflowCall}
    (hcalls : calls ⊆ entry.calls callId) (hfits : total + calls.length * 15 < 2 ^ 53) :
    tally bundle (entry.trial host commit callId) total calls = .ok (total + calls.length * 15) := by
  induction calls generalizing total with
  | nil => rfl
  | cons call calls ih =>
    obtain ⟨hcall, hcalls⟩ := List.cons_subset.mp hcalls
    rw [List.length_cons] at hfits ⊢
    rw [HarnessEval.tally, andThen_eq_ok]
    refine ⟨total + 15, hbuilt.verifyCall htrial hcall (by omega), ?_⟩
    rw [ih hcalls (by omega)]
    congr 1
    omega

theorem verifyTrial (htrial : entry.trial host commit callId ∈ bundle.trials) :
    verifyTrial host bundle (entry.trial host commit callId) = .ok () := by
  have hlength := calls_length entry callId
  have hfew := calls_length_le entry callId
  have hauthority : scenarios[scenarioIds.idxOf (entry.trial host commit callId).scenarioId]? = some entry.1.val :=
    scenarios_getElem? entry.1.property
  have hmetric := metric_verified _ entry.1.property
  have htally : HarnessEval.tally bundle (entry.trial host commit callId) 0 (entry.calls callId) =
      .ok (0 + (entry.calls callId).length * 15) := hbuilt.tally htrial (List.Subset.refl _) (by omega)
  rw [Nat.zero_add] at htally
  rw [HarnessEval.verifyTrial, hauthority]
  simp only [check_bind_eq_ok, refuseIf_eq_ok, checkEach_eq_ok]
  refine ⟨decide_eq_false (not_not_intro rfl), ?_, ?_, fun allowed ↦ verifyAllowed_ok, ?_, ?_, ?_, ?_⟩
  · rw [List.any_eq_false]
    intro call hcall
    obtain ⟨actor, -, n, rfl⟩ := mem_calls hcall
    rw [decide_eq_true_eq, not_not]
    rfl
  · exact decide_eq_false (not_lt.mpr (hlength.trans_le (callCount_verified _ entry.1.property)))
  · rw [List.any_eq_false]
    intro call hcall
    obtain ⟨actor, hmem, n, rfl⟩ := mem_calls hcall
    rw [Bool.not_eq_true', Bool.not_eq_false, List.any_eq_true]
    exact ⟨actor, hmem, decide_eq_true rfl⟩
  · exact decide_eq_false (not_not_intro hbuilt.settingsHash.symm)
  · exact decide_eq_false (not_not_intro hbuilt.modelConfigHash.symm)
  refine andThen_eq_ok.mpr ⟨_, htally, ?_⟩
  simp only [refuseIf_bind_eq_ok, refuseIf_eq_ok]
  refine ⟨decide_eq_false (not_not_intro rfl), decide_eq_false (not_not_intro hbuilt.targetCommit.symm), ?_, ?_, ?_⟩
  · exact Bool.and_eq_false_imp.mpr fun _ ↦ decide_eq_false (not_not_intro rfl)
  · refine Bool.and_eq_false_imp.mpr fun hdirect ↦ decide_eq_false (not_not_intro (hlength.trans ?_))
    by_contra hne
    have hlisted : entry.1.val.actorCalls ≠ [] := fun hnil ↦ hne (congrArg List.length hnil)
    exact Bool.false_ne_true (((Bool.not_eq_true' _).mp hdirect).symm.trans (hmetric.mpr hlisted))
  · refine Bool.and_eq_false_imp.mpr fun hreference ↦ decide_eq_false ?_
    have hlisted := hmetric.mp ((Bool.and_eq_true _ _).mp hreference).2
    have hpositive := List.length_pos_of_ne_nil hlisted
    omega

theorem verifyCosts : verifyCosts bundle = .ok () := by
  refine checkEach_eq_ok.mpr fun trial htrial ↦ ?_
  obtain ⟨entry, callId, rfl⟩ := hbuilt.trials trial htrial
  rw [hbuilt.priceByProfile]
  refine checkEach_eq_ok.mpr fun call hcall ↦ ?_
  rw [verifyCost]
  split
  · rename_i hnone
    have hmem : usageReceipt call ∈ bundle.usage := by
      rw [hbuilt.usage]
      exact List.mem_flatMap.mpr ⟨_, htrial, List.mem_map_of_mem hcall⟩
    have hkey : (usageReceipt call).toReconciliationKey = call.toReconciliationKey := rfl
    have hother := List.find?_eq_none.mp hnone _ hmem
    rw [hkey, decide_eq_true_eq] at hother
    exact absurd rfl hother
  · rename_i usage _
    have hproduct : ∀ m n : ℕ, (0 : ℤ) ≤ m * n := fun m n ↦
      Int.mul_nonneg (Int.natCast_nonneg m) (Int.natCast_nonneg n)
    exact refuseIf_eq_ok.mpr (decide_eq_false (Int.not_lt.mpr (Int.add_nonneg (hproduct _ _) (hproduct _ _))))

theorem verifyUsageAndProxy : verifyUsageAndProxy host bundle = .ok () := by
  refine checkEach_eq_ok.mpr fun trial htrial ↦ ?_
  obtain ⟨entry, callId, rfl⟩ := hbuilt.trials trial htrial
  exact hbuilt.verifyTrial htrial

end Built

/-- The verifier passes the synthetic bundle of the commit and the tree that the host is at. -/
theorem verifyHarnessBundle_synthetic (hcommit : commit.val = host.actualCommit)
    (htree : targetSourceHash.val = host.actualTree) :
    verifyHarnessBundle host (.ok (buildBundle host commit targetSourceHash)) = .pass := by
  have hbuilt := @buildBundle_built host commit targetSourceHash
  have hcommits : ∀ trial ∈ (buildBundle host commit targetSourceHash).trials, trial.targetCommit = commit := by
    intro trial htrial
    obtain ⟨entry, callId, rfl⟩ := hbuilt.trials trial htrial
    rfl
  have hpass : verifyBundle host (buildBundle host commit targetSourceHash) = .ok () := by
    simp only [verifyBundle, check_bind_eq_ok, refuseIf_eq_ok]
    refine ⟨decide_eq_false (not_not_intro rfl), ?_, ?_, ?_, verifyManifest_ok, verifyTrialCardinality_ok,
      hbuilt.verifyCalls, hbuilt.verifyUsageAndProxy, hbuilt.verifyCosts⟩
    · rw [Bool.or_eq_false_iff, List.any_eq_false]
      refine ⟨decide_eq_false (not_not_intro rfl), fun trial htrial ↦ ?_⟩
      rw [decide_eq_true_eq, not_not, hcommits trial htrial]
      rfl
    · rw [Bool.or_eq_false_iff]
      exact ⟨decide_eq_false (not_not_intro hcommit), decide_eq_false (not_not_intro htree)⟩
    · rw [hbuilt.prices, List.any_eq_false]
      intro price hprice
      obtain ⟨profile, -, rfl⟩ := List.mem_map.mp hprice
      rw [Bool.not_eq_true]
      exact namesSecret_model profile.1
  rw [verifyHarnessBundle, hpass]

theorem usageKeys_of_calls (calls : List WorkflowCall) :
    (calls.map usageReceipt).map (·.toReconciliationKey) = calls.map (·.toReconciliationKey) := List.map_map

/-- The tokens of a trial are those of its own calls, which are few. -/
theorem synthetic_sums (hcommit : commit.val = host.actualCommit) (htree : targetSourceHash.val = host.actualTree) :
    ∀ trial ∈ (buildBundle host commit targetSourceHash).trials,
      tokensOf (usageOf (buildBundle host commit targetSourceHash) trial.scopeId) < 2 ^ 53 := by
  intro trial htrial
  have hbuilt := @buildBundle_built host commit targetSourceHash
  obtain ⟨hcardinality, hcalls, hpassed⟩ := checks_of_pass (verifyHarnessBundle_synthetic hcommit htree)
  have hsub : trial.workflow.calls.map usageReceipt ⊆ (buildBundle host commit targetSourceHash).usage := by
    rw [hbuilt.usage]
    exact fun usage husage ↦ List.mem_flatMap.mpr ⟨trial, htrial, husage⟩
  have hperm := usage_of_trial hcalls hcardinality hpassed htrial hsub (usageKeys_of_calls _)
  have hsame : tokensOf (trial.workflow.calls.map usageReceipt) = _ := (hperm.map UsageReceipt.tokens).sum_eq
  have htokens : ∀ calls : List WorkflowCall, tokensOf (calls.map usageReceipt) = 15 * calls.length := by
    intro calls
    induction calls with
    | nil => rfl
    | cons call calls ih =>
      have hcons : tokensOf ((call :: calls).map usageReceipt) = 15 + tokensOf (calls.map usageReceipt) := rfl
      rw [hcons, ih, List.length_cons]
      omega
  have hfew := trial.workflow.calls_length
  rw [tokensOf, ← hsame, htokens]
  omega

end Checks

namespace Sample

theorem isLowerHex_a : isLowerHex 'a' = true := by decide

def commit : Commit := ⟨String.ofList (List.replicate 40 'a'), isLowerHexOf_replicate isLowerHex_a 40⟩

def host : Host where
  sha256 text := ⟨Sha256.digest text, Sha256.digest_hex text⟩
  localeLe left right := ordinalLe left right
  actualCommit := commit
  actualTree := commit

end Sample

theorem synthetic_bundle_accounted :
    verifyHarnessBundle Sample.host (.ok (buildBundle Sample.host Sample.commit Sample.commit)) = .pass ∧
      Accounted (buildBundle Sample.host Sample.commit Sample.commit) :=
  ⟨verifyHarnessBundle_synthetic rfl rfl,
    verified_bundle_accounted _ _ (verifyHarnessBundle_synthetic rfl rfl) (synthetic_sums rfl rfl)⟩

end OmpLazy.HarnessEval

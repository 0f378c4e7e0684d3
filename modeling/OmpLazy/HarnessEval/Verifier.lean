import OmpLazy.HarnessEval.Scenarios
import OmpLazy.Foundation.Checks
import OmpLazy.Foundation.JsonText
import Mathlib.Data.List.Dedup
import Mathlib.Data.Nat.Bitwise

/-! A bundle of evaluation receipts is verified against the scenarios and against itself. -/

namespace OmpLazy.HarnessEval

open OmpLazy.Foundation OmpLazy.Foundation.Text OmpLazy.Contracts JsonText

/-! The bundle as the schema reads it; what the verifier never reads is left out, and a text that
is only hashed or compared is any string. -/

section Schema

def isLower (c : Char) : Bool := 'a' ≤ c && c ≤ 'z'

/-- `[a-z]` and up to 63 more of another class -/
def isNameOf (isPart : Char → Bool) : List Char → Bool
  | [] => false
  | c :: cs => isLower c && cs.length ≤ 63 && cs.all isPart

def isRuntimeId (text : String) : Bool :=
  isNameOf (fun c ↦ isLower c || isDigit c || c == '.' || c == '_' || c == '-') text.toList

def isRoute (text : String) : Bool :=
  (after "/actor/" text).any fun name ↦ isNameOf (fun c ↦ isLower c || isDigit c || c == '-') name.toList

abbrev Sha256 := { text : String // isLowerHexOf 64 text }

abbrev Commit := { text : String // isLowerHexOf 40 text }

abbrev ScopeId := { text : String // isLowerHexOf 32 text }

abbrev RuntimeId := { text : String // isRuntimeId text }

abbrev Route := { text : String // isRoute text }

abbrev Count := { n : ℕ // n ≤ Schema.maxSafeInteger }

abbrev PositiveCount := { n : ℕ // isPositive n }

abbrev TrialNumber := { n : ℕ // 1 ≤ n ∧ n ≤ 3 }

abbrev Literal {α : Type} (value : α) := { x : α // x = value }

inductive Outcome where
  | pass
  | fail
  | blocked
  | notComparable
  deriving DecidableEq, Repr

structure ActorRouteMapping where
  actorId : ActorId
  candidateHighRoute : Route
  candidateLowRoute : Route
  legacyLowRoute : Route

structure PriceRecord where
  effectiveDate : String
  inputNanos : Count
  modelId : RuntimeId
  modelRevision : Sha256
  outputNanos : Count
  retrievalDate : String
  sourceSha256 : Sha256
  sourceUrl : String

structure Manifest where
  actorMappings : List ActorRouteMapping
  baselineTargetCommit : Commit
  baselineTargetTree : Commit
  hostExecutableSha256 : Sha256
  liveProfileInputSchemaSha256 : Sha256
  modelConfigHash : Sha256
  priceCatalog : List PriceRecord
  scenarios : List ScenarioRow
  scenarioIds : List ScenarioId
  settingsHash : Sha256
  targetCommit : Commit
  actorMappings_length : actorMappings.length = actorIds.length
  priceCatalog_length : priceCatalog.length = profileIds.length
  scenarios_length : scenarios.length = HarnessEval.scenarioIds.length
  scenarioIds_length : scenarioIds.length = HarnessEval.scenarioIds.length

structure ReconciliationKey where
  configuredActorRoute : Route
  proxyCallId : PositiveCount
  scopeId : ScopeId
  deriving DecidableEq

structure WorkflowCall extends ReconciliationKey where
  actorId : ActorId
  metricBucket : MetricBucket

structure WorkflowReceipt where
  calls : List WorkflowCall
  modelConfigHash : Sha256
  scopeHash : Sha256
  settingsHash : Sha256
  workflowTokens : Count
  calls_length : calls.length ≤ 28

structure TrialReceipt where
  outcome : Outcome
  profileId : ProfileId
  scenarioId : ScenarioId
  scopeId : ScopeId
  targetCommit : Commit
  trial : TrialNumber
  workflow : WorkflowReceipt

structure UsageReceipt extends ReconciliationKey where
  cachedTokens : Count
  completionTokens : Count
  promptTokens : Count
  reasoningTokens : Count

structure ProxyReceipt extends ReconciliationKey where
  modelConfigHash : Sha256
  modelId : RuntimeId
  modelRevision : Sha256
  returnedModelId : RuntimeId
  returnedRevision : Sha256
  seed : Literal 0
  seedSource : Literal "compat.extraBody"
  settingsHash : Sha256
  targetCommit : Commit
  temperature : Literal 0
  topP : Literal 1
  terminal : Literal "responded"

structure SourceBinding where
  targetCommit : Commit
  targetSourceHash : Commit

structure HarnessBundle where
  manifest : Manifest
  manifestHash : Sha256
  proxy : List ProxyReceipt
  trials : List TrialReceipt
  usage : List UsageReceipt
  sourceBinding : SourceBinding

/-- A part of the path of an issue. -/
inductive PathPart where
  | key (name : String)
  | index (n : ℕ)
  deriving DecidableEq, Repr

end Schema

inductive RejectionCode where
  | actorMappingCardinality
  | actorRoutePolicy
  | actorRouteMismatch
  | hardGateFailed
  | manifestHashMismatch
  | modelConfigHashMismatch
  | scenarioCardinality
  | scenarioAuthorityMismatch
  | settingsHashMismatch
  | scopeBindingMismatch
  | targetCommitMismatch
  | trialCardinality
  | unknownField
  | unknownModel
  | usageCallMissing
  | usageCallUnexpected
  | usageFieldsMissing
  | wireSamplingMismatch
  | zeroReferenceUsage
  deriving DecidableEq, Repr

inductive VerificationReceipt where
  | pass
  | fail (code : RejectionCode)
  deriving DecidableEq, Repr

/-- What the verifier asks its host: the digest of a text, the order of `localeCompare`, and what
`git rev-parse` prints for `HEAD` and for its tree. -/
structure Host where
  sha256 : String → Sha256
  localeLe : String → String → Bool
  actualCommit : String
  actualTree : String

/-! Numbers. -/

section Numbers

/-- The double nearest to a natural number, the even one of two that are equally near. -/
def nearest (n : ℕ) : ℕ :=
  if n < 2 ^ 53 then n
  else
    let unit := 2 ^ (Nat.log2 n - 52)
    let below := n / unit
    if 2 * (n % unit) < unit || (2 * (n % unit) = unit && below % 2 = 0) then below * unit
    else (below + 1) * unit

def addNumbers (a b : ℕ) : ℕ := nearest (a + b)

end Numbers

/-! The hash of the manifest. -/

section Hash

variable (host : Host)

mutual
def canonicalJson : Json → List Char
  | .array items => '[' :: ([','].intercalate (canonicalItems items) ++ [']'])
  | .object fields =>
    let entries := (canonicalEntries fields).mergeSort fun left right ↦ host.localeLe left.1 right.1
    openBrace :: ([','].intercalate (entries.map fun entry ↦ writeMember entry.1 entry.2) ++ [closeBrace])
  | .null => stringify .null
  | .bool value => stringify (.bool value)
  | .number value => stringify (.number value)
  | .string value => stringify (.string value)

def canonicalItems : List Json → List (List Char)
  | [] => []
  | item :: items => canonicalJson item :: canonicalItems items

def canonicalEntries : List (String × Json) → List (String × List Char)
  | [] => []
  | (key, value) :: fields => (key, canonicalJson value) :: canonicalEntries fields
end

def encodeMapping (mapping : ActorRouteMapping) : Json := .object [
  ("actorId", .string mapping.actorId.name),
  ("candidateHighRoute", .string mapping.candidateHighRoute),
  ("candidateLowRoute", .string mapping.candidateLowRoute),
  ("legacyLowRoute", .string mapping.legacyLowRoute)]

def encodePrice (price : PriceRecord) : Json := .object [
  ("currency", .string "USD"),
  ("effectiveDate", .string price.effectiveDate),
  ("inputNanos", .nat price.inputNanos),
  ("modelId", .string price.modelId),
  ("modelRevision", .string price.modelRevision),
  ("outputNanos", .nat price.outputNanos),
  ("perTokenUnit", .string "token"),
  ("retrievalDate", .string price.retrievalDate),
  ("sourceSha256", .string price.sourceSha256),
  ("sourceUrl", .string price.sourceUrl)]

def encodeActorCall (call : ActorCall) : Json := .object [
  ("actorId", .string call.actorId.name),
  ("maxCalls", .nat call.maxCalls),
  ("metricBucket", .string call.metricBucket.name)]

def encodeRow (row : ScenarioRow) : Json := .object [
  ("actorCalls", .array (row.actorCalls.map encodeActorCall)),
  ("constraints", row.constraints),
  ("expected", .array row.expected),
  ("fixture", row.fixture),
  ("id", .string row.id.name),
  ("predicates", .array row.predicates),
  ("receipts", strings row.receipts),
  ("retrieval", row.retrieval),
  ("steps", .array row.steps),
  ("tier", .string row.tier.name),
  ("workflowCallCount", .nat row.workflowCallCount)]

def encodeManifest (manifest : Manifest) : Json := .object [
  ("actorMappings", .array (manifest.actorMappings.map encodeMapping)),
  ("baselineTargetCommit", .string manifest.baselineTargetCommit),
  ("baselineTargetTree", .string manifest.baselineTargetTree),
  ("hostExecutableSha256", .string manifest.hostExecutableSha256),
  ("hostVersion", .string "17.0.5"),
  ("manifestId", .string "harness-eval-v1"),
  ("liveProfileInputSchemaSha256", .string manifest.liveProfileInputSchemaSha256),
  ("modelConfigHash", .string manifest.modelConfigHash),
  ("priceCatalog", .array (manifest.priceCatalog.map encodePrice)),
  ("scenarios", .array (manifest.scenarios.map encodeRow)),
  ("scenarioIds", strings (manifest.scenarioIds.map (·.name))),
  ("schemaVersion", .nat 1),
  ("settingsHash", .string manifest.settingsHash),
  ("targetCommit", .string manifest.targetCommit)]

def hashManifest (manifest : Manifest) : Sha256 :=
  host.sha256 (String.ofList (canonicalJson host (encodeManifest manifest)))

end Hash

section Manifest

def hasExactValues (values expected : List String) : Bool :=
  stringify (strings values) = stringify (strings expected)

def authorityCallsAreBounded (authority : ScenarioRow) : Bool :=
  (authority.actorCalls.map (·.maxCalls)).sum ≤ authority.workflowCallCount

def verifyManifest (host : Host) (manifest : Manifest) : Except RejectionCode Unit := do
  refuseIf (!hasExactValues (manifest.scenarioIds.map (·.name)) (scenarioIds.map (·.name))) .scenarioCardinality
  refuseIf ((manifest.actorMappings.map (·.actorId)).dedup.length ≠ actorIds.length) .actorMappingCardinality
  refuseIf ((manifest.priceCatalog.map (·.modelId)).dedup.length ≠ profileIds.length) .unknownModel
  refuseIf (manifest.actorMappings.any fun mapping ↦
    mapping.legacyLowRoute.val ≠ frozenActorRoute mapping.actorId ||
    mapping.candidateHighRoute.val ≠ frozenActorRoute mapping.actorId ||
    mapping.candidateLowRoute.val ≠ frozenActorRoute mapping.actorId) .actorRoutePolicy
  refuseIf (!hasExactValues (manifest.scenarios.map (·.id.name)) (scenarioIds.map (·.name))) .scenarioCardinality
  refuseIf (manifest.scenarios.zipIdx.any fun (row, index) ↦
    some (canonicalJson host (encodeRow row)) ≠
      scenarios[index]?.map fun authority ↦ canonicalJson host (encodeRow authority)) .scenarioAuthorityMismatch
  refuseIf (scenarios.any fun authority ↦ !authorityCallsAreBounded authority) .scenarioAuthorityMismatch

end Manifest

/-! The receipts; a set is a list without duplicates. -/

section Receipts

def keyOf (value : ReconciliationKey) : String :=
  value.scopeId.val ++ ":" ++ value.configuredActorRoute.val ++ ":" ++ toString value.proxyCallId.val

def trialKey (scenarioId : ScenarioId) (profileId : ProfileId) (trial : ℕ) : String :=
  scenarioId.name ++ ":" ++ profileId.name ++ ":" ++ toString trial

def expectedTrials : List String :=
  scenarioIds.flatMap fun scenarioId ↦ profileIds.flatMap fun profileId ↦
    [1, 2, 3].map fun trial ↦ trialKey scenarioId profileId trial

def verifyTrialCardinality (bundle : HarnessBundle) : Except RejectionCode Unit := do
  refuseIf (bundle.trials.length ≠ scenarioIds.length * profileIds.length * 3) .trialCardinality
  let expected := expectedTrials.dedup
  let actual := (bundle.trials.map fun trial ↦ trialKey trial.scenarioId trial.profileId trial.trial).dedup
  refuseIf ((bundle.trials.map (·.scopeId)).dedup.length ≠ bundle.trials.length) .scopeBindingMismatch
  refuseIf (!(actual.length = expected.length && expected.all (· ∈ actual))) .trialCardinality

def workflowCalls (bundle : HarnessBundle) : List WorkflowCall := bundle.trials.flatMap (·.workflow.calls)

def verifyCalls (bundle : HarnessBundle) : Except RejectionCode Unit := do
  let expectedKeys := ((workflowCalls bundle).map (keyOf ·.toReconciliationKey)).dedup
  let usageKeys := (bundle.usage.map (keyOf ·.toReconciliationKey)).dedup
  let proxyKeys := (bundle.proxy.map (keyOf ·.toReconciliationKey)).dedup
  refuseIf (expectedKeys.any fun key ↦ key ∉ usageKeys || key ∉ proxyKeys) .usageCallMissing
  refuseIf ((usageKeys.any fun key ↦ key ∉ expectedKeys) || proxyKeys.any fun key ↦ key ∉ expectedKeys)
    .usageCallUnexpected
  refuseIf (bundle.proxy.zipIdx.any fun (proxy, index) ↦ proxy.proxyCallId.val ≠ index + 1) .usageCallUnexpected
  refuseIf (expectedKeys.length ≠ (workflowCalls bundle).length || usageKeys.length ≠ bundle.usage.length ||
    proxyKeys.length ≠ bundle.proxy.length) .usageCallUnexpected

/-- What a map from the keys of these holds at one: the last that was put there. -/
def lastAt {α : Type} (keyed : α → String) (entries : List α) (key : String) : Option α :=
  entries.reverse.find? (keyed · = key)

def usageByKey (bundle : HarnessBundle) (key : String) : Option UsageReceipt :=
  lastAt (keyOf ·.toReconciliationKey) bundle.usage key

def proxyByKey (bundle : HarnessBundle) (key : String) : Option ProxyReceipt :=
  lastAt (keyOf ·.toReconciliationKey) bundle.proxy key

def verifyAllowed (authority : ScenarioRow) (calls : List WorkflowCall) (allowed : ActorCall) :
    Except RejectionCode Unit := do
  let observed := calls.filter (·.actorId = allowed.actorId)
  let requiredCalls := (authority.actorCalls.filter (·.actorId = allowed.actorId)).length
  refuseIf (observed.length < requiredCalls) .usageCallMissing
  refuseIf (allowed.maxCalls < observed.length || observed.any (·.metricBucket ≠ allowed.metricBucket))
    .actorRoutePolicy

def verifyRoute (call : WorkflowCall) : Except RejectionCode Unit := do
  refuseIf (call.configuredActorRoute.val ≠ frozenActorRoute call.actorId) .actorRoutePolicy
  refuseIf (call.metricBucket = .critic && call.actorId ≠ .momus && call.actorId ≠ .reviewer) .actorRoutePolicy
  refuseIf (call.metricBucket = .workflow && (call.actorId = .evaluator || call.actorId = .critic)) .actorRoutePolicy
  refuseIf (call.actorId = .momus && call.metricBucket ≠ .critic) .actorRoutePolicy

def priceByProfile (bundle : HarnessBundle) (profileId : ProfileId) : Option PriceRecord :=
  bundle.manifest.priceCatalog[profileIds.idxOf profileId]?

def verifyModel (bundle : HarnessBundle) (trial : TrialReceipt) (proxy : ProxyReceipt) : Except RejectionCode Unit :=
  match priceByProfile bundle trial.profileId with
  | none => .error .unknownModel
  | some price => do
    refuseIf (proxy.modelId ≠ price.modelId || proxy.returnedModelId ≠ price.modelId) .unknownModel
    refuseIf (proxy.modelRevision ≠ price.modelRevision || proxy.returnedRevision ≠ price.modelRevision) .unknownModel

/-- One round of the loop over the calls of a trial: the total with the tokens of the call. -/
def verifyCall (bundle : HarnessBundle) (trial : TrialReceipt) (total : ℕ) (call : WorkflowCall) :
    Except RejectionCode ℕ := do
  verifyRoute call
  let key := keyOf call.toReconciliationKey
  match usageByKey bundle key, proxyByKey bundle key with
  | some usage, some proxy =>
    refuseIf (usage.completionTokens < usage.reasoningTokens || usage.promptTokens < usage.cachedTokens)
      .usageFieldsMissing
    refuseIf (proxy.temperature.val ≠ 0 || proxy.topP.val ≠ 1 || proxy.seed.val ≠ 0) .wireSamplingMismatch
    refuseIf (proxy.seedSource.val ≠ "compat.extraBody") .wireSamplingMismatch
    refuseIf (proxy.settingsHash ≠ trial.workflow.settingsHash) .settingsHashMismatch
    refuseIf (proxy.modelConfigHash ≠ trial.workflow.modelConfigHash) .modelConfigHashMismatch
    refuseIf (proxy.targetCommit ≠ trial.targetCommit || proxy.terminal.val ≠ "responded") .targetCommitMismatch
    verifyModel bundle trial proxy
    return addNumbers total (addNumbers usage.promptTokens usage.completionTokens)
  | _, _ => .error .usageCallMissing

def tally (bundle : HarnessBundle) (trial : TrialReceipt) : ℕ → List WorkflowCall → Except RejectionCode ℕ
  | total, [] => .ok total
  | total, call :: calls => do
    let total ← verifyCall bundle trial total call
    tally bundle trial total calls

def verifyTrial (host : Host) (bundle : HarnessBundle) (trial : TrialReceipt) : Except RejectionCode Unit :=
  match scenarios[scenarioIds.idxOf trial.scenarioId]? with
  | none => .error .scenarioAuthorityMismatch
  | some authority => do
    let calls := trial.workflow.calls
    refuseIf (host.sha256 trial.scopeId ≠ trial.workflow.scopeHash) .scopeBindingMismatch
    refuseIf (calls.any (·.scopeId ≠ trial.scopeId)) .scopeBindingMismatch
    refuseIf (authority.workflowCallCount < calls.length) .usageCallUnexpected
    checkEach (verifyAllowed authority calls) authority.actorCalls
    refuseIf (calls.any fun call ↦ !authority.actorCalls.any (·.actorId = call.actorId)) .actorRoutePolicy
    refuseIf (trial.workflow.settingsHash ≠ bundle.manifest.settingsHash) .settingsHashMismatch
    refuseIf (trial.workflow.modelConfigHash ≠ bundle.manifest.modelConfigHash) .modelConfigHashMismatch
    let total ← tally bundle trial 0 calls
    refuseIf (total ≠ trial.workflow.workflowTokens) .usageFieldsMissing
    refuseIf (trial.targetCommit ≠ bundle.manifest.targetCommit) .targetCommitMismatch
    refuseIf (trial.profileId ≠ .legacyLow && trial.outcome ≠ .pass) .hardGateFailed
    refuseIf (!isMetricScenario trial.scenarioId && calls.length ≠ 0) .usageCallUnexpected
    refuseIf (trial.profileId = .candidateHigh && isMetricScenario trial.scenarioId && total = 0) .zeroReferenceUsage

def verifyUsageAndProxy (host : Host) (bundle : HarnessBundle) : Except RejectionCode Unit :=
  checkEach (verifyTrial host bundle) bundle.trials

def verifyCost (bundle : HarnessBundle) (price : PriceRecord) (call : WorkflowCall) : Except RejectionCode Unit :=
  match bundle.usage.find? fun receipt ↦ keyOf receipt.toReconciliationKey = keyOf call.toReconciliationKey with
  | none => .error .usageCallMissing
  | some usage =>
    let cost : ℤ := usage.promptTokens.val * price.inputNanos.val + usage.completionTokens.val * price.outputNanos.val
    refuseIf (cost < 0) .usageFieldsMissing

def verifyCosts (bundle : HarnessBundle) : Except RejectionCode Unit :=
  checkEach (fun trial ↦
    match priceByProfile bundle trial.profileId with
    | none => .error .unknownModel
    | some price => checkEach (verifyCost bundle price) trial.workflow.calls) bundle.trials

end Receipts

section Bundle

/-- What is refused by the issues of an input that is no bundle. -/
def codeOfIssues (issues : List (List PathPart)) : RejectionCode :=
  if issues.any fun path ↦ path[0]? = some (.key "proxy") &&
      (.key "seed" ∈ path || .key "temperature" ∈ path || .key "topP" ∈ path) then .wireSamplingMismatch
  else if issues.any fun path ↦ path[0]? = some (.key "usage") &&
      (.key "promptTokens" ∈ path || .key "completionTokens" ∈ path) then .usageFieldsMissing
  else .unknownField

/-- `/^(sk-|api[-_]?key|token)/i` -/
def namesSecret (modelId : String) : Bool :=
  ["sk-", "apikey", "api-key", "api_key", "token"].any fun start ↦
    start.toList.isPrefixOf (modelId.toList.map Char.toLower)

def verifyBundle (host : Host) (bundle : HarnessBundle) : Except RejectionCode Unit := do
  refuseIf (hashManifest host bundle.manifest ≠ bundle.manifestHash) .manifestHashMismatch
  refuseIf (bundle.sourceBinding.targetCommit ≠ bundle.manifest.targetCommit ||
    bundle.trials.any (·.targetCommit ≠ bundle.sourceBinding.targetCommit)) .targetCommitMismatch
  refuseIf (bundle.sourceBinding.targetCommit.val ≠ host.actualCommit ||
    bundle.sourceBinding.targetSourceHash.val ≠ host.actualTree) .targetCommitMismatch
  refuseIf (bundle.manifest.priceCatalog.any (namesSecret ·.modelId)) .unknownModel
  verifyManifest host bundle.manifest
  verifyTrialCardinality bundle
  verifyCalls bundle
  verifyUsageAndProxy host bundle
  verifyCosts bundle

/-- The input as it was parsed: a bundle, or the paths of the issues that it has. -/
def verifyHarnessBundle (host : Host) (parsed : Except (List (List PathPart)) HarnessBundle) : VerificationReceipt :=
  match parsed with
  | .error issues => .fail (codeOfIssues issues)
  | .ok bundle =>
    match verifyBundle host bundle with
    | .ok () => .pass
    | .error code => .fail code

end Bundle

end OmpLazy.HarnessEval

import OmpLazy.Contracts.CanonicalPacket
import OmpLazy.Foundation.Checks
import OmpLazy.Foundation.Schema

/-! The receipt of a critic is checked against the packet it is bound to. -/

namespace OmpLazy.Contracts.Critic

open OmpLazy.Foundation OmpLazy.Foundation.Schema OmpLazy.Foundation.Text

inductive CriticVerdict where
  | approve
  | blocked
  deriving DecidableEq, Repr

def CriticVerdict.name : CriticVerdict → String
  | .approve => "APPROVE"
  | .blocked => "BLOCKED"

structure HardGate where
  id : String
  passed : Bool
  deriving DecidableEq, Repr

structure VerifierAuthorization where
  id : String
  evidenceLogicalId : String
  passed : Bool
  provenanceSha256 : String
  contentSha256 : String
  deriving DecidableEq, Repr

structure VerifierEvidence where
  actor : String
  packetHash : String
  head : String
  generation : ℕ
  authorizations : List VerifierAuthorization
  deriving DecidableEq, Repr

structure QualityScore where
  score : ℕ
  hardGatePassed : Bool
  deriving DecidableEq, Repr

structure CriticReceipt where
  verdict : CriticVerdict
  actor : String
  packetHash : String
  head : String
  generation : ℕ
  receiptId : String
  hardGates : List HardGate
  evidenceLogicalIds : List String
  qualityScore : Option QualityScore
  deriving DecidableEq, Repr

structure GateEvidence where
  id : String
  evidenceLogicalId : String
  deriving DecidableEq, Repr

structure CriticReceiptBinding where
  actor : String
  verifierActor : String
  packetHash : String
  head : String
  generation : ℕ
  receiptId : String
  requiredHardGateIds : List String
  requiredEvidenceLogicalIds : List String
  requiredGateEvidence : List GateEvidence
  deriving DecidableEq, Repr

structure CriticReceiptBindingIssue where
  actor : String
  verifierActor : String
  head : String
  receiptId : String
  packet : CompiledTaskPacket

inductive CriticRefusal where
  | malformedCriticReceipt
  | malformedVerifierEvidence
  | wrongCriticActor
  | wrongVerifierActor
  | stalePacket
  | wrongHead
  | wrongGeneration
  | wrongReceipt
  | requiredHardGatesMismatch
  | requiredEvidenceMismatch
  | verifierAuthorizationsMismatch
  | inconsistentVerifierEvidenceHashes
  | hardGateFailed
  | criticBlocked
  deriving DecidableEq, Repr

section Schemas

def hash : Schema String := string.refine (isLowerHexOf 64)

def head : Schema String := string.refine (isLowerHexOf 40)

def identifierSchema : Schema String := fun json ↦ (string json).bind identifier

def positive : Schema ℕ := counter.refine (0 < ·)

/-- `array(schema).min(least).max(most)` -/
def sized {α : Type} (least most : ℕ) (schema : Schema α) : Schema (List α) :=
  schema.array.refine fun items ↦ least ≤ items.length && items.length ≤ most

def hardGateSchema : Schema HardGate := strictObject ["id", "passed"] fun fields ↦ do
  return {
    id := ← required fields "id" identifierSchema
    passed := ← required fields "passed" boolean }

def verifierAuthorizationSchema : Schema VerifierAuthorization :=
  strictObject ["id", "evidenceLogicalId", "passed", "provenanceSha256", "contentSha256"] fun fields ↦ do
    return {
      id := ← required fields "id" identifierSchema
      evidenceLogicalId := ← required fields "evidenceLogicalId" identifierSchema
      passed := ← required fields "passed" boolean
      provenanceSha256 := ← required fields "provenanceSha256" hash
      contentSha256 := ← required fields "contentSha256" hash }

def verifierEvidenceSchema : Schema VerifierEvidence :=
  Schema.refine
    (strictObject ["actor", "packetHash", "head", "generation", "authorizations"] fun fields ↦ do
      return {
        actor := ← required fields "actor" identifierSchema
        packetHash := ← required fields "packetHash" hash
        head := ← required fields "head" head
        generation := ← required fields "generation" positive
        authorizations := ← required fields "authorizations" (sized 1 32 verifierAuthorizationSchema) })
    fun evidence ↦ sortedUniqueStrings (evidence.authorizations.map (·.id))

def qualityScoreSchema : Schema QualityScore :=
  Schema.refine
    (strictObject ["version", "score", "hardGatePassed"] fun fields ↦ do
      let _ ← required fields "version" (literal (.nat 1))
      return {
        score := ← required fields "score" (counter.refine (· ≤ 100))
        hardGatePassed := ← required fields "hardGatePassed" boolean })
    fun score ↦ score.hardGatePassed || score.score = 0

def criticReceiptSchema : Schema CriticReceipt :=
  Schema.refine
    (strictObject ["version", "kind", "verdict", "actor", "packetHash", "head", "generation", "receiptId",
        "hardGates", "evidenceLogicalIds", "qualityScore"] fun fields ↦ do
      let _ ← required fields "version" (literal (.nat 1))
      let _ ← required fields "kind" (literal (.string "omp_lazy_critic_receipt"))
      return {
        verdict := ← required fields "verdict" (oneOf [.approve, .blocked] CriticVerdict.name)
        actor := ← required fields "actor" identifierSchema
        packetHash := ← required fields "packetHash" hash
        head := ← required fields "head" head
        generation := ← required fields "generation" positive
        receiptId := ← required fields "receiptId" identifierSchema
        hardGates := ← required fields "hardGates" (sized 1 32 hardGateSchema)
        evidenceLogicalIds := ← required fields "evidenceLogicalIds" (sized 0 32 identifierSchema)
        qualityScore := ← Schema.optional fields "qualityScore" qualityScoreSchema })
    fun receipt ↦ sortedUniqueStrings (receipt.hardGates.map (·.id)) &&
      sortedUniqueStrings receipt.evidenceLogicalIds

def requiredGateEvidenceSchema : Schema GateEvidence := strictObject ["id", "evidenceLogicalId"] fun fields ↦ do
  return {
    id := ← required fields "id" identifierSchema
    evidenceLogicalId := ← required fields "evidenceLogicalId" identifierSchema }

def bindingIsCoherent (binding : CriticReceiptBinding) : Bool :=
  binding.verifierActor ≠ binding.actor && sortedUniqueStrings binding.requiredHardGateIds &&
  sortedUniqueStrings binding.requiredEvidenceLogicalIds &&
  sortedUniqueStrings (binding.requiredGateEvidence.map (·.id)) &&
  sameStringSet binding.requiredHardGateIds (binding.requiredGateEvidence.map (·.id)) &&
  sameStringSet binding.requiredEvidenceLogicalIds (binding.requiredGateEvidence.map (·.evidenceLogicalId))

def bindingKeys : List String :=
  ["actor", "verifierActor", "packetHash", "head", "generation", "receiptId", "requiredHardGateIds",
    "requiredEvidenceLogicalIds", "requiredGateEvidence"]

def criticReceiptBindingSchema : Schema CriticReceiptBinding :=
  Schema.refine
    (strictObject bindingKeys fun fields ↦ do
      return {
        actor := ← required fields "actor" identifierSchema
        verifierActor := ← required fields "verifierActor" identifierSchema
        packetHash := ← required fields "packetHash" hash
        head := ← required fields "head" head
        generation := ← required fields "generation" positive
        receiptId := ← required fields "receiptId" identifierSchema
        requiredHardGateIds := ← required fields "requiredHardGateIds" (sized 1 32 identifierSchema)
        requiredEvidenceLogicalIds := ← required fields "requiredEvidenceLogicalIds" (sized 0 32 identifierSchema)
        requiredGateEvidence := ← required fields "requiredGateEvidence" (sized 1 32 requiredGateEvidenceSchema) })
    bindingIsCoherent

end Schemas

def encodeGateEvidence (requirement : GateEvidence) : Json := .object [
  ("id", .string requirement.id), ("evidenceLogicalId", .string requirement.evidenceLogicalId)]

def encodeBinding (binding : CriticReceiptBinding) : Json := .object [
  ("actor", .string binding.actor),
  ("verifierActor", .string binding.verifierActor),
  ("packetHash", .string binding.packetHash),
  ("head", .string binding.head),
  ("generation", .nat binding.generation),
  ("receiptId", .string binding.receiptId),
  ("requiredHardGateIds", .array (binding.requiredHardGateIds.map .string)),
  ("requiredEvidenceLogicalIds", .array (binding.requiredEvidenceLogicalIds.map .string)),
  ("requiredGateEvidence", .array (binding.requiredGateEvidence.map encodeGateEvidence))]

/-- The binding of a packet before it is checked. -/
def bindingOf (issue : CriticReceiptBindingIssue) : CriticReceiptBinding where
  actor := issue.actor
  verifierActor := issue.verifierActor
  packetHash := issue.packet.packetHash
  head := issue.head
  generation := issue.packet.packet.generation
  receiptId := issue.receiptId
  requiredHardGateIds := sortedStrings (issue.packet.packet.criteria.map (·.id))
  requiredEvidenceLogicalIds :=
    sortedStrings ((issue.packet.packet.evidenceRequirements.filter (·.required)).map (·.logicalId))
  requiredGateEvidence :=
    (issue.packet.packet.criteria.map fun criterion ↦ ⟨criterion.id, criterion.evidenceLogicalId⟩).mergeSort
      fun left right ↦ ordinalLe left.id right.id

/-- `none` where the source throws. -/
def bindCriticReceiptToPacket (issue : CriticReceiptBindingIssue) : Option CriticReceiptBinding :=
  criticReceiptBindingSchema (encodeBinding (bindingOf issue))

/-- The authorizations at the places of the required gates are theirs. -/
def authorizesInOrder (required : List GateEvidence) (authorizations : List VerifierAuthorization) : Bool :=
  authorizations.zipIdx.all fun (authorization, index) ↦
    match required[index]? with
    | none => false
    | some gate => authorization.id = gate.id && authorization.evidenceLogicalId = gate.evidenceLogicalId

/-- No evidence is authorized with other hashes than it was last. -/
def hashesAgree : List (String × String × String) → List VerifierAuthorization → Bool
  | _, [] => true
  | evidenceHashes, authorization :: authorizations =>
    let hashes := (authorization.provenanceSha256, authorization.contentSha256)
    match evidenceHashes.lookup authorization.evidenceLogicalId with
    | none => hashesAgree ((authorization.evidenceLogicalId, hashes) :: evidenceHashes) authorizations
    | some previousHashes =>
      previousHashes = hashes &&
        hashesAgree ((authorization.evidenceLogicalId, hashes) :: evidenceHashes) authorizations

/-- The checks on values that were read, in the order of the source. -/
def checkReceipt (expected : CriticReceiptBinding) (receipt : CriticReceipt) (evidence : VerifierEvidence) :
    Except CriticRefusal CriticReceipt := do
  refuseIf (receipt.actor ≠ expected.actor) .wrongCriticActor
  refuseIf (evidence.actor ≠ expected.verifierActor) .wrongVerifierActor
  refuseIf (receipt.packetHash ≠ expected.packetHash) .stalePacket
  refuseIf (receipt.head ≠ expected.head) .wrongHead
  refuseIf (receipt.generation ≠ expected.generation) .wrongGeneration
  refuseIf (receipt.receiptId ≠ expected.receiptId) .wrongReceipt
  refuseIf (!sameStringSet (receipt.hardGates.map (·.id)) expected.requiredHardGateIds) .requiredHardGatesMismatch
  refuseIf (!sameStringSet receipt.evidenceLogicalIds expected.requiredEvidenceLogicalIds) .requiredEvidenceMismatch
  refuseIf (evidence.packetHash ≠ expected.packetHash) .stalePacket
  refuseIf (evidence.head ≠ expected.head) .wrongHead
  refuseIf (evidence.generation ≠ expected.generation) .wrongGeneration
  refuseIf (!sameStringSet (evidence.authorizations.map (·.id)) expected.requiredHardGateIds ||
      !sameStringSet (evidence.authorizations.map (·.evidenceLogicalId)) expected.requiredEvidenceLogicalIds ||
      !authorizesInOrder expected.requiredGateEvidence evidence.authorizations) .verifierAuthorizationsMismatch
  refuseIf (!hashesAgree [] evidence.authorizations) .inconsistentVerifierEvidenceHashes
  refuseIf (receipt.hardGates.any (!·.passed) || receipt.qualityScore.any (!·.hardGatePassed)) .hardGateFailed
  refuseIf (evidence.authorizations.any (!·.passed)) .hardGateFailed
  refuseIf (receipt.verdict ≠ .approve) .criticBlocked
  return receipt

def validateCriticReceipt (expectedValue receiptValue verifierEvidenceValue : Json) :
    Except CriticRefusal CriticReceipt :=
  match criticReceiptBindingSchema expectedValue, criticReceiptSchema receiptValue with
  | some expected, some receipt =>
    match verifierEvidenceSchema verifierEvidenceValue with
    | none => .error .malformedVerifierEvidence
    | some evidence => checkReceipt expected receipt evidence
  | _, _ => .error .malformedCriticReceipt

end OmpLazy.Contracts.Critic

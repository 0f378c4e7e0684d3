import OmpLazy.Contracts.CanonicalJson
import OmpLazy.Contracts.CanonicalPacket
import OmpLazy.Foundation.Reordering

/-! Packets as they come in and as they are written. -/

namespace OmpLazy.Contracts

open OmpLazy.Foundation OmpLazy.Foundation.Schema

def evidenceKinds : List EvidenceKind := [.artifact, .test, .cleanup, .citation]

def taskTiers : List TaskTier := [.fast, .standard, .deep]

def budgetShape : Schema TierBudget := strictObject budgetKeys fun fields ↦ do
  return {
    maxCalls := ← required fields "maxCalls" counter
    maxPacketBytes := ← required fields "maxPacketBytes" counter
    maxRetrievalCalls := ← required fields "maxRetrievalCalls" counter
    maxRetrievalBytes := ← required fields "maxRetrievalBytes" counter }

def criterionShape : Schema PacketCriterion := strictObject criterionKeys fun fields ↦ do
  return {
    id := ← required fields "id" string
    scenario := ← required fields "scenario" string
    observable := ← required fields "observable" string
    expected := ← required fields "expected" string
    evidenceLogicalId := ← required fields "evidenceLogicalId" string }

def requirementShape : Schema EvidenceRequirement := strictObject requirementKeys fun fields ↦ do
  return {
    logicalId := ← required fields "logicalId" string
    kind := ← required fields "kind" (oneOf evidenceKinds EvidenceKind.name)
    required := ← required fields "required" boolean }

/-- The types that `taskPacketInputSchema` asks for; its bounds are in `taskPacketBaseSchema`. -/
def taskPacketShape : Schema TaskPacketInput := strictObject packetKeys fun fields ↦ do
  let _ ← required fields "version" (literal (.nat 1))
  return {
    runId := ← required fields "runId" string
    taskId := ← required fields "taskId" string
    generation := ← required fields "generation" counter
    objective := ← required fields "objective" string
    deliverable := ← required fields "deliverable" string
    allowedPaths := ← required fields "allowedPaths" string.array
    referenceIds := ← required fields "referenceIds" string.array
    dependencyIds := ← required fields "dependencyIds" string.array
    criteria := ← required fields "criteria" criterionShape.array
    boundaryTags := ← required fields "boundaryTags" string.array
    publicBehavior := ← required fields "publicBehavior" boolean
    tier := ← required fields "tier" (oneOf taskTiers TaskTier.name)
    budgets := ← required fields "budgets" budgetShape
    evidenceRequirements := ← required fields "evidenceRequirements" requirementShape.array }

/-- The compiler with the serializer of the source. -/
def withCanonicalJson (platform : Platform) : Platform :=
  { platform with stringify := fun json ↦ String.ofList (canonicalJson json) }

/-- `compileTaskPacket` on a value of any type. -/
def compileTaskPacketJson (platform : Platform) (input : Json) : Except TaskPacketRefusal CompiledTaskPacket :=
  match taskPacketShape input with
  | none => .error .malformedPacket
  | some packet => compileTaskPacket (withCanonicalJson platform) packet

/-! The order of the members does not matter. -/

section Stable

theorem literal_nat_stable (n : ℕ) : Stable (literal (.nat n)) := stable_scalar (fun _ ↦ rfl) fun _ ↦ rfl

theorem budgetShape_stable : budgetShape.Stable := by
  refine strictObject_stable fun fields fields' h ↦ ?_
  simp only [required_stable counter_stable h]

theorem criterionShape_stable : criterionShape.Stable := by
  refine strictObject_stable fun fields fields' h ↦ ?_
  simp only [required_stable string_stable h]

theorem requirementShape_stable : requirementShape.Stable := by
  refine strictObject_stable fun fields fields' h ↦ ?_
  simp only [required_stable string_stable h, required_stable boolean_stable h,
    required_stable (oneOf_stable evidenceKinds EvidenceKind.name) h]

theorem taskPacketShape_stable : taskPacketShape.Stable := by
  refine strictObject_stable fun fields fields' h ↦ ?_
  simp only [required_stable (literal_nat_stable 1) h, required_stable string_stable h,
    required_stable counter_stable h, required_stable boolean_stable h, required_stable (array_stable string_stable) h,
    required_stable (array_stable criterionShape_stable) h,
    required_stable (array_stable requirementShape_stable) h, required_stable budgetShape_stable h,
    required_stable (oneOf_stable taskTiers TaskTier.name) h]

theorem compileTaskPacketJson_reordered (platform : Platform) {json json' : Json} (h : Reordered json json') :
    compileTaskPacketJson platform json' = compileTaskPacketJson platform json := by
  rw [compileTaskPacketJson, compileTaskPacketJson, taskPacketShape_stable json json' h]

end Stable

/-! A packet is read as it was written. -/

section Reread

/-- A packet as the input of another compilation. -/
def asInput (packet : TaskPacket) : TaskPacketInput :=
  { packet with boundaryTags := packet.boundaryTags.map BoundaryTag.name }

def CountersFit (packet : TaskPacket) : Prop :=
  packet.generation ≤ maxSafeInteger ∧ packet.budgets.maxCalls ≤ maxSafeInteger ∧
    packet.budgets.maxPacketBytes ≤ maxSafeInteger ∧ packet.budgets.maxRetrievalCalls ≤ maxSafeInteger ∧
    packet.budgets.maxRetrievalBytes ≤ maxSafeInteger

theorem counter_nat {n : ℕ} (h : n ≤ maxSafeInteger) : counter (.nat n) = some n :=
  (counter_reads.encoded n n).mpr ⟨h, rfl⟩

theorem string_array (values : List String) : string.array (strings values) = some values :=
  array_reread fun _ _ ↦ rfl

theorem criterionShape_encode (criterion : PacketCriterion) :
    criterionShape (encodeCriterion criterion) = some criterion :=
  strictObject_object.mpr ⟨fun _ hfield ↦ List.mem_map_of_mem (f := Prod.fst) hfield, rfl⟩

theorem requirementShape_encode (requirement : EvidenceRequirement) :
    requirementShape (encodeRequirement requirement) = some requirement := by
  obtain ⟨logicalId, kind, needed⟩ := requirement
  refine strictObject_object.mpr ⟨fun _ hfield ↦ List.mem_map_of_mem (f := Prod.fst) hfield, ?_⟩
  cases kind <;> rfl

theorem budgetShape_encode {budget : TierBudget} (hcalls : budget.maxCalls ≤ maxSafeInteger)
    (hbytes : budget.maxPacketBytes ≤ maxSafeInteger) (hretrievalCalls : budget.maxRetrievalCalls ≤ maxSafeInteger)
    (hretrievalBytes : budget.maxRetrievalBytes ≤ maxSafeInteger) : budgetShape (encodeBudget budget) = some budget := by
  refine strictObject_object.mpr ⟨fun _ hfield ↦ List.mem_map_of_mem (f := Prod.fst) hfield, ?_⟩
  simp [required, counter_nat, hcalls, hbytes, hretrievalCalls, hretrievalBytes]

theorem tierShape_encode (tier : TaskTier) : oneOf taskTiers TaskTier.name (.string tier.name) = some tier := by
  cases tier <;> rfl

theorem encodeTaskPacket_eq (packet : TaskPacket) : encodeTaskPacket packet = .object [
    ("allowedPaths", strings packet.allowedPaths),
    ("boundaryTags", strings (packet.boundaryTags.map BoundaryTag.name)),
    ("budgets", encodeBudget packet.budgets),
    ("criteria", .array (packet.criteria.map encodeCriterion)),
    ("deliverable", .string packet.deliverable),
    ("dependencyIds", strings packet.dependencyIds),
    ("evidenceRequirements", .array (packet.evidenceRequirements.map encodeRequirement)),
    ("generation", .nat packet.generation),
    ("objective", .string packet.objective),
    ("publicBehavior", .bool packet.publicBehavior),
    ("referenceIds", strings packet.referenceIds),
    ("runId", .string packet.runId),
    ("taskId", .string packet.taskId),
    ("tier", .string packet.tier.name),
    ("version", .nat 1)] := rfl

/-- Where its numbers are safe integers, the text of a packet is read as the packet. -/
theorem taskPacketShape_encode {packet : TaskPacket} (h : CountersFit packet) :
    taskPacketShape (encodeTaskPacket packet) = some (asInput packet) := by
  obtain ⟨hgeneration, hcalls, hbytes, hretrievalCalls, hretrievalBytes⟩ := h
  have hbudget := budgetShape_encode hcalls hbytes hretrievalCalls hretrievalBytes
  have hcriteria : criterionShape.array (.array (packet.criteria.map encodeCriterion)) = some packet.criteria :=
    array_reread fun criterion _ ↦ criterionShape_encode criterion
  have hrequirements : requirementShape.array (.array (packet.evidenceRequirements.map encodeRequirement)) =
      some packet.evidenceRequirements := array_reread fun requirement _ ↦ requirementShape_encode requirement
  have hversion : literal (.nat 1) (.nat 1) = some () := rfl
  rw [encodeTaskPacket_eq]
  refine strictObject_object.mpr ⟨fun _ hfield ↦ List.mem_map_of_mem (f := Prod.fst) hfield, ?_⟩
  simp [required, string, boolean, string_array, tierShape_encode, counter_nat hgeneration, hbudget, hcriteria,
    hrequirements, hversion, asInput]

end Reread

end OmpLazy.Contracts

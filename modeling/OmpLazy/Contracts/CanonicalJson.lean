import OmpLazy.Contracts.OrdinalStrings
import OmpLazy.Foundation.JsonText

/-! The canonical text of a packet. -/

namespace OmpLazy.Contracts

open OmpLazy.Foundation JsonText

mutual
def canonicalJson : Json → List Char
  | .array items => '[' :: ([','].intercalate (canonicalItems items) ++ [']'])
  | .object fields =>
    let members := (canonicalMembers fields).mergeSort fun left right ↦ ordinalLe left.1 right.1
    openBrace :: ([','].intercalate (members.map fun member ↦ writeMember member.1 member.2) ++ [closeBrace])
  | .null => stringify .null
  | .bool value => stringify (.bool value)
  | .number value => stringify (.number value)
  | .string value => stringify (.string value)

def canonicalItems : List Json → List (List Char)
  | [] => []
  | item :: items => canonicalJson item :: canonicalItems items

def canonicalMembers : List (String × Json) → List (String × List Char)
  | [] => []
  | (key, value) :: fields => (key, canonicalJson value) :: canonicalMembers fields
end

/-! Values whose members are in their order. -/

section Ordered

variable {fields : List (String × Json)} {items : List Json} {json : Json}

inductive Ordered : Json → Prop
  | null : Ordered .null
  | bool (value : Bool) : Ordered (.bool value)
  | number (value : ℤ) : Ordered (.number value)
  | string (value : String) : Ordered (.string value)
  | array {items : List Json} (h : ∀ item ∈ items, Ordered item) : Ordered (.array items)
  | object {fields : List (String × Json)}
      (hkeys : (fields.map Prod.fst).Pairwise fun key key' ↦ ordinalLe key key' = true)
      (h : ∀ field ∈ fields, Ordered field.2) : Ordered (.object fields)

theorem canonicalItems_eq (items : List Json) : canonicalItems items = items.map canonicalJson := by
  induction items with
  | nil => rw [canonicalItems, List.map_nil]
  | cons item items ih => rw [canonicalItems, ih, List.map_cons]

theorem canonicalMembers_eq (fields : List (String × Json)) :
    canonicalMembers fields = fields.map fun field ↦ (field.1, canonicalJson field.2) := by
  induction fields with
  | nil => rw [canonicalMembers, List.map_nil]
  | cons field fields ih => rw [canonicalMembers, ih, List.map_cons]

/-- Where the members are in their order the canonical text is the plain one. -/
theorem canonicalJson_ordered (h : Ordered json) : canonicalJson json = stringify json := by
  induction h with
  | null | bool | number | string => rw [canonicalJson]
  | array h ih =>
    rw [canonicalJson, stringify, canonicalItems_eq, stringifyItems_eq, List.map_congr_left ih]
  | object hkeys h ih =>
    rename_i fields
    have hsorted : (canonicalMembers fields).Pairwise fun left right ↦ ordinalLe left.1 right.1 = true := by
      rw [canonicalMembers_eq, List.pairwise_map]
      exact List.pairwise_map.mp hkeys
    have hmembers : (canonicalMembers fields).map (fun member ↦ writeMember member.1 member.2) = fields.map writeField := by
      rw [canonicalMembers_eq, List.map_map]
      exact List.map_congr_left fun field hfield ↦ congrArg (writeMember field.1) (ih field hfield)
    rw [canonicalJson, stringify, stringifyFields_eq, List.mergeSort_of_pairwise hsorted, hmembers]

theorem ordered_strings (values : List String) : Ordered (strings values) := by
  refine .array fun item hitem ↦ ?_
  obtain ⟨value, -, rfl⟩ := List.mem_map.mp hitem
  exact .string value

end Ordered

/-! Packets. -/

section Packets

def packetKeys : List String :=
  ["allowedPaths", "boundaryTags", "budgets", "criteria", "deliverable", "dependencyIds", "evidenceRequirements",
    "generation", "objective", "publicBehavior", "referenceIds", "runId", "taskId", "tier", "version"]

def budgetKeys : List String := ["maxCalls", "maxPacketBytes", "maxRetrievalBytes", "maxRetrievalCalls"]

def criterionKeys : List String := ["evidenceLogicalId", "expected", "id", "observable", "scenario"]

def requirementKeys : List String := ["kind", "logicalId", "required"]

def encodeBudget (budget : TierBudget) : Json := .object [
  ("maxCalls", .nat budget.maxCalls),
  ("maxPacketBytes", .nat budget.maxPacketBytes),
  ("maxRetrievalBytes", .nat budget.maxRetrievalBytes),
  ("maxRetrievalCalls", .nat budget.maxRetrievalCalls)]

def encodeCriterion (criterion : PacketCriterion) : Json := .object [
  ("evidenceLogicalId", .string criterion.evidenceLogicalId),
  ("expected", .string criterion.expected),
  ("id", .string criterion.id),
  ("observable", .string criterion.observable),
  ("scenario", .string criterion.scenario)]

def encodeRequirement (requirement : EvidenceRequirement) : Json := .object [
  ("kind", .string requirement.kind.name),
  ("logicalId", .string requirement.logicalId),
  ("required", .bool requirement.required)]

theorem ordered_budget (budget : TierBudget) : Ordered (encodeBudget budget) := by
  have hkeys : budgetKeys.Pairwise fun key key' ↦ ordinalLe key key' = true := by decide
  refine .object hkeys fun field hfield ↦ ?_
  simp only [List.mem_cons, List.not_mem_nil, or_false] at hfield
  obtain rfl | rfl | rfl | rfl := hfield <;> exact .number _

theorem ordered_criterion (criterion : PacketCriterion) : Ordered (encodeCriterion criterion) := by
  have hkeys : criterionKeys.Pairwise fun key key' ↦ ordinalLe key key' = true := by decide
  refine .object hkeys fun field hfield ↦ ?_
  simp only [List.mem_cons, List.not_mem_nil, or_false] at hfield
  obtain rfl | rfl | rfl | rfl | rfl := hfield <;> exact .string _

theorem ordered_requirement (requirement : EvidenceRequirement) : Ordered (encodeRequirement requirement) := by
  have hkeys : requirementKeys.Pairwise fun key key' ↦ ordinalLe key key' = true := by decide
  refine .object hkeys fun field hfield ↦ ?_
  simp only [List.mem_cons, List.not_mem_nil, or_false] at hfield
  obtain rfl | rfl | rfl := hfield
  · exact .string _
  · exact .string _
  · exact .bool _

theorem ordered_list {α : Type} {encode : α → Json} (h : ∀ x, Ordered (encode x)) (xs : List α) :
    Ordered (.array (xs.map encode)) := by
  refine .array fun item hitem ↦ ?_
  obtain ⟨x, -, rfl⟩ := List.mem_map.mp hitem
  exact h x

theorem ordered_packet (packet : TaskPacket) : Ordered (encodeTaskPacket packet) := by
  have hkeys : packetKeys.Pairwise fun key key' ↦ ordinalLe key key' = true := by decide
  refine .object hkeys fun field hfield ↦ ?_
  simp only [List.mem_cons, List.not_mem_nil, or_false] at hfield
  obtain rfl | rfl | rfl | rfl | rfl | rfl | rfl | rfl | rfl | rfl | rfl | rfl | rfl | rfl | rfl := hfield
  · exact ordered_strings _
  · exact ordered_strings _
  · exact ordered_budget packet.budgets
  · exact ordered_list ordered_criterion packet.criteria
  · exact .string _
  · exact ordered_strings _
  · exact ordered_list ordered_requirement packet.evidenceRequirements
  · exact .number _
  · exact .string _
  · exact .bool _
  · exact ordered_strings _
  · exact .string _
  · exact .string _
  · exact .string _
  · exact .number _

theorem boundaryTag_name_injective : Function.Injective BoundaryTag.name := by
  intro tag tag' h
  cases tag <;> cases tag' <;> first | rfl | exact absurd h (by decide)

theorem evidenceKind_name_injective : Function.Injective EvidenceKind.name := by
  intro kind kind' h
  cases kind <;> cases kind' <;> first | rfl | exact absurd h (by decide)

theorem taskTier_name_injective : Function.Injective TaskTier.name := by
  intro tier tier' h
  cases tier <;> cases tier' <;> first | rfl | exact absurd h (by decide)

theorem strings_injective : Function.Injective strings := fun _ _ h ↦
  List.map_injective_iff.mpr (fun _ _ ↦ Json.string.inj) (Json.array.inj h)

theorem encodeBudget_injective : Function.Injective encodeBudget := by
  intro budget budget' h
  simp only [encodeBudget, Json.object.injEq, List.cons.injEq, Prod.mk.injEq, true_and, and_true] at h
  obtain ⟨hcalls, hbytes, hretrievalBytes, hretrievalCalls⟩ := h
  cases budget
  cases budget'
  rw [TierBudget.mk.injEq]
  exact ⟨Json.nat_injective hcalls, Json.nat_injective hbytes, Json.nat_injective hretrievalCalls,
    Json.nat_injective hretrievalBytes⟩

theorem encodeCriterion_injective : Function.Injective encodeCriterion := by
  intro criterion criterion' h
  simp only [encodeCriterion, Json.object.injEq, List.cons.injEq, Prod.mk.injEq, true_and, and_true,
    Json.string.injEq] at h
  obtain ⟨hevidence, hexpected, hid, hobservable, hscenario⟩ := h
  cases criterion
  cases criterion'
  rw [PacketCriterion.mk.injEq]
  exact ⟨hid, hscenario, hobservable, hexpected, hevidence⟩

theorem encodeRequirement_injective : Function.Injective encodeRequirement := by
  intro requirement requirement' h
  simp only [encodeRequirement, Json.object.injEq, List.cons.injEq, Prod.mk.injEq, true_and, and_true,
    Json.string.injEq, Json.bool.injEq] at h
  obtain ⟨hkind, hid, hrequired⟩ := h
  cases requirement
  cases requirement'
  rw [EvidenceRequirement.mk.injEq]
  exact ⟨hid, evidenceKind_name_injective hkind, hrequired⟩

theorem list_injective {α : Type} {encode : α → Json} (h : Function.Injective encode) {xs ys : List α}
    (heq : Json.array (xs.map encode) = .array (ys.map encode)) : xs = ys :=
  List.map_injective_iff.mpr h (Json.array.inj heq)

theorem encodeTaskPacket_injective : Function.Injective encodeTaskPacket := by
  intro packet packet' h
  have hfields := Json.object.inj h
  simp only [List.cons.injEq, Prod.mk.injEq, true_and, and_true] at hfields
  obtain ⟨hpaths, htags, hbudgets, hcriteria, hdeliverable, hdependencies, hrequirements, hgeneration, hobjective,
    hpublic, hreferences, hrunId, htaskId, htier⟩ := hfields
  have htags' := List.map_injective_iff.mpr boundaryTag_name_injective (strings_injective htags)
  have hbudgets' := encodeBudget_injective hbudgets
  have hcriteria' := list_injective encodeCriterion_injective hcriteria
  have hrequirements' := list_injective encodeRequirement_injective hrequirements
  cases packet
  cases packet'
  rw [TaskPacketOf.mk.injEq]
  exact ⟨Json.string.inj hrunId, Json.string.inj htaskId, Json.nat_injective hgeneration, Json.string.inj hobjective,
    Json.string.inj hdeliverable, strings_injective hpaths, strings_injective hreferences,
    strings_injective hdependencies, hcriteria', htags', Json.bool.inj hpublic,
    taskTier_name_injective (Json.string.inj htier), hbudgets', hrequirements'⟩

/-- The canonical text of a packet is of no other packet. -/
theorem canonicalJson_packet_injective : Function.Injective fun packet ↦ canonicalJson (encodeTaskPacket packet) := by
  intro packet packet' h
  dsimp only at h
  rw [canonicalJson_ordered (ordered_packet packet), canonicalJson_ordered (ordered_packet packet')] at h
  exact encodeTaskPacket_injective (stringify_injective h)

end Packets

end OmpLazy.Contracts

import OmpLazy.Contracts.OrdinalStrings

/-! What a packet is before and after it is compiled. -/

namespace OmpLazy.Contracts

open OmpLazy.Foundation OmpLazy.Foundation.Text

section

variable (platform : Platform)

/-- The tags that a packet keeps of those it was given. -/
def canonicalTags (tags : List BoundaryTag) : List BoundaryTag :=
  let concreteTags := tags.filter fun tag ↦ tag ≠ .none && tag ≠ .unknown
  sortTags (if concreteTags.isEmpty then tags else concreteTags)

/-- The packet that is checked the second time. -/
def candidatePacket (input : TaskPacketInput) (tags : List BoundaryTag) : TaskPacket where
  runId := platform.nfc input.runId
  taskId := platform.nfc input.taskId
  generation := input.generation
  objective := platform.nfc input.objective
  deliverable := platform.nfc input.deliverable
  allowedPaths := sortedStrings (input.allowedPaths.map platform.nfc)
  referenceIds := sortedStrings (input.referenceIds.map platform.nfc)
  dependencyIds := input.dependencyIds.map platform.nfc
  criteria := input.criteria.map (normalizeCriterion platform)
  boundaryTags := canonicalTags tags
  publicBehavior := input.publicBehavior
  tier := input.tier
  budgets := input.budgets
  evidenceRequirements := (input.evidenceRequirements.map fun requirement ↦
    { requirement with logicalId := platform.nfc requirement.logicalId }).mergeSort
      fun left right ↦ ordinalLe left.logicalId right.logicalId

/-- What the schema makes of a packet, member by member. -/
structure Parses {Tag : Type} (tagSchema : Tag → Option Tag) (packet parsed : TaskPacketOf Tag) : Prop where
  runId : identifier packet.runId = some parsed.runId
  taskId : identifier packet.taskId = some parsed.taskId
  positive : isPositive packet.generation = true
  generation : parsed.generation = packet.generation
  objective : packetText packet.objective = some parsed.objective
  deliverable : packetText packet.deliverable = some parsed.deliverable
  allowedPaths : boundedItems 0 64 (canonicalPath platform) packet.allowedPaths = some parsed.allowedPaths
  referenceIds : boundedItems 0 64 identifier packet.referenceIds = some parsed.referenceIds
  dependencyIds : boundedItems 0 32 identifier packet.dependencyIds = some parsed.dependencyIds
  criteria : boundedItems 1 6 criterionSchema packet.criteria = some parsed.criteria
  boundaryTags : boundedItems 1 8 tagSchema packet.boundaryTags = some parsed.boundaryTags
  publicBehavior : parsed.publicBehavior = packet.publicBehavior
  tier : parsed.tier = packet.tier
  budgets : tierBudgetSchema packet.budgets = some parsed.budgets
  evidenceRequirements :
    boundedItems 1 12 evidenceRequirementSchema packet.evidenceRequirements = some parsed.evidenceRequirements

end

section Laws

variable {platform : Platform} {Tag : Type} {tagSchema : Tag → Option Tag} {packet parsed : TaskPacketOf Tag}

theorem canonicalPacket_eq (platform : Platform) (input : TaskPacketInput) : canonicalPacket platform input =
    (input.boundaryTags.mapM (normalizeTag platform)).bind fun tags ↦
      taskPacketSchema platform (candidatePacket platform input tags) := rfl

theorem taskPacketBaseSchema_eq_some : taskPacketBaseSchema platform tagSchema packet = some parsed ↔
    Parses platform tagSchema packet parsed := by
  simp only [taskPacketBaseSchema, Option.bind_eq_bind, Option.bind_eq_some_iff, Option.pure_def,
    Option.some.injEq, guard]
  constructor
  · rintro ⟨runId, hrunId, taskId, htaskId, _, hpositive, objective, hobjective, deliverable, hdeliverable,
      allowedPaths, hpaths, referenceIds, hreferences, dependencyIds, hdependencies, criteria, hcriteria,
      boundaryTags, htags, budgets, hbudgets, evidenceRequirements, hrequirements, rfl⟩
    have hpositive : isPositive packet.generation = true := by
      by_contra h
      rw [if_neg h] at hpositive
      cases hpositive
    exact ⟨hrunId, htaskId, hpositive, rfl, hobjective, hdeliverable, hpaths, hreferences, hdependencies, hcriteria,
      htags, rfl, rfl, hbudgets, hrequirements⟩
  · intro h
    refine ⟨_, h.runId, _, h.taskId, (), if_pos h.positive, _, h.objective, _, h.deliverable, _, h.allowedPaths, _,
      h.referenceIds, _, h.dependencyIds, _, h.criteria, _, h.boundaryTags, _, h.budgets, _, h.evidenceRequirements,
      ?_⟩
    rw [← h.generation, ← h.publicBehavior, ← h.tier]

theorem boundedItems_length {α β : Type} {least most : ℕ} {schema : α → Option β} {items : List α} {read : List β}
    (h : boundedItems least most schema items = some read) : read.length = items.length := by
  rw [boundedItems] at h
  split at h
  · cases h
  · exact (Schema.mapM_eq_some.mp h).length_eq.symm

theorem boundedItems_some {α : Type} {least most : ℕ} {items read : List α}
    (h : boundedItems least most some items = some read) : read = items := by
  rw [boundedItems] at h
  split at h
  · cases h
  · have hsame := Schema.mapM_eq_some.mp h
    simp only [Option.some.injEq, List.forall₂_eq_eq_eq] at hsame
    exact hsame.symm

theorem normalizeTag_nonemptyText {value read : String} (h : nonemptyText value = some read) :
    normalizeTag platform read = normalizeTag platform value := by
  rw [nonemptyText, boundedText] at h
  split at h
  · cases h
  · obtain rfl := Option.some.inj h
    rw [normalizeTag, normalizeTag, Text.trim_trim]

/-- What a packet that compiles has gone through. -/
theorem compileTaskPacket_eq_ok {input : TaskPacketInput} {compiled : CompiledTaskPacket}
    (h : compileTaskPacket platform input = .ok compiled) : ∃ parsed tags,
      Parses platform nonemptyText input parsed ∧ parsed.boundaryTags.mapM (normalizeTag platform) = some tags ∧
      Parses platform some (candidatePacket platform parsed tags) compiled.packet ∧
      packetIsCoherent compiled.packet = true ∧
      compiled.canonicalJson = platform.stringify (encodeTaskPacket compiled.packet) ∧
      compiled.packetHash = platform.sha256 compiled.canonicalJson ∧
      compiled.packetBytes = compiled.canonicalJson.utf8ByteSize ∧
      compiled.canonicalJson.utf8ByteSize ≤ compiled.packet.budgets.maxPacketBytes := by
  unfold compileTaskPacket at h
  split at h
  · cases h
  · rename_i parsed hparsed
    split at h
    · cases h
    · rename_i packet hpacket
      dsimp only at h
      split at h
      · cases h
      · rename_i hbytes
        cases h
        rw [canonicalPacket_eq] at hpacket
        obtain ⟨tags, htags, hpacket⟩ := Option.bind_eq_some_iff.mp hpacket
        obtain ⟨hbase, hcoherent⟩ := Option.filter_eq_some_iff.mp hpacket
        exact ⟨parsed, tags, taskPacketBaseSchema_eq_some.mp hparsed, htags, taskPacketBaseSchema_eq_some.mp hbase,
          hcoherent, rfl, rfl, rfl, Nat.not_lt.mp hbytes⟩

end Laws

end OmpLazy.Contracts

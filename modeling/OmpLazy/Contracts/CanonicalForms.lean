import OmpLazy.Contracts.TagSpellings
import OmpLazy.Contracts.TaskPacketSchema
import Mathlib.Data.List.Perm.Basic

/-! Inputs that compile to one packet. -/

namespace OmpLazy.Contracts

open OmpLazy.Foundation OmpLazy.Foundation.Text

/-! The texts of a packet. -/

section Texts

variable {Tag : Type} {packet parsed : TaskPacketOf Tag} {f g : String → String}

def mapCriterion (f : String → String) (criterion : PacketCriterion) : PacketCriterion where
  id := f criterion.id
  scenario := f criterion.scenario
  observable := f criterion.observable
  expected := f criterion.expected
  evidenceLogicalId := f criterion.evidenceLogicalId

def mapRequirement (f : String → String) (requirement : EvidenceRequirement) : EvidenceRequirement :=
  { requirement with logicalId := f requirement.logicalId }

/-- A packet with its texts, but for paths and tags, under a function. -/
def mapTexts (f : String → String) (packet : TaskPacketOf Tag) : TaskPacketOf Tag :=
  { packet with
    runId := f packet.runId
    taskId := f packet.taskId
    objective := f packet.objective
    deliverable := f packet.deliverable
    referenceIds := packet.referenceIds.map f
    dependencyIds := packet.dependencyIds.map f
    criteria := packet.criteria.map (mapCriterion f)
    evidenceRequirements := packet.evidenceRequirements.map (mapRequirement f) }

def criterionTexts (criterion : PacketCriterion) : List String :=
  [criterion.id, criterion.scenario, criterion.observable, criterion.expected, criterion.evidenceLogicalId]

def texts (packet : TaskPacketOf Tag) : List String :=
  [packet.runId, packet.taskId, packet.objective, packet.deliverable] ++ packet.referenceIds ++
    packet.dependencyIds ++ packet.criteria.flatMap criterionTexts ++
    packet.evidenceRequirements.map (·.logicalId)

theorem criterionTexts_map (f : String → String) (criterion : PacketCriterion) :
    criterionTexts (mapCriterion f criterion) = (criterionTexts criterion).map f := rfl

theorem texts_mapTexts (f : String → String) (packet : TaskPacketOf Tag) :
    texts (mapTexts f packet) = (texts packet).map f := by
  have hcriteria : (packet.criteria.map (mapCriterion f)).flatMap criterionTexts =
      (packet.criteria.flatMap criterionTexts).map f := by
    rw [List.flatMap_map, List.map_flatMap]
    rfl
  have hrequirements : (packet.evidenceRequirements.map (mapRequirement f)).map (·.logicalId) =
      (packet.evidenceRequirements.map (·.logicalId)).map f := by
    rw [List.map_map, List.map_map]
    rfl
  simp only [texts, List.map_append, ← hcriteria, ← hrequirements]
  rfl

theorem mapCriterion_congr {criterion : PacketCriterion} (h : ∀ text ∈ criterionTexts criterion, f text = g text) :
    mapCriterion f criterion = mapCriterion g criterion := by
  simp only [criterionTexts, List.forall_mem_cons] at h
  obtain ⟨hid, hscenario, hobservable, hexpected, hevidence, -⟩ := h
  rw [mapCriterion, mapCriterion, hid, hscenario, hobservable, hexpected, hevidence]

theorem mapTexts_congr (h : ∀ text ∈ texts packet, f text = g text) : mapTexts f packet = mapTexts g packet := by
  simp only [texts, List.forall_mem_append, List.forall_mem_cons] at h
  obtain ⟨⟨⟨⟨⟨hrunId, htaskId, hobjective, hdeliverable, -⟩, hreferences⟩, hdependencies⟩, hcriteria⟩,
    hrequirements⟩ := h
  have hcriteria' : packet.criteria.map (mapCriterion f) = packet.criteria.map (mapCriterion g) :=
    List.map_congr_left fun criterion hmem ↦ mapCriterion_congr fun text htext ↦
      hcriteria text (List.mem_flatMap.mpr ⟨criterion, hmem, htext⟩)
  have hrequirements' : packet.evidenceRequirements.map (mapRequirement f) =
      packet.evidenceRequirements.map (mapRequirement g) := by
    refine List.map_congr_left fun requirement hmem ↦ ?_
    rw [mapRequirement, mapRequirement, hrequirements _ (List.mem_map_of_mem hmem)]
  rw [mapTexts, mapTexts, hrunId, htaskId, hobjective, hdeliverable, List.map_congr_left hreferences,
    List.map_congr_left hdependencies, hcriteria', hrequirements']

theorem mapTexts_id (packet : TaskPacketOf Tag) : mapTexts id packet = packet := by
  have hcriteria : mapCriterion id = id := rfl
  have hrequirements : mapRequirement id = id := rfl
  rw [mapTexts, List.map_id, List.map_id, hcriteria, hrequirements, List.map_id, List.map_id]
  rfl

theorem mapTexts_eq_self (h : ∀ text ∈ texts packet, f text = text) : mapTexts f packet = packet :=
  (mapTexts_congr h).trans (mapTexts_id packet)

end Texts

/-! What the schema makes of the texts. -/

section Schema

variable {platform : Platform} {Tag : Type} {tagSchema : Tag → Option Tag} {packet parsed : TaskPacketOf Tag}
  {α β : Type} {least most : ℕ} {schema : α → Option β} {items items' : List α} {read : List β}

theorem boundedText_eq {s t : String} (h : boundedText most s = some t) : t = trim s := by
  rw [boundedText] at h
  split at h
  · cases h
  · exact (Option.some.inj h).symm

theorem boundedItems_eq_some : boundedItems least most schema items = some read ↔
    (least ≤ items.length ∧ items.length ≤ most) ∧ List.Forall₂ (fun x y ↦ schema x = some y) items read := by
  rw [boundedItems]
  split
  · rename_i h
    simp only [false_iff, reduceCtorEq]
    omega
  · rename_i h
    rw [Schema.mapM_eq_some]
    exact ⟨fun hread ↦ ⟨by omega, hread⟩, fun hread ↦ hread.2⟩

theorem boundedItems_eq {f : α → β} (hf : ∀ x y, schema x = some y → y = f x)
    (h : boundedItems least most schema items = some read) : read = items.map f := by
  have hread := (boundedItems_eq_some.mp h).2
  have hmap : read.map id = items.map f := Schema.map_eq_of_forall₂ (hread.imp fun x y hxy ↦ hf x y hxy)
  rwa [List.map_id] at hmap

/-- Items in another order are read in that order. -/
theorem boundedItems_perm (h : boundedItems least most schema items = some read) (hperm : items.Perm items') :
    ∃ read', boundedItems least most schema items' = some read' ∧ read.Perm read' := by
  obtain ⟨hlength, hread⟩ := boundedItems_eq_some.mp h
  obtain ⟨read', hread', hperm'⟩ := List.perm_comp_forall₂ hperm.symm hread
  exact ⟨read', boundedItems_eq_some.mpr ⟨hperm.length_eq ▸ hlength, hread'⟩, hperm'.symm⟩

theorem canonicalPath_eq {value path : String} (h : canonicalPath platform value = some path) : path = value := by
  rw [canonicalPath] at h
  split at h
  · cases h
  · exact (Option.some.inj h).symm

theorem criterionSchema_eq {criterion criterion' : PacketCriterion} (h : criterionSchema criterion = some criterion') :
    criterion' = mapCriterion trim criterion := by
  simp only [criterionSchema, Option.bind_eq_bind, Option.bind_eq_some_iff, Option.pure_def, Option.some.injEq] at h
  obtain ⟨id, hid, scenario, hscenario, observable, hobservable, expected, hexpected, evidence, hevidence, rfl⟩ := h
  rw [mapCriterion, boundedText_eq hid, boundedText_eq hscenario, boundedText_eq hobservable,
    boundedText_eq hexpected, boundedText_eq hevidence]

theorem evidenceRequirementSchema_eq {requirement requirement' : EvidenceRequirement}
    (h : evidenceRequirementSchema requirement = some requirement') :
    requirement' = mapRequirement trim requirement := by
  simp only [evidenceRequirementSchema, Option.bind_eq_bind, Option.bind_eq_some_iff, Option.pure_def,
    Option.some.injEq] at h
  obtain ⟨logicalId, hid, rfl⟩ := h
  rw [mapRequirement, boundedText_eq hid]

theorem tierBudgetSchema_eq {budget budget' : TierBudget} (h : tierBudgetSchema budget = some budget') :
    budget' = budget := by
  rw [tierBudgetSchema] at h
  split at h
  · exact (Option.some.inj h).symm
  · cases h

/-- The schema trims the texts and keeps the rest. -/
theorem Parses.eq (h : Parses platform tagSchema packet parsed) :
    parsed = { mapTexts trim packet with boundaryTags := parsed.boundaryTags } := by
  have hrunId := boundedText_eq h.runId
  have htaskId := boundedText_eq h.taskId
  have hobjective := boundedText_eq h.objective
  have hdeliverable := boundedText_eq h.deliverable
  have hpaths : parsed.allowedPaths = packet.allowedPaths :=
    (boundedItems_eq (fun _ _ ↦ canonicalPath_eq) h.allowedPaths).trans (List.map_id _)
  have hreferences := boundedItems_eq (fun _ _ ↦ boundedText_eq) h.referenceIds
  have hdependencies := boundedItems_eq (fun _ _ ↦ boundedText_eq) h.dependencyIds
  have hcriteria := boundedItems_eq (fun _ _ ↦ criterionSchema_eq) h.criteria
  have hbudgets := tierBudgetSchema_eq h.budgets
  have hrequirements := boundedItems_eq (fun _ _ ↦ evidenceRequirementSchema_eq) h.evidenceRequirements
  have hgeneration := h.generation
  have hpublic := h.publicBehavior
  have htier := h.tier
  cases parsed
  rw [mapTexts, TaskPacketOf.mk.injEq]
  exact ⟨hrunId, htaskId, hgeneration, hobjective, hdeliverable, hpaths, hreferences, hdependencies, hcriteria, rfl,
    hpublic, htier, hbudgets, hrequirements⟩

theorem Parses.texts_eq (h : Parses platform tagSchema packet parsed) : texts parsed = (texts packet).map trim := by
  rw [h.eq]
  exact texts_mapTexts trim packet

theorem Parses.countersFit {packet parsed : TaskPacket} (h : Parses platform some packet parsed) :
    CountersFit parsed := by
  have hgeneration := h.positive
  have hbudgets := h.budgets
  rw [isPositive, Bool.and_eq_true, decide_eq_true_eq, decide_eq_true_eq] at hgeneration
  rw [tierBudgetSchema] at hbudgets
  split at hbudgets
  · rename_i hfit
    simp only [isPositive, Bool.and_eq_true, decide_eq_true_eq] at hfit
    have hsame := Option.some.inj hbudgets
    rw [CountersFit, h.generation, ← hsame]
    exact ⟨hgeneration.2, hfit.1.1.1.2, hfit.1.1.2.2, hfit.1.2, hfit.2⟩
  · cases hbudgets

end Schema

/-! Tags in their canonical form. -/

section Tags

variable {tags tags' : List BoundaryTag}

def isConcrete (tag : BoundaryTag) : Bool := tag ≠ .none && tag ≠ .unknown

theorem canonicalTags_eq (tags : List BoundaryTag) : canonicalTags tags =
    sortByKey BoundaryTag.name (if (tags.filter isConcrete).isEmpty then tags else tags.filter isConcrete) := rfl

theorem canonicalTags_perm (h : tags.Perm tags') : canonicalTags tags = canonicalTags tags' := by
  have hinj : ∀ tags : List BoundaryTag, ∀ tag ∈ tags, ∀ tag' ∈ tags, tag.name = tag'.name → tag = tag' :=
    fun _ _ _ _ _ heq ↦ boundaryTag_name_injective heq
  have hempty : (tags.filter isConcrete).isEmpty = (tags'.filter isConcrete).isEmpty := by
    rw [Bool.eq_iff_iff, List.isEmpty_iff_length_eq_zero, List.isEmpty_iff_length_eq_zero,
      (h.filter isConcrete).length_eq]
  rw [canonicalTags_eq, canonicalTags_eq, hempty]
  split
  · exact sortByKey_congr (hinj tags) h
  · exact sortByKey_congr (hinj _) (h.filter isConcrete)

theorem canonicalTags_canonicalTags (tags : List BoundaryTag) :
    canonicalTags (canonicalTags tags) = canonicalTags tags := by
  have hidempotent : (tags.filter isConcrete).filter isConcrete = tags.filter isConcrete := by
    rw [List.filter_filter]
    simp only [Bool.and_self]
  rw [canonicalTags_eq tags]
  split
  · rename_i hempty
    rw [canonicalTags_perm (sortByKey_perm _ _), canonicalTags_eq, if_pos hempty]
  · rename_i hempty
    rw [canonicalTags_perm (sortByKey_perm _ _), canonicalTags_eq, hidempotent, if_neg hempty]

end Tags

/-! The canonical form of a packet. -/

/-- The normalization form C: it changes nothing twice, and text without white space around it stays so. -/
structure NormalForm (platform : Platform) : Prop where
  idempotent : ∀ s, platform.nfc (platform.nfc s) = platform.nfc s
  trimmed : ∀ s, trim s = s → trim (platform.nfc s) = platform.nfc s

section Candidate

variable {platform : Platform} {input parsed : TaskPacketInput} {packet : TaskPacket} {tags : List BoundaryTag}
  {text : String}

theorem texts_candidatePacket (platform : Platform) (parsed : TaskPacketInput) (tags : List BoundaryTag) :
    (texts (candidatePacket platform parsed tags)).Perm ((texts parsed).map platform.nfc) := by
  rw [← texts_mapTexts]
  have hreferences := sortByKey_perm id (parsed.referenceIds.map platform.nfc)
  have hrequirements := sortByKey_perm EvidenceRequirement.logicalId
    (parsed.evidenceRequirements.map (mapRequirement platform.nfc))
  exact (((hreferences.append_left _).append_right _).append_right _).append (hrequirements.map _)

theorem mem_texts_candidatePacket (h : text ∈ texts (candidatePacket platform parsed tags)) :
    ∃ text' ∈ texts parsed, platform.nfc text' = text :=
  List.mem_map.mp ((texts_candidatePacket platform parsed tags).mem_iff.mp h)

/-- The second check changes nothing any more. -/
theorem parses_candidatePacket (hform : NormalForm platform) (hparsed : Parses platform nonemptyText input parsed)
    (h : Parses platform some (candidatePacket platform parsed tags) packet) :
    packet = candidatePacket platform parsed tags := by
  have htrimmed : mapTexts trim (candidatePacket platform parsed tags) = candidatePacket platform parsed tags := by
    refine mapTexts_eq_self fun text htext ↦ ?_
    obtain ⟨text', htext', rfl⟩ := mem_texts_candidatePacket htext
    rw [hparsed.texts_eq] at htext'
    obtain ⟨raw, -, rfl⟩ := List.mem_map.mp htext'
    exact hform.trimmed _ (trim_trim raw)
  have htags := boundedItems_some h.boundaryTags
  have hpacket := h.eq
  rw [htrimmed, htags] at hpacket
  exact hpacket

theorem map_sorted_images {f : String → String} (hf : ∀ s, f (f s) = f s) (values : List String) :
    sortedStrings ((sortedStrings (values.map f)).map f) = sortedStrings (values.map f) := by
  have hfixed : (sortedStrings (values.map f)).map f = sortedStrings (values.map f) := by
    refine (List.map_congr_left fun value hvalue ↦ ?_).trans (List.map_id _)
    obtain ⟨raw, -, rfl⟩ := List.mem_map.mp ((sortByKey_perm id _).mem_iff.mp hvalue)
    exact hf raw
  rw [hfixed]
  exact sortByKey_sortByKey id _

/-- A packet in its canonical form has that form already. -/
theorem candidatePacket_idempotent (hform : NormalForm platform) (parsed : TaskPacketInput) (tags : List BoundaryTag) :
    candidatePacket platform (asInput (candidatePacket platform parsed tags)) (canonicalTags tags) =
      candidatePacket platform parsed tags := by
  have htexts : mapTexts platform.nfc (candidatePacket platform parsed tags) = candidatePacket platform parsed tags := by
    refine mapTexts_eq_self fun text htext ↦ ?_
    obtain ⟨text', -, rfl⟩ := mem_texts_candidatePacket htext
    exact hform.idempotent text'
  have hpaths := map_sorted_images hform.idempotent parsed.allowedPaths
  have hreferences := map_sorted_images hform.idempotent parsed.referenceIds
  have htags := canonicalTags_canonicalTags tags
  have hrequirements : sortByKey EvidenceRequirement.logicalId
      ((candidatePacket platform parsed tags).evidenceRequirements.map (mapRequirement platform.nfc)) =
      (candidatePacket platform parsed tags).evidenceRequirements := by
    have hfixed : (candidatePacket platform parsed tags).evidenceRequirements.map (mapRequirement platform.nfc) =
        (candidatePacket platform parsed tags).evidenceRequirements :=
      congrArg TaskPacketOf.evidenceRequirements htexts
    rw [hfixed]
    exact sortByKey_sortByKey _ _
  change sortedStrings ((candidatePacket platform parsed tags).allowedPaths.map platform.nfc) =
    (candidatePacket platform parsed tags).allowedPaths at hpaths
  change sortedStrings ((candidatePacket platform parsed tags).referenceIds.map platform.nfc) =
    (candidatePacket platform parsed tags).referenceIds at hreferences
  change _ = (candidatePacket platform parsed tags).boundaryTags at htags
  generalize candidatePacket platform parsed tags = packet at htexts hpaths hreferences htags hrequirements ⊢
  cases packet
  rw [mapTexts, TaskPacketOf.mk.injEq] at htexts
  obtain ⟨hrunId, htaskId, -, hobjective, hdeliverable, -, -, hdependencies, hcriteria, -⟩ := htexts
  rw [candidatePacket, TaskPacketOf.mk.injEq]
  exact ⟨hrunId, htaskId, rfl, hobjective, hdeliverable, hpaths, hreferences, hdependencies, hcriteria, htags, rfl,
    rfl, rfl, hrequirements⟩

end Candidate

end OmpLazy.Contracts

import OmpLazy.Workflows.RiskClassifier
import Mathlib.Data.List.Dedup

/-! The tier of the workflow and the tier of its packet. -/

namespace OmpLazy.Workflows.RiskClassifier

open OmpLazy.Foundation OmpLazy.Contracts

/-! Tiers in their order. -/

section Tiers

def rank : TaskTier → ℕ
  | .fast => 0
  | .standard => 1
  | .deep => 2

def higher (a b : TaskTier) : TaskTier := if rank a ≤ rank b then b else a

theorem rank_injective : Function.Injective rank := by
  intro a b h
  cases a <;> cases b <;> first | rfl | cases h

theorem higher_eq_left {a b : TaskTier} : higher a b = a ↔ rank b ≤ rank a := by
  rw [higher]
  split
  · rename_i hle
    exact ⟨fun h ↦ h ▸ Nat.le_refl _, fun h ↦ rank_injective (Nat.le_antisymm h hle)⟩
  · simp only [true_iff]
    omega

theorem higher_deep_left (b : TaskTier) : higher .deep b = .deep := by cases b <;> rfl

theorem higher_deep_right (a : TaskTier) : higher a .deep = .deep := by cases a <;> rfl

theorem higher_standard (p q : Bool) : higher (if p = true then .standard else .fast)
    (if q = true then .standard else .fast) = if (p || q) = true then .standard else .fast := by
  cases p <;> cases q <;> rfl

/-- The tier of what a packet says nothing of. -/
def signalTier (input : ClassifierInput) : TaskTier :=
  if input.explicitReview then .deep
  else if 1 < input.moduleRoots.length || (input.mutating && input.allowedPaths.isEmpty) then .standard
  else .fast

end Tiers

/-! What the packet's own tier depends on. -/

section PacketTier

variable {paths paths' : List String} {tags tags' : List BoundaryTag} {publicBehavior : Bool}

theorem any_concrete (tags : List BoundaryTag) :
    tags.any (fun tag ↦ tag ≠ .none && tag ≠ .unknown) = !(concreteTags tags).isEmpty := by
  rw [concreteTags]
  induction tags with
  | nil => rfl
  | cons tag tags ih =>
    rw [List.any_cons, List.filter_cons, ih]
    split <;> simp_all

theorem classifyTaskTier_congr (hlength : paths.length = paths'.length)
    (htags : ∀ tag, tag ∈ tags ↔ tag ∈ tags') :
    classifyTaskTier paths tags publicBehavior = classifyTaskTier paths' tags' publicBehavior := by
  have hany : tags.any (fun tag ↦ tag ≠ .none && tag ≠ .unknown) =
      tags'.any (fun tag ↦ tag ≠ .none && tag ≠ .unknown) := by
    rw [Bool.eq_iff_iff, List.any_eq_true, List.any_eq_true]
    simp only [htags]
  simp only [classifyTaskTier, hany, hlength, htags]

theorem mem_canonicalTags {tag : BoundaryTag} : tag ∈ canonicalTags tags ↔
    tag ∈ if (concreteTags tags).isEmpty then tags else concreteTags tags :=
  (List.mergeSort_perm _ _).mem_iff

/-- The tags that a packet keeps have the tier of all of them. -/
theorem classifyTaskTier_canonicalTags (paths : List String) (tags : List BoundaryTag) (publicBehavior : Bool) :
    classifyTaskTier paths (canonicalTags tags) publicBehavior = classifyTaskTier paths tags publicBehavior := by
  cases hempty : (concreteTags tags).isEmpty with
  | true =>
    refine classifyTaskTier_congr rfl fun tag ↦ ?_
    rw [mem_canonicalTags, hempty, if_pos rfl]
  | false =>
    rw [classifyTaskTier_congr rfl fun tag ↦ mem_canonicalTags, hempty, if_neg Bool.false_ne_true]
    have hsame : concreteTags (concreteTags tags) = concreteTags tags := by
      rw [concreteTags, concreteTags, List.filter_filter]
      exact List.filter_congr fun tag _ ↦ by rw [Bool.and_self]
    simp only [classifyTaskTier, any_concrete, hsame, hempty, Bool.not_false, Bool.true_or, if_true]

end PacketTier

/-! The tier that the workflow returns. -/

section WorkflowTier

variable {platform : Platform} {localeLe : String → String → Bool} {input parsed : ClassifierInput}
  {classification : RiskClassification}

theorem classifierInputSchema_eq_some (h : classifierInputSchema platform input = some parsed) :
    parsed.allowedPaths.length = input.allowedPaths.length ∧ parsed.moduleRoots.length = input.moduleRoots.length ∧
      parsed.boundaryTags = input.boundaryTags ∧ parsed.explicitReview = input.explicitReview ∧
      parsed.mutating = input.mutating ∧ parsed.publicBehavior = input.publicBehavior := by
  simp only [classifierInputSchema, Option.bind_eq_bind, Option.bind_eq_some_iff, Option.pure_def,
    Option.some.injEq] at h
  obtain ⟨allowedPaths, hpaths, moduleRoots, hroots, tags, htags, _, -, _, -, _, -, rfl⟩ := h
  exact ⟨boundedItems_length hpaths, boundedItems_length hroots, boundedItems_some htags, rfl, rfl, rfl⟩

theorem signalTier_congr (hpaths : parsed.allowedPaths.length = input.allowedPaths.length)
    (hroots : parsed.moduleRoots.length = input.moduleRoots.length)
    (hreview : parsed.explicitReview = input.explicitReview) (hmutating : parsed.mutating = input.mutating) :
    signalTier parsed = signalTier input := by
  have hempty : parsed.allowedPaths.isEmpty = input.allowedPaths.isEmpty := by
    rw [Bool.eq_iff_iff, List.isEmpty_iff_length_eq_zero, List.isEmpty_iff_length_eq_zero, hpaths]
  rw [signalTier, signalTier, hreview, hroots, hmutating, hempty]

/-- The signals of a packet and those beyond it each have a tier, and the higher one is returned. -/
theorem tierAndReason_tier (localeLe : String → String → Bool) (input : ClassifierInput) :
    (tierAndReason (!(concreteTags input.boundaryTags).isEmpty) (riskFeatures localeLe input)).1 =
      higher (classifyTaskTier input.allowedPaths input.boundaryTags input.publicBehavior) (signalTier input) := by
  have hunknown : (concreteTags input.boundaryTags).isEmpty = true →
      (riskFeatures localeLe input).boundaryTags.contains .unknown = decide (.unknown ∈ input.boundaryTags) := by
    intro hempty
    rw [riskFeatures, hempty, if_pos rfl, orderedUnique, List.contains_eq_mem]
    simp only [List.mem_mergeSort, List.mem_dedup]
  have hlength : input.allowedPaths.isEmpty = decide (input.allowedPaths.length = 0) := by
    rw [Bool.eq_iff_iff, List.isEmpty_iff_length_eq_zero, decide_eq_true_eq]
  rw [classifyTaskTier, any_concrete, tierAndReason]
  cases hconcrete : (concreteTags input.boundaryTags).isEmpty with
  | false => simp only [Bool.not_false, Bool.true_or, if_true, higher_deep_left]
  | true =>
    rw [hunknown hconcrete, signalTier, hlength]
    simp only [riskFeatures, Bool.not_true, Bool.false_eq_true, if_false, Bool.false_or, decide_eq_true_eq]
    cases input.explicitReview with
    | true => simp only [if_true, higher_deep_right]
    | false =>
      simp only [Bool.false_eq_true, if_false]
      by_cases hfiles : 8 < input.allowedPaths.length
      · simp only [hfiles, if_true, higher_deep_left]
      · simp only [hfiles, if_false]
        rw [higher_standard]
        by_cases hpacket : BoundaryTag.unknown ∈ input.boundaryTags ∨ 3 ≤ input.allowedPaths.length
        · obtain h | h := hpacket
          · simp [h]
          · by_cases hunknown : BoundaryTag.unknown ∈ input.boundaryTags <;> simp [h, hunknown]
        · rw [not_or] at hpacket
          by_cases hmodules : 1 < input.moduleRoots.length
          · simp [hpacket, hmodules]
          · by_cases hpublic : input.publicBehavior = true
            · simp [hpacket, hmodules, hpublic]
            · simp only [hpacket, hmodules, hpublic, if_false, decide_false, Bool.false_or, Bool.false_eq_true]
              exact apply_ite Prod.fst _ _ _

theorem classifyWorkflowRisk_tier (h : classifyWorkflowRisk platform localeLe input = .pass classification) :
    classification.tier =
      higher (classifyTaskTier input.allowedPaths input.boundaryTags input.publicBehavior) (signalTier input) := by
  rw [classifyWorkflowRisk] at h
  cases hparsed : classifierInputSchema platform input with
  | none =>
    rw [hparsed] at h
    cases h
  | some parsed =>
    obtain ⟨hpaths, hroots, htags, hreview, hmutating, hpublic⟩ := classifierInputSchema_eq_some hparsed
    simp only [hparsed, RiskClassificationReceipt.pass.injEq] at h
    subst h
    rw [tierAndReason_tier, htags, hpublic, classifyTaskTier_congr hpaths fun _ ↦ Iff.rfl,
      signalTier_congr hpaths hroots hreview hmutating]

end WorkflowTier

/-! The tier that a packet declares. -/

section Declared

variable {platform : Platform} {localeLe : String → String → Bool} {input : ClassifierInput}
  {packet parsed : TaskPacketInput} {tags : List BoundaryTag} {candidate : TaskPacket}

/-- The check of the tier fails, on a packet that has come as far as that check. -/
def RefusedForTier (platform : Platform) (packet : TaskPacketInput) : Prop :=
  ∃ parsed tags candidate, Parses platform nonemptyText packet parsed ∧
    parsed.boundaryTags.mapM (normalizeTag platform) = some tags ∧
    Parses platform some (candidatePacket platform parsed tags) candidate ∧
    classifyTaskTier candidate.allowedPaths candidate.boundaryTags candidate.publicBehavior ≠ candidate.tier

/-- A packet about the work that was classified. -/
structure SameWork (platform : Platform) (input : ClassifierInput) (packet : TaskPacketInput) : Prop where
  allowedPaths : packet.allowedPaths = input.allowedPaths
  boundaryTags : packet.boundaryTags.map (normalizeTag platform) = input.boundaryTags.map some
  publicBehavior : packet.publicBehavior = input.publicBehavior

theorem parsed_tags (hparsed : Parses platform nonemptyText packet parsed)
    (htags : parsed.boundaryTags.mapM (normalizeTag platform) = some tags) :
    packet.boundaryTags.map (normalizeTag platform) = tags.map some := by
  have hbounded := hparsed.boundaryTags
  rw [boundedItems] at hbounded
  split at hbounded
  · cases hbounded
  · have hread := Schema.mapM_eq_some.mp hbounded
    have hsame : parsed.boundaryTags.map (normalizeTag platform) = packet.boundaryTags.map (normalizeTag platform) :=
      Schema.map_eq_of_forall₂ (hread.imp fun _ _ h ↦ normalizeTag_nonemptyText h)
    rw [← hsame]
    exact (Schema.map_eq_of_forall₂ ((Schema.mapM_eq_some.mp htags).imp fun _ _ h ↦ h.symm)).symm

/-- A packet is checked against the tier of the work it is about. -/
theorem candidate_tier (hsame : SameWork platform input packet) (hparsed : Parses platform nonemptyText packet parsed)
    (htags : parsed.boundaryTags.mapM (normalizeTag platform) = some tags)
    (hcandidate : Parses platform some (candidatePacket platform parsed tags) candidate) :
    candidate.tier = packet.tier ∧ classifyTaskTier candidate.allowedPaths candidate.boundaryTags
      candidate.publicBehavior = classifyTaskTier input.allowedPaths input.boundaryTags input.publicBehavior := by
  have hlength : candidate.allowedPaths.length = input.allowedPaths.length := by
    have hsorted : (candidatePacket platform parsed tags).allowedPaths.length = parsed.allowedPaths.length := by
      rw [candidatePacket, sortedStrings, List.length_mergeSort, List.length_map]
    rw [boundedItems_length hcandidate.allowedPaths, hsorted, boundedItems_length hparsed.allowedPaths,
      hsame.allowedPaths]
  have hkept : candidate.boundaryTags = canonicalTags input.boundaryTags := by
    rw [boundedItems_some hcandidate.boundaryTags, candidatePacket]
    have hinput := (parsed_tags hparsed htags).symm.trans hsame.boundaryTags
    rw [List.map_injective_iff.mpr (Option.some_injective BoundaryTag) hinput]
  have hpublic : candidate.publicBehavior = input.publicBehavior := by
    rw [hcandidate.publicBehavior, ← hsame.publicBehavior, ← hparsed.publicBehavior, candidatePacket]
  refine ⟨by rw [hcandidate.tier, ← hparsed.tier, candidatePacket], ?_⟩
  rw [hkept, hpublic, classifyTaskTier_congr hlength fun _ ↦ Iff.rfl, classifyTaskTier_canonicalTags]

theorem refusedForTier (hsame : SameWork platform input packet) (h : RefusedForTier platform packet) :
    classifyTaskTier input.allowedPaths input.boundaryTags input.publicBehavior ≠ packet.tier := by
  obtain ⟨parsed, tags, candidate, hparsed, htags, hcandidate, hdiffer⟩ := h
  obtain ⟨htier, hclassified⟩ := candidate_tier hsame hparsed htags hcandidate
  rwa [hclassified, htier] at hdiffer

theorem compiled_tier (hsame : SameWork platform input packet) {compiled : CompiledTaskPacket}
    (h : compileTaskPacket platform packet = .ok compiled) :
    classifyTaskTier input.allowedPaths input.boundaryTags input.publicBehavior = packet.tier := by
  obtain ⟨parsed, tags, hparsed, htags, hcandidate, hcoherent, -⟩ := compileTaskPacket_eq_ok h
  obtain ⟨htier, hclassified⟩ := candidate_tier hsame hparsed htags hcandidate
  simp only [packetIsCoherent, Bool.and_eq_true, decide_eq_true_eq] at hcoherent
  rw [← hclassified, hcoherent.2, htier]

end Declared

/-! The two classifiers. -/

section Agreement

/-- The workflow's tier is the packet's or that of the signals beyond the packet, whichever is higher. A packet
that declares it is refused for it exactly when these signals made it higher. -/
theorem classifiers_agree (platform : Platform) (localeLe : String → String → Bool) (input : ClassifierInput)
    (classification : RiskClassification)
    (h : classifyWorkflowRisk platform localeLe input = .pass classification) :
    let packetTier := classifyTaskTier input.allowedPaths input.boundaryTags input.publicBehavior
    classification.tier = higher packetTier (signalTier input) ∧
      (classification.tier = packetTier ↔ rank (signalTier input) ≤ rank packetTier) ∧
      ∀ packet, SameWork platform input packet → packet.tier = classification.tier →
        (rank (signalTier input) ≤ rank packetTier → ¬ RefusedForTier platform packet) ∧
          (rank packetTier < rank (signalTier input) → ∀ compiled, compileTaskPacket platform packet ≠ .ok compiled) := by
  intro packetTier
  have htier := classifyWorkflowRisk_tier h
  have hequal : classification.tier = packetTier ↔ rank (signalTier input) ≤ rank packetTier := by
    rw [htier]
    exact higher_eq_left
  refine ⟨htier, hequal, fun packet hsame hdeclared ↦ ⟨fun hle hrefused ↦ ?_, fun hlt compiled hcompiled ↦ ?_⟩⟩
  · exact refusedForTier hsame hrefused ((hequal.mpr hle).symm.trans hdeclared.symm)
  · have hpacket := (compiled_tier hsame hcompiled).trans hdeclared
    exact Nat.not_le.mpr hlt (hequal.mp hpacket.symm)

namespace Sample

/-- A platform on ASCII text in lower case. -/
def platform : Platform where
  nfc := id
  nfc_ascii := id_ascii
  sha256 _ := "00"
  sha256_hex _ := zeros_hex
  stringify _ := "\x7b\x7d"
  toLowerCase := id
  isAbsolute := Text.startsWith "/"
  posixNormalize := id
  relative _ path := path

/-- Work without files that someone asked to review. -/
def reviewed : ClassifierInput := ⟨[], [], [.none], true, false, false⟩

def reviewedClassification : RiskClassification :=
  ⟨.deep, .explicitReview, ⟨0, 0, [.none], true, false, false⟩, riskTierCeilings .deep⟩

theorem reviewed_classified :
    classifyWorkflowRisk platform ordinalLe reviewed = .pass reviewedClassification := by
  have hordered : orderedUnique ordinalLe [.none] = [.none] := List.mergeSort_singleton _
  have hparsed : classifierInputSchema platform reviewed = some reviewed := by decide
  have hfeatures : riskFeatures ordinalLe reviewed = ⟨0, 0, [.none], true, false, false⟩ := by
    simp only [riskFeatures, reviewed, concreteTags, List.length_nil]
    exact congrArg (fun tags ↦ RiskFeatures.mk 0 0 tags true false false) hordered
  rw [classifyWorkflowRisk, hparsed]
  dsimp only
  rw [hfeatures]
  rfl

end Sample

/-- A packet of the work that was to be reviewed cannot declare its tier. -/
theorem reviewed_raised : Sample.reviewedClassification.tier = higher (classifyTaskTier [] [.none] false) .deep ∧
    ∀ packet, SameWork Sample.platform Sample.reviewed packet → packet.tier = .deep →
      ∀ compiled, compileTaskPacket Sample.platform packet ≠ .ok compiled := by
  obtain ⟨htier, -, hpackets⟩ := classifiers_agree Sample.platform ordinalLe Sample.reviewed
    Sample.reviewedClassification Sample.reviewed_classified
  exact ⟨htier, fun packet hsame hdeep ↦ (hpackets packet hsame hdeep).2 (by decide)⟩

/-- The tiers differ on work that someone asked to review. -/
theorem reviewed_tiers_differ : ¬ ∀ (platform : Platform) (localeLe : String → String → Bool) (input : ClassifierInput)
    (classification : RiskClassification), classifyWorkflowRisk platform localeLe input = .pass classification →
    classification.tier = classifyTaskTier input.allowedPaths input.boundaryTags input.publicBehavior := by
  intro h
  have htier := h Sample.platform ordinalLe Sample.reviewed Sample.reviewedClassification Sample.reviewed_classified
  exact absurd htier (by decide)

end Agreement

end OmpLazy.Workflows.RiskClassifier

import OmpLazy.Contracts.CanonicalForms

/-! Packets that are compiled again, and inputs that say the same. -/

namespace OmpLazy.Contracts

open OmpLazy.Foundation OmpLazy.Foundation.Text

section PacketOf

variable {platform : Platform} {input input' : TaskPacketInput} {packet : TaskPacket} {compiled : CompiledTaskPacket}

/-- The packet of an input, whatever its length. -/
def packetOf (platform : Platform) (input : TaskPacketInput) : Option TaskPacket :=
  (taskPacketBaseSchema platform nonemptyText input).bind (canonicalPacket platform)

theorem packetOf_eq_some : packetOf platform input = some packet ↔ ∃ parsed tags,
    Parses platform nonemptyText input parsed ∧ parsed.boundaryTags.mapM (normalizeTag platform) = some tags ∧
      Parses platform some (candidatePacket platform parsed tags) packet ∧ packetIsCoherent packet = true := by
  rw [packetOf, Option.bind_eq_some_iff]
  constructor
  · rintro ⟨parsed, hparsed, hpacket⟩
    rw [canonicalPacket_eq] at hpacket
    obtain ⟨tags, htags, hpacket⟩ := Option.bind_eq_some_iff.mp hpacket
    obtain ⟨hbase, hcoherent⟩ := Option.filter_eq_some_iff.mp hpacket
    exact ⟨parsed, tags, taskPacketBaseSchema_eq_some.mp hparsed, htags, taskPacketBaseSchema_eq_some.mp hbase,
      hcoherent⟩
  · rintro ⟨parsed, tags, hparsed, htags, hbase, hcoherent⟩
    refine ⟨parsed, taskPacketBaseSchema_eq_some.mpr hparsed, ?_⟩
    rw [canonicalPacket_eq]
    refine Option.bind_eq_some_iff.mpr ⟨tags, htags, ?_⟩
    exact Option.filter_eq_some_iff.mpr ⟨taskPacketBaseSchema_eq_some.mpr hbase, hcoherent⟩

theorem packetOf_budgeted (h : packetOf platform input = some packet) :
    tierMatchesBudget packet.tier packet.budgets = true := by
  obtain ⟨parsed, -, hpacket⟩ := Option.bind_eq_some_iff.mp h
  exact canonicalPacket_budgeted hpacket

theorem compileTaskPacket_none (h : packetOf platform input = none) :
    compileTaskPacket platform input = .error .malformedPacket := by
  unfold compileTaskPacket
  split
  · rfl
  · rename_i parsed hparsed
    rw [packetOf, hparsed, Option.bind_some] at h
    split
    · rfl
    · rename_i packet hpacket
      rw [h] at hpacket
      cases hpacket

theorem compileTaskPacket_some (h : packetOf platform input = some packet) :
    compileTaskPacket platform input =
      if packet.budgets.maxPacketBytes < (platform.stringify (encodeTaskPacket packet)).utf8ByteSize then
        .error .packetBudgetExceeded
      else .ok {
        packet
        canonicalJson := platform.stringify (encodeTaskPacket packet)
        packetHash := platform.sha256 (platform.stringify (encodeTaskPacket packet))
        packetBytes := (platform.stringify (encodeTaskPacket packet)).utf8ByteSize
        budgeted := packetOf_budgeted h } := by
  have hbind := Option.bind_eq_some_iff.mp h
  obtain ⟨parsed, hparsed, hpacket⟩ := hbind
  unfold compileTaskPacket
  split
  · rename_i hnone
    rw [hparsed] at hnone
    cases hnone
  · rename_i parsed' hparsed'
    obtain rfl : parsed = parsed' := Option.some.inj (hparsed.symm.trans hparsed')
    split
    · rename_i hnone
      rw [hpacket] at hnone
      cases hnone
    · rename_i packet' hpacket'
      obtain rfl : packet = packet' := Option.some.inj (hpacket.symm.trans hpacket')
      rfl

/-- Inputs of one packet compile to the same. -/
theorem compileTaskPacket_congr (h : packetOf platform input = some packet)
    (h' : packetOf platform input' = some packet) :
    compileTaskPacket platform input' = compileTaskPacket platform input := by
  rw [compileTaskPacket_some h, compileTaskPacket_some h']

theorem packetOf_compiled (h : compileTaskPacket platform input = .ok compiled) :
    packetOf platform input = some compiled.packet := by
  obtain ⟨parsed, tags, hparsed, htags, hpacket, hcoherent, -⟩ := compileTaskPacket_eq_ok h
  exact packetOf_eq_some.mpr ⟨parsed, tags, hparsed, htags, hpacket, hcoherent⟩

end PacketOf

/-! A packet that is compiled again. -/

section Recompiled

variable {platform : Platform} {lowerChar : Char → List Char} {input : TaskPacketInput} {packet : TaskPacket}

theorem boundedItems_names (hlower : LowersBy platform lowerChar) {tags tags' : List BoundaryTag}
    (h : boundedItems 1 8 some tags = some tags') :
    boundedItems 1 8 nonemptyText (tags.map BoundaryTag.name) = some (tags.map BoundaryTag.name) := by
  have hlength := (boundedItems_eq_some.mp h).1
  rw [← List.length_map] at hlength
  refine boundedItems_eq_some.mpr ⟨hlength, List.forall₂_same.mpr fun name hname ↦ ?_⟩
  obtain ⟨tag, -, rfl⟩ := List.mem_map.mp hname
  have htrim : trim tag.name = tag.name := by cases tag <;> decide
  rw [nonemptyText_tag hlower (normalizeTag_name hlower tag), htrim]

/-- The packet of a packet is the packet. -/
theorem packetOf_asInput (hform : NormalForm platform) (hlower : LowersBy platform lowerChar)
    (h : packetOf platform input = some packet) : packetOf platform (asInput packet) = some packet := by
  obtain ⟨parsed, tags, hparsed, htags, hpacket, hcoherent⟩ := packetOf_eq_some.mp h
  have hcandidate := parses_candidatePacket hform hparsed hpacket
  have hkept : packet.boundaryTags = canonicalTags tags := congrArg TaskPacketOf.boundaryTags hcandidate
  have hagain : candidatePacket platform (asInput packet) packet.boundaryTags = packet := by
    rw [hkept, hcandidate]
    exact candidatePacket_idempotent hform parsed tags
  have hnames : (asInput packet).boundaryTags.mapM (normalizeTag platform) = some packet.boundaryTags :=
    Schema.mapM_eq_some.mpr (List.forall₂_map_left_iff.mpr (List.forall₂_same.mpr fun tag _ ↦
      normalizeTag_name hlower tag))
  rw [← hcandidate] at hpacket
  have hreread : Parses platform nonemptyText (asInput packet) (asInput packet) :=
    { hpacket with boundaryTags := boundedItems_names hlower hpacket.boundaryTags }
  refine packetOf_eq_some.mpr ⟨asInput packet, packet.boundaryTags, hreread, hnames, ?_, hcoherent⟩
  rw [hagain]
  exact hpacket

end Recompiled

/-! Inputs that say the same. -/

/-- Two inputs with their sets in another order and their tags in another spelling. -/
structure SameForm (lowerChar : Char → List Char) (input input' : TaskPacketInput) : Prop where
  allowedPaths : input.allowedPaths.Perm input'.allowedPaths
  referenceIds : input.referenceIds.Perm input'.referenceIds
  boundaryTags : ∃ tags, input.boundaryTags.Perm tags ∧ List.Forall₂ (Respelled lowerChar) tags input'.boundaryTags
  evidenceRequirements : input.evidenceRequirements.Perm input'.evidenceRequirements
  rest : input' = { input with
    allowedPaths := input'.allowedPaths
    referenceIds := input'.referenceIds
    boundaryTags := input'.boundaryTags
    evidenceRequirements := input'.evidenceRequirements }

section SameForm

variable {platform : Platform} {lowerChar : Char → List Char} {input input' parsed : TaskPacketInput}
  {packet : TaskPacket} {tags : List BoundaryTag}

/-- Tags in another order and spelling are the same tags. -/
theorem SameForm.sameTags (hlower : LowersBy platform lowerChar) (h : SameForm lowerChar input input')
    (hparsed : boundedItems 1 8 nonemptyText input.boundaryTags = some parsed.boundaryTags)
    (htags : parsed.boundaryTags.mapM (normalizeTag platform) = some tags) :
    ∃ parsedTags' tags', boundedItems 1 8 nonemptyText input'.boundaryTags = some parsedTags' ∧
      parsedTags'.mapM (normalizeTag platform) = some tags' ∧ tags.Perm tags' := by
  obtain ⟨hlength, hread⟩ := boundedItems_eq_some.mp hparsed
  obtain ⟨ordered, hperm, hspelled⟩ := h.boundaryTags
  have hnormalized : List.Forall₂ (fun value tag ↦ normalizeTag platform value = some tag) input.boundaryTags tags := by
    refine forall₂_transport ?_ (List.Forall₂.flip hread) (Schema.mapM_eq_some.mp htags)
    exact fun read value tag hvalue htag ↦ (normalizeTag_nonemptyText hvalue).symm.trans htag
  obtain ⟨tags', hordered, hperm'⟩ := List.perm_comp_forall₂ hperm.symm hnormalized
  have hrespelled : List.Forall₂ (fun value tag ↦ normalizeTag platform value = some tag) input'.boundaryTags tags' := by
    refine forall₂_transport ?_ hspelled hordered
    intro value value' tag hrespelled htag
    exact normalizeTag_respelled hlower htag hrespelled
  rw [hperm.length_eq, hspelled.length_eq] at hlength
  refine ⟨input'.boundaryTags.map trim, tags', boundedItems_eq_some.mpr ⟨hlength, ?_⟩,
    Schema.mapM_eq_some.mpr ?_, hperm'.symm⟩
  · refine List.forall₂_map_right_iff.mpr (List.forall₂_same.mpr fun value hvalue ↦ ?_)
    obtain ⟨tag, -, htag⟩ := Schema.exists_of_forall₂ (List.Forall₂.flip hrespelled) hvalue
    exact nonemptyText_tag hlower htag
  · refine List.forall₂_map_left_iff.mpr (hrespelled.imp fun value tag htag ↦ ?_)
    exact (normalizeTag_nonemptyText (nonemptyText_tag hlower htag)).trans htag

/-- Evidence requirements that a packet tells apart are sorted in one way. -/
theorem sorted_requirements (hcoherent : packetIsCoherent packet = true)
    {requirements requirements' : List EvidenceRequirement} (hperm : requirements.Perm requirements')
    (h : packet.evidenceRequirements = sortByKey EvidenceRequirement.logicalId (requirements.map (mapRequirement platform.nfc))) :
    sortByKey EvidenceRequirement.logicalId (requirements.map (mapRequirement platform.nfc)) =
      sortByKey EvidenceRequirement.logicalId (requirements'.map (mapRequirement platform.nfc)) := by
  have hdistinct : (packet.evidenceRequirements.map EvidenceRequirement.logicalId).Nodup := by
    simp only [packetIsCoherent, Bool.and_eq_true, decide_eq_true_eq] at hcoherent
    exact hcoherent.1.1.1.1.2
  rw [h, ((sortByKey_perm _ _).map _).nodup_iff] at hdistinct
  refine sortByKey_congr (fun x hx y hy hkey ↦ ?_) (hperm.map _)
  exact List.inj_on_of_nodup_map hdistinct hx hy hkey

theorem packetOf_sameForm (hform : NormalForm platform) (hlower : LowersBy platform lowerChar)
    (hsame : SameForm lowerChar input input') (h : packetOf platform input = some packet) :
    packetOf platform input' = some packet := by
  obtain ⟨parsed, tags, hparsed, htags, hpacket, hcoherent⟩ := packetOf_eq_some.mp h
  obtain ⟨parsedTags', tags', htagsRead, htagsNormalized, htagsPerm⟩ := hsame.sameTags hlower hparsed.boundaryTags htags
  obtain ⟨paths', hpaths, hpathsPerm⟩ := boundedItems_perm hparsed.allowedPaths hsame.allowedPaths
  obtain ⟨references', hreferences, hreferencesPerm⟩ := boundedItems_perm hparsed.referenceIds hsame.referenceIds
  obtain ⟨requirements', hrequirements, hrequirementsPerm⟩ :=
    boundedItems_perm hparsed.evidenceRequirements hsame.evidenceRequirements
  let parsed' : TaskPacketInput := { parsed with
    allowedPaths := paths', referenceIds := references', boundaryTags := parsedTags',
    evidenceRequirements := requirements' }
  have hparsed' : Parses platform nonemptyText input' parsed' := by
    rw [hsame.rest]
    exact { hparsed with
      allowedPaths := hpaths, referenceIds := hreferences, boundaryTags := htagsRead,
      evidenceRequirements := hrequirements }
  have hcandidate := parses_candidatePacket hform hparsed hpacket
  have hkept : packet.evidenceRequirements = sortByKey EvidenceRequirement.logicalId
      (parsed.evidenceRequirements.map (mapRequirement platform.nfc)) :=
    congrArg TaskPacketOf.evidenceRequirements hcandidate
  have hpaths' : sortedStrings (parsed.allowedPaths.map platform.nfc) = sortedStrings (paths'.map platform.nfc) :=
    sortedStrings_perm (hpathsPerm.map _)
  have hreferences' : sortedStrings (parsed.referenceIds.map platform.nfc) =
      sortedStrings (references'.map platform.nfc) := sortedStrings_perm (hreferencesPerm.map _)
  have hrequirements' := sorted_requirements hcoherent hrequirementsPerm hkept
  have hequal : candidatePacket platform parsed' tags' = candidatePacket platform parsed tags := by
    rw [candidatePacket, candidatePacket, TaskPacketOf.mk.injEq]
    exact ⟨rfl, rfl, rfl, rfl, rfl, hpaths'.symm, hreferences'.symm, rfl, rfl, (canonicalTags_perm htagsPerm).symm, rfl,
      rfl, rfl, hrequirements'.symm⟩
  refine packetOf_eq_some.mpr ⟨parsed', tags', hparsed', htagsNormalized, ?_, hcoherent⟩
  rw [hequal]
  exact hpacket

end SameForm

/-! The canonical form of what is compiled. -/

section CanonicalForm

variable {platform : Platform} {json json' : Json} {compiled : CompiledTaskPacket}

theorem compileTaskPacketJson_eq_ok : compileTaskPacketJson platform json = .ok compiled ↔
    ∃ input, taskPacketShape json = some input ∧
      compileTaskPacket (withCanonicalJson platform) input = .ok compiled := by
  rw [compileTaskPacketJson]
  split
  · rename_i hnone
    simp only [hnone, reduceCtorEq, false_and, exists_false]
  · rename_i input hinput
    simp only [hinput, Option.some.injEq, exists_eq_left']

theorem compileTaskPacketJson_ok {input input' : TaskPacketInput} (hinput : taskPacketShape json = some input)
    (hinput' : taskPacketShape json' = some input')
    (hpacket : packetOf (withCanonicalJson platform) input = some compiled.packet)
    (hpacket' : packetOf (withCanonicalJson platform) input' = some compiled.packet)
    (h : compileTaskPacketJson platform json = .ok compiled) : compileTaskPacketJson platform json' = .ok compiled := by
  rw [compileTaskPacketJson, hinput] at h
  rw [compileTaskPacketJson, hinput']
  exact (compileTaskPacket_congr hpacket hpacket').trans h

/-- A packet that compiles is its own canonical form, every way of saying the same compiles to it, and its canonical
text is that of no other packet. -/
theorem canonical_form (platform : Platform) (lowerChar : Char → List Char) (hform : NormalForm platform)
    (hlower : LowersBy platform lowerChar) (json : Json) (compiled : CompiledTaskPacket)
    (h : compileTaskPacketJson platform json = .ok compiled) :
    compileTaskPacketJson platform (encodeTaskPacket compiled.packet) = .ok compiled ∧
      (∀ input json' input', taskPacketShape json = some input → taskPacketShape json' = some input' →
        SameForm lowerChar input input' → compileTaskPacketJson platform json' = .ok compiled) ∧
      (∀ json', Reordered json json' → compileTaskPacketJson platform json' = .ok compiled) ∧
      ∀ json' compiled', compileTaskPacketJson platform json' = .ok compiled' →
        compiled'.canonicalJson = compiled.canonicalJson → compiled'.packet = compiled.packet := by
  have hform' : NormalForm (withCanonicalJson platform) := ⟨hform.idempotent, hform.trimmed⟩
  have hlower' : LowersBy (withCanonicalJson platform) lowerChar :=
    ⟨hlower.plain, hlower.sigma, hlower.sigmaChar, hlower.ascii, hlower.nonempty⟩
  have htext : ∀ {json compiled}, compileTaskPacketJson platform json = .ok compiled →
      compiled.canonicalJson = String.ofList (canonicalJson (encodeTaskPacket compiled.packet)) := by
    intro json compiled h
    obtain ⟨input, -, hcompiled⟩ := compileTaskPacketJson_eq_ok.mp h
    obtain ⟨parsed, tags, -, -, -, -, htext, -⟩ := compileTaskPacket_eq_ok hcompiled
    exact htext
  obtain ⟨input, hinput, hcompiled⟩ := compileTaskPacketJson_eq_ok.mp h
  have hpacket := packetOf_compiled hcompiled
  refine ⟨?_, fun input' json' input'' hinput' hinput'' hsame ↦ ?_, fun json' hreordered ↦ ?_,
    fun json' compiled' h' hequal ↦ ?_⟩
  · obtain ⟨parsed, tags, -, -, hparses, -⟩ := packetOf_eq_some.mp hpacket
    exact compileTaskPacketJson_ok hinput (taskPacketShape_encode hparses.countersFit) hpacket
      (packetOf_asInput hform' hlower' hpacket) h
  · obtain rfl : input = input' := Option.some.inj (hinput.symm.trans hinput')
    exact compileTaskPacketJson_ok hinput hinput'' hpacket (packetOf_sameForm hform' hlower' hsame hpacket) h
  · rw [compileTaskPacketJson_reordered platform hreordered, h]
  · rw [htext h, htext h'] at hequal
    exact canonicalJson_packet_injective (String.ofList_injective hequal)

end CanonicalForm

namespace PacketSample

def lowerChar (c : Char) : List Char := if c = 'Σ' then ['σ'] else [c.toLower]

/-- A platform that lowers ASCII letters and the sigma. -/
def platform : Platform where
  nfc := id
  nfc_ascii := id_ascii
  sha256 _ := "00"
  sha256_hex _ := zeros_hex
  stringify _ := ""
  toLowerCase s := String.ofList (s.toList.flatMap lowerChar)
  isAbsolute := startsWith "/"
  posixNormalize := id
  relative _ path := path

theorem platform_normalForm : NormalForm platform := ⟨fun _ ↦ rfl, fun _ h ↦ h⟩

theorem platform_lowersBy : LowersBy platform lowerChar where
  plain s _ := String.toList_ofList
  sigma s h := by
    refine .inl ?_
    change 'σ' ∈ (String.ofList (s.toList.flatMap lowerChar)).toList
    rw [String.toList_ofList, List.mem_flatMap]
    exact ⟨'Σ', h, List.mem_singleton.mpr rfl⟩
  sigmaChar := rfl
  ascii c h := by
    have hne : c ≠ 'Σ' := by
      rintro rfl
      exact absurd h (by decide)
    exact if_neg hne
  nonempty c := by
    rw [lowerChar]
    split <;> exact List.cons_ne_nil _ _

def criterion : PacketCriterion := ⟨"c", "s", "o", "e", "l"⟩

def requirement : EvidenceRequirement := ⟨"l", .test, true⟩

def packet : TaskPacket :=
  ⟨"r", "t", 1, "o", "d", ["a.ts", "b.ts"], [], [], [criterion], [.externalWrite], false, .deep, tierBudgets .deep,
    [requirement]⟩

/-- The packet as someone may write it. -/
def input : TaskPacketInput :=
  { asInput packet with allowedPaths := ["b.ts", "a.ts"], boundaryTags := ["External-WRITE"] }

def compiled : CompiledTaskPacket where
  packet
  canonicalJson := String.ofList (canonicalJson (encodeTaskPacket packet))
  packetHash := "00"
  packetBytes := (String.ofList (canonicalJson (encodeTaskPacket packet))).utf8ByteSize
  budgeted := rfl

/-- The members of the packet, but for those in which the ways of writing it differ. -/
def json (paths : List String) (tag : String) : Json := .object [
  ("version", .nat 1), ("runId", .string "r"), ("taskId", .string "t"), ("generation", .nat 1),
  ("objective", .string "o"), ("deliverable", .string "d"), ("allowedPaths", strings paths),
  ("referenceIds", .array []), ("dependencyIds", .array []), ("criteria", .array [encodeCriterion criterion]),
  ("boundaryTags", strings [tag]), ("publicBehavior", .bool false), ("tier", .string "DEEP"),
  ("budgets", encodeBudget (tierBudgets .deep)), ("evidenceRequirements", .array [encodeRequirement requirement])]

theorem packetOf_input : packetOf (withCanonicalJson platform) input = some packet := by
  have hparsed : Parses (withCanonicalJson platform) nonemptyText input input :=
    taskPacketBaseSchema_eq_some.mp (by decide)
  have hpacket : Parses (withCanonicalJson platform) some packet packet :=
    taskPacketBaseSchema_eq_some.mp (by decide)
  have hpaths : sortedStrings ["b.ts", "a.ts"] = ["a.ts", "b.ts"] := by
    have hsorted : ["a.ts", "b.ts"].Pairwise fun s t ↦ ordinalLe s t = true := by decide
    exact (sortedStrings_perm (.swap "a.ts" "b.ts" [])).trans (List.mergeSort_of_pairwise hsorted)
  have htags : canonicalTags [.externalWrite] = [.externalWrite] := List.mergeSort_singleton _
  have hcandidate : candidatePacket (withCanonicalJson platform) input [.externalWrite] = packet := by
    rw [candidatePacket, TaskPacketOf.mk.injEq]
    exact ⟨rfl, rfl, rfl, rfl, rfl, hpaths, List.mergeSort_nil, rfl, rfl, htags, rfl, rfl, rfl,
      List.mergeSort_singleton _⟩
  refine packetOf_eq_some.mpr ⟨input, [.externalWrite], hparsed, by decide, ?_, by decide⟩
  rw [hcandidate]
  exact hpacket

theorem utf8ByteSize_le (cs : List Char) : (String.ofList cs).utf8ByteSize ≤ 4 * cs.length := by
  induction cs with
  | nil => exact Nat.le_refl _
  | cons c cs ih =>
    have hc := c.utf8Size_le_four
    rw [← List.singleton_append, String.ofList_append, String.utf8ByteSize_append, List.length_append,
      List.length_singleton, ← String.singleton_eq_ofList, String.utf8ByteSize_singleton]
    omega

theorem json_compiled : compileTaskPacketJson platform (json ["b.ts", "a.ts"] "External-WRITE") = .ok compiled := by
  have hread : taskPacketShape (json ["b.ts", "a.ts"] "External-WRITE") = some input := by decide
  have hlength : 4 * (JsonText.stringify (encodeTaskPacket packet)).length ≤ 12 * 1024 := by decide +kernel
  have hshort := Nat.le_trans (utf8ByteSize_le _) hlength
  rw [← canonicalJson_ordered (ordered_packet packet)] at hshort
  rw [compileTaskPacketJson, hread]
  exact (compileTaskPacket_some packetOf_input).trans (if_neg (Nat.not_lt.mpr hshort))

theorem input_respelled : SameForm lowerChar input
    { input with allowedPaths := ["a.ts", "b.ts"], boundaryTags := ["external_write"] } where
  allowedPaths := .swap "a.ts" "b.ts" []
  referenceIds := .refl _
  boundaryTags := ⟨["External-WRITE"], .refl _, .cons (by decide : List.Forall₂ _ _ _) .nil⟩
  evidenceRequirements := .refl _
  rest := rfl

end PacketSample

/-- A packet with its paths the other way round and its tag in other letters compiles to the same, as does the
compiled packet. -/
theorem respelled_compiled :
    compileTaskPacketJson PacketSample.platform (encodeTaskPacket PacketSample.packet) = .ok PacketSample.compiled ∧
      compileTaskPacketJson PacketSample.platform (PacketSample.json ["a.ts", "b.ts"] "external_write") =
        .ok PacketSample.compiled := by
  obtain ⟨hagain, hsame, -⟩ := canonical_form PacketSample.platform PacketSample.lowerChar
    PacketSample.platform_normalForm PacketSample.platform_lowersBy _ _ PacketSample.json_compiled
  exact ⟨hagain, hsame PacketSample.input _ _ (by decide) (by decide) PacketSample.input_respelled⟩

end OmpLazy.Contracts

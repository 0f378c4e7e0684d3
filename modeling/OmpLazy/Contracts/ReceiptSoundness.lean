import OmpLazy.Contracts.CriticReceipt
import OmpLazy.Contracts.RecompiledPackets

/-! What a receipt that is accepted says about the packet it is bound to. -/

namespace OmpLazy.Contracts.Critic

open OmpLazy.Foundation OmpLazy.Foundation.Schema OmpLazy.Foundation.Text

section Strings

variable {values left right : List String}

theorem sortedUniqueStrings_iff :
    sortedUniqueStrings values = true ↔ values.Pairwise fun s t ↦ utf16Units s < utf16Units t := by
  induction values with
  | nil => simp [sortedUniqueStrings]
  | cons value values ih =>
    cases values with
    | nil => simp [sortedUniqueStrings]
    | cons next values =>
      rw [sortedUniqueStrings, Bool.and_eq_true, decide_eq_true_eq, ih, List.pairwise_cons (a := value)]
      refine and_congr_left fun hrest ↦ ?_
      constructor
      · intro hnext t ht
        obtain rfl | ht := List.mem_cons.mp ht
        · exact hnext
        · exact hnext.trans (List.rel_of_pairwise_cons hrest ht)
      · exact fun hall ↦ hall next List.mem_cons_self

theorem nodup_of_sortedUnique (h : sortedUniqueStrings values = true) : values.Nodup := by
  refine (sortedUniqueStrings_iff.mp h).imp ?_
  rintro s _ hlt rfl
  exact lt_irrefl _ hlt

/-- Different keys are strictly sorted. -/
theorem sortedUnique_sortByKey {α : Type} {key : α → String} {xs : List α} (h : (xs.map key).Nodup) :
    sortedUniqueStrings ((sortByKey key xs).map key) = true := by
  have hnodup : ((sortByKey key xs).map key).Nodup := ((sortByKey_perm key xs).map key).nodup_iff.mpr h
  rw [sortedUniqueStrings_iff]
  rw [List.Nodup, List.pairwise_map] at hnodup
  rw [List.pairwise_map]
  refine (hnodup.and (sortByKey_pairwise key xs)).imp fun ⟨hne, hle⟩ ↦ ?_
  exact lt_of_le_of_ne (ordinalLe_iff.mp hle) fun heq ↦ hne (utf16Units_injective heq)

theorem sameStringSet_iff : sameStringSet left right = true ↔ ∀ s, s ∈ left ↔ s ∈ right := by
  simp only [sameStringSet, Bool.and_eq_true, List.all_eq_true, decide_eq_true_eq]
  exact ⟨fun h s ↦ ⟨h.1 s, h.2 s⟩, fun h ↦ ⟨fun s ↦ (h s).mp, fun s ↦ (h s).mpr⟩⟩

theorem boundedText_settled {most : ℕ} {value read : String} (h : boundedText most value = some read) :
    boundedText most read = some read := by
  have hread := boundedText_eq h
  rw [boundedText] at h ⊢
  subst hread
  rw [trim_trim]
  split at h
  · cases h
  · rename_i hfits
    rw [if_neg hfits]

/-- Of values with different keys one has the key of each. -/
theorem filter_key {α : Type} {key : α → String} {xs : List α} {x : α} (h : (xs.map key).Nodup) (hx : x ∈ xs) :
    xs.filter (key · = key x) = [x] := by
  induction xs with
  | nil => cases hx
  | cons y ys ih =>
    rw [List.map_cons, List.nodup_cons] at h
    obtain rfl | hmem := List.mem_cons.mp hx
    · have hnone : ys.filter (key · = key x) = [] := by
        rw [List.filter_eq_nil_iff]
        intro z hz heq
        exact h.1 (of_decide_eq_true heq ▸ List.mem_map_of_mem hz)
      rw [List.filter_cons_of_pos (by simp), hnone]
    · have hne : key y ≠ key x := fun heq ↦ h.1 (heq ▸ List.mem_map_of_mem hmem)
      rw [List.filter_cons_of_neg (by simpa using hne), ih h.2 hmem]

end Strings

section Binding

variable {platform : Platform} {input : TaskPacketInput} {compiled : CompiledTaskPacket}
  {raw binding : CriticReceiptBinding}

theorem sized_array {α : Type} {least most : ℕ} {schema : Schema α} {encode : α → Json} {xs : List α}
    (h : ∀ x ∈ xs, schema (encode x) = some x) (hlength : least ≤ xs.length ∧ xs.length ≤ most) :
    sized least most schema (.array (xs.map encode)) = some xs :=
  Option.filter_eq_some_iff.mpr ⟨array_reread h, by simpa using hlength⟩

/-- The binding is read member by member. -/
theorem criticReceiptBindingSchema_encode (hactor : identifier raw.actor = some binding.actor)
    (hverifier : identifier raw.verifierActor = some binding.verifierActor)
    (hreceiptId : identifier raw.receiptId = some binding.receiptId)
    (hsame : binding = { raw with
      actor := binding.actor
      verifierActor := binding.verifierActor
      receiptId := binding.receiptId })
    (hhash : isLowerHexOf 64 raw.packetHash = true) (hhead : isLowerHexOf 40 raw.head = true)
    (hgeneration : isPositive raw.generation = true)
    (hgates : sized 1 32 identifierSchema (.array (raw.requiredHardGateIds.map .string)) =
      some raw.requiredHardGateIds)
    (hevidence : sized 0 32 identifierSchema (.array (raw.requiredEvidenceLogicalIds.map .string)) =
      some raw.requiredEvidenceLogicalIds)
    (hrequired : sized 1 32 requiredGateEvidenceSchema (.array (raw.requiredGateEvidence.map encodeGateEvidence)) =
      some raw.requiredGateEvidence)
    (hcoherent : bindingIsCoherent binding = true) :
    criticReceiptBindingSchema (encodeBinding raw) = some binding := by
  have hhash' : hash (.string raw.packetHash) = some raw.packetHash :=
    Option.filter_eq_some_iff.mpr ⟨rfl, hhash⟩
  have hhead' : head (.string raw.head) = some raw.head := Option.filter_eq_some_iff.mpr ⟨rfl, hhead⟩
  have hgeneration' : positive (.nat raw.generation) = some raw.generation := by
    simp only [isPositive, Bool.and_eq_true, decide_eq_true_eq] at hgeneration
    exact Option.filter_eq_some_iff.mpr ⟨counter_nat hgeneration.2, by simpa using hgeneration.1⟩
  refine Option.filter_eq_some_iff.mpr ⟨strictObject_object.mpr ⟨?_, ?_⟩, hcoherent⟩
  · simp [bindingKeys]
  · simp [required, identifierSchema, string, hactor, hverifier, hreceiptId, hhash', hhead', hgeneration', hgates,
      hevidence, hrequired]
    exact hsame.symm

/-- A packet that was compiled has criteria and required evidence that a binding may have. -/
structure Bindable (packet : TaskPacket) : Prop where
  positive : isPositive packet.generation = true
  few : 1 ≤ packet.criteria.length ∧ packet.criteria.length ≤ 6
  criteria : ∀ criterion ∈ packet.criteria, identifier criterion.id = some criterion.id ∧
    identifier criterion.evidenceLogicalId = some criterion.evidenceLogicalId
  fewRequirements : packet.evidenceRequirements.length ≤ 12
  requirements : ∀ requirement ∈ packet.evidenceRequirements,
    identifier requirement.logicalId = some requirement.logicalId
  distinct : (packet.criteria.map (·.id)).Nodup
  distinctEvidence : (packet.evidenceRequirements.map (·.logicalId)).Nodup
  covered : sameStringSet (packet.criteria.map (·.evidenceLogicalId))
    ((packet.evidenceRequirements.filter (·.required)).map (·.logicalId)) = true

theorem bindable_of_compiled (h : compileTaskPacket platform input = .ok compiled) : Bindable compiled.packet := by
  obtain ⟨parsed, tags, -, -, hpacket, hcoherent, -⟩ := compileTaskPacket_eq_ok h
  simp only [packetIsCoherent, Bool.and_eq_true, decide_eq_true_eq] at hcoherent
  obtain ⟨⟨⟨⟨⟨⟨⟨-, -⟩, hdistinct⟩, hdistinctEvidence⟩, -⟩, hcovered⟩, -⟩, -⟩ := hcoherent
  obtain ⟨hfew, hcriteria⟩ := boundedItems_eq_some.mp hpacket.criteria
  obtain ⟨hfewRequirements, hrequirements⟩ := boundedItems_eq_some.mp hpacket.evidenceRequirements
  have hlength := hcriteria.length_eq
  have hlengthRequirements := hrequirements.length_eq
  refine ⟨hpacket.generation ▸ hpacket.positive, by omega, fun criterion hmem ↦ ?_, by omega,
    fun requirement hmem ↦ ?_, hdistinct, hdistinctEvidence, hcovered⟩
  · obtain ⟨given, -, hread⟩ := exists_of_forall₂ hcriteria hmem
    simp only [criterionSchema, Option.bind_eq_bind, Option.bind_eq_some_iff, Option.pure_def, Option.some.injEq]
      at hread
    obtain ⟨id, hid, _, -, _, -, _, -, evidence, hevidence, rfl⟩ := hread
    exact ⟨boundedText_settled hid, boundedText_settled hevidence⟩
  · obtain ⟨given, -, hread⟩ := exists_of_forall₂ hrequirements hmem
    simp only [evidenceRequirementSchema, Option.bind_eq_bind, Option.bind_eq_some_iff, Option.pure_def,
      Option.some.injEq] at hread
    obtain ⟨logicalId, hid, rfl⟩ := hread
    exact boundedText_settled hid

theorem identifiers_read {least most : ℕ} {values : List String}
    (h : ∀ value ∈ values, identifier value = some value) (hlength : least ≤ values.length ∧ values.length ≤ most) :
    sized least most identifierSchema (.array (values.map .string)) = some values :=
  sized_array (fun value hvalue ↦ h value hvalue) hlength

theorem requiredGateEvidenceSchema_encode {requirement : GateEvidence}
    (hid : identifier requirement.id = some requirement.id)
    (hevidence : identifier requirement.evidenceLogicalId = some requirement.evidenceLogicalId) :
    requiredGateEvidenceSchema (encodeGateEvidence requirement) = some requirement := by
  refine strictObject_object.mpr ⟨?_, ?_⟩
  · simp
  · simp [required, identifierSchema, string, hid, hevidence]

/-- The criteria as the gates that are required. -/
def gatesOf (packet : TaskPacket) : List GateEvidence :=
  packet.criteria.map fun criterion ↦ ⟨criterion.id, criterion.evidenceLogicalId⟩

/-- The binding of a compiled packet to two different actors is accepted as it is. -/
theorem bindCriticReceiptToPacket_eq {actor verifierActor head receiptId critic verifier receiptId' : String}
    (hsha : ∀ s, (platform.sha256 s).toList.length = 64) (hcompiled : compileTaskPacket platform input = .ok compiled)
    (hactor : identifier actor = some critic) (hverifier : identifier verifierActor = some verifier)
    (hdistinct : critic ≠ verifier) (hreceiptId : identifier receiptId = some receiptId')
    (hhead : isLowerHexOf 40 head = true) :
    bindCriticReceiptToPacket ⟨actor, verifierActor, head, receiptId, compiled⟩ =
      some { bindingOf ⟨actor, verifierActor, head, receiptId, compiled⟩ with
        actor := critic
        verifierActor := verifier
        receiptId := receiptId' } := by
  have hpacket := bindable_of_compiled hcompiled
  obtain ⟨parsed, tags, -, -, -, -, -, hhash, -⟩ := compileTaskPacket_eq_ok hcompiled
  have hgates := sortByKey_perm GateEvidence.id (gatesOf compiled.packet)
  have hids : (sortedStrings (compiled.packet.criteria.map (·.id))).Perm _ := sortByKey_perm id _
  have hevidence : (sortedStrings
      ((compiled.packet.evidenceRequirements.filter (·.required)).map (·.logicalId))).Perm _ := sortByKey_perm id _
  have hcovered := sameStringSet_iff.mp hpacket.covered
  have hgateIds : (gatesOf compiled.packet).map (·.id) = compiled.packet.criteria.map (·.id) := by
    rw [gatesOf, List.map_map]
    rfl
  have hgateEvidence : (gatesOf compiled.packet).map (·.evidenceLogicalId) =
      compiled.packet.criteria.map (·.evidenceLogicalId) := by
    rw [gatesOf, List.map_map]
    rfl
  have hrequiredNodup : ((compiled.packet.evidenceRequirements.filter (·.required)).map (·.logicalId)).Nodup :=
    hpacket.distinctEvidence.sublist (List.filter_sublist.map _)
  refine criticReceiptBindingSchema_encode hactor hverifier hreceiptId rfl ?_ hhead hpacket.positive
    (identifiers_read ?_ ?_) (identifiers_read ?_ ?_) (sized_array ?_ ?_) ?_
  · change isLowerHexOf 64 compiled.packetHash = true
    rw [hhash, isLowerHexOf, matchesClasses_replicate]
    exact ⟨hsha _, platform.sha256_hex _⟩
  · intro id hid
    obtain ⟨criterion, hmem, rfl⟩ := List.mem_map.mp (hids.mem_iff.mp hid)
    exact (hpacket.criteria criterion hmem).1
  · have hlength := hids.length_eq
    rw [List.length_map] at hlength
    have hfew := hpacket.few
    change 1 ≤ (sortedStrings (compiled.packet.criteria.map (·.id))).length ∧
      (sortedStrings (compiled.packet.criteria.map (·.id))).length ≤ 32
    omega
  · intro id hid
    obtain ⟨requirement, hmem, rfl⟩ := List.mem_map.mp (hevidence.mem_iff.mp hid)
    exact hpacket.requirements requirement (List.mem_filter.mp hmem).1
  · have hlength := hevidence.length_eq
    rw [List.length_map] at hlength
    have hfew := List.length_filter_le (·.required) compiled.packet.evidenceRequirements
    have hbound := hpacket.fewRequirements
    refine ⟨Nat.zero_le _, ?_⟩
    change (sortedStrings ((compiled.packet.evidenceRequirements.filter (·.required)).map (·.logicalId))).length ≤ 32
    omega
  · intro gate hgate
    obtain ⟨criterion, hmem, rfl⟩ := List.mem_map.mp (hgates.mem_iff.mp hgate)
    obtain ⟨hid, hlogical⟩ := hpacket.criteria criterion hmem
    exact requiredGateEvidenceSchema_encode hid hlogical
  · have hlength := hgates.length_eq
    rw [gatesOf, List.length_map] at hlength
    have hfew := hpacket.few
    change 1 ≤ (sortByKey GateEvidence.id (gatesOf compiled.packet)).length ∧
      (sortByKey GateEvidence.id (gatesOf compiled.packet)).length ≤ 32
    rw [gatesOf]
    omega
  · have hsortedIds : sortedUniqueStrings (sortedStrings (compiled.packet.criteria.map (·.id))) = true := by
      have hsorted := @sortedUnique_sortByKey _ id (compiled.packet.criteria.map (·.id))
        (by rw [List.map_id]; exact hpacket.distinct)
      rwa [List.map_id] at hsorted
    have hsortedEvidence : sortedUniqueStrings (sortedStrings
        ((compiled.packet.evidenceRequirements.filter (·.required)).map (·.logicalId))) = true := by
      have hsorted := @sortedUnique_sortByKey _ id
        ((compiled.packet.evidenceRequirements.filter (·.required)).map (·.logicalId))
        (by rw [List.map_id]; exact hrequiredNodup)
      rwa [List.map_id] at hsorted
    have hsortedGates : sortedUniqueStrings ((sortByKey GateEvidence.id (gatesOf compiled.packet)).map (·.id)) =
        true := sortedUnique_sortByKey (hgateIds ▸ hpacket.distinct)
    have hsameIds : sameStringSet (sortedStrings (compiled.packet.criteria.map (·.id)))
        ((sortByKey GateEvidence.id (gatesOf compiled.packet)).map (·.id)) = true := by
      refine sameStringSet_iff.mpr fun id ↦ ?_
      rw [hids.mem_iff, (hgates.map _).mem_iff, hgateIds]
    have hsameEvidence : sameStringSet (sortedStrings
          ((compiled.packet.evidenceRequirements.filter (·.required)).map (·.logicalId)))
        ((sortByKey GateEvidence.id (gatesOf compiled.packet)).map (·.evidenceLogicalId)) = true := by
      refine sameStringSet_iff.mpr fun id ↦ ?_
      rw [hevidence.mem_iff, (hgates.map _).mem_iff, hgateEvidence]
      exact (hcovered id).symm
    have hdifferent : decide (verifier ≠ critic) = true := decide_eq_true hdistinct.symm
    simp only [bindingIsCoherent, Bool.and_eq_true]
    exact ⟨⟨⟨⟨⟨hdifferent, hsortedIds⟩, hsortedEvidence⟩, hsortedGates⟩, hsameIds⟩, hsameEvidence⟩

end Binding

section Soundness

/-- What the critic and the verifier say of a packet, in the name of its binding. -/
structure Approves (packet : TaskPacket) (binding : CriticReceiptBinding) (receipt : CriticReceipt)
    (evidence : VerifierEvidence) : Prop where
  gates : ∀ criterion ∈ packet.criteria,
    receipt.hardGates.filter (·.id = criterion.id) = [⟨criterion.id, true⟩]
  authorizations : ∀ criterion ∈ packet.criteria, ∃ authorization,
    evidence.authorizations.filter (·.id = criterion.id) = [authorization] ∧
      authorization.evidenceLogicalId = criterion.evidenceLogicalId ∧ authorization.passed = true
  noOtherGate : ∀ gate ∈ receipt.hardGates, gate.id ∈ packet.criteria.map (·.id)
  noOtherAuthorization : ∀ authorization ∈ evidence.authorizations, authorization.id ∈ packet.criteria.map (·.id)
  hashes : ∀ first ∈ evidence.authorizations, ∀ second ∈ evidence.authorizations,
    first.evidenceLogicalId = second.evidenceLogicalId →
      first.provenanceSha256 = second.provenanceSha256 ∧ first.contentSha256 = second.contentSha256
  receiptBound : receipt.packetHash = binding.packetHash ∧ receipt.head = binding.head ∧
    receipt.generation = binding.generation ∧ receipt.actor = binding.actor
  evidenceBound : evidence.packetHash = binding.packetHash ∧ evidence.head = binding.head ∧
    evidence.generation = binding.generation ∧ evidence.actor = binding.verifierActor
  approved : receipt.verdict = .approve

variable {expected : CriticReceiptBinding} {receipt accepted : CriticReceipt} {evidence : VerifierEvidence}
  {required : List GateEvidence} {authorizations : List VerifierAuthorization}

/-- The checks that a receipt has passed. -/
structure Passes (expected : CriticReceiptBinding) (receipt : CriticReceipt) (evidence : VerifierEvidence) :
    Prop where
  actors : receipt.actor = expected.actor ∧ evidence.actor = expected.verifierActor
  packetHashes : receipt.packetHash = expected.packetHash ∧ evidence.packetHash = expected.packetHash
  heads : receipt.head = expected.head ∧ evidence.head = expected.head
  generations : receipt.generation = expected.generation ∧ evidence.generation = expected.generation
  gateIds : sameStringSet (receipt.hardGates.map (·.id)) expected.requiredHardGateIds = true
  authorizationIds : sameStringSet (evidence.authorizations.map (·.id)) expected.requiredHardGateIds = true
  ordered : authorizesInOrder expected.requiredGateEvidence evidence.authorizations = true
  hashes : hashesAgree [] evidence.authorizations = true
  gatesPassed : ∀ gate ∈ receipt.hardGates, gate.passed = true
  authorizationsPassed : ∀ authorization ∈ evidence.authorizations, authorization.passed = true
  verdict : receipt.verdict = .approve

theorem checkReceipt_eq_ok (h : checkReceipt expected receipt evidence = .ok accepted) :
    accepted = receipt ∧ Passes expected receipt evidence := by
  simp only [checkReceipt, refuseIf_bind_eq_ok, decide_eq_false_iff_not, ne_eq, not_not,
    Bool.not_eq_eq_eq_not, Bool.not_false, Bool.or_eq_false_iff, List.any_eq_false] at h
  obtain ⟨hactor, hverifier, hhash, hhead, hgeneration, -, hgateIds, -, hhash', hhead', hgeneration',
    ⟨⟨hids, -⟩, hordered⟩, hhashes, ⟨hgates, -⟩, hauthorizations, hverdict, haccepted⟩ := h
  exact ⟨(Except.ok.inj haccepted).symm, ⟨hactor, hverifier⟩, ⟨hhash, hhash'⟩, ⟨hhead, hhead'⟩,
    ⟨hgeneration, hgeneration'⟩, hgateIds, hids, hordered, hhashes, fun gate hgate ↦ by simpa using hgates gate hgate,
    fun authorization hmem ↦ by simpa using hauthorizations authorization hmem, hverdict⟩

/-- The authorization at each place is the one that the gate there requires. -/
theorem gate_of_authorizesInOrder (h : authorizesInOrder required authorizations = true)
    {authorization : VerifierAuthorization} (hmem : authorization ∈ authorizations) :
    ∃ gate ∈ required, authorization.id = gate.id ∧ authorization.evidenceLogicalId = gate.evidenceLogicalId := by
  obtain ⟨index, hindex⟩ := List.mem_iff_getElem?.mp hmem
  have hplaced : (authorization, index) ∈ authorizations.zipIdx := List.mk_mem_zipIdx_iff_getElem?.mpr hindex
  have hgate := List.all_eq_true.mp h _ hplaced
  cases hrequired : required[index]? with
  | none => simp [hrequired] at hgate
  | some gate =>
    simp only [hrequired, Bool.and_eq_true, decide_eq_true_eq] at hgate
    exact ⟨gate, List.mem_of_getElem? hrequired, hgate⟩

theorem lookup_cons_eq {key id : String} {hashes : String × String} {seen : List (String × String × String)} :
    List.lookup key ((id, hashes) :: seen) = if key = id then some hashes else seen.lookup key := by
  rw [List.lookup_cons]
  by_cases h : key = id
  · rw [if_pos h, beq_iff_eq.mpr h]
  · rw [if_neg h, beq_eq_false_iff_ne.mpr h]

def VerifierAuthorization.hashes (authorization : VerifierAuthorization) : String × String :=
  (authorization.provenanceSha256, authorization.contentSha256)

/-- What the loop has seen of an evidence, its later authorizations say too, and so of each other. -/
theorem hashesAgree_seen {seen : List (String × String × String)} (h : hashesAgree seen authorizations = true) :
    (∀ authorization ∈ authorizations, ∀ hashes ∈ seen.lookup authorization.evidenceLogicalId,
      authorization.hashes = hashes) ∧
    ∀ first ∈ authorizations, ∀ second ∈ authorizations, first.evidenceLogicalId = second.evidenceLogicalId →
      first.hashes = second.hashes := by
  induction authorizations generalizing seen with
  | nil => exact ⟨List.forall_mem_nil _, List.forall_mem_nil _⟩
  | cons authorization authorizations ih =>
    obtain ⟨hseen, hrest⟩ : (∀ hashes ∈ seen.lookup authorization.evidenceLogicalId, authorization.hashes = hashes) ∧
        hashesAgree ((authorization.evidenceLogicalId, authorization.hashes) :: seen) authorizations = true := by
      rw [hashesAgree] at h
      split at h
      · rename_i hnone
        exact ⟨fun hashes hmem ↦ absurd (hnone.symm.trans hmem) (by simp), h⟩
      · rename_i previous hprevious
        obtain ⟨heq, hrest⟩ := Bool.and_eq_true_iff.mp h
        refine ⟨fun hashes hmem ↦ ?_, hrest⟩
        rw [hprevious] at hmem
        exact (of_decide_eq_true heq).symm.trans (Option.some.inj hmem)
    obtain ⟨hlater, hpairs⟩ := ih hrest
    have hfirst : ∀ second ∈ authorizations, authorization.evidenceLogicalId = second.evidenceLogicalId →
        second.hashes = authorization.hashes := by
      intro second hsecond heq
      exact hlater second hsecond _ (by rw [lookup_cons_eq, if_pos heq.symm]; rfl)
    constructor
    · intro other hother hashes hmem
      obtain rfl | hother := List.mem_cons.mp hother
      · exact hseen hashes hmem
      · by_cases hsame : other.evidenceLogicalId = authorization.evidenceLogicalId
        · rw [hfirst other hother hsame.symm]
          exact hseen hashes (hsame ▸ hmem)
        · exact hlater other hother hashes (by rw [lookup_cons_eq, if_neg hsame]; exact hmem)
    · simp only [List.forall_mem_cons]
      refine ⟨⟨fun _ ↦ trivial, fun second hsecond heq ↦ (hfirst second hsecond heq).symm⟩, fun first hmem ↦ ?_⟩
      exact ⟨fun heq ↦ hfirst first hmem heq.symm, fun second hsecond ↦ hpairs first hmem second hsecond⟩

/-- A receipt that passes the checks of a packet's binding approves every criterion of the packet. -/
theorem Passes.approves {packet : TaskPacket} (hpacket : Bindable packet) (h : Passes expected receipt evidence)
    (hgateIds : expected.requiredHardGateIds.Perm (packet.criteria.map (·.id)))
    (hrequired : expected.requiredGateEvidence.Perm (gatesOf packet))
    (hgates : (receipt.hardGates.map (·.id)).Nodup) (hauthorizations : (evidence.authorizations.map (·.id)).Nodup) :
    Approves packet expected receipt evidence := by
  have hgateIff : ∀ id, id ∈ receipt.hardGates.map (·.id) ↔ id ∈ packet.criteria.map (·.id) := fun id ↦
    (sameStringSet_iff.mp h.gateIds id).trans hgateIds.mem_iff
  have hauthorizationIff : ∀ id, id ∈ evidence.authorizations.map (·.id) ↔ id ∈ packet.criteria.map (·.id) :=
    fun id ↦ (sameStringSet_iff.mp h.authorizationIds id).trans hgateIds.mem_iff
  refine ⟨fun criterion hmem ↦ ?_, fun criterion hmem ↦ ?_, fun gate hgate ↦ ?_, fun authorization hmem ↦ ?_,
    fun first hfirst second hsecond heq ↦ ?_, ⟨h.packetHashes.1, h.heads.1, h.generations.1, h.actors.1⟩,
    ⟨h.packetHashes.2, h.heads.2, h.generations.2, h.actors.2⟩, h.verdict⟩
  · obtain ⟨gate, hgate, hid⟩ := List.mem_map.mp ((hgateIff _).mpr (List.mem_map_of_mem hmem))
    have hpassed : gate = ⟨criterion.id, true⟩ := by
      rw [HardGate.mk.injEq]
      exact ⟨hid, h.gatesPassed gate hgate⟩
    have hone := filter_key hgates hgate
    rwa [hid, hpassed] at hone
  · obtain ⟨authorization, hauthorization, hid⟩ :=
      List.mem_map.mp ((hauthorizationIff _).mpr (List.mem_map_of_mem hmem))
    obtain ⟨gate, hgate, hgateId, hevidence⟩ := gate_of_authorizesInOrder h.ordered hauthorization
    obtain ⟨criterion', hmem', rfl⟩ := List.mem_map.mp (hrequired.mem_iff.mp hgate)
    obtain rfl : criterion' = criterion :=
      List.inj_on_of_nodup_map hpacket.distinct hmem' hmem (hgateId.symm.trans hid)
    have hone := filter_key hauthorizations hauthorization
    rw [hid] at hone
    exact ⟨authorization, hone, hevidence, h.authorizationsPassed authorization hauthorization⟩
  · exact (hgateIff _).mp (List.mem_map_of_mem hgate)
  · exact (hauthorizationIff _).mp (List.mem_map_of_mem hmem)
  · exact Prod.mk.inj ((hashesAgree_seen h.hashes).2 first hfirst second hsecond heq)

end Soundness

section Receipts

variable {platform : Platform} {input : TaskPacketInput} {compiled : CompiledTaskPacket}

/-- The binding of a compiled packet to two actors is never refused, and a receipt that is accepted against it
approves every criterion of the packet and nothing else. -/
theorem critic_receipt_sound (hsha : ∀ s, (platform.sha256 s).toList.length = 64)
    (hcompiled : compileTaskPacket platform input = .ok compiled)
    {actor verifierActor head receiptId critic verifier receiptId' : String}
    (hactor : identifier actor = some critic) (hverifier : identifier verifierActor = some verifier)
    (hdistinct : critic ≠ verifier) (hreceiptId : identifier receiptId = some receiptId')
    (hhead : isLowerHexOf 40 head = true) :
    ∃ binding, bindCriticReceiptToPacket ⟨actor, verifierActor, head, receiptId, compiled⟩ = some binding ∧
      binding.packetHash = compiled.packetHash ∧ binding.head = head ∧
      binding.generation = compiled.packet.generation ∧ binding.actor = critic ∧ binding.verifierActor = verifier ∧
      ∀ receiptValue evidenceValue receipt,
        validateCriticReceipt (encodeBinding binding) receiptValue evidenceValue = .ok receipt →
          criticReceiptSchema receiptValue = some receipt ∧
          ∃ evidence, verifierEvidenceSchema evidenceValue = some evidence ∧
            Approves compiled.packet binding receipt evidence := by
  have hbind := bindCriticReceiptToPacket_eq hsha hcompiled hactor hverifier hdistinct hreceiptId hhead
  have hagain := bindCriticReceiptToPacket_eq hsha hcompiled (boundedText_settled hactor)
    (boundedText_settled hverifier) hdistinct (boundedText_settled hreceiptId) hhead
  refine ⟨_, hbind, rfl, rfl, rfl, rfl, rfl, fun receiptValue evidenceValue receipt hvalid ↦ ?_⟩
  rw [validateCriticReceipt] at hvalid
  split at hvalid
  · rename_i expected receipt' hexpected hreceipt
    obtain rfl := Option.some.inj (hexpected.symm.trans hagain)
    split at hvalid
    · cases hvalid
    · rename_i evidence hevidence
      obtain ⟨rfl, hpasses⟩ := checkReceipt_eq_ok hvalid
      obtain ⟨-, hids⟩ := Option.filter_eq_some_iff.mp hreceipt
      obtain ⟨-, hids'⟩ := Option.filter_eq_some_iff.mp hevidence
      refine ⟨hreceipt, evidence, hevidence, ?_⟩
      exact hpasses.approves (bindable_of_compiled hcompiled) (sortByKey_perm id _)
        (sortByKey_perm GateEvidence.id _) (nodup_of_sortedUnique (Bool.and_eq_true_iff.mp hids).1)
        (nodup_of_sortedUnique hids')
  · cases hvalid

end Receipts

namespace Sample

def zeros (n : ℕ) : String := String.ofList (List.replicate n '0')

theorem zeros_isLowerHexOf (n : ℕ) : isLowerHexOf n (zeros n) = true := by
  rw [isLowerHexOf, zeros, String.toList_ofList, matchesClasses_replicate]
  refine ⟨List.length_replicate, fun c hc ↦ ?_⟩
  rw [List.eq_of_mem_replicate hc]
  rfl

/-- A platform whose hash is sixty-four zeros. -/
def platform : Platform :=
  { PacketSample.platform with
    sha256 := fun _ ↦ zeros 64
    sha256_hex := fun _ ↦ (matchesClasses_replicate.mp (zeros_isLowerHexOf 64)).2 }

theorem packet_budgeted : tierMatchesBudget PacketSample.packet.tier PacketSample.packet.budgets := rfl

def compiled : CompiledTaskPacket where
  packet := PacketSample.packet
  canonicalJson := ""
  packetHash := zeros 64
  packetBytes := 0
  budgeted := packet_budgeted

theorem input_compiled : compileTaskPacket platform PacketSample.input = .ok compiled := by
  have hpacket : packetOf platform PacketSample.input = some PacketSample.packet := PacketSample.packetOf_input
  exact (compileTaskPacket_some hpacket).trans (if_neg (by decide))

def binding : CriticReceiptBinding :=
  ⟨"critic", "verifier", zeros 64, zeros 40, 1, "receipt", ["c"], ["l"], [⟨"c", "l"⟩]⟩

/-- The members that both documents have. -/
def boundMembers (actor : String) : List (String × Json) :=
  [("actor", .string actor), ("packetHash", .string (zeros 64)), ("head", .string (zeros 40)), ("generation", .nat 1)]

def receiptValue : Json := .object (boundMembers "critic" ++ [
  ("version", .nat 1), ("kind", .string "omp_lazy_critic_receipt"), ("verdict", .string "APPROVE"),
  ("receiptId", .string "receipt"),
  ("hardGates", .array [.object [("id", .string "c"), ("passed", .bool true)]]),
  ("evidenceLogicalIds", .array [.string "l"])])

def evidenceValue : Json := .object (boundMembers "verifier" ++ [
  ("authorizations", .array [.object [("id", .string "c"), ("evidenceLogicalId", .string "l"), ("passed", .bool true),
    ("provenanceSha256", .string (zeros 64)), ("contentSha256", .string (zeros 64))]])])

def receipt : CriticReceipt :=
  ⟨.approve, "critic", zeros 64, zeros 40, 1, "receipt", [⟨"c", true⟩], ["l"], none⟩

theorem bindingOf_eq : bindingOf ⟨"critic", "verifier", zeros 40, "receipt", compiled⟩ = binding := by
  rw [bindingOf, binding, CriticReceiptBinding.mk.injEq]
  exact ⟨rfl, rfl, rfl, rfl, rfl, rfl, List.mergeSort_singleton _, List.mergeSort_singleton _,
    List.mergeSort_singleton _⟩

end Sample

/-- A packet of one criterion, and a receipt that is accepted for it. -/
theorem critic_receipt_accepted : ∃ evidence,
    validateCriticReceipt (encodeBinding Sample.binding) Sample.receiptValue Sample.evidenceValue =
        .ok Sample.receipt ∧
      verifierEvidenceSchema Sample.evidenceValue = some evidence ∧
      Approves PacketSample.packet Sample.binding Sample.receipt evidence := by
  have hvalid : validateCriticReceipt (encodeBinding Sample.binding) Sample.receiptValue Sample.evidenceValue =
      .ok Sample.receipt := by decide
  have hcritic : identifier "critic" = some "critic" := by decide
  have hverifier : identifier "verifier" = some "verifier" := by decide
  have hreceiptId : identifier "receipt" = some "receipt" := by decide
  have hsha : ∀ s, (Sample.platform.sha256 s).toList.length = 64 := fun _ ↦ by
    change (Sample.zeros 64).toList.length = 64
    rw [Sample.zeros, String.toList_ofList, List.length_replicate]
  have hbinding := bindCriticReceiptToPacket_eq hsha Sample.input_compiled hcritic hverifier (by decide) hreceiptId
    (Sample.zeros_isLowerHexOf 40)
  obtain ⟨bound, hbind, -, -, -, -, -, hsound⟩ := critic_receipt_sound hsha Sample.input_compiled hcritic hverifier
    (by decide) hreceiptId (Sample.zeros_isLowerHexOf 40)
  obtain rfl : Sample.binding = bound :=
    Sample.bindingOf_eq.symm.trans (Option.some.inj (hbinding.symm.trans hbind))
  obtain ⟨-, evidence, hevidence, happroves⟩ := hsound _ _ _ hvalid
  exact ⟨evidence, hvalid, hevidence, happroves⟩

end OmpLazy.Contracts.Critic

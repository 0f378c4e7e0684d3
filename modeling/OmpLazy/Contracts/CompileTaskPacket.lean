import OmpLazy.Contracts.TaskPacket
import OmpLazy.Foundation.Platform
import Mathlib.Data.List.Lex
import Mathlib.Data.Option.Basic

/-! The packet of a task is checked, brought into its canonical form and checked again. -/

namespace OmpLazy.Contracts

open OmpLazy.Foundation OmpLazy.Foundation.Text

def TaskTier.name : TaskTier → String
  | .fast => "FAST"
  | .standard => "STANDARD"
  | .deep => "DEEP"

namespace BoundaryTag

def all : List BoundaryTag :=
  [.none, .unknown, .authorization, .containment, .externalWrite, .network, .privacy, .security]

def name : BoundaryTag → String
  | .none => "none"
  | .unknown => "unknown"
  | .authorization => "authorization"
  | .containment => "containment"
  | .externalWrite => "external_write"
  | .network => "network"
  | .privacy => "privacy"
  | .security => "security"

end BoundaryTag

def EvidenceKind.name : EvidenceKind → String
  | .artifact => "artifact"
  | .test => "test"
  | .cleanup => "cleanup"
  | .citation => "citation"

/-- The UTF-16 code units of a string. -/
def utf16Units (s : String) : List ℕ :=
  s.toList.flatMap fun c ↦
    if c.toNat < 0x10000 then [c.toNat]
    else [0xD800 + (c.toNat - 0x10000) / 0x400, 0xDC00 + (c.toNat - 0x10000) % 0x400]

/-- `compareOrdinalStrings(left, right) <= 0` -/
def ordinalLe (left right : String) : Bool := utf16Units left ≤ utf16Units right

def sortedStrings (values : List String) : List String := values.mergeSort ordinalLe

def sortedUniqueStrings : List String → Bool
  | value :: next :: values =>
    utf16Units value < utf16Units next && sortedUniqueStrings (next :: values)
  | _ => true

def sameStringSet (left right : List String) : Bool := left.all (· ∈ right) && right.all (· ∈ left)

/-- `z.string().trim().min(1).max(most)` -/
def boundedText (most : ℕ) (value : String) : Option String :=
  if trim value = "" ∨ most < utf16Length (trim value) then none else some (trim value)

def identifier : String → Option String := boundedText 160

def nonemptyText : String → Option String := boundedText 1024

def packetText : String → Option String := boundedText (12 * 1024)

def boundedItems {α β : Type} (least most : ℕ) (schema : α → Option β) (items : List α) : Option (List β) :=
  if items.length < least ∨ most < items.length then none else items.mapM schema

def isPositive (n : ℕ) : Bool := 0 < n && n ≤ Schema.maxSafeInteger

def tierBudgetSchema (budget : TierBudget) : Option TierBudget :=
  if isPositive budget.maxCalls && isPositive budget.maxPacketBytes &&
      budget.maxRetrievalCalls ≤ Schema.maxSafeInteger && budget.maxRetrievalBytes ≤ Schema.maxSafeInteger then
    some budget
  else none

def criterionSchema (criterion : PacketCriterion) : Option PacketCriterion := do
  return {
    id := ← identifier criterion.id
    scenario := ← nonemptyText criterion.scenario
    observable := ← nonemptyText criterion.observable
    expected := ← nonemptyText criterion.expected
    evidenceLogicalId := ← identifier criterion.evidenceLogicalId }

def evidenceRequirementSchema (requirement : EvidenceRequirement) : Option EvidenceRequirement := do
  return { requirement with logicalId := ← identifier requirement.logicalId }

section Compile

variable (platform : Platform)

def canonicalPath (value : String) : Option String :=
  if value = "" ∨ 512 < utf16Length value ∨ '\\' ∈ value.toList ∨ platform.isAbsolute value ∨
      startsWith "/" value ∨ ['.', '.'] ∈ value.toList.splitOn '/' ∨ platform.posixNormalize value ≠ value then
    none
  else some value

/-- The schema of a packet, over that of its tags. -/
def taskPacketBaseSchema {Tag : Type} (tagSchema : Tag → Option Tag) (packet : TaskPacketOf Tag) :
    Option (TaskPacketOf Tag) := do
  let runId ← identifier packet.runId
  let taskId ← identifier packet.taskId
  guard (isPositive packet.generation)
  let objective ← packetText packet.objective
  let deliverable ← packetText packet.deliverable
  let allowedPaths ← boundedItems 0 64 (canonicalPath platform) packet.allowedPaths
  let referenceIds ← boundedItems 0 64 identifier packet.referenceIds
  let dependencyIds ← boundedItems 0 32 identifier packet.dependencyIds
  let criteria ← boundedItems 1 6 criterionSchema packet.criteria
  let boundaryTags ← boundedItems 1 8 tagSchema packet.boundaryTags
  let budgets ← tierBudgetSchema packet.budgets
  let evidenceRequirements ← boundedItems 1 12 evidenceRequirementSchema packet.evidenceRequirements
  return { packet with
    runId, taskId, objective, deliverable, allowedPaths, referenceIds, dependencyIds, criteria, boundaryTags,
    budgets, evidenceRequirements }

/-- What `TaskPacketSchema` asks of a whole packet. -/
def packetIsCoherent (packet : TaskPacket) : Bool :=
  let tags := packet.boundaryTags.map (·.name)
  [packet.allowedPaths, packet.referenceIds, tags].all (fun values ↦ values.Nodup && sortedUniqueStrings values) &&
  packet.dependencyIds.Nodup && (packet.criteria.map (·.id)).Nodup &&
  (packet.evidenceRequirements.map (·.logicalId)).Nodup &&
  !(.none ∈ packet.boundaryTags && packet.boundaryTags.length ≠ 1) &&
  sameStringSet (packet.criteria.map (·.evidenceLogicalId))
    ((packet.evidenceRequirements.filter (·.required)).map (·.logicalId)) &&
  tierMatchesBudget packet.tier packet.budgets &&
  classifyTaskTier packet.allowedPaths packet.boundaryTags packet.publicBehavior = packet.tier

def taskPacketSchema (packet : TaskPacket) : Option TaskPacket :=
  (taskPacketBaseSchema platform some packet).filter packetIsCoherent

def normalizeTag (value : String) : Option BoundaryTag :=
  let candidate := String.ofList ((platform.toLowerCase (trim value)).toList.map fun c ↦ if c = '-' then '_' else c)
  BoundaryTag.all.find? (·.name = candidate)

def normalizeCriterion (criterion : PacketCriterion) : PacketCriterion where
  id := platform.nfc criterion.id
  scenario := platform.nfc criterion.scenario
  observable := platform.nfc criterion.observable
  expected := platform.nfc criterion.expected
  evidenceLogicalId := platform.nfc criterion.evidenceLogicalId

def sortTags (tags : List BoundaryTag) : List BoundaryTag :=
  tags.mergeSort fun left right ↦ ordinalLe left.name right.name

def canonicalPacket (input : TaskPacketInput) : Option TaskPacket := do
  let normalizedTags ← input.boundaryTags.mapM (normalizeTag platform)
  let concreteTags := normalizedTags.filter fun tag ↦ tag ≠ .none && tag ≠ .unknown
  taskPacketSchema platform {
    runId := platform.nfc input.runId
    taskId := platform.nfc input.taskId
    generation := input.generation
    objective := platform.nfc input.objective
    deliverable := platform.nfc input.deliverable
    allowedPaths := sortedStrings (input.allowedPaths.map platform.nfc)
    referenceIds := sortedStrings (input.referenceIds.map platform.nfc)
    dependencyIds := input.dependencyIds.map platform.nfc
    criteria := input.criteria.map (normalizeCriterion platform)
    boundaryTags := sortTags (if concreteTags.isEmpty then normalizedTags else concreteTags)
    publicBehavior := input.publicBehavior
    tier := input.tier
    budgets := input.budgets
    evidenceRequirements := (input.evidenceRequirements.map fun requirement ↦
      { requirement with logicalId := platform.nfc requirement.logicalId }).mergeSort
        fun left right ↦ ordinalLe left.logicalId right.logicalId }

def strings (values : List String) : Json := .array (values.map .string)

/-- The members in the order of `canonicalJson`. -/
def encodeTaskPacket (packet : TaskPacket) : Json :=
  .object [
    ("allowedPaths", strings packet.allowedPaths),
    ("boundaryTags", strings (packet.boundaryTags.map (·.name))),
    ("budgets", .object [
      ("maxCalls", .nat packet.budgets.maxCalls),
      ("maxPacketBytes", .nat packet.budgets.maxPacketBytes),
      ("maxRetrievalBytes", .nat packet.budgets.maxRetrievalBytes),
      ("maxRetrievalCalls", .nat packet.budgets.maxRetrievalCalls)]),
    ("criteria", .array (packet.criteria.map fun criterion ↦ .object [
      ("evidenceLogicalId", .string criterion.evidenceLogicalId),
      ("expected", .string criterion.expected),
      ("id", .string criterion.id),
      ("observable", .string criterion.observable),
      ("scenario", .string criterion.scenario)])),
    ("deliverable", .string packet.deliverable),
    ("dependencyIds", strings packet.dependencyIds),
    ("evidenceRequirements", .array (packet.evidenceRequirements.map fun requirement ↦ .object [
      ("kind", .string requirement.kind.name),
      ("logicalId", .string requirement.logicalId),
      ("required", .bool requirement.required)])),
    ("generation", .nat packet.generation),
    ("objective", .string packet.objective),
    ("publicBehavior", .bool packet.publicBehavior),
    ("referenceIds", strings packet.referenceIds),
    ("runId", .string packet.runId),
    ("taskId", .string packet.taskId),
    ("tier", .string packet.tier.name),
    ("version", .nat 1)]

inductive TaskPacketRefusal where
  | malformedPacket
  | packetBudgetExceeded
  deriving DecidableEq, Repr

variable {platform}

theorem taskPacketSchema_budgeted {packet compiled : TaskPacket}
    (h : taskPacketSchema platform packet = some compiled) :
    tierMatchesBudget compiled.tier compiled.budgets = true := by
  obtain ⟨-, hcoherent⟩ := Option.filter_eq_some_iff.mp h
  simp only [packetIsCoherent, Bool.and_eq_true] at hcoherent
  exact hcoherent.1.2

theorem canonicalPacket_budgeted {input : TaskPacketInput} {packet : TaskPacket}
    (h : canonicalPacket platform input = some packet) : tierMatchesBudget packet.tier packet.budgets = true := by
  obtain ⟨tags, -, hpacket⟩ := Option.bind_eq_some_iff.mp h
  exact taskPacketSchema_budgeted hpacket

variable (platform)

def compileTaskPacket (input : TaskPacketInput) : Except TaskPacketRefusal CompiledTaskPacket :=
  match taskPacketBaseSchema platform nonemptyText input with
  | none => .error .malformedPacket
  | some parsed =>
    match h : canonicalPacket platform parsed with
    | none => .error .malformedPacket
    | some packet =>
      let packetJson := platform.stringify (encodeTaskPacket packet)
      if packet.budgets.maxPacketBytes < packetJson.utf8ByteSize then .error .packetBudgetExceeded
      else .ok {
        packet
        canonicalJson := packetJson
        packetHash := platform.sha256 packetJson
        packetBytes := packetJson.utf8ByteSize
        budgeted := canonicalPacket_budgeted h }

variable {platform}

/-! A task id that is ASCII without white space stays as it is. -/

def Plain (s : String) : Prop := s ≠ "" ∧ ∀ c ∈ s.toList, c.toNat < 128 ∧ isSpace c = false

theorem Plain.trim_eq {s : String} (h : Plain s) : trim s = s := by
  rw [trim, trimList_eq_self.mpr, String.ofList_toList]
  exact ⟨fun c hc ↦ (h.2 c (List.mem_of_mem_head? hc)).2, fun c hc ↦ (h.2 c (List.mem_of_getLast? hc)).2⟩

theorem Plain.nfc_eq {s : String} (h : Plain s) : platform.nfc s = s :=
  platform.nfc_ascii s fun c hc ↦ (h.2 c hc).1

theorem taskPacketBaseSchema_taskId {Tag : Type} {tagSchema : Tag → Option Tag} {input parsed : TaskPacketOf Tag}
    (h : taskPacketBaseSchema platform tagSchema input = some parsed) : parsed.taskId = trim input.taskId := by
  simp only [taskPacketBaseSchema, Option.bind_eq_bind, Option.bind_eq_some_iff, Option.pure_def,
    Option.some.injEq] at h
  obtain ⟨_, -, taskId, htaskId, _, -, _, -, _, -, _, -, _, -, _, -, _, -, _, -, _, -, _, -, rfl⟩ := h
  rw [identifier, boundedText] at htaskId
  split at htaskId
  · cases htaskId
  · exact (Option.some.inj htaskId).symm

theorem canonicalPacket_taskId {input : TaskPacketInput} {packet : TaskPacket} (hplain : Plain input.taskId)
    (h : canonicalPacket platform input = some packet) : packet.taskId = input.taskId := by
  obtain ⟨tags, -, hpacket⟩ := Option.bind_eq_some_iff.mp h
  obtain ⟨hbase, -⟩ := Option.filter_eq_some_iff.mp hpacket
  rw [taskPacketBaseSchema_taskId hbase, hplain.nfc_eq, hplain.trim_eq]

theorem compileTaskPacket_taskId {input : TaskPacketInput} {compiled : CompiledTaskPacket}
    (hplain : Plain input.taskId) (h : compileTaskPacket platform input = .ok compiled) :
    compiled.packet.taskId = input.taskId := by
  unfold compileTaskPacket at h
  split at h
  · cases h
  · rename_i parsed hparsed
    have htaskId : parsed.taskId = input.taskId := by
      rw [taskPacketBaseSchema_taskId hparsed, hplain.trim_eq]
    split at h
    · cases h
    · rename_i packet hpacket
      dsimp only at h
      split at h
      · cases h
      · cases h
        exact (canonicalPacket_taskId (htaskId ▸ hplain) hpacket).trans htaskId

end Compile

end OmpLazy.Contracts

import OmpLazy.Gates.TaskLedgerCodec
import OmpLazy.State.CodecLaws

/-! The texts of task facts, and what the schemas make of them. -/

namespace OmpLazy.Gates

open OmpLazy.Foundation OmpLazy.Foundation.Schema OmpLazy.Foundation.Text OmpLazy.Contracts
open OmpLazy.State (uuid_reads hash_reads positiveCounter_reads encodeNullableString)

def encodeRequest (request : TaskRequest) : Json := .object
  (Json.optional "canonicalInputHash" (request.canonicalInputHash.map .string) ++
    [("itemIndex", .nat request.itemIndex),
      ("requestedName", encodeNullableString request.requestedName),
      ("agentType", encodeNullableString request.agentType)])

def encodeReceipt : TaskReceipt → Json
  | .job jobId status => .object
    [("kind", .string "job"), ("jobId", .string jobId), ("status", .string status.text)]
  | .jobCancel jobId => .object
    [("kind", .string "job_cancel"), ("jobId", .string jobId), ("status", .string "cancelled")]
  | .irc agentId outcome => .object
    [("kind", .string "irc"), ("agentId", .string agentId), ("outcome", .string outcome.text)]

def encodeTargets (targets : List String) : Json := .array (targets.map .string)

def factFields : TaskFact → List (String × Json)
  | .taskReserved toolCallId itemCount requests =>
    [("toolCallId", .string toolCallId), ("itemCount", .nat itemCount),
      ("requests", .array (requests.map encodeRequest))]
  | .taskIdentitiesBound toolCallId bindings =>
    [("toolCallId", .string toolCallId), ("bindings", .array (bindings.map encodeBinding))]
  | .taskControlAuthorized toolCallId control taskGeneration inputKey targets =>
    [("toolCallId", .string toolCallId), ("control", .string control.text),
      ("taskGeneration", .nat taskGeneration), ("inputKey", .string inputKey),
      ("targets", encodeTargets targets)]
  | .taskReceiptObserved toolCallId receipt =>
    [("toolCallId", .string toolCallId), ("receipt", encodeReceipt receipt)]
  | .asyncCapabilityObserved toolCallId taskGeneration status reason =>
    [("toolCallId", .string toolCallId), ("taskGeneration", .nat taskGeneration),
      ("status", .string status.text), ("reason", .string reason)]

/-- A fact with its members in the order of its schema. -/
def encodeFact (fact : TaskFact) : Json :=
  .object (("kind", .string (factKindText fact.kind)) :: factFields fact)

def encodeEntry (entry : TaskLedgerEntry) (fact : Json) : Json := .object
  [("sequence", .nat entry.sequence), ("ownerSessionId", .string entry.ownerSessionId),
    ("ownerEpoch", .nat entry.ownerEpoch), ("fact", fact)]

def encodeTaskLedgerVersion : TaskLedgerVersion → ℕ × List (String × Json)
  | .v1 => (1, [])
  | .v2 packetHash tier reservationId =>
    (2, [("packetHash", encodeNullableString packetHash),
      ("tier", Json.nullable (tier.map fun tier ↦ .string tier.text)),
      ("reservationId", encodeNullableString reservationId)])

/-- `{ ...ledger, ledgerRevision, entries }`. -/
def ledgerJson (ledger : PersistedTaskLedger) (entries : List Json) : Json :=
  let (schemaVersion, members) := encodeTaskLedgerVersion ledger.version
  .object ([("schemaVersion", .nat schemaVersion), ("runId", .string ledger.runId),
    ("ledgerRevision", .nat entries.length), ("entries", .array entries)] ++ members)

/-! The schemas on these texts. -/

theorem someOf_reads {α : Type} {schema : Schema α} {encode : α → Json} {ok : α → Prop} {tidy : α → α}
    (h : Reads schema encode ok tidy) : Reads (someOf schema) (fun items ↦ .array (items.map encode))
      (fun items ↦ (∀ x ∈ items, ok x) ∧ items ≠ []) (List.map tidy) :=
  (h.array.refine _).of_iff (by simp)

theorem nullableNonempty_reads : Reads nonempty.nullable encodeNullableString
    (fun o ↦ ∀ s ∈ o, trim s ≠ "") (Option.map trim) :=
  nonempty_reads.nullable (by simp)

theorem nullableHash_reads : Reads State.hashSchema.nullable encodeNullableString
    (fun o ↦ ∀ s ∈ o, isLowerHexOf 64 s = true) (Option.map id) :=
  hash_reads.nullable (by simp)

theorem jobStatus_reads : Reads (oneOf [.running, .completed, .failed, .cancelled] JobStatus.text)
    (fun x ↦ .string x.text) (fun _ ↦ True) id :=
  oneOf_reads fun x ↦ by cases x <;> rfl

theorem ircOutcome_reads : Reads (oneOf [.injected, .woken, .revived, .failed] IrcOutcome.text)
    (fun x ↦ .string x.text) (fun _ ↦ True) id :=
  oneOf_reads fun x ↦ by cases x <;> rfl

theorem control_reads : Reads (oneOf [.jobSnapshot, .jobCancel, .ircSend, .ircTarget] TaskControl.text)
    (fun x ↦ .string x.text) (fun _ ↦ True) id :=
  oneOf_reads fun x ↦ by cases x <;> rfl

theorem capabilityStatus_reads : Reads (oneOf [.proven, .blocked] CapabilityStatus.text)
    (fun x ↦ .string x.text) (fun _ ↦ True) id :=
  oneOf_reads fun x ↦ by cases x <;> rfl

theorem factKind_reads : Reads factKindSchema (fun x ↦ .string (factKindText x)) (fun _ ↦ True) id :=
  oneOf_reads fun x ↦ by cases x <;> rfl

theorem targets_reads : Reads nonempty.array encodeTargets (fun targets ↦ ∀ s ∈ targets, trim s ≠ "")
    (List.map trim) :=
  nonempty_reads.array

namespace TaskRequest

@[mk_iff] structure Ok (request : TaskRequest) : Prop where
  canonicalInputHash : ∀ s ∈ request.canonicalInputHash, isLowerHexOf 64 s = true
  itemIndex : request.itemIndex ≤ maxSafeInteger
  requestedName : ∀ s ∈ request.requestedName, trim s ≠ ""
  agentType : ∀ s ∈ request.agentType, trim s ≠ ""

def tidy (request : TaskRequest) : TaskRequest :=
  { request with
    requestedName := request.requestedName.map trim
    agentType := request.agentType.map trim }

theorem reads : Reads requestSchema encodeRequest Ok tidy where
  encoded x y := by
    rw [requestSchema, encodeRequest, strictObject_object, List.forall_mem_append, keys_optional]
    simp [required, Schema.optional, Option.bind_eq_some_iff, hash_reads.ifPresent_iff,
      counter_reads.encoded, nullableNonempty_reads.encoded, and_assoc, ok_iff, tidy]
  settled j y hy := by
    obtain ⟨fields, -, hy⟩ := strictObject_eq_some hy
    simp only [Option.bind_eq_bind, Option.bind_eq_some_iff, Option.pure_def, Option.some.injEq] at hy
    obtain ⟨hash, hhash, index, hindex, name, hname, agent, hagent, rfl⟩ := hy
    have hhash := hash_reads.optional_settled hhash
    have hindex := counter_reads.required_settled hindex
    have hname := nullableNonempty_reads.required_settled hname
    have hagent := nullableNonempty_reads.required_settled hagent
    exact ⟨⟨hhash.1, hindex.1, hname.1, hagent.1⟩, by simp [tidy, hname.2, hagent.2]⟩

end TaskRequest

namespace TaskReceipt

/-- The job or the agent that a receipt is about. -/
def target : TaskReceipt → String
  | .job jobId _ | .jobCancel jobId => jobId
  | .irc agentId _ => agentId

def Ok (receipt : TaskReceipt) : Prop :=
  trim receipt.target ≠ "" ∧ utf16Length (trim receipt.target) ≤ 160

def tidy : TaskReceipt → TaskReceipt
  | .job jobId status => .job (trim jobId) status
  | .jobCancel jobId => .jobCancel (trim jobId)
  | .irc agentId outcome => .irc (trim agentId) outcome

theorem reads : Reads receiptSchema encodeReceipt Ok tidy where
  encoded x y := by
    cases x <;>
      simp [receiptSchema, union, jobReceiptSchema, jobCancelReceiptSchema, ircReceiptSchema,
        encodeReceipt, strictObject, required, literal, jobIdSchema, agentIdSchema, Ok, target, tidy,
        Option.bind_eq_some_iff, runtimeId_reads.encoded, jobStatus_reads.encoded,
        ircOutcome_reads.encoded, and_assoc]
  settled j y hy := by
    obtain hjob | ⟨-, hother⟩ := Option.or_eq_some_iff.mp hy
    · obtain ⟨fields, -, hjob⟩ := strictObject_eq_some hjob
      simp only [Option.bind_eq_bind, Option.bind_eq_some_iff, Option.pure_def,
        Option.some.injEq] at hjob
      obtain ⟨_, -, jobId, hid, status, -, rfl⟩ := hjob
      have hid := runtimeId_reads.required_settled hid
      exact ⟨hid.1, by rw [tidy, hid.2]⟩
    obtain hcancel | ⟨-, hirc⟩ := Option.or_eq_some_iff.mp hother
    · obtain ⟨fields, -, hcancel⟩ := strictObject_eq_some hcancel
      simp only [Option.bind_eq_bind, Option.bind_eq_some_iff, Option.pure_def,
        Option.some.injEq] at hcancel
      obtain ⟨_, -, jobId, hid, _, -, rfl⟩ := hcancel
      have hid := runtimeId_reads.required_settled hid
      exact ⟨hid.1, by rw [tidy, hid.2]⟩
    · obtain ⟨fields, -, hirc⟩ := strictObject_eq_some hirc
      simp only [Option.bind_eq_bind, Option.bind_eq_some_iff, Option.pure_def,
        Option.some.injEq] at hirc
      obtain ⟨_, -, agentId, hid, outcome, -, rfl⟩ := hirc
      have hid := runtimeId_reads.required_settled hid
      exact ⟨hid.1, by rw [tidy, hid.2]⟩

end TaskReceipt

theorem reservationMatches_tidy (itemCount : ℕ) (requests : List TaskRequest) :
    reservationMatches itemCount (requests.map TaskRequest.tidy) = reservationMatches itemCount requests := by
  have hindexes : (requests.map TaskRequest.tidy).map (·.itemIndex) = requests.map (·.itemIndex) := by
    rw [List.map_map]
    rfl
  rw [reservationMatches, reservationMatches, List.length_map, hindexes]

namespace TaskFact

def FieldsOk : TaskFact → Prop
  | .taskReserved _ itemCount requests =>
    (itemCount ≤ maxSafeInteger ∧ 0 < itemCount) ∧
      ((∀ request ∈ requests, request.Ok) ∧ requests ≠ []) ∧ reservationMatches itemCount requests = true
  | .taskIdentitiesBound _ bindings => (∀ binding ∈ bindings, binding.Ok) ∧ bindings ≠ []
  | .taskControlAuthorized _ _ taskGeneration inputKey targets =>
    (taskGeneration ≤ maxSafeInteger ∧ 0 < taskGeneration) ∧ trim inputKey ≠ "" ∧
      ∀ s ∈ targets, trim s ≠ ""
  | .taskReceiptObserved _ receipt => receipt.Ok
  | .asyncCapabilityObserved _ taskGeneration _ reason =>
    (taskGeneration ≤ maxSafeInteger ∧ 0 < taskGeneration) ∧ trim reason ≠ ""

def Ok (fact : TaskFact) : Prop :=
  (trim fact.toolCallId ≠ "" ∧ utf16Length (trim fact.toolCallId) ≤ 160) ∧ fact.FieldsOk

def tidy : TaskFact → TaskFact
  | .taskReserved toolCallId itemCount requests =>
    .taskReserved (trim toolCallId) itemCount (requests.map TaskRequest.tidy)
  | .taskIdentitiesBound toolCallId bindings =>
    .taskIdentitiesBound (trim toolCallId) (bindings.map RuntimeIdentityBinding.tidy)
  | .taskControlAuthorized toolCallId control taskGeneration inputKey targets =>
    .taskControlAuthorized (trim toolCallId) control taskGeneration (trim inputKey) (targets.map trim)
  | .taskReceiptObserved toolCallId receipt => .taskReceiptObserved (trim toolCallId) receipt.tidy
  | .asyncCapabilityObserved toolCallId taskGeneration status reason =>
    .asyncCapabilityObserved (trim toolCallId) taskGeneration status (trim reason)

theorem factBody_encoded (x y : TaskFact) (k : Json) :
    factBody (("kind", k) :: factFields x) x.kind = some y ↔ x.Ok ∧ x.tidy = y := by
  cases x <;>
    simp [factBody, factFields, kind, required, Option.bind_eq_some_iff, toolCallIdSchema,
      runtimeId_reads.encoded, positiveCounter_reads.encoded, (someOf_reads TaskRequest.reads).encoded,
      (someOf_reads RuntimeIdentityBinding.reads).encoded, control_reads.encoded,
      nonempty_reads.encoded, targets_reads.encoded, TaskReceipt.reads.encoded,
      capabilityStatus_reads.encoded, reservationMatches_tidy, Option.ite_none_right_eq_some, Ok,
      FieldsOk, toolCallId, tidy, and_assoc]

theorem factBody_settled {fields : List (String × Json)} {kind : State.TaskFactKind} {y : TaskFact}
    (hy : factBody fields kind = some y) : y.kind = kind ∧ y.Ok ∧ y.tidy = y := by
  cases kind <;>
    simp only [factBody, Option.bind_eq_bind, Option.bind_eq_some_iff, Option.pure_def,
      Option.some.injEq, Option.ite_none_right_eq_some] at hy
  case taskReserved =>
    obtain ⟨toolCallId, hcall, itemCount, hcount, requests, hrequests, hmatches, rfl⟩ := hy
    have hcall := runtimeId_reads.required_settled hcall
    have hcount := positiveCounter_reads.required_settled hcount
    have hrequests := (someOf_reads TaskRequest.reads).required_settled hrequests
    exact ⟨rfl, ⟨hcall.1, hcount.1, hrequests.1, hmatches⟩, by rw [tidy, hcall.2, hrequests.2]⟩
  case taskIdentitiesBound =>
    obtain ⟨toolCallId, hcall, bindings, hbindings, rfl⟩ := hy
    have hcall := runtimeId_reads.required_settled hcall
    have hbindings := (someOf_reads RuntimeIdentityBinding.reads).required_settled hbindings
    exact ⟨rfl, ⟨hcall.1, hbindings.1⟩, by rw [tidy, hcall.2, hbindings.2]⟩
  case taskControlAuthorized =>
    obtain ⟨toolCallId, hcall, control, -, taskGeneration, hgeneration, inputKey, hkey, targets,
      htargets, rfl⟩ := hy
    have hcall := runtimeId_reads.required_settled hcall
    have hgeneration := positiveCounter_reads.required_settled hgeneration
    have hkey := nonempty_reads.required_settled hkey
    have htargets := targets_reads.required_settled htargets
    exact ⟨rfl, ⟨hcall.1, hgeneration.1, hkey.1, htargets.1⟩,
      by rw [tidy, hcall.2, hkey.2, htargets.2]⟩
  case taskReceiptObserved =>
    obtain ⟨toolCallId, hcall, receipt, hreceipt, rfl⟩ := hy
    have hcall := runtimeId_reads.required_settled hcall
    have hreceipt := TaskReceipt.reads.required_settled hreceipt
    exact ⟨rfl, ⟨hcall.1, hreceipt.1⟩, by rw [tidy, hcall.2, hreceipt.2]⟩
  case asyncCapabilityObserved =>
    obtain ⟨toolCallId, hcall, taskGeneration, hgeneration, status, -, reason, hreason, rfl⟩ := hy
    have hcall := runtimeId_reads.required_settled hcall
    have hgeneration := positiveCounter_reads.required_settled hgeneration
    have hreason := nonempty_reads.required_settled hreason
    exact ⟨rfl, ⟨hcall.1, hgeneration.1, hreason.1⟩, by rw [tidy, hcall.2, hreason.2]⟩

theorem factFields_listed (fact : TaskFact) : Listed (factKeys fact.kind) (factFields fact) := by
  cases fact <;> simp [Listed, factKeys, factFields, kind]

theorem reads : Reads factSchema encodeFact Ok tidy where
  encoded x y := by
    have hkind : ((encodeFact x).get? "kind").bind factKindSchema = some x.kind := by
      simp [encodeFact, Json.get?, factKind_reads.encoded]
    have hlisted : ∀ f ∈ ("kind", Json.string (factKindText x.kind)) :: factFields x,
        f.1 ∈ "kind" :: factKeys x.kind :=
      List.forall_mem_cons.mpr ⟨List.mem_cons_self, fun f hf ↦
        List.mem_cons_of_mem _ (factFields_listed x f hf)⟩
    rw [factSchema, hkind, Option.bind_eq_bind, Option.bind_some, encodeFact, strictObject_object,
      and_iff_right hlisted]
    exact factBody_encoded x y _
  settled j y hy := by
    obtain ⟨kind, -, hy⟩ := Option.bind_eq_some_iff.mp hy
    obtain ⟨fields, -, hy⟩ := strictObject_eq_some hy
    exact (factBody_settled hy).2

end TaskFact

namespace TaskLedgerEntry

@[mk_iff] structure Ok (entry : TaskLedgerEntry) : Prop where
  sequence : entry.sequence ≤ maxSafeInteger ∧ 0 < entry.sequence
  ownerSessionId : trim entry.ownerSessionId ≠ ""
  ownerEpoch : entry.ownerEpoch ≤ maxSafeInteger
  fact : entry.fact.Ok

def tidy (entry : TaskLedgerEntry) : TaskLedgerEntry :=
  { entry with
    ownerSessionId := trim entry.ownerSessionId
    fact := entry.fact.tidy }

theorem reads : Reads taskLedgerEntrySchema (fun entry ↦ encodeEntry entry (encodeFact entry.fact))
    Ok tidy where
  encoded x y := by
    simp [taskLedgerEntrySchema, encodeEntry, strictObject_object, required, Option.bind_eq_some_iff,
      positiveCounter_reads.encoded, nonempty_reads.encoded, counter_reads.encoded,
      TaskFact.reads.encoded, and_assoc, ok_iff, tidy]
  settled j y hy := by
    obtain ⟨fields, -, hy⟩ := strictObject_eq_some hy
    simp only [Option.bind_eq_bind, Option.bind_eq_some_iff, Option.pure_def, Option.some.injEq] at hy
    obtain ⟨sequence, hsequence, session, hsession, epoch, hepoch, fact, hfact, rfl⟩ := hy
    have hsequence := positiveCounter_reads.required_settled hsequence
    have hsession := nonempty_reads.required_settled hsession
    have hepoch := counter_reads.required_settled hepoch
    have hfact := TaskFact.reads.required_settled hfact
    exact ⟨⟨hsequence.1, hsession.1, hepoch.1, hfact.1⟩, by simp [tidy, hsession.2, hfact.2]⟩

/-- An entry is read with whatever its fact is read as. -/
theorem written_iff {sequence epoch : ℕ} {session : String} {fact : TaskFact} {json : Json}
    {y : TaskLedgerEntry} (hsession : Trimmed session) :
    taskLedgerEntrySchema (encodeEntry ⟨sequence, session, epoch, fact⟩ json) = some y ↔
      (sequence ≤ maxSafeInteger ∧ 0 < sequence) ∧ epoch ≤ maxSafeInteger ∧
        ∃ read, factSchema json = some read ∧ ⟨sequence, session, epoch, read⟩ = y := by
  obtain ⟨htrim, hne⟩ := hsession
  simp [taskLedgerEntrySchema, encodeEntry, strictObject_object, required, Option.bind_eq_some_iff,
    positiveCounter_reads.encoded, nonempty_reads.encoded, counter_reads.encoded, htrim, hne, and_assoc]

end TaskLedgerEntry

/-! The text of a fact determines the fact. -/

theorem encodeNullableString_injective : Function.Injective encodeNullableString := by
  rintro (- | s) (- | t) h <;> simp_all [encodeNullableString, Json.nullable]

theorem encodeRequest_injective : Function.Injective encodeRequest := by
  rintro ⟨hash, index, name, agent⟩ ⟨hash', index', name', agent'⟩ h
  cases hash <;> cases hash' <;>
    simp_all [encodeRequest, Json.optional, Json.nat_injective.eq_iff,
      encodeNullableString_injective.eq_iff]

theorem encodeBinding_injective : Function.Injective encodeBinding := by
  rintro ⟨index, agent, job⟩ ⟨index', agent', job'⟩ h
  simp_all [encodeBinding, Json.nat_injective.eq_iff, encodeNullableString_injective.eq_iff]

theorem jobStatus_text_injective : Function.Injective JobStatus.text :=
  fun _ _ h ↦ jobStatus_reads.inj trivial trivial (congrArg Json.string h)

theorem ircOutcome_text_injective : Function.Injective IrcOutcome.text :=
  fun _ _ h ↦ ircOutcome_reads.inj trivial trivial (congrArg Json.string h)

theorem control_text_injective : Function.Injective TaskControl.text :=
  fun _ _ h ↦ control_reads.inj trivial trivial (congrArg Json.string h)

theorem capabilityStatus_text_injective : Function.Injective CapabilityStatus.text :=
  fun _ _ h ↦ capabilityStatus_reads.inj trivial trivial (congrArg Json.string h)

theorem encodeReceipt_injective : Function.Injective encodeReceipt := by
  intro receipt receipt' h
  cases receipt <;> cases receipt' <;>
    simp_all [encodeReceipt, jobStatus_text_injective.eq_iff, ircOutcome_text_injective.eq_iff]

theorem encodeFact_injective : Function.Injective encodeFact := by
  intro fact fact' h
  cases fact <;> cases fact' <;>
    simp_all [encodeFact, factFields, TaskFact.kind, factKindText, encodeTargets, Json.nat_injective.eq_iff,
      (List.map_injective_iff.mpr encodeRequest_injective).eq_iff,
      (List.map_injective_iff.mpr encodeBinding_injective).eq_iff,
      (List.map_injective_iff.mpr fun _ _ ↦ Json.string.inj).eq_iff, encodeReceipt_injective.eq_iff,
      control_text_injective.eq_iff, capabilityStatus_text_injective.eq_iff]

/-! The ledger. -/

/-- The schema of the version that a ledger has. -/
def persistedSchema : TaskLedgerVersion → Schema PersistedTaskLedger
  | .v1 => taskLedgerSchema
  | .v2 .. => taskLedgerV2Schema

/-- `JSON.stringify(ledger)`. -/
def encodeTaskLedger (ledger : PersistedTaskLedger) : Json :=
  ledgerJson ledger (ledger.entries.map fun entry ↦ encodeEntry entry (encodeFact entry.fact))

def TaskLedgerVersion.Settled : TaskLedgerVersion → Prop
  | .v1 => True
  | .v2 packetHash _ reservationId =>
    (∀ s ∈ packetHash, isLowerHexOf 64 s = true) ∧ ∀ s ∈ reservationId, Trimmed s

namespace PersistedTaskLedger

/-- A ledger as its schema returns it. -/
structure Settled (ledger : PersistedTaskLedger) : Prop where
  version : ledger.version.Settled
  runId : isUuid ledger.runId = true
  revision : ledger.ledgerRevision ≤ maxSafeInteger
  entries : ∀ entry ∈ ledger.entries, entry.Ok ∧ entry.tidy = entry
  ordered : ledgerIsOrdered ledger = true

theorem fields_settled {fields : List (String × Json)} {version : TaskLedgerVersion}
    {ledger : PersistedTaskLedger} (h : taskLedgerFields fields version = some ledger)
    (hversion : version.Settled) (hordered : ledgerIsOrdered ledger = true) : ledger.Settled := by
  simp only [taskLedgerFields, Option.bind_eq_bind, Option.bind_eq_some_iff, Option.pure_def,
    Option.some.injEq] at h
  obtain ⟨runId, hrun, revision, hrevision, entries, hentries, rfl⟩ := h
  have hentries := TaskLedgerEntry.reads.array.required_settled hentries
  refine ⟨hversion, (uuid_reads.required_settled hrun).1, (counter_reads.required_settled hrevision).1,
    fun entry hentry ↦ ⟨hentries.1 entry hentry, ?_⟩, hordered⟩
  exact List.map_inj_left.mp (hentries.2.trans (List.map_id _).symm) entry hentry

theorem v1_settled {json : Json} {ledger : PersistedTaskLedger} (h : taskLedgerSchema json = some ledger) :
    ledger.version = .v1 ∧ ledger.Settled := by
  obtain ⟨h, hordered⟩ := Option.filter_eq_some_iff.mp h
  obtain ⟨fields, -, hbody⟩ := strictObject_eq_some h
  obtain ⟨_, -, hbody⟩ := Option.bind_eq_some_iff.mp hbody
  refine ⟨?_, fields_settled hbody trivial hordered⟩
  simp only [taskLedgerFields, Option.bind_eq_bind, Option.bind_eq_some_iff, Option.pure_def,
    Option.some.injEq] at hbody
  obtain ⟨_, -, _, -, _, -, rfl⟩ := hbody
  rfl

theorem v2_settled {json : Json} {ledger : PersistedTaskLedger} (h : taskLedgerV2Schema json = some ledger) :
    (∃ packetHash tier reservationId, ledger.version = .v2 packetHash tier reservationId) ∧
      ledger.Settled := by
  obtain ⟨h, hordered⟩ := Option.filter_eq_some_iff.mp h
  obtain ⟨fields, -, hbody⟩ := strictObject_eq_some h
  obtain ⟨_, -, hbody⟩ := Option.bind_eq_some_iff.mp hbody
  obtain ⟨packetHash, hpacket, hbody⟩ := Option.bind_eq_some_iff.mp hbody
  obtain ⟨tier, -, hbody⟩ := Option.bind_eq_some_iff.mp hbody
  obtain ⟨reservationId, hreservation, hbody⟩ := Option.bind_eq_some_iff.mp hbody
  have hpacket := nullableHash_reads.required_settled hpacket
  have hreservation := nullableNonempty_reads.required_settled hreservation
  have hversion : (TaskLedgerVersion.v2 packetHash tier reservationId).Settled := by
    refine ⟨hpacket.1, fun s hs ↦ ?_⟩
    obtain rfl : reservationId = some s := hs
    have htrim : trim s = s := Option.some.inj hreservation.2
    exact ⟨htrim, htrim ▸ hreservation.1 s rfl⟩
  refine ⟨?_, fields_settled hbody hversion hordered⟩
  simp only [taskLedgerFields, Option.bind_eq_bind, Option.bind_eq_some_iff, Option.pure_def,
    Option.some.injEq] at hbody
  obtain ⟨_, -, _, -, _, -, rfl⟩ := hbody
  exact ⟨packetHash, tier, reservationId, rfl⟩

/-- A ledger that was read is as its schema returns it. -/
theorem read_settled {json : Json} {ledger : PersistedTaskLedger} (h : readTaskLedger json = some ledger) :
    ledger.Settled := by
  obtain h | ⟨-, h⟩ := Option.or_eq_some_iff.mp h
  · exact (v2_settled h).2
  · exact (v1_settled h).2

/-- The schema of a version sees the entries of the text that was written for it. -/
theorem written_iff {ledger y : PersistedTaskLedger} {js : List Json} (hversion : ledger.version.Settled) :
    persistedSchema ledger.version (ledgerJson ledger js) = some y ↔
      isUuid ledger.runId = true ∧ js.length ≤ maxSafeInteger ∧ ∃ entries, items taskLedgerEntrySchema js = some entries ∧
        ledgerIsOrdered { ledger with ledgerRevision := js.length, entries } = true ∧
          { ledger with ledgerRevision := js.length, entries } = y := by
  obtain ⟨version, runId, revision, entries⟩ := ledger
  have hcomm : ∀ {P : List TaskLedgerEntry → Prop} {f : List TaskLedgerEntry → PersistedTaskLedger},
      ((∃ entries, P entries ∧ f entries = y) ∧ ledgerIsOrdered y = true) ↔
        ∃ entries, P entries ∧ ledgerIsOrdered (f entries) = true ∧ f entries = y := by
    intro P f
    constructor
    · rintro ⟨⟨entries, hentries, rfl⟩, hordered⟩
      exact ⟨entries, hentries, hordered, rfl⟩
    · rintro ⟨entries, hentries, hordered, rfl⟩
      exact ⟨⟨entries, hentries, rfl⟩, hordered⟩
  cases version with
  | v1 =>
    simp [persistedSchema, taskLedgerSchema, Schema.refine, Option.filter_eq_some_iff, ledgerJson,
      encodeTaskLedgerVersion, strictObject_object, taskLedgerKeys, taskLedgerFields, required, literal,
      Option.bind_eq_some_iff, uuid_reads.encoded, counter_reads.encoded, array, and_assoc, hcomm]
  | v2 packetHash tier reservationId =>
    obtain ⟨hpacket, hreservation⟩ := hversion
    have hhash := (nullableHash_reads.fixed_iff packetHash).mpr ⟨hpacket, congrFun Option.map_id _⟩
    have htier : (oneOf [Tier.fast, .standard, .deep] Tier.text).nullable
        (Json.nullable (tier.map fun tier ↦ .string tier.text)) = some tier := by
      rcases tier with - | - | - | - <;> rfl
    have hid : nonempty.nullable (encodeNullableString reservationId) = some reservationId := by
      refine (nullableNonempty_reads.fixed_iff reservationId).mpr ⟨fun s hs ↦ ?_, ?_⟩
      · rw [(hreservation s hs).1]
        exact (hreservation s hs).2
      · cases reservationId with
        | none => rfl
        | some s => exact congrArg some (hreservation s rfl).1
    simp [persistedSchema, taskLedgerV2Schema, Schema.refine, Option.filter_eq_some_iff, ledgerJson,
      encodeTaskLedgerVersion, strictObject_object, taskLedgerKeys, taskLedgerFields, required, literal,
      Option.bind_eq_some_iff, uuid_reads.encoded, counter_reads.encoded, array, hhash, htier, hid,
      and_assoc, hcomm]

/-- What is written for a version is read by its schema. -/
theorem read_ledgerJson (ledger : PersistedTaskLedger) (js : List Json) :
    readTaskLedger (ledgerJson ledger js) = persistedSchema ledger.version (ledgerJson ledger js) := by
  obtain ⟨version, runId, revision, entries⟩ := ledger
  cases version with
  | v1 =>
    have hnone : taskLedgerV2Schema (ledgerJson ⟨.v1, runId, revision, entries⟩ js) = none := by
      simp [taskLedgerV2Schema, Schema.refine, ledgerJson, encodeTaskLedgerVersion, strictObject,
        required, literal, Json.nat]
    rw [readTaskLedger, hnone, Option.none_or, persistedSchema]
  | v2 packetHash tier reservationId =>
    have hnone : taskLedgerSchema (ledgerJson ⟨.v2 packetHash tier reservationId, runId, revision,
        entries⟩ js) = none := by
      simp [taskLedgerSchema, Schema.refine, ledgerJson, encodeTaskLedgerVersion, strictObject,
        taskLedgerKeys]
    rw [readTaskLedger, hnone, Option.or_none, persistedSchema]

/-- A settled ledger is read back from its own text. -/
theorem Settled.reread {ledger : PersistedTaskLedger} (h : ledger.Settled) :
    readTaskLedger (encodeTaskLedger ledger) = some ledger := by
  have hentries := array_reread fun entry hentry ↦
    (TaskLedgerEntry.reads.fixed_iff entry).mpr (h.entries entry hentry)
  have hordered := h.ordered
  have hlength : ledger.ledgerRevision = ledger.entries.length := by
    simp only [ledgerIsOrdered, Bool.and_eq_true, decide_eq_true_eq] at hordered
    exact hordered.1.1
  rw [encodeTaskLedger, read_ledgerJson]
  refine (written_iff h.version).mpr ⟨h.runId, ?_⟩
  rw [List.length_map, ← hlength]
  exact ⟨h.revision, ledger.entries, hentries, hordered, rfl⟩

end PersistedTaskLedger

end OmpLazy.Gates

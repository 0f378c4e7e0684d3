import OmpLazy.Contracts.AcceptDispatch
import OmpLazy.Contracts.AcceptanceStoreLaws
import OmpLazy.Foundation.Keys
import OmpLazy.Foundation.Runs
import OmpLazy.State.RejectionBudget

/-! Calls that accept or reject the results of workers, in any order, and the rejections that they count. -/

namespace OmpLazy.Contracts

open OmpLazy.Foundation OmpLazy.Foundation.Schema OmpLazy.Foundation.Text OmpLazy.Gates
open OmpLazy.State (Uuid AnyRun FormatVersion WalFormat RejectionStatus uuidSchema uuid_reads)

/-! The key of a scope. -/

section Keys

theorem append_separator_inj {α : Type} {a : α} {xs xs' ys ys' : List α} (hys : a ∉ ys) (hys' : a ∉ ys')
    (h : xs ++ [a] ++ ys = xs' ++ [a] ++ ys') : xs = xs' ∧ ys = ys' := by
  rw [List.append_assoc, List.append_assoc, List.append_eq_append_iff] at h
  obtain ⟨between, rfl, htail⟩ | ⟨between, rfl, htail⟩ := h
  all_goals
    cases between with
    | nil => simp_all
    | cons b between =>
      rw [List.singleton_append, List.cons_append, List.singleton_append] at htail
      obtain ⟨rfl, htail⟩ := List.cons.inj htail
      simp_all

theorem separator_not_mem_toString (n : ℕ) : '\x00' ∉ (toString n).toList := by
  intro h
  rw [Nat.toString_eq_ofList_toDigits, String.toList_ofList] at h
  exact absurd (Nat.isDigit_of_mem_toDigits (by decide) (by decide) h) (by decide)

theorem separator_not_mem_role (role : WorkerRole) : '\x00' ∉ role.text.toList := by
  cases role <;> decide

/-- A key tells the task, since what comes after it has no separator in it. -/
theorem rejectionKey_taskId {entry entry' : RejectionEntryV2} (hid : entry.entry.runId.toList.length = 36)
    (hid' : entry'.entry.runId.toList.length = 36) (h : rejectionKey entry = rejectionKey entry') :
    entry.scope.taskId = entry'.scope.taskId := by
  have hseparator : "\x00".toList = ['\x00'] := rfl
  have hchars := congrArg String.toList h
  simp only [rejectionKey, String.toList_append, hseparator] at hchars
  obtain ⟨hchars, -⟩ := append_separator_inj (separator_not_mem_toString _) (separator_not_mem_toString _) hchars
  obtain ⟨hchars, -⟩ := append_separator_inj (separator_not_mem_role _) (separator_not_mem_role _) hchars
  obtain ⟨hchars, -⟩ := append_separator_inj (separator_not_mem_toString _) (separator_not_mem_toString _) hchars
  rw [List.append_assoc, List.append_assoc] at hchars
  have htasks := List.append_inj_right hchars (hid.trans hid'.symm)
  exact String.toList_injective (List.append_cancel_left htasks)

end Keys

/-! Entries and ledgers that their schemas leave as they are. -/

namespace RejectionEntryV2

structure Settled (entry : RejectionEntryV2) : Prop where
  ok : entry.entry.Ok
  tidy : entry.entry.tidy = entry.entry
  scope : entry.scope.Settled

variable {x entry : RejectionEntryV2} {json : Json}

theorem settled_of_read (h : rejectionEntryV2Schema json = some entry) : entry.Settled := by
  obtain ⟨fields, rfl, hbody⟩ := strictObject_eq_some h
  simp only [Option.bind_eq_bind, Option.bind_eq_some_iff, Option.pure_def, Option.some.injEq] at hbody
  obtain ⟨first, hfirst, scope, hscope, rfl⟩ := hbody
  obtain ⟨hok, htidy⟩ := RejectionEntry.fields_settled hfirst
  obtain ⟨hscopeOk, hscopeTidy⟩ := SemanticScope.fields_settled hscope
  exact ⟨hok, htidy, hscopeOk, hscopeTidy⟩

theorem read_encoded (h : rejectionEntryV2Schema (encodeRejectionEntryV2 x) = some entry) :
    x.entry.tidy = entry.entry ∧ x.scope.tidy = entry.scope := by
  have hentryFields : SameOn rejectionKeys (encodeRejection x.entry ++ encodeScope x.scope)
      (encodeRejection x.entry) := .append_left x.scope.encode_listed (by decide)
  have hscopeFields : SameOn scopeKeys (encodeRejection x.entry ++ encodeScope x.scope) (encodeScope x.scope) :=
    .append_right x.entry.encode_listed (by decide)
  have hbody := (strictObject_object.mp h).2
  simp only [Option.bind_eq_bind, Option.bind_eq_some_iff, Option.pure_def, Option.some.injEq] at hbody
  obtain ⟨first, hfirst, scope, hscope, rfl⟩ := hbody
  have hread : rejectionFields (encodeRejection x.entry) = some first := by
    rw [← hfirst]
    simp (disch := decide) only [rejectionFields, hentryFields.required]
  have hreadScope : scopeFields (encodeScope x.scope) = some scope := by
    rw [← hscope]
    simp (disch := decide) only [scopeFields, hscopeFields.required]
  exact ⟨((RejectionEntry.fields_encoded _ _).mp hread).2, ((SemanticScope.fields_encoded _ _).mp hreadScope).2⟩

end RejectionEntryV2

section Ledgers

variable {ledger updated : RejectionLedger RejectionEntryV2} {json : Json}

theorem rejectionLedgerV2_settled (h : rejectionLedgerV2Schema json = some ledger) :
    (∀ entry ∈ ledger.entries, entry.Settled) ∧ (ledger.entries.map rejectionKey).Nodup := by
  obtain ⟨hparsed, hmatches⟩ := Option.filter_eq_some_iff.mp h
  obtain ⟨fields, rfl, hbody⟩ := strictObject_eq_some hparsed
  simp only [Option.bind_eq_bind, Option.bind_eq_some_iff, rejectionLedgerFields, Option.pure_def,
    Option.some.injEq] at hbody
  obtain ⟨-, -, runId, -, entries, hentries, rfl⟩ := hbody
  obtain ⟨json, -, harray⟩ := required_eq_some.mp hentries
  obtain ⟨items, rfl, hitems⟩ := array_eq_some harray
  rw [identityMatches, Bool.and_eq_true, decide_eq_true_eq] at hmatches
  refine ⟨?_, hmatches.2⟩
  intro entry hentry
  obtain ⟨item, -, hitem⟩ := exists_of_forall₂ hitems hentry
  exact RejectionEntryV2.settled_of_read hitem

theorem rejectionLedgerV2_encoded (hsettled : ∀ entry ∈ ledger.entries, entry.Settled)
    (h : rejectionLedgerV2Schema (encodeRejectionLedger 2 encodeRejectionEntryV2 ledger) = some updated) :
    updated = ledger := by
  obtain ⟨hparsed, -⟩ := Option.filter_eq_some_iff.mp h
  have hbody := (strictObject_object.mp hparsed).2
  have hreread : rejectionEntryV2Schema.array (.array (ledger.entries.map encodeRejectionEntryV2)) =
      some ledger.entries :=
    array_reread fun entry hentry ↦
      RejectionEntryV2.reread (hsettled entry hentry).ok (hsettled entry hentry).tidy (hsettled entry hentry).scope
  simp only [Option.bind_eq_bind, Option.bind_eq_some_iff, rejectionLedgerFields, Option.pure_def,
    Option.some.injEq] at hbody
  obtain ⟨-, -, runId, hrun, entries, hentries, rfl⟩ := hbody
  have hrun' : uuidSchema (.string ledger.runId) = some runId := by simpa [required] using hrun
  have hentries' : rejectionEntryV2Schema.array (.array (ledger.entries.map encodeRejectionEntryV2)) =
      some entries := by simpa [required] using hentries
  rw [← ((uuid_reads.encoded _ _).mp hrun').2, ← Option.some.inj (hreread.symm.trans hentries')]
  rfl

/-- The rejections under a key. -/
def countUnder (key : String) (ledger : RejectionLedger RejectionEntryV2) : ℕ :=
  ((ledger.entries.find? (rejectionKey · = key)).map (·.entry.count)).getD 0

/-- A ledger whose entries, each under its own key, wait for the parent exactly at three rejections. -/
structure Sound (ledger : RejectionLedger RejectionEntryV2) : Prop where
  settled : ∀ entry ∈ ledger.entries, entry.Settled
  distinct : (ledger.entries.map rejectionKey).Nodup
  statuses : ∀ entry ∈ ledger.entries, entry.entry.status = .needsParentDecision ↔ entry.entry.count = 3

theorem Sound.count_le (h : Sound ledger) (key : String) : countUnder key ledger ≤ 3 := by
  rw [countUnder]
  cases hfound : ledger.entries.find? (rejectionKey · = key) with
  | none => exact Nat.zero_le _
  | some entry => exact (h.settled entry (List.mem_of_find?_eq_some hfound)).ok.count.1.2

theorem countedStatus_iff {count : ℕ} : countedStatus count = .needsParentDecision ↔ count = 3 := by
  rw [countedStatus]
  split <;> simp_all

/-- The entry that a rejection makes has the key of its scope, if there was one with that key before. -/
theorem counted_key {scope : RejectionScope} {count : ℕ} {status : RejectionStatus} {entry existing : RejectionEntryV2}
    (hentry : rejectionEntryV2Schema (encodeRejectionEntryV2 (scope.entry count status)) = some entry)
    (hexisting : existing.Settled) (hkey : rejectionKey existing = scope.key) : rejectionKey entry = scope.key := by
  obtain ⟨hfirst, hscope⟩ := RejectionEntryV2.read_encoded hentry
  have hsettled := RejectionEntryV2.settled_of_read hentry
  have hid : scope.runId = entry.entry.runId := congrArg RejectionEntry.runId hfirst
  have htask : existing.scope.taskId = scope.semantic.taskId := by
    refine @rejectionKey_taskId _ (scope.entry 0 .retryAllowed) (isUuid_length hexisting.ok.runId) ?_ hkey
    exact (isUuid_length (hid ▸ hsettled.ok.runId) : scope.runId.toList.length = 36)
  have htrim : trim scope.semantic.taskId = scope.semantic.taskId := by
    rw [← htask]
    exact congrArg SemanticScope.taskId hexisting.scope.tidy
  rw [RejectionScope.key, rejectionKey, rejectionKey, ← hfirst, ← hscope, SemanticScope.tidy]
  exact congrArg (fun taskId ↦ scope.runId ++ "\x00" ++ taskId ++ "\x00" ++ toString scope.taskGeneration ++
    "\x00" ++ scope.semantic.role.text ++ "\x00" ++ toString scope.semantic.semanticAttempt) htrim

/-- A rejection counts one key up by one, to three at most, and leaves the others as they are. -/
structure CountedUp (ledger updated : RejectionLedger RejectionEntryV2) (key : String) (count : ℕ) : Prop where
  sound : Sound updated
  reread : rejectionLedgerV2Schema (encodeRejectionLedger 2 encodeRejectionEntryV2 updated) = some updated
  count_eq : count = countUnder key ledger + 1
  counts : ∀ other, countUnder other updated = if other = key then count else countUnder other ledger

theorem Sound.reject (h : Sound ledger) {scope : RejectionScope} {count : ℕ}
    (hreject : rejectV2 scope ledger = some (count, some updated)) : ∃ key, CountedUp ledger updated key count := by
  rw [rejectV2, rejectUnder] at hreject
  simp only at hreject
  split at hreject
  · cases hreject
  simp only [Option.bind_eq_bind, Option.bind_eq_some_iff, Option.pure_def, Option.some.injEq, Prod.mk.injEq]
    at hreject
  obtain ⟨entry, hentry, parsed, hparsed, rfl, rfl⟩ := hreject
  have hsettled := RejectionEntryV2.settled_of_read hentry
  obtain ⟨hfirst, -⟩ := RejectionEntryV2.read_encoded hentry
  have hcount := congrArg RejectionEntry.count hfirst
  have hstatus : entry.entry.status = .needsParentDecision ↔ entry.entry.count = 3 := by
    rw [← congrArg RejectionEntry.status hfirst, ← hcount]
    exact countedStatus_iff
  cases hfound : ledger.entries.find? (rejectionKey · = scope.key) with
  | none =>
    rw [hfound] at hcount hparsed
    obtain rfl := rejectionLedgerV2_encoded (by
      exact List.forall_mem_append.mpr ⟨h.settled, List.forall_mem_singleton.mpr hsettled⟩) hparsed
    have hdistinct := (rejectionLedgerV2_settled hparsed).2
    have hnew : ∀ other ∈ ledger.entries, rejectionKey other ≠ rejectionKey entry := by
      intro other hother
      rw [List.map_append, List.nodup_append] at hdistinct
      exact hdistinct.2.2 _ (List.mem_map_of_mem hother) _ (List.mem_singleton_self _)
    refine ⟨rejectionKey entry, ?_, hparsed, ?_, ?_⟩
    · exact ⟨List.forall_mem_append.mpr ⟨h.settled, List.forall_mem_singleton.mpr hsettled⟩, hdistinct,
        List.forall_mem_append.mpr ⟨h.statuses, List.forall_mem_singleton.mpr hstatus⟩⟩
    · rw [countUnder, List.find?_eq_none.mpr (by simpa using hnew)]
    · intro other
      rw [countUnder, find?_append_key hnew]
      split
      · exact hcount.symm
      · rfl
  | some existing =>
    rw [hfound] at hcount hparsed
    have hmem := List.mem_of_find?_eq_some hfound
    have hkey : rejectionKey entry = scope.key :=
      counted_key hentry (h.settled existing hmem) (by simpa using List.find?_some hfound)
    have hall {p : RejectionEntryV2 → Prop} (hentries : ∀ other ∈ ledger.entries, p other) (hnew : p entry) :
        ∀ other ∈ ledger.entries.map fun listed ↦ if rejectionKey listed = scope.key then entry else listed,
          p other := by
      rw [List.forall_mem_map]
      intro other hother
      split
      · exact hnew
      · exact hentries other hother
    obtain rfl := rejectionLedgerV2_encoded (hall h.settled hsettled) hparsed
    refine ⟨scope.key, ⟨hall h.settled hsettled, (rejectionLedgerV2_settled hparsed).2, hall h.statuses hstatus⟩,
      hparsed, ?_, ?_⟩
    · rw [countUnder, hfound]
    · intro other
      rw [countUnder, find?_replace hkey, hfound]
      split
      · exact hcount.symm
      · rfl

end Ledgers

/-! The file of a run's rejections. -/

section Files

variable {file : Option Json} {run : Option AnyRun} {id : Uuid} {scope : RejectionScope} {progress : RejectProgress}

/-- The file is missing, or it has a ledger whose entries wait for the parent exactly at three rejections. -/
def Capped (file : Option Json) : Prop := ∀ json ∈ file, ∃ ledger, rejectionLedgerV2Schema json = some ledger ∧
  ∀ entry ∈ ledger.entries, entry.entry.status = .needsParentDecision ↔ entry.entry.count = 3

theorem capped_fresh : Capped none := by
  rintro json ⟨⟩

/-- A ledger that was migrated can be gone on with. -/
theorem capped_migrated {identities : List State.TaskIdentity} {fields : List (String × Json)}
    {ledger : RejectionLedger RejectionEntry} {converted : List RejectionEntryV2}
    (hids : ∀ identity ∈ identities, Trimmed identity.taskId)
    (hledger : rejectionLedgerSchema (.object fields) = some ledger)
    (hconverted : ledger.entries.mapM (State.Migration.scopedRejection identities) = some converted)
    (hruns : ∀ entry ∈ ledger.entries, entry.runId = ledger.runId) :
    Capped (some (.object (State.Migration.migratedLedgerFields
      (.array ((State.Migration.mergeRejections converted).map encodeRejectionEntryV2)) fields))) := by
  rintro json ⟨⟩
  refine ⟨_, State.Migration.migratedRejections_read hids hledger hconverted hruns, ?_⟩
  intro entry hentry
  obtain ⟨last, -, count, rfl, -⟩ := (State.Migration.mergeRejections_merged converted).exists_entry hentry
  exact countedStatus_iff

def fileLedger (id : Uuid) (file : Option Json) : RejectionLedger RejectionEntryV2 :=
  (file.bind rejectionLedgerV2Schema).getD ⟨id, []⟩

theorem Capped.sound (h : Capped file) (id : Uuid) : Sound (fileLedger id file) := by
  rw [fileLedger]
  cases file with
  | none => exact ⟨List.forall_mem_nil _, List.nodup_nil, List.forall_mem_nil _⟩
  | some json =>
    obtain ⟨ledger, hledger, hstatuses⟩ := h json rfl
    obtain ⟨hsettled, hdistinct⟩ := rejectionLedgerV2_settled hledger
    rw [Option.bind_some, hledger]
    exact ⟨hsettled, hdistinct, hstatuses⟩

theorem Capped.read (h : Capped file) (hrun : recordVersion run = .v2) :
    readRejections id run file = some (.v2 (fileLedger id file)) := by
  cases file with
  | none =>
    rw [recordVersion] at hrun
    rw [readRejections]
    cases hversion : run.map AnyRun.version with
    | none => rw [hversion] at hrun; cases hrun
    | some version =>
      rw [hversion] at hrun
      cases version with
      | v1 => cases hrun
      | v2 _ _ => rfl
  | some json =>
    obtain ⟨ledger, hledger, -⟩ := h json rfl
    rw [readRejections, fileLedger, Option.bind_some, hledger]
    rfl

/-- A rejection, wherever it is cut short, keeps the file and loses no count. -/
theorem Capped.reject (h : Capped file) (hrun : recordVersion run = .v2) :
    Capped (reject run file scope progress).2 ∧
      ∀ key, countUnder key (fileLedger scope.runId file) ≤
        countUnder key (fileLedger scope.runId (reject run file scope progress).2) := by
  have hread : readRejections scope.runId run file = some (.v2 (fileLedger scope.runId file)) := h.read hrun
  have hkept : Capped file ∧ ∀ key, countUnder key (fileLedger scope.runId file) ≤
      countUnder key (fileLedger scope.runId file) := ⟨h, fun _ ↦ le_rfl⟩
  rw [Contracts.reject, hread, Option.bind_some, rejectCounted]
  cases hcounted : rejectV2 scope (fileLedger scope.runId file) with
  | none => exact hkept
  | some counted =>
    obtain ⟨count, updated⟩ := counted
    cases updated with
    | none => exact hkept
    | some updated =>
      obtain ⟨key, hcountedUp⟩ := (h.sound scope.runId).reject hcounted
      have hledger : fileLedger scope.runId (some (encodeRejectionLedger 2 encodeRejectionEntryV2 updated)) =
          updated := by
        rw [fileLedger, Option.bind_some, hcountedUp.reread]
        rfl
      have hwritten : Capped (some (encodeRejectionLedger 2 encodeRejectionEntryV2 updated)) ∧
          ∀ other, countUnder other (fileLedger scope.runId file) ≤ countUnder other
            (fileLedger scope.runId (some (encodeRejectionLedger 2 encodeRejectionEntryV2 updated))) := by
        refine ⟨?_, ?_⟩
        · rintro json ⟨⟩
          exact ⟨updated, hcountedUp.reread, hcountedUp.sound.statuses⟩
        · intro other
          rw [hledger, hcountedUp.counts]
          split
          · rename_i hsame
            rw [hsame, hcountedUp.count_eq]
            exact Nat.le_succ _
          · exact le_rfl
      cases progress with
      | stopped => exact hkept
      | replaced => exact hwritten
      | returned => exact hwritten

end Files

/-! One call. -/

section Call

variable {Contents : Type} {format : WalFormat Contents} {ledgers : WorkerLedgers Contents} {call : WorkerCall}
  {dispatch : DispatchScope}

/-- The scope that is counted is that of the worker's agent in its run. -/
theorem dispatch_rejectionScope (h : call.dispatch = .ok dispatch) :
    rejectionScope dispatch.scope dispatch.input.agentId = some dispatch.rejectionScope := by
  rw [WorkerCall.dispatch] at h
  split at h
  · cases h
  rename_i input hinput
  split at h
  · cases h
  split at h
  · cases h
  split at h
  · cases h
  rename_i scope hscope
  split at h
  · cases h
  simp only at h
  split at h
  · cases h
  rename_i identity hidentity
  split at h
  · cases h
  rename_i hgeneration
  split at h
  · cases h
  rename_i role hrole
  cases h
  simp only [rejectionScope, Option.bind_eq_bind, hidentity, Option.bind_some, if_neg hgeneration, hrole]
  rfl

/-- What a call does to the rejections: nothing, or one rejection of its scope. -/
theorem run_rejections : (call.run format ledgers).ledgers.rejections = ledgers.rejections ∨
    ∃ dispatch, call.dispatch = .ok dispatch ∧ (call.run format ledgers).ledgers.rejections =
      Function.update ledgers.rejections dispatch.run.runId
        (reject call.record (ledgers.rejections dispatch.run.runId) dispatch.rejectionScope call.rejecting).2 := by
  rw [WorkerCall.run]
  cases hdispatch : call.dispatch with
  | error code => exact .inl rfl
  | ok dispatch =>
    have hchecked (prior : ℕ) : (checkEvidence format ledgers call dispatch prior).ledgers.rejections =
        ledgers.rejections ∨ (checkEvidence format ledgers call dispatch prior).ledgers.rejections =
          Function.update ledgers.rejections dispatch.run.runId
            (reject call.record (ledgers.rejections dispatch.run.runId) dispatch.rejectionScope call.rejecting).2 := by
      rw [checkEvidence]
      repeat' split
      all_goals first
        | exact .inl rfl
        | exact .inr rfl
    simp only [acceptDispatch]
    repeat' split
    all_goals first
      | exact .inl rfl
      | exact (hchecked _).imp_right fun h ↦ ⟨dispatch, rfl, h⟩

def WorkerAcceptanceResult.isAccepted : WorkerAcceptanceResult → Bool
  | .accepted _ | .replayed _ => true
  | .rejected .. | .needsParentDecision .. => false

/-- A call that is accepted has read fewer than three rejections, or the parent has reviewed the result. -/
theorem run_accepted {answer : WorkerAcceptanceResult} (h : (call.run format ledgers).answer = some answer)
    (haccepted : answer.isAccepted = true) (hdispatch : call.dispatch = .ok dispatch) {ledger : RuntimeRejectionLedger}
    (hread : readRejections dispatch.run.runId call.record (ledgers.rejections dispatch.run.runId) = some ledger)
    (hcount : rejectionCount dispatch.rejectionScope ledger = 3) :
    dispatch.input.parentDecision = some .acceptAfterReview := by
  have hprior : (readRejections dispatch.rejectionScope.runId call.record
      (ledgers.rejections dispatch.rejectionScope.runId)).map (rejectionCount dispatch.rejectionScope) = some 3 := by
    refine (congrArg (Option.map (rejectionCount dispatch.rejectionScope)) hread).trans ?_
    rw [Option.map_some, hcount]
  rw [WorkerCall.run, hdispatch] at h
  simp only [acceptDispatch, hprior] at h
  split at h
  · obtain rfl := Option.some.inj h
    cases haccepted
  split at h
  · obtain rfl := Option.some.inj h
    cases haccepted
  · rename_i hreviewed
    simpa using hreviewed

end Call

/-! Runs of calls. -/

/-- A call with its answer. -/
structure WorkerEvent where
  call : WorkerCall
  answer : Option WorkerAcceptanceResult

/-- The next call, on the files that the calls before it have left. -/
def WorkerStep {Contents : Type} (format : WalFormat Contents) (ledgers : WorkerLedgers Contents) (event : WorkerEvent)
    (next : WorkerLedgers Contents) : Prop :=
  event.answer = (event.call.run format ledgers).answer ∧ next = (event.call.run format ledgers).ledgers

/-- The same run, task, generation, role and attempt. -/
structure RejectionScope.Same (scope other : RejectionScope) : Prop where
  runId : scope.runId = other.runId
  taskGeneration : scope.taskGeneration = other.taskGeneration
  semantic : scope.semantic = other.semantic

theorem RejectionScope.Same.key {scope other : RejectionScope} (h : scope.Same other) : scope.key = other.key := by
  rw [RejectionScope.key, RejectionScope.key, rejectionKey, rejectionKey, RejectionScope.entry, RejectionScope.entry]
  rw [h.runId, h.taskGeneration, h.semantic]

section Runs

variable {Contents : Type} {format : WalFormat Contents} {start ledgers mid last : WorkerLedgers Contents}
  {before later : List WorkerEvent} {scope : RejectionScope} {record : Option AnyRun} {id : Uuid}

/-- What the ledger has for a scope: the count of `rejectionCount`. -/
def scopeCount (record : Option AnyRun) (ledgers : WorkerLedgers Contents) (scope : RejectionScope) : Option ℕ :=
  (readRejections scope.runId record (ledgers.rejections scope.runId)).map (rejectionCount scope)

/-- The status of the entry of a scope. -/
def scopeStatus (record : Option AnyRun) (ledgers : WorkerLedgers Contents) (scope : RejectionScope) :
    Option RejectionStatus :=
  match readRejections scope.runId record (ledgers.rejections scope.runId) with
  | some (.v2 ledger) => (ledger.entries.find? (rejectionKey · = scope.key)).map (·.entry.status)
  | some (.v1 ledger) => (ledger.entries.find? fun entry ↦ legacyRejectionKey entry.runId entry.attempt =
      legacyRejectionKey scope.runId scope.attempt).map (·.status)
  | none => none

/-- The calls about a run find a record of the second version. -/
def OfSecondVersion (id : Uuid) (event : WorkerEvent) : Prop :=
  ∀ dispatch, event.call.dispatch = .ok dispatch → dispatch.run.runId = id → recordVersion event.call.record = .v2

theorem scopeCount_capped (h : Capped (ledgers.rejections scope.runId)) (hrecord : recordVersion record = .v2) :
    scopeCount record ledgers scope =
      some (countUnder scope.key (fileLedger scope.runId (ledgers.rejections scope.runId))) := by
  rw [scopeCount, h.read hrecord]
  rfl

theorem scopeStatus_capped (h : Capped (ledgers.rejections scope.runId)) (hrecord : recordVersion record = .v2) :
    scopeStatus record ledgers scope = some .needsParentDecision ↔
      countUnder scope.key (fileLedger scope.runId (ledgers.rejections scope.runId)) = 3 := by
  have hsound := h.sound scope.runId
  rw [scopeStatus, h.read hrecord, countUnder]
  simp only
  cases hfound : (fileLedger scope.runId (ledgers.rejections scope.runId)).entries.find?
      (rejectionKey · = scope.key) with
  | none => simp
  | some entry => simpa using hsound.statuses entry (List.mem_of_find?_eq_some hfound)

/-- A call loses no count of a run. -/
theorem capped_step {event : WorkerEvent} (h : Capped (ledgers.rejections id)) (hversion : OfSecondVersion id event)
    (hstep : WorkerStep format ledgers event last) : Capped (last.rejections id) ∧
      ∀ key, countUnder key (fileLedger id (ledgers.rejections id)) ≤
        countUnder key (fileLedger id (last.rejections id)) := by
  obtain ⟨-, rfl⟩ := hstep
  obtain hkept | ⟨dispatch, hdispatch, hrejected⟩ := @run_rejections _ format ledgers event.call
  · rw [hkept]
    exact ⟨h, fun _ ↦ le_rfl⟩
  rw [hrejected]
  by_cases hsame : dispatch.run.runId = id
  · subst hsame
    rw [Function.update_self]
    exact h.reject (hversion dispatch hdispatch rfl)
  · rw [Function.update_of_ne (Ne.symm hsame)]
    exact ⟨h, fun _ ↦ le_rfl⟩

theorem capped_run (hrun : Recorded (WorkerStep format) ledgers later last) (h : Capped (ledgers.rejections id))
    (hversion : ∀ event ∈ later, OfSecondVersion id event) : Capped (last.rejections id) ∧
      ∀ key, countUnder key (fileLedger id (ledgers.rejections id)) ≤
        countUnder key (fileLedger id (last.rejections id)) := by
  induction hrun with
  | nil => exact ⟨h, fun _ ↦ le_rfl⟩
  | snoc _ hstep ih =>
    obtain ⟨hcapped, hcounts⟩ := ih fun event hevent ↦ hversion event (List.mem_append_left _ hevent)
    obtain ⟨hnext, hlater⟩ := capped_step hcapped (hversion _ (List.mem_append_right _ (List.mem_singleton_self _))) hstep
    exact ⟨hnext, fun key ↦ (hcounts key).trans (hlater key)⟩

/-- What becomes of the rejections of a scope from one place of a run to a later one. -/
structure RetryCapped (record : Option AnyRun) (scope : RejectionScope) (mid : WorkerLedgers Contents)
    (later : List WorkerEvent) (last : WorkerLedgers Contents) : Prop where
  counts : ∃ earlier count, scopeCount record mid scope = some earlier ∧ scopeCount record last scope = some count ∧
    earlier ≤ count ∧ count ≤ 3
  status : scopeStatus record last scope = some .needsParentDecision ↔ scopeCount record last scope = some 3
  gated : scopeCount record mid scope = some 3 → ∀ event ∈ later, ∀ dispatch, event.call.dispatch = .ok dispatch →
    dispatch.rejectionScope.Same scope → ∀ answer ∈ event.answer, answer.isAccepted = true →
      dispatch.input.parentDecision = some .acceptAfterReview

theorem retry_capped (hstart : Capped (start.rejections scope.runId))
    (hversion : ∀ event ∈ before ++ later, OfSecondVersion scope.runId event)
    (hrecord : recordVersion record = .v2) (hbefore : Recorded (WorkerStep format) start before mid)
    (hlater : Recorded (WorkerStep format) mid later last) : RetryCapped record scope mid later last := by
  obtain ⟨hmid, -⟩ := capped_run hbefore hstart fun event hevent ↦ hversion event (List.mem_append_left _ hevent)
  have hversionLater : ∀ event ∈ later, OfSecondVersion scope.runId event :=
    fun event hevent ↦ hversion event (List.mem_append_right _ hevent)
  obtain ⟨hlast, hcounts⟩ := capped_run hlater hmid hversionLater
  refine ⟨⟨_, _, scopeCount_capped hmid hrecord, scopeCount_capped hlast hrecord, hcounts _,
    (hlast.sound _).count_le _⟩, ?_, ?_⟩
  · rw [scopeStatus_capped hlast hrecord, scopeCount_capped hlast hrecord, Option.some.injEq]
  · intro hthree event hevent dispatch hdispatch hsame answer hanswer haccepted
    rw [scopeCount_capped hmid hrecord, Option.some.injEq] at hthree
    obtain ⟨passed, ledgers, -, hpassed, hprefix, hstep, -⟩ := hlater.exists_step hevent
    obtain ⟨hcapped, hpassedCounts⟩ :=
      capped_run hprefix hmid fun event hevent ↦ hversionLater event (hpassed hevent)
    have hstill : countUnder dispatch.rejectionScope.key
        (fileLedger dispatch.run.runId (ledgers.rejections dispatch.run.runId)) = 3 := by
      have hid : dispatch.run.runId = scope.runId := hsame.runId
      rw [hsame.key, hid]
      refine le_antisymm ((hcapped.sound _).count_le _) ?_
      rw [← hthree]
      exact hpassedCounts _
    have hcappedHere : Capped (ledgers.rejections dispatch.run.runId) := by
      rw [show dispatch.run.runId = scope.runId from hsame.runId]
      exact hcapped
    have hread : readRejections dispatch.run.runId event.call.record (ledgers.rejections dispatch.run.runId) =
        some (.v2 (fileLedger dispatch.run.runId (ledgers.rejections dispatch.run.runId))) :=
      hcappedHere.read (hversionLater event hevent dispatch hdispatch hsame.runId)
    exact run_accepted (hstep.symm.trans hanswer) haccepted hdispatch hread hstill

end Runs

/-! A worker whose results are rejected three times. -/

namespace Sample

open OmpLazy.State.Sample (run runId)
open OmpLazy.State.Migration.Sample (format workerLedger workerScope)

def interrupted : WorkerCall where
  input := .object [("agentId", .string "agent-a"), ("receiptPath", .string "receipt.json")]
  locked := true
  inRepository := true
  resolved := some ⟨run, workerLedger .low⟩
  aborted := true
  git := .error "git_unavailable"
  evidence := .error "receipt_missing"
  abortedLater := true
  finalGit := .error "git_unavailable"
  record := some run
  rejecting := .returned
  accepting := .returned

/-- The file after so many rejections. -/
def rejectedFile (count : ℕ) : Option Json :=
  if count = 0 then none
  else some (encodeRejectionLedger 2 encodeRejectionEntryV2
    ⟨runId, [(workerScope .low).entry count (countedStatus count)]⟩)

def rejectedLedgers (count : ℕ) : WorkerLedgers (List State.Bytes) :=
  ⟨Function.update (fun _ ↦ none) runId (rejectedFile count), fun _ ↦ ⟨none, none⟩⟩

def interruptedDispatch : DispatchScope :=
  ⟨⟨run, workerLedger .low⟩, ⟨"call-1", 0, some "worker-a", some WorkerRole.low.text, "agent-a", some "job-a"⟩, 2, .low,
    "worker-a", ⟨"agent-a", "receipt.json", none⟩⟩

theorem interrupted_dispatch : interrupted.dispatch = .ok interruptedDispatch := by decide

theorem rejectedFile_count : ∀ count ≤ 3, (readRejections runId (some run) (rejectedFile count)).map
    (rejectionCount (workerScope .low)) = some count := by decide

theorem rejectedFile_reject : ∀ count < 3, reject (some run) (rejectedFile count) (workerScope .low) .returned =
    (some (count + 1), rejectedFile (count + 1)) := by decide

theorem rejectedLedgers_file (count : ℕ) : (rejectedLedgers count).rejections runId = rejectedFile count := by
  simp only [rejectedLedgers, Function.update_self]

theorem interrupted_rejected {count : ℕ} (h : count < 3) : WorkerStep format (rejectedLedgers count)
    ⟨interrupted, some (rejectionResult "interrupted" (count + 1))⟩ (rejectedLedgers (count + 1)) := by
  have hread := rejectedFile_count count h.le
  have hprior : (readRejections interruptedDispatch.rejectionScope.runId interrupted.record
      ((rejectedLedgers count).rejections interruptedDispatch.rejectionScope.runId)).map
        (rejectionCount interruptedDispatch.rejectionScope) = some count := by
    rw [← hread, ← rejectedLedgers_file]
    rfl
  have hreject : reject interrupted.record ((rejectedLedgers count).rejections runId) (workerScope .low)
      interrupted.rejecting = (some (count + 1), rejectedFile (count + 1)) := by
    rw [rejectedLedgers_file]
    exact rejectedFile_reject count h
  have hrejected : rejectDispatch (rejectedLedgers count) interrupted (workerScope .low) "interrupted" =
      ⟨some (rejectionResult "interrupted" (count + 1)), rejectedLedgers (count + 1)⟩ := by
    rw [rejectDispatch, show (workerScope .low).runId = runId from rfl, hreject, rejectedLedgers, Function.update_idem]
    rfl
  have hrun : interrupted.run format (rejectedLedgers count) =
      ⟨some (rejectionResult "interrupted" (count + 1)), rejectedLedgers (count + 1)⟩ := by
    rw [WorkerCall.run, interrupted_dispatch]
    simp only [acceptDispatch, hprior]
    rw [if_neg (by decide), if_neg (by omega)]
    exact hrejected
  exact ⟨by rw [hrun], by rw [hrun]⟩

theorem rejected_fully : Recorded (WorkerStep format) (rejectedLedgers 0)
    ([0, 1, 2].map fun count ↦ ⟨interrupted, some (rejectionResult "interrupted" (count + 1))⟩) (rejectedLedgers 3) :=
  ((Recorded.nil.snoc (interrupted_rejected (by decide))).snoc (interrupted_rejected (by decide))).snoc
    (interrupted_rejected (by decide))

theorem interrupted_capped : WorkerStep format (rejectedLedgers 3)
    ⟨interrupted, some (.needsParentDecision "retry_cap_reached" 3)⟩ (rejectedLedgers 3) := by
  have hprior : (readRejections interruptedDispatch.rejectionScope.runId interrupted.record
      ((rejectedLedgers 3).rejections interruptedDispatch.rejectionScope.runId)).map
        (rejectionCount interruptedDispatch.rejectionScope) = some 3 := by
    rw [← rejectedFile_count 3 le_rfl, ← rejectedLedgers_file]
    rfl
  have hrun : interrupted.run format (rejectedLedgers 3) =
      ⟨some (.needsParentDecision "retry_cap_reached" 3), rejectedLedgers 3⟩ := by
    rw [WorkerCall.run, interrupted_dispatch]
    simp only [acceptDispatch, hprior]
    rw [if_neg (by decide), if_pos (by decide)]
  exact ⟨by rw [hrun], by rw [hrun]⟩

end Sample

open Sample in
/-- After three rejections the next call is left to the parent. -/
theorem retry_capped_interrupted : RetryCapped (some State.Sample.run) (State.Migration.Sample.workerScope .low)
    (rejectedLedgers 3) [⟨interrupted, some (.needsParentDecision "retry_cap_reached" 3)⟩] (rejectedLedgers 3) := by
  refine retry_capped ?_ ?_ rfl rejected_fully (Recorded.nil.snoc interrupted_capped)
  · exact (rejectedLedgers_file 0).symm ▸ capped_fresh
  · intro event hevent dispatch _ _
    obtain rfl | rfl | rfl | rfl : _ ∨ _ ∨ _ ∨ _ := by simpa using hevent
    all_goals rfl

end OmpLazy.Contracts

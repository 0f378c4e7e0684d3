import OmpLazy.Contracts.AcceptanceStoreLaws
import OmpLazy.Foundation.Keys
import OmpLazy.Foundation.Runs
import OmpLazy.State.ReadableMigration

/-! Calls that accept results, cut short between their two writes. -/

namespace OmpLazy.Contracts

open OmpLazy.Foundation OmpLazy.Foundation.Schema OmpLazy.Foundation.Text
open OmpLazy.State (Uuid FormatVersion WalFormat maxWalEntries maxWalBytes)

structure AcceptCall where
  result : AcceptedResult
  receiptHash : String
  progress : AcceptProgress
  deriving DecidableEq, Repr

/-- A call with its answer and the entry that it has put in the log. -/
structure AcceptEvent where
  call : AcceptCall
  status : Option AcceptanceStatus
  appended : Option RuntimeEntry
  deriving DecidableEq, Repr

section Calls

variable {Contents : Type} (format : WalFormat Contents)

def AcceptCall.run (version : FormatVersion) (files : AcceptanceFiles Contents) (call : AcceptCall) :
    AcceptEffect Contents :=
  accept format version files call.result call.receiptHash call.progress

/-- The next call, on the files of its run. -/
def AcceptStep (version : Uuid → FormatVersion) (ledgers : Uuid → AcceptanceFiles Contents) (event : AcceptEvent)
    (next : Uuid → AcceptanceFiles Contents) : Prop :=
  let id := event.call.result.runId
  let effect := event.call.run format (version id) (ledgers id)
  event.status = effect.status ∧ event.appended = effect.appended ∧ next = Function.update ledgers id effect.files

end Calls

/-- The entries of a run that were put in its log, in order. -/
def appendedTo (id : Uuid) (history : List AcceptEvent) : List RuntimeEntry :=
  (history.filterMap (·.appended)).filter (·.event.runId = id)

/-! A candidate. -/

section Candidate

variable {version : FormatVersion} {result : AcceptedResult} {receiptHash : String} {sequence : ℕ} {entry : RuntimeEntry}

theorem isHex_not_space {c : Char} (h : isHex c = true) : isSpace c = false := by
  have hrange : 0x30 ≤ c.toNat ∧ c.toNat ≤ 0x66 := by
    simp only [isHex, isLowerHex, isDigit, Bool.or_eq_true, Bool.and_eq_true, decide_eq_true_eq, Char.le_def,
      UInt32.le_iff_toNat_le] at h
    obtain (⟨hlo, hhi⟩ | ⟨hlo, hhi⟩) | ⟨hlo, hhi⟩ := h
    · exact ⟨hlo, le_trans hhi (by decide)⟩
    · exact ⟨le_trans (by decide) hlo, hhi⟩
    · exact ⟨le_trans (by decide) hlo, le_trans hhi (by decide)⟩
  simp only [isSpace, List.mem_cons, List.not_mem_nil, or_false, Bool.or_eq_false_iff,
    decide_eq_false_iff_not, Bool.and_eq_false_iff]
  omega

theorem isUuid_head {id : String} (h : isUuid id = true) : ∃ c cs, id.toList = c :: cs ∧ isSpace c = false := by
  simp only [isUuid, Bool.or_eq_true, beq_iff_eq] at h
  obtain (hclasses | rfl) | rfl := h
  · cases hid : id.toList with
    | nil => rw [hid] at hclasses; cases hclasses
    | cons c cs =>
      rw [hid, Text.uuidClasses, List.replicate_succ, List.cons_append, matchesClasses, Bool.and_eq_true] at hclasses
      exact ⟨c, cs, rfl, isHex_not_space hclasses.1⟩
  · exact ⟨'0', _, rfl, by decide⟩
  · exact ⟨'f', _, rfl, by decide⟩

theorem isLowerHexOf_last {s : String} {n : ℕ} (h : isLowerHexOf (n + 1) s = true) :
    ∃ c ∈ s.toList.getLast?, isSpace c = false := by
  obtain ⟨hlength, hall⟩ := matchesClasses_replicate.mp h
  have hne : s.toList ≠ [] := by
    intro hnil
    rw [hnil] at hlength
    cases hlength
  refine ⟨s.toList.getLast hne, List.getLast?_eq_some_getLast hne, isHex_not_space ?_⟩
  rw [isHex, hall _ (List.getLast_mem hne), Bool.true_or]

theorem trim_idempotencyKey (hid : isUuid result.runId = true) (hhash : isLowerHexOf 64 result.artifactHash = true) :
    trim result.idempotencyKey = result.idempotencyKey := by
  obtain ⟨first, rest, hfirst, hspace⟩ := isUuid_head hid
  obtain ⟨last, hlast, hlastSpace⟩ := isLowerHexOf_last hhash
  rw [trim, trimList_eq_self.mpr, String.ofList_toList]
  constructor
  · intro c hc
    rw [AcceptedResult.idempotencyKey, String.toList_append, hfirst, List.cons_append, List.head?_cons] at hc
    exact Option.some.inj hc ▸ hspace
  · intro c hc
    rw [Option.mem_def] at hlast
    simp only [AcceptedResult.idempotencyKey, String.toList_append, List.getLast?_append, hlast, Option.some_or] at hc
    exact Option.some.inj hc ▸ hlastSpace

theorem withSequence_back : (entry.withSequence sequence).withSequence entry.event.sequence = entry := rfl

theorem candidate_fits : RuntimeEntry.Fits version ⟨result.event receiptHash sequence,
    match version with
    | .v1 => none
    | .v2 => some result.scope⟩ := by
  cases version <;> simp [RuntimeEntry.Fits]

theorem candidate_settled (h : candidate version result receiptHash sequence = some entry) :
    entry.Settled version := entrySchema_settled h

theorem candidate_event (h : candidate version result receiptHash sequence = some entry) :
    entry.event.sequence = sequence ∧ entry.event.runId = result.runId ∧
      entry.event.idempotencyKey = result.idempotencyKey ∧ isUuid result.runId = true := by
  obtain ⟨⟨hfields, -, -⟩, rfl⟩ := (entrySchema_encoded candidate_fits).mp h
  exact ⟨rfl, rfl, trim_idempotencyKey hfields.runId hfields.artifactHash, hfields.runId⟩

/-- The place of an entry does not change the rest of it. -/
theorem candidate_at (h : candidate version result receiptHash sequence = some entry) {sequence' : ℕ}
    (hpositive : 0 < sequence') (hsafe : sequence' ≤ maxSafeInteger) :
    candidate version result receiptHash sequence' = some (entry.withSequence sequence') := by
  obtain ⟨⟨hfields, hbinds, hscope⟩, rfl⟩ := (entrySchema_encoded candidate_fits).mp h
  refine (entrySchema_encoded candidate_fits).mpr ⟨⟨?_, hbinds, hscope⟩, rfl⟩
  exact ⟨⟨hsafe, hpositive⟩, hfields.idempotencyKey, hfields.runId, hfields.attempt, hfields.runRevision,
    hfields.ownerSessionId, hfields.ownerEpoch, hfields.taskGeneration, hfields.actualAgentId, hfields.actualJobId,
    hfields.captureCommit, hfields.receiptPath, hfields.receiptHash, hfields.artifactHash, hfields.artifactPaths,
    hfields.cleanupReceiptPaths, hfields.cleanupScenarioId⟩

end Candidate

/-! The files of a run after calls that were cut short. -/

section Files

variable {Contents : Type} {format : WalFormat Contents} {version : FormatVersion} {id : Uuid}
  {entries : List RuntimeEntry} {files : AcceptanceFiles Contents}

/-- The log has all the entries and the snapshot the first of them. -/
structure Coherent (format : WalFormat Contents) (version : FormatVersion) (id : Uuid) (entries : List RuntimeEntry)
    (files : AcceptanceFiles Contents) : Prop where
  orderly : Orderly version id entries
  bounded : entries.length ≤ maxWalEntries
  wal : readWal format files.wal = some (entries.map encodeWalEntry)
  snapshot : files.snapshot = none ∨
    ∃ m ≤ entries.length, files.snapshot = some (encodeLedger ⟨version, id, m, entries.take m⟩)

theorem Orderly.take (h : Orderly version id entries) (m : ℕ) : Orderly version id (entries.take m) where
  runId := h.runId
  settled entry hentry := h.settled entry (List.mem_of_mem_take hentry)
  runs entry hentry := h.runs entry (List.mem_of_mem_take hentry)
  numbered := by
    rw [List.map_take, h.numbered, List.length_take]
    obtain hm | hm := Nat.le_total m entries.length
    · rw [List.take_range'_of_length_ge hm, Nat.min_eq_left hm]
    · rw [List.take_range'_of_length_le hm, Nat.min_eq_right hm]
  keys := by rw [List.map_take]; exact h.keys.sublist (List.take_sublist ..)

theorem Orderly.positions (h : Orderly version id entries) :
    WriteAhead.Numbered (fun entry : RuntimeEntry ↦ entry.event.sequence - 1) entries := by
  intro i hi
  have hsequence := congrArg (·[i]?) h.numbered
  simp only [List.getElem?_map, List.getElem?_eq_getElem hi, Option.map_some, List.getElem?_range' hi,
    Option.some.injEq] at hsequence
  change entries[i].event.sequence - 1 = i
  omega

theorem Orderly.snoc (h : Orderly version id entries) {entry : RuntimeEntry} (hsettled : entry.Settled version)
    (hrun : entry.event.runId = id) (hsequence : entry.event.sequence = entries.length + 1)
    (hkey : ∀ existing ∈ entries, existing.event.idempotencyKey ≠ entry.event.idempotencyKey) :
    Orderly version id (entries ++ [entry]) where
  runId := h.runId
  settled := List.forall_mem_append.mpr ⟨h.settled, List.forall_mem_singleton.mpr hsettled⟩
  runs := List.forall_mem_append.mpr ⟨h.runs, List.forall_mem_singleton.mpr hrun⟩
  numbered := by
    rw [List.map_append, h.numbered, List.length_append, List.length_singleton, List.range'_concat, List.map_singleton,
      hsequence, Nat.one_mul, Nat.add_comm]
  keys := by
    rw [List.map_append, List.nodup_append]
    refine ⟨h.keys, List.nodup_singleton _, ?_⟩
    intro key hmem key' hmem'
    obtain ⟨existing, hexisting, rfl⟩ := List.mem_map.mp hmem
    rw [List.map_singleton, List.mem_singleton] at hmem'
    exact hmem' ▸ hkey existing hexisting

theorem length_safe (h : entries.length ≤ maxWalEntries) : entries.length ≤ maxSafeInteger :=
  h.trans (by decide)

/-- Wherever the last call was cut short, the ledger has the entries of the log. -/
theorem Coherent.read (h : Coherent format version id entries files) :
    readAcceptance format version id files = some ⟨version, id, entries.length, entries⟩ := by
  have hparsed := h.orderly.reread (length_safe h.bounded)
  have hevents : (entries.map encodeWalEntry).mapM (walSchema version) = some entries := by
    rw [mapM_eq_some, List.forall₂_map_left_iff]
    exact List.forall₂_same.mpr fun entry hentry ↦ (h.orderly.settled entry hentry).wal_reread
  have hmerged (m : ℕ) (hm : m ≤ entries.length) :=
    WriteAhead.merge_take h.orderly.positions hm
  rw [readAcceptance]
  obtain hnone | ⟨m, hm, hsome⟩ := h.snapshot
  · have hfresh := (h.orderly.take 0).reread (Nat.zero_le _)
    rw [List.take_zero, List.length_nil] at hfresh
    have hmerge := hmerged 0 (Nat.zero_le _)
    rw [List.take_zero] at hmerge
    simp only [hnone, hfresh, h.wal, hevents, hmerge, hparsed, Option.bind_eq_bind, Option.bind_some]
  · have hsnapshot := (h.orderly.take m).snapshot_read (by
      rw [List.length_take]
      exact (Nat.min_le_right ..).trans (length_safe h.bounded))
    rw [List.length_take, Nat.min_eq_left hm] at hsnapshot
    simp only [hsome, hsnapshot, h.wal, hevents, hmerged m hm, hparsed, Option.bind_eq_bind, Option.bind_some]

/-- A line that is appended is read back. -/
theorem readWal_append (hformat : format.Lawful) {wal : Option Contents} {lines : List Json} {value : Json}
    {appended : Contents} (hread : readWal format wal = some lines)
    (h : appendAcceptanceWal format wal value = some appended) :
    readWal format (some appended) = some (lines ++ [value]) ∧ lines.length + 1 ≤ maxWalEntries := by
  simp only [appendAcceptanceWal, hread, Option.bind_eq_bind, Option.bind_some] at h
  split at h
  · cases h
  rename_i hlimits
  rw [not_or, not_lt, not_lt, List.length_append, List.length_singleton] at hlimits
  cases h
  have hparsed : ((lines ++ [value]).map format.stringify).mapM format.parse = some (lines ++ [value]) := by
    rw [mapM_eq_some, List.forall₂_map_left_iff]
    exact List.forall₂_same.mpr fun value _ ↦ hformat.parse_stringify value
  refine ⟨?_, hlimits.1⟩
  rw [readWal, Option.elim_some, State.readAcceptanceWal, if_neg (not_lt.mpr hlimits.2), hformat.lines_unlines,
    if_neg (by simpa using hlimits.1), hparsed]

end Files

/-! One call. -/

section Call

variable {Contents : Type} {format : WalFormat Contents} {version : FormatVersion} {entries : List RuntimeEntry}
  {files : AcceptanceFiles Contents} {call : AcceptCall}

/-- An entry whose key is that of the result decides the call. -/
theorem Coherent.accept_existing (h : Coherent format version call.result.runId entries files)
    {existing : RuntimeEntry} (hmem : existing ∈ entries)
    (hkey : existing.event.idempotencyKey = call.result.idempotencyKey) :
    call.run format version files =
      ⟨(candidate version call.result call.receiptHash (entries.length + 1)).map fun entry ↦
          if existing = entry.withSequence existing.event.sequence then .replayed else .duplicateReceipt,
        none, files⟩ := by
  have hfound : entries.find? (·.event.idempotencyKey = call.result.idempotencyKey) = some existing :=
    hkey ▸ find?_key h.orderly.keys hmem
  rw [AcceptCall.run, accept, h.read]
  simp only
  cases candidate version call.result call.receiptHash (entries.length + 1) with
  | none => rfl
  | some entry =>
    simp only [hfound, Option.map_some]
    split <;> rfl

/-- Under a new key a call whose result is an entry goes to its writes. -/
theorem Coherent.accept_entry (h : Coherent format version call.result.runId entries files)
    (hkey : ∀ existing ∈ entries, existing.event.idempotencyKey ≠ call.result.idempotencyKey) {entry : RuntimeEntry}
    (hentry : candidate version call.result call.receiptHash (entries.length + 1) = some entry) :
    Orderly version call.result.runId (entries ++ [entry]) ∧ call.run format version files =
      (appendAcceptanceWal format files.wal (encodeWalEntry entry)).elim ⟨none, none, files⟩ fun wal ↦
        publish files entry ⟨version, call.result.runId, (entries ++ [entry]).length, entries ++ [entry]⟩ wal
          call.progress := by
  have hfound : entries.find? (·.event.idempotencyKey = call.result.idempotencyKey) = none := by
    rw [List.find?_eq_none]
    intro existing hexisting
    simpa using hkey existing hexisting
  obtain ⟨hsequence, hrun, hentryKey, -⟩ := candidate_event hentry
  have hsettled := candidate_settled hentry
  have horderly : Orderly version call.result.runId (entries ++ [entry]) :=
    h.orderly.snoc hsettled hrun hsequence fun existing hexisting ↦ hentryKey ▸ hkey existing hexisting
  have hparsed := horderly.reread (by
    rw [List.length_append, List.length_singleton]
    exact (Nat.succ_le_succ h.bounded).trans (by decide))
  rw [List.length_append, List.length_singleton] at hparsed
  refine ⟨horderly, ?_⟩
  rw [AcceptCall.run, accept, h.read]
  simp only [hentry, hfound, hparsed, hsettled.wal_reread, List.length_append, List.length_singleton]
  cases appendAcceptanceWal format files.wal (encodeWalEntry entry) with
  | none => rfl
  | some wal => rfl

/-- Under a new key the call throws or goes to its writes. -/
theorem Coherent.accept_new (h : Coherent format version call.result.runId entries files)
    (hkey : ∀ existing ∈ entries, existing.event.idempotencyKey ≠ call.result.idempotencyKey) :
    call.run format version files = ⟨none, none, files⟩ ∨
      ∃ entry wal, appendAcceptanceWal format files.wal (encodeWalEntry entry) = some wal ∧
        Orderly version call.result.runId (entries ++ [entry]) ∧
        call.run format version files = publish files entry
          ⟨version, call.result.runId, (entries ++ [entry]).length, entries ++ [entry]⟩ wal call.progress := by
  cases hentry : candidate version call.result call.receiptHash (entries.length + 1) with
  | none =>
    left
    rw [AcceptCall.run, accept, h.read]
    simp only [hentry]
  | some entry =>
    obtain ⟨horderly, hrun⟩ := h.accept_entry hkey hentry
    cases hwal : appendAcceptanceWal format files.wal (encodeWalEntry entry) with
    | none => exact .inl (by rw [hrun, hwal, Option.elim_none])
    | some wal => exact .inr ⟨entry, wal, hwal, horderly, by rw [hrun, hwal, Option.elim_some]⟩

/-- What a call appends goes last, and wherever it is cut short the files are coherent. -/
theorem Coherent.accept (hformat : format.Lawful) (h : Coherent format version call.result.runId entries files) :
    Coherent format version call.result.runId (entries ++ (call.run format version files).appended.toList)
      (call.run format version files).files := by
  by_cases hkey : ∃ existing ∈ entries, existing.event.idempotencyKey = call.result.idempotencyKey
  · obtain ⟨existing, hmem, hkey⟩ := hkey
    rw [h.accept_existing hmem hkey]
    simpa using h
  simp only [not_exists, not_and] at hkey
  obtain hthrew | ⟨entry, wal, hwal, horderly, hrun⟩ := h.accept_new hkey
  · rw [hthrew]
    simpa using h
  obtain ⟨hread, hbounded⟩ := readWal_append hformat h.wal hwal
  rw [List.length_map] at hbounded
  have hlength : (entries ++ [entry]).length ≤ maxWalEntries := by
    rw [List.length_append, List.length_singleton]
    exact hbounded
  have hlog : readWal format (some wal) = some ((entries ++ [entry]).map encodeWalEntry) := by
    rw [hread, List.map_append, List.map_singleton]
  have hreplaced : Coherent format version call.result.runId (entries ++ [entry])
      ⟨some (encodeLedger ⟨version, call.result.runId, (entries ++ [entry]).length, entries ++ [entry]⟩), some wal⟩ :=
    ⟨horderly, hlength, hlog, .inr ⟨_, le_rfl, by rw [List.take_length]⟩⟩
  rw [hrun]
  cases call.progress with
  | stopped => simpa [publish] using h
  | appended =>
    refine ⟨horderly, hlength, hlog, h.snapshot.imp_right ?_⟩
    rintro ⟨m, hm, hsnapshot⟩
    refine ⟨m, hm.trans (by simp), ?_⟩
    simpa only [publish, Option.toList_some, List.take_append_of_le_length hm] using hsnapshot
  | replaced => exact hreplaced
  | returned => exact hreplaced

/-- What a call appends is the candidate of its result. -/
theorem appended_candidate {entry : RuntimeEntry} (h : (call.run format version files).appended = some entry) :
    ∃ ledger, readAcceptance format version call.result.runId files = some ledger ∧
      candidate ledger.version call.result call.receiptHash (ledger.ledgerRevision + 1) = some entry := by
  rw [AcceptCall.run, Contracts.accept] at h
  split at h
  · cases h
  rename_i ledger hledger
  split at h
  · cases h
  rename_i candidate hcandidate
  split at h
  · split at h <;> cases h
  split at h
  · rename_i event hevent
    obtain rfl := Option.some.inj ((candidate_settled hcandidate).wal_reread.symm.trans hevent)
    split at h
    · cases hprogress : call.progress <;> rw [hprogress] at h <;> cases h <;> exact ⟨ledger, hledger, hcandidate⟩
    · cases h
  · cases h

theorem appended_run {entry : RuntimeEntry} (h : (call.run format version files).appended = some entry) :
    entry.event.runId = call.result.runId := by
  obtain ⟨_, -, hcandidate⟩ := appended_candidate h
  exact (candidate_event hcandidate).2.1

end Call

/-! Runs of calls. -/

section Runs

variable {Contents : Type} {format : WalFormat Contents} {version : Uuid → FormatVersion}
  {ledgers next : Uuid → AcceptanceFiles Contents} {history : List AcceptEvent} {event : AcceptEvent} {id : Uuid}

theorem appendedTo_snoc : appendedTo id (history ++ [event]) =
    appendedTo id history ++ (event.appended.toList.filter (·.event.runId = id)) := by
  rw [appendedTo, List.filterMap_append, List.filter_append]
  cases happended : event.appended <;> simp [appendedTo, happended]

theorem coherent_nil {version : FormatVersion} (hid : isUuid id = true) :
    Coherent format version id [] ⟨none, none⟩ := by
  refine ⟨⟨hid, ?_, ?_, rfl, List.nodup_nil⟩, Nat.zero_le _, rfl, .inl rfl⟩ <;>
  · intro entry hentry
    cases hentry

theorem coherent_run (hformat : format.Lawful)
    (hrun : Recorded (AcceptStep format version) (fun _ ↦ ⟨none, none⟩) history ledgers) (hid : isUuid id = true) :
    Coherent format (version id) id (appendedTo id history) (ledgers id) := by
  induction hrun with
  | nil => exact coherent_nil hid
  | @snoc history event ledgers next _ hstep ih =>
    obtain ⟨-, happended, rfl⟩ := hstep
    rw [appendedTo_snoc, happended]
    by_cases hsame : event.call.result.runId = id
    · subst hsame
      have hkept : (event.call.run format (version event.call.result.runId)
          (ledgers event.call.result.runId)).appended.toList.filter (·.event.runId = event.call.result.runId) =
          (event.call.run format (version event.call.result.runId)
            (ledgers event.call.result.runId)).appended.toList := by
        rw [List.filter_eq_self]
        intro entry hentry
        exact decide_eq_true (appended_run (Option.mem_toList.mp hentry))
      rw [hkept, Function.update_self]
      exact ih.accept hformat
    · have hnone : (event.call.run format (version event.call.result.runId)
          (ledgers event.call.result.runId)).appended.toList.filter (·.event.runId = id) = [] := by
        rw [List.filter_eq_nil_iff]
        intro entry hentry heq
        exact hsame ((appended_run (Option.mem_toList.mp hentry)).symm.trans (of_decide_eq_true heq))
      rw [hnone, List.append_nil, Function.update_of_ne (Ne.symm hsame)]
      exact ih

/-- An entry of the log is the candidate of the call that put it there. -/
theorem candidate_of_event (hformat : format.Lawful)
    (hrun : Recorded (AcceptStep format version) (fun _ ↦ ⟨none, none⟩) history ledgers)
    (hevent : event ∈ history) {entry : RuntimeEntry} (happended : event.appended = some entry) :
    candidate (version event.call.result.runId) event.call.result event.call.receiptHash entry.event.sequence =
      some entry := by
  obtain ⟨before, ledgers, next, -, hprefix, -, hlast, -⟩ := hrun.exists_step hevent
  obtain ⟨ledger, hledger, hcandidate⟩ := appended_candidate (hlast.symm.trans happended)
  obtain ⟨hsequence, -, -, hid⟩ := candidate_event hcandidate
  have hread := (coherent_run hformat hprefix hid).read
  obtain rfl := Option.some.inj (hledger.symm.trans hread)
  rw [hsequence]
  exact hcandidate

theorem mem_appendedTo {entry : RuntimeEntry} (hevent : event ∈ history) (happended : event.appended = some entry)
    (hid : entry.event.runId = id) : entry ∈ appendedTo id history :=
  List.mem_filter.mpr ⟨List.mem_filterMap.mpr ⟨event, hevent, happended⟩, decide_eq_true hid⟩

/-- A call that answers that its result is accepted has put it in the log. -/
theorem appended_of_accepted {files : AcceptanceFiles Contents} {call : AcceptCall} {version : FormatVersion}
    (h : (call.run format version files).status = some .accepted) :
    ∃ entry, (call.run format version files).appended = some entry := by
  rw [AcceptCall.run, Contracts.accept] at h ⊢
  split at h
  · cases h
  split at h
  · cases h
  split at h
  · split at h <;> cases h
  split at h
  · split at h
    · cases hprogress : call.progress with
      | returned => exact ⟨_, rfl⟩
      | stopped | appended | replaced => rw [hprogress] at h; cases h
    · cases h
  · cases h

/-- Over a whole run, what a call that is cut short at any place leaves of a ledger. -/
structure ExactlyOnce (format : WalFormat Contents) (version : Uuid → FormatVersion)
    (ledgers : Uuid → AcceptanceFiles Contents) (history : List AcceptEvent) (id : Uuid) : Prop where
  listed : scopedEntries format (version id) id (ledgers id) = some (appendedTo id history)
  numbered : (appendedTo id history).map (·.event.sequence) = List.range' 1 (appendedTo id history).length
  keys : ((appendedTo id history).map (·.event.idempotencyKey)).Nodup
  kept : ∀ event ∈ history, event.status = some .accepted → event.call.result.runId = id →
    ∃ entry, event.appended = some entry ∧ (appendedTo id history).count entry = 1
  replayed : ∀ event ∈ history, event.appended.isSome → event.call.result.runId = id → ∀ progress,
    { event.call with progress }.run format (version id) (ledgers id) = ⟨some .replayed, none, ledgers id⟩
  refused : ∀ call : AcceptCall, call.result.runId = id → ∀ entry ∈ appendedTo id history,
    entry.event.idempotencyKey = call.result.idempotencyKey →
    candidate (version id) call.result call.receiptHash entry.event.sequence ≠ some entry →
      (call.run format (version id) (ledgers id)).status ∈ [none, some .duplicateReceipt] ∧
        (call.run format (version id) (ledgers id)).files = ledgers id

theorem acceptance_exactly_once (hformat : format.Lawful)
    (hrun : Recorded (AcceptStep format version) (fun _ ↦ ⟨none, none⟩) history ledgers) (hid : isUuid id = true) :
    ExactlyOnce format version ledgers history id := by
  have hcoherent := coherent_run hformat hrun hid
  have hsafe : (appendedTo id history).length + 1 ≤ maxSafeInteger :=
    (Nat.succ_le_succ hcoherent.bounded).trans (by decide)
  refine ⟨?_, hcoherent.orderly.numbered, hcoherent.orderly.keys, ?_, ?_, ?_⟩
  · rw [scopedEntries, hcoherent.read, Option.map_some]
  · intro event hevent hstatus hsame
    obtain ⟨_, _, _, -, -, hanswer, happended, -⟩ := hrun.exists_step hevent
    obtain ⟨entry, hentry⟩ := appended_of_accepted (hanswer.symm.trans hstatus)
    have hcandidate := candidate_of_event hformat hrun hevent (happended.trans hentry)
    have hmem : entry ∈ appendedTo id history :=
      mem_appendedTo hevent (happended.trans hentry) ((candidate_event hcandidate).2.1.trans hsame)
    exact ⟨entry, happended.trans hentry,
      List.count_eq_one_of_mem (List.Nodup.of_map _ hcoherent.orderly.keys) hmem⟩
  · intro event hevent happended hsame progress
    subst hsame
    obtain ⟨entry, hentry⟩ := Option.isSome_iff_exists.mp happended
    have hcandidate := candidate_of_event hformat hrun hevent hentry
    obtain ⟨-, hentryRun, hentryKey, -⟩ := candidate_event hcandidate
    have hmem := mem_appendedTo hevent hentry hentryRun
    have hagain := @Coherent.accept_existing _ _ _ _ _ { event.call with progress } hcoherent _ hmem hentryKey
    rw [candidate_at hcandidate (Nat.succ_pos _) hsafe, Option.map_some, withSequence_back, if_pos rfl] at hagain
    exact hagain
  · intro call hsame entry hentry hkey hdiffers
    subst hsame
    rw [hcoherent.accept_existing hentry hkey]
    refine ⟨?_, rfl⟩
    cases hagain : candidate (version call.result.runId) call.result call.receiptHash
        ((appendedTo call.result.runId history).length + 1) with
    | none => simp
    | some found =>
      have hsequence := (hcoherent.orderly.settled entry hentry).ok.fields.sequence
      have hother := candidate_at hagain hsequence.2 hsequence.1
      rw [Option.map_some, if_neg]
      · simp
      · intro hsame
        exact hdiffers (hother.trans (congrArg some hsame.symm))

end Runs

/-! A result whose acceptance is cut short after its line is appended, and is repeated. -/

namespace Sample

open OmpLazy.State.Migration.Sample (format format_lawful runId)

def result : AcceptedResult where
  runId
  attempt := 0
  runRevision := 1
  ownerSessionId := "session"
  ownerEpoch := 1
  taskGeneration := 2
  workerRole := .low
  actualAgentId := "agent-a"
  actualJobId := some "job-a"
  captureCommit := String.ofList (List.replicate 40 'c')
  receiptPath := "receipt.json"
  artifactHash := String.ofList (List.replicate 64 'a')
  artifactPaths := ["artifact.txt"]
  cleanupReceiptPaths := ["cleanup.txt"]
  cleanupStatus := some .receipts
  cleanupScenarioId := none
  parentDecision := none
  scope := ⟨"worker-a", .low, 1⟩

def acceptCall (progress : AcceptProgress) : AcceptCall :=
  ⟨result, String.ofList (List.replicate 64 'b'), progress⟩

def acceptedEntry : RuntimeEntry :=
  ⟨result.event (acceptCall .returned).receiptHash 1, some result.scope⟩

def acceptedLog : AcceptanceFiles (List State.Bytes) :=
  ⟨none, some (format.unlines [format.stringify (encodeWalEntry acceptedEntry)])⟩

def acceptEvents : List AcceptEvent :=
  [⟨acceptCall .appended, none, some acceptedEntry⟩, ⟨acceptCall .returned, some .replayed, none⟩]

def emptyLedgers : Uuid → AcceptanceFiles (List State.Bytes) := fun _ ↦ ⟨none, none⟩

def acceptedLedgers : Uuid → AcceptanceFiles (List State.Bytes) :=
  Function.update emptyLedgers runId acceptedLog

theorem result_isUuid : isUuid result.runId = true := by decide

theorem result_trimmed : trim result.idempotencyKey = result.idempotencyKey :=
  trim_idempotencyKey result_isUuid (isLowerHexOf_replicate (by decide) 64)

theorem acceptedEntry_ok : acceptedEntry.Ok where
  fields := {
    sequence := by decide
    idempotencyKey := by
      obtain ⟨c, cs, hfirst, -⟩ := isUuid_head result_isUuid
      intro hempty
      have hkey := congrArg String.toList (result_trimmed.symm.trans hempty)
      rw [AcceptedResult.idempotencyKey, String.toList_append, hfirst] at hkey
      cases hkey
    runId := result_isUuid
    attempt := by decide
    runRevision := by decide
    ownerSessionId := by decide
    ownerEpoch := by decide
    taskGeneration := by decide
    actualAgentId := by decide
    actualJobId := by decide
    captureCommit := isLowerHexOf_replicate (by decide) 40
    receiptPath := by decide
    receiptHash := isLowerHexOf_replicate (by decide) 64
    artifactHash := isLowerHexOf_replicate (by decide) 64
    artifactPaths := by decide
    cleanupReceiptPaths := by decide
    cleanupScenarioId := by decide }
  binds := by decide
  scope scope hscope := by
    obtain rfl := Option.some.inj hscope
    exact ⟨by decide, by decide⟩

theorem acceptedEntry_tidy : acceptedEntry.tidy = acceptedEntry := by
  have hkey : trim acceptedEntry.event.idempotencyKey = acceptedEntry.event.idempotencyKey := result_trimmed
  rw [RuntimeEntry.tidy, WorkerAcceptanceEvent.tidy, hkey]
  decide

theorem acceptedEntry_candidate : candidate .v2 result (acceptCall .returned).receiptHash 1 = some acceptedEntry :=
  (entrySchema_encoded candidate_fits).mpr ⟨acceptedEntry_ok, acceptedEntry_tidy⟩

theorem accept_appended : (acceptCall .appended).run format .v2 ⟨none, none⟩ =
    ⟨none, some acceptedEntry, acceptedLog⟩ := by
  have hfresh : Coherent format .v2 (acceptCall .appended).result.runId [] ⟨none, none⟩ := coherent_nil result_isUuid
  rw [(hfresh.accept_entry (List.forall_mem_nil _) acceptedEntry_candidate).2]
  rfl

theorem accept_replayed : (acceptCall .returned).run format .v2 acceptedLog =
    ⟨some .replayed, none, acceptedLog⟩ := by
  have hfresh : Coherent format .v2 (acceptCall .appended).result.runId [] ⟨none, none⟩ := coherent_nil result_isUuid
  have happended := hfresh.accept format_lawful
  rw [accept_appended] at happended
  have hagain : candidate .v2 result (acceptCall .returned).receiptHash 2 = some (acceptedEntry.withSequence 2) :=
    candidate_at acceptedEntry_candidate (by decide) (by decide)
  have hreplayed := @Coherent.accept_existing _ _ _ _ _ (acceptCall .returned) happended _
    (List.mem_singleton_self acceptedEntry) rfl
  refine hreplayed.trans ?_
  change AcceptEffect.mk ((candidate .v2 result (acceptCall .returned).receiptHash 2).map _) _ _ = _
  rw [hagain, Option.map_some, withSequence_back, if_pos rfl]

theorem acceptEvents_recorded :
    Recorded (AcceptStep format fun _ ↦ .v2) (fun _ ↦ ⟨none, none⟩) acceptEvents acceptedLedgers := by
  have happended : Recorded (AcceptStep format fun _ ↦ .v2) (fun _ ↦ ⟨none, none⟩)
      [⟨acceptCall .appended, none, some acceptedEntry⟩] acceptedLedgers := by
    refine Recorded.nil.snoc ⟨?_, ?_, ?_⟩ <;> rw [accept_appended]
    rfl
  refine happended.snoc ?_
  have hlog : acceptedLedgers runId = acceptedLog := Function.update_self ..
  refine ⟨?_, ?_, ?_⟩ <;> rw [show (acceptCall .returned).result.runId = runId from rfl, hlog, accept_replayed]
  rw [acceptedLedgers, Function.update_idem]

end Sample

open Sample in
/-- A result that was appended before a crash is in the ledger once, and its repetition is a replay. -/
theorem acceptance_exactly_once_crashed : ExactlyOnce State.Migration.Sample.format (fun _ ↦ .v2) acceptedLedgers
    acceptEvents State.Migration.Sample.runId :=
  acceptance_exactly_once State.Migration.Sample.format_lawful acceptEvents_recorded result_isUuid

end OmpLazy.Contracts

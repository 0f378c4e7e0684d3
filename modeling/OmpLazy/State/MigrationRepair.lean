import OmpLazy.State.EventUpgrade
import OmpLazy.State.CrashRecovery
import OmpLazy.State.ReadableMigration
import OmpLazy.State.StateFiles

namespace OmpLazy.State

open OmpLazy.Foundation OmpLazy.Foundation.Schema OmpLazy.Foundation.Text EventStore Action Store

namespace Migration

def MigrationRecordResult.contents {Contents : Type} : MigrationRecordResult Contents → Option Contents
  | .current bytes | .migrated bytes => some bytes
  | .invalid => none

section Conversion

variable {Contents : Type} (format : WalFormat Contents) (isAbsolute : String → Bool)
  (identities : List TaskIdentity)

def convertFile (file : Sigma fun _ : String ↦ Contents) : Option (Sigma fun _ : String ↦ Contents) :=
  (MigrationRecordResult.contents (migrateLifecycleRecord format.toTextFormat
    (ledgerRules format isAbsolute) file.1 file.2 identities)).map (⟨file.1, ·⟩)

/-- Every record of the first files is converted in the second. -/
def Converted (files files' : FileTree Contents) : Prop :=
  files.entries.mapM (convertFile format isAbsolute identities) = some files'.entries

instance [DecidableEq Contents] (files files' : FileTree Contents) :
    Decidable (Converted format isAbsolute identities files files') :=
  inferInstanceAs (Decidable (_ = some _))

end Conversion

section Lookup

variable {Contents : Type} {format : WalFormat Contents} {isAbsolute : String → Bool}
  {identities : List TaskIdentity} {files files' : FileTree Contents} {path : String} {bytes : Contents}

theorem convertFile_eq_some {file file' : Sigma fun _ : String ↦ Contents} :
    convertFile format isAbsolute identities file = some file' ↔ file'.1 = file.1 ∧
      MigrationRecordResult.contents (migrateLifecycleRecord format.toTextFormat
        (ledgerRules format isAbsolute) file.1 file.2 identities) = some file'.2 := by
  obtain ⟨path', bytes'⟩ := file'
  rw [convertFile, Option.map_eq_some_iff]
  constructor
  · rintro ⟨new, hnew, heq⟩
    cases heq
    exact ⟨rfl, hnew⟩
  · rintro ⟨rfl, hnew⟩
    exact ⟨_, hnew, rfl⟩

theorem Converted.forall₂ (h : Converted format isAbsolute identities files files') :
    List.Forall₂ (fun file file' ↦ convertFile format isAbsolute identities file = some file')
      files.entries files'.entries := mapM_eq_some.mp h

theorem lookup_forall₂ {entries entries' : List (Sigma fun _ : String ↦ Contents)}
    (h : List.Forall₂ (fun file file' ↦ convertFile format isAbsolute identities file = some file')
      entries entries') (path : String) :
    (entries.dlookup path = none ∧ entries'.dlookup path = none) ∨
      ∃ bytes new, entries.dlookup path = some bytes ∧ entries'.dlookup path = some new ∧
        MigrationRecordResult.contents (migrateLifecycleRecord format.toTextFormat
          (ledgerRules format isAbsolute) path bytes identities) = some new := by
  induction h with
  | nil => exact .inl ⟨rfl, rfl⟩
  | @cons file file' _ _ hfile _ ih =>
    obtain ⟨path', bytes'⟩ := file'
    obtain ⟨rfl, hnew⟩ := convertFile_eq_some.mp hfile
    by_cases hpath : path = file.1
    · subst hpath
      exact .inr ⟨file.2, bytes', List.dlookup_cons_eq _ _ _, List.dlookup_cons_eq _ _ _, hnew⟩
    · have hskip (file : Sigma fun _ : String ↦ Contents) (entries) (hne : path ≠ file.1) :
          (file :: entries).dlookup path = entries.dlookup path := List.dlookup_cons_ne entries file hne
      rw [hskip file _ hpath, hskip ⟨file.1, bytes'⟩ _ hpath]
      exact ih

/-- A path has a file in both, the second converted, or in none. -/
theorem Converted.lookup (h : Converted format isAbsolute identities files files') (path : String) :
    (files.lookup path = none ∧ files'.lookup path = none) ∨
      ∃ bytes new, files.lookup path = some bytes ∧ files'.lookup path = some new ∧
        MigrationRecordResult.contents (migrateLifecycleRecord format.toTextFormat
          (ledgerRules format isAbsolute) path bytes identities) = some new :=
  lookup_forall₂ h.forall₂ path

end Lookup

/-! A record of the first version, as it is read once it is converted. -/

section Records

variable {Contents : Type} {format : WalFormat Contents} {isAbsolute : String → Bool}
  {identities : List TaskIdentity} {root : StateRoot} {bytes new : Contents} {path : String}
  {fields : List (String × Json)}

theorem currentV2_legacy {left : List String} {accepts : Json → Bool} (hleft : "schemaVersion" ∉ left)
    (h : required fields "schemaVersion" (literal (.nat 1)) = some ()) :
    currentV2 ((Json.object fields).without left) accepts = false := by
  have hmember : ((Json.object fields).without left).get? "schemaVersion" = some (.nat 1) := by
    rw [← member_version h]
    exact Json.member_filter hleft fields
  rw [currentV2, schemaVersion, if_pos hmember]
  rfl

theorem activeIndex_legacy {index : ActiveIndex} (h : activeIndexSchema (.object fields) = some index)
    (hversion : index.version = .v1) : required fields "schemaVersion" (literal (.nat 1)) = some () := by
  simp only [activeIndexSchema, union, Option.or_eq_some_iff] at h
  obtain hread | ⟨-, hread⟩ := h
  · have hbody := (strictObject_object.mp hread).2
    simp only [Option.bind_eq_bind, Option.bind_eq_some_iff] at hbody
    obtain ⟨⟨⟩, hliteral, -⟩ := hbody
    exact hliteral
  · have hbody := (strictObject_object.mp hread).2
    simp only [Option.bind_eq_bind, Option.bind_eq_some_iff] at hbody
    obtain ⟨-, -, migrationRevision, -, hfields⟩ := hbody
    rw [(activeIndexFields_version hfields).1] at hversion
    cases hversion

theorem contents_kind {kind : RecordKind} (hkind : recordKind path = some kind) (hwal : kind ≠ .wal)
    (hparse : format.parse bytes = some (.object fields))
    (h : MigrationRecordResult.contents (migrateLifecycleRecord format.toTextFormat
      (ledgerRules format isAbsolute) path bytes identities) = some new) :
    MigrationRecordResult.contents (migrateKind format isAbsolute bytes (.object fields) identities kind) =
      some new := by
  have hvalue : parseRecord format.toTextFormat bytes = some (.object fields) := by
    rw [parseRecord, hparse]
  rw [migrateLifecycleRecord_kind hkind hwal, hvalue] at h
  exact h

theorem index_converted (hformat : format.Lawful) {index : ActiveIndex}
    (hdecode : decodeActiveIndex (format.parse bytes) = .ok index) (hversion : index.version = .v1)
    (h : MigrationRecordResult.contents (migrateLifecycleRecord format.toTextFormat
      (ledgerRules format isAbsolute) StateFiles.indexPath bytes identities) = some new) :
    decodeActiveIndex (format.parse new) = .ok (index.upgraded 1) := by
  obtain ⟨json, hparse, hschema, hvalid⟩ := decodeActiveIndex_eq_ok.mp hdecode
  obtain ⟨fields, rfl, hlisted, hfields⟩ := activeIndex_v1 hschema (by rw [hversion]; rfl)
  have hcontents := contents_kind (show recordKind StateFiles.indexPath = some .activeIndex by decide)
    (by decide) hparse h
  rw [migrateKind, migrateIndex, currentV2_legacy (by decide) (activeIndex_legacy hschema hversion),
    if_neg Bool.false_ne_true, hschema] at hcontents
  obtain rfl := Option.some.inj hcontents
  rw [hformat.parse_stringify]
  exact decodeActiveIndex_eq_ok.mpr ⟨_, rfl, migratedIndex_read hlisted hfields, ⟨hvalid.keys, hvalid.runIds⟩⟩

theorem run_converted (hformat : format.Lawful) {run : AnyRun}
    (hdecode : decodeRun root (format.parse bytes) = .ok run) (hversion : run.version = .v1)
    (hkind : recordKind path = some .run)
    (h : MigrationRecordResult.contents (migrateLifecycleRecord format.toTextFormat
      (ledgerRules format isAbsolute) path bytes identities) = some new) :
    decodeRun root (format.parse new) = .ok run.upgraded := by
  obtain ⟨json, hparse, hschema, hcontained⟩ := decodeRun_eq_ok.mp hdecode
  obtain ⟨workflow, fields, rfl, hlisted, hfields⟩ := run_v1 hschema (by rw [hversion]; rfl)
  have hcontents := contents_kind hkind (by decide) hparse h
  rw [migrateKind, migrateRun, currentV2_legacy (by decide) (envelopeFields_version hfields).2.1,
    if_neg Bool.false_ne_true, hschema] at hcontents
  obtain rfl := Option.some.inj hcontents
  rw [hformat.parse_stringify, AnyRun.upgraded_v1 hversion]
  exact decodeRun_eq_ok.mpr ⟨_, rfl, migratedRun_read hlisted hfields, hcontained⟩

/-- The event that a migration makes of one of the first version. -/
def migratedEvent (event : PersistedStateEvent) : PersistedStateEvent :=
  event.unbound (legacyGeneration event) true

@[simp] theorem mutation_migratedEvent (event : PersistedStateEvent) :
    (migratedEvent event).mutation = event.mutation := rfl

theorem event_converted (hformat : format.Lawful) {event : PersistedStateEvent}
    (hdecode : decodeStateEvent (format.parse bytes) = .ok event) (hversion : event.version = .v1)
    (hkind : recordKind path = some .event)
    (h : MigrationRecordResult.contents (migrateLifecycleRecord format.toTextFormat
      (ledgerRules format isAbsolute) path bytes identities) = some new) :
    decodeStateEvent (format.parse new) = .ok (migratedEvent event) := by
  obtain ⟨json, hparse, hread⟩ := decodeStateEvent_eq_ok.mp hdecode
  have hmember := PersistedStateEvent.version_of_eventSchema hread
  rw [hversion] at hmember
  have hschema : stateEventSchema json = some event := by
    rw [eventSchema, if_neg (by rw [hmember]; decide)] at hread
    exact hread
  have hv2 : stateEventV2Schema json = none := by
    refine Option.eq_none_iff_forall_ne_some.mpr fun event' h' ↦ ?_
    obtain ⟨fields, rfl, hbody⟩ := strictObject_eq_some (Option.filter_eq_some_iff.mp h').1
    simp only [Option.bind_eq_bind, Option.bind_eq_some_iff] at hbody
    obtain ⟨⟨⟩, hliteral, -⟩ := hbody
    have hnumber := hmember.symm.trans (member_version hliteral)
    simp [EventVersion.number, Json.nat] at hnumber
  obtain ⟨fields, rfl, -⟩ := strictObject_eq_some (Option.filter_eq_some_iff.mp hschema).1
  have hcontents := contents_kind hkind (by decide) hparse h
  rw [migrateKind, migrateEvent, hv2, if_neg (by decide), hschema] at hcontents
  dsimp only at hcontents
  split at hcontents
  · cases hcontents
  obtain rfl := Option.some.inj hcontents
  rw [hformat.parse_stringify]
  refine decodeStateEvent_eq_ok.mpr ⟨.object (migratedEventFields event fields), rfl, ?_⟩
  have hnumber : (Json.object (migratedEventFields event fields)).get? "schemaVersion" = some (.nat 2) := by
    rw [Json.get?, migratedEventFields, Json.member_setField, if_neg (by decide), Json.member_setField,
      if_neg (by decide), Json.member_setField, if_pos rfl]
  rw [eventSchema, if_pos hnumber, migratedEvent_read hschema]
  rfl

end Records

/-! The kinds of the paths. -/

section Paths

theorem endsWith_wal {path : String} (h : path.toList.getLast? = some 'n') :
    endsWith ".wal.jsonl" path = false := by
  by_contra hends
  rw [Bool.not_eq_false, endsWith, List.isSuffixOf_iff_suffix] at hends
  obtain ⟨front, hpath⟩ := hends
  rw [← hpath, List.getLast?_append] at h
  have hlast : (".wal.jsonl".toList.getLast?).or front.getLast? = some 'l' := rfl
  rw [hlast] at h
  exact absurd h (by decide)

theorem recordKind_runPath (runId : Uuid) : recordKind (StateFiles.runPath runId) = some .run := by
  have hlast : (StateFiles.runPath runId).toList.getLast? = some 'n' := by
    rw [StateFiles.runPath, String.toList_append, String.toList_append, ← List.append_assoc,
      List.getLast?_append]
    rfl
  have hstarts : startsWith "runs/" (StateFiles.runPath runId) = true := by
    simp [startsWith, StateFiles.runPath, String.toList_append]
  rw [recordKind, endsWith_wal hlast, if_neg Bool.false_ne_true]
  refine (if_neg (StateFiles.indexPath_ne_runPath runId).symm).trans ?_
  rw [hstarts, if_pos rfl]

theorem recordKind_eventPath {name : String} {parsed : ℕ × String} (h : parseEventName name = some parsed) :
    recordKind (StateFiles.eventPath name) = some .event := by
  have hlast : (StateFiles.eventPath name).toList.getLast? = some 'n' := by
    rw [StateFiles.eventPath, String.toList_append, List.getLast?_append]
    rw [parseEventName] at h
    split at h
    · rename_i sequence rest hdigits
      split at h
      · rename_i hrest
        obtain ⟨ds, hname, -⟩ := digits_eq_some hdigits
        simp only [Bool.and_eq_true, decide_eq_true_eq] at hrest
        have hsplit : name.toList = ds ++ '-' :: rest.take 36 ++ ".json".toList := by
          rw [hname, ← hrest.1, List.append_assoc, List.cons_append, List.take_append_drop]
        rw [hsplit, List.getLast?_append]
        rfl
      · cases h
    · cases h
  have hnotRun : startsWith "runs/" (StateFiles.eventPath name) = false := by
    simp [startsWith, StateFiles.eventPath, String.toList_append, List.isPrefixOf]
  have hnotIndex : StateFiles.eventPath name ≠ StateFiles.indexPath := fun heq ↦ by
    cases StateFiles.startsWith_indexPath.symm.trans (heq ▸ StateFiles.startsWith_eventPath name)
  rw [recordKind, endsWith_wal hlast, if_neg Bool.false_ne_true]
  refine (if_neg hnotIndex).trans ?_
  rw [hnotRun, if_neg Bool.false_ne_true, StateFiles.startsWith_eventPath, if_pos rfl]

end Paths

/-! What the store reads in the converted files. -/

section Reading

variable {Contents : Type} {format : WalFormat Contents} {isAbsolute : String → Bool}
  {identities : List TaskIdentity} {files files' : FileTree Contents} {root : StateRoot}
  {receipts receipts' : AnyRun → Except Thrown ReceiptAuthority}

/-- The index of the converted files; where there is no file of it, it is of the first version. -/
def migratedIndex (files : FileTree Contents) (index : ActiveIndex) : ActiveIndex :=
  if StateFiles.indexPath ∈ files then index.upgraded 1 else index

theorem readIndex_converted (hformat : format.Lawful) {index : ActiveIndex}
    (h : Converted format isAbsolute identities files files')
    (hread : readIndex (StateFiles.disk format.toTextFormat receipts files) = .ok index)
    (hversion : index.version = .v1) :
    readIndex (StateFiles.disk format.toTextFormat receipts' files') = .ok (migratedIndex files index) := by
  rw [readIndex_eq_ok] at hread ⊢
  obtain ⟨hnone, hnone'⟩ | ⟨bytes, new, hfile, hfile', hnew⟩ := h.lookup StateFiles.indexPath
  · rw [migratedIndex, if_neg (AList.lookup_eq_none.mp hnone)]
    simpa [StateFiles.disk, hnone, hnone'] using hread
  · have hpresent : StateFiles.indexPath ∈ files := AList.lookup_isSome.mp (by rw [hfile]; rfl)
    have hdecode : decodeActiveIndex (format.parse bytes) = .ok index := by
      simpa [StateFiles.disk, hfile] using hread
    rw [migratedIndex, if_pos hpresent]
    refine .inr ⟨format.parse new, ?_, index_converted hformat hdecode hversion hnew⟩
    simp [StateFiles.disk, hfile']

theorem readRun_converted (hformat : format.Lawful) {runId : Uuid} {current : Option AnyRun}
    (h : Converted format isAbsolute identities files files')
    (hread : readRun root (StateFiles.disk format.toTextFormat receipts files) runId = .ok current)
    (hversion : ∀ run ∈ current, run.version = .v1) :
    readRun root (StateFiles.disk format.toTextFormat receipts' files') runId =
      .ok (current.map AnyRun.upgraded) := by
  rw [readRun] at hread ⊢
  split at hread
  · rename_i huuid
    rw [if_pos huuid]
    obtain ⟨hnone, hnone'⟩ | ⟨bytes, new, hfile, hfile', hnew⟩ := h.lookup (StateFiles.runPath runId)
    · simp only [StateFiles.disk, hnone, hnone', Option.map_none] at hread ⊢
      obtain rfl := Except.ok.inj hread
      rfl
    · simp only [StateFiles.disk, hfile, hfile', Option.map_some, mapError_eq_ok] at hread ⊢
      cases hdecode : decodeRun root (format.parse bytes) with
      | error code =>
        rw [hdecode] at hread
        cases hread
      | ok run =>
        rw [hdecode] at hread
        obtain rfl := Except.ok.inj hread
        rw [run_converted hformat hdecode (hversion run rfl) (recordKind_runPath runId) hnew]
        rfl
  · rename_i huuid
    rw [if_neg huuid]
    obtain rfl := Except.ok.inj hread
    rfl

/-- An event file and what the conversion makes of it. -/
def ConvertedEvent (file file' : EventFile) : Prop :=
  file'.name = file.name ∧ ∀ event, readEventFile file = .ok event → event.version = .v1 →
    readEventFile file' = .ok (migratedEvent event)

theorem convertedEvent_of_files (hformat : format.Lawful) {name : String} {bytes new : Contents}
    (hnew : MigrationRecordResult.contents (migrateLifecycleRecord format.toTextFormat
      (ledgerRules format isAbsolute) (StateFiles.eventPath name) bytes identities) = some new) :
    ConvertedEvent ⟨name, format.parse bytes⟩ ⟨name, format.parse new⟩ := by
  refine ⟨rfl, fun event hread hversion ↦ ?_⟩
  have hname := parse_of_readEventFile hread
  have hdecode := event_converted hformat (decode_of_readEventFile hread) hversion
    (recordKind_eventPath hname) hnew
  rw [readEventFile]
  simp only [hname, hdecode]
  exact if_neg (by simp [migratedEvent, PersistedStateEvent.unbound])

theorem after_eq_some {start s rest : String} (h : after start s = some rest) : s = start ++ rest := by
  rw [after] at h
  split at h
  · rename_i hstarts
    obtain ⟨tail, htail⟩ := List.isPrefixOf_iff_prefix.mp hstarts
    obtain rfl := Option.some.inj h
    apply String.toList_injective
    rw [String.toList_append, ← htail, List.drop_left' String.length_toList, String.toList_ofList]
  · cases h

theorem eventFiles_converted (hformat : format.Lawful)
    {entries entries' : List (Sigma fun _ : String ↦ Contents)}
    (h : List.Forall₂ (fun file file' ↦ convertFile format isAbsolute identities file = some file')
      entries entries') :
    List.Forall₂ ConvertedEvent (entries.filterMap (StateFiles.eventFile? format.toTextFormat))
      (entries'.filterMap (StateFiles.eventFile? format.toTextFormat)) := by
  induction h with
  | nil => exact .nil
  | @cons file file' _ _ hfile _ ih =>
    obtain ⟨path', bytes'⟩ := file'
    obtain ⟨rfl, hnew⟩ := convertFile_eq_some.mp hfile
    cases hname : after "events/" file.1 with
    | none =>
      rw [List.filterMap_cons_none (by rw [StateFiles.eventFile?, hname]; rfl),
        List.filterMap_cons_none (by rw [StateFiles.eventFile?, hname]; rfl)]
      exact ih
    | some name =>
      rw [after_eq_some hname] at hnew
      rw [List.filterMap_cons_some (by rw [StateFiles.eventFile?, hname]; rfl),
        List.filterMap_cons_some (by rw [StateFiles.eventFile?, hname]; rfl)]
      exact .cons (convertedEvent_of_files hformat hnew) ih

theorem Converted.events (hformat : format.Lawful) (h : Converted format isAbsolute identities files files') :
    List.Forall₂ ConvertedEvent (StateFiles.disk format.toTextFormat receipts files).events
      (StateFiles.disk format.toTextFormat receipts' files').events :=
  List.rel_reverse (eventFiles_converted hformat h.forall₂)

theorem readEventFiles_converted {events events' : List EventFile} (h : List.Forall₂ ConvertedEvent events events')
    {read : List PersistedStateEvent}
    (hread : (events.filter fun file ↦ !isTemporary file.name).mapM readEventFile = .ok read)
    (hversion : ∀ event ∈ read, event.version = .v1) :
    (events'.filter fun file ↦ !isTemporary file.name).mapM readEventFile = .ok (read.map migratedEvent) := by
  induction h generalizing read with
  | nil =>
    obtain rfl := Except.ok.inj hread
    rfl
  | @cons file file' events events' hfile _ ih =>
    rw [List.filter_cons, hfile.1]
    rw [List.filter_cons] at hread
    split at hread
    · rename_i hkept
      rw [if_pos hkept]
      rw [List.mapM_cons] at hread ⊢
      obtain ⟨event, hevent, hread⟩ := bind_eq_ok.mp hread
      obtain ⟨rest, hrest, hcons⟩ := bind_eq_ok.mp hread
      obtain rfl := Except.ok.inj hcons
      rw [hfile.2 event hevent (hversion event List.mem_cons_self),
        ih hrest fun event hmem ↦ hversion event (List.mem_cons_of_mem _ hmem)]
      rfl
    · rename_i hskipped
      rw [if_neg hskipped]
      exact ih hread hversion

theorem readEvents_converted (hformat : format.Lawful) {events : List PersistedStateEvent}
    (h : Converted format isAbsolute identities files files')
    (hread : readEvents (StateFiles.disk format.toTextFormat receipts files) = .ok events)
    (hversion : ∀ event ∈ events, event.version = .v1) :
    readEvents (StateFiles.disk format.toTextFormat receipts' files') = .ok (events.map migratedEvent) := by
  rw [readEvents_eq_ok, readAll_eq_ok] at hread ⊢
  obtain ⟨read, hfiles, rfl, hnumbered⟩ := hread
  refine ⟨read.map migratedEvent, readEventFiles_converted (h.events hformat) hfiles fun event hmem ↦
    hversion event ((List.perm_insertionSort _ _).mem_iff.mpr hmem), ?_, ?_⟩
  · exact (List.map_insertionSort bySequence bySequence migratedEvent read fun _ _ _ _ ↦ Iff.rfl).symm
  · rw [Numbered, List.map_map, List.length_map, ← hnumbered]
    rfl

end Reading

end Migration

/-! A repair, as it writes what it has decided. -/

section Repairs

variable {root : StateRoot} {disk : Disk} {options : CallOptions} {deadline : Deadline}
  {index : ActiveIndex} {events : List PersistedStateEvent} {event : PersistedStateEvent}
  {current : Option AnyRun} {run : AnyRun} {published : Bool} {next : ActiveIndex}

/-- The root is one event ahead of its index. -/
structure Ahead (root : StateRoot) (disk : Disk) (index : ActiveIndex) (events : List PersistedStateEvent)
    (event : PersistedStateEvent) (current : Option AnyRun) : Prop where
  hindex : readIndex disk = .ok index
  hevents : readEvents disk = .ok events
  last : events.getLast? = some event
  sequence : event.sequence = index.revision + 1
  expected : event.expected.indexRevision = index.revision
  hcurrent : readRun root disk event.runId = .ok current

theorem Ahead.decideRepair (h : Ahead root disk index events event current) :
    decideRepair root disk = repairEvent disk index event current := by
  simp [State.decideRepair, h.hindex, h.hevents, h.last, h.sequence, h.expected, h.hcurrent, bind, Except.bind]

/-- The end of a repair: it publishes the index. -/
def publishRepairIndex (run : AnyRun) (index : ActiveIndex) : Store (Except RepairErrorCode Repaired) := do
  if !(← isValid) then return .error (.transaction .deadlineExpired)
  atomicReplace (·.writeIndex index)
  return .ok ⟨run, index⟩

/-- The writes of a repair. -/
def publishRepair (run : AnyRun) (published : Bool) (index : ActiveIndex) :
    Store (Except RepairErrorCode Repaired) := do
  if !(← isValid) then return .error (.transaction .deadlineExpired)
  if !published then atomicReplace (·.writeRun run)
  publishRepairIndex run index

theorem exec_publishRepairIndex (n : ℕ) : exec (publishRepairIndex run next) ⟨disk, deadline.after n⟩ =
    if deadline.expired n then
      (.ok (.error (.transaction .deadlineExpired)), ⟨disk, deadline.after (n + 1)⟩)
    else if deadline.expired (n + 2) then (.error .atomicFile, ⟨disk, deadline.after (n + 3)⟩)
    else (.ok (.ok ⟨run, next⟩), ⟨disk.writeIndex next, deadline.after (n + 3)⟩) := by
  rw [publishRepairIndex, exec_bind, exec_isValid]
  cases deadline.expired n with
  | true => rfl
  | false =>
    simp only [Bool.not_false, Bool.not_true, Bool.false_eq_true, if_false, exec_bind, exec_atomicReplace]
    cases deadline.expired (n + 2) <;> rfl

/-- Whether the writes of a repair come to their end depends on the time alone. -/
theorem exec_publishRepair (deadline : Deadline) (n : ℕ) (published : Bool) :
    (∃ left, ∀ disk run index, exec (publishRepair run published index) ⟨disk, deadline.after n⟩ =
      (.ok (.ok ⟨run, index⟩), ⟨(RepairDecision.publish run published index).written disk, left⟩)) ∨
    ∀ disk run index repaired session,
      exec (publishRepair run published index) ⟨disk, deadline.after n⟩ ≠ (.ok (.ok repaired), session) := by
  cases hfirst : deadline.expired n with
  | true =>
    refine .inr fun disk run index repaired session h ↦ ?_
    simp only [publishRepair, exec_bind, exec_isValid, hfirst] at h
    cases h
  | false =>
    have hstart (disk run index) : exec (publishRepair run published index) ⟨disk, deadline.after n⟩ =
        exec (if !published then atomicReplace (·.writeRun run) >>= fun _ ↦ publishRepairIndex run index
          else publishRepairIndex run index) ⟨disk, deadline.after (n + 1)⟩ := by
      simp only [publishRepair, exec_bind, exec_isValid, hfirst]
      cases published <;> rfl
    simp only [hstart]
    cases published with
    | true =>
      simp only [Bool.not_true, Bool.false_eq_true, if_false, exec_publishRepairIndex]
      cases deadline.expired (n + 1) <;> cases deadline.expired (n + 1 + 2)
      · exact .inl ⟨_, fun _ _ _ ↦ rfl⟩
      all_goals exact .inr fun _ _ _ _ _ h ↦ by simp at h
    | false =>
      simp only [Bool.not_false, if_true, exec_bind, exec_atomicReplace]
      cases deadline.expired (n + 1 + 1)
      · simp only [Bool.false_eq_true, if_false, exec_publishRepairIndex]
        cases deadline.expired (n + 1 + 2) <;> cases deadline.expired (n + 1 + 2 + 2)
        · exact .inl ⟨_, fun _ _ _ ↦ rfl⟩
        all_goals exact .inr fun _ _ _ _ _ h ↦ by simp at h
      · exact .inr fun _ _ _ _ _ h ↦ by simp at h

/-- How a repair comes to its decision, and what it does then. -/
def startedRepair (root : StateRoot) (options : CallOptions) (deadline : Deadline) (disk : Disk) :
    Except Thrown (Except RepairErrorCode Repaired) × Session :=
  if deadline.expired 0 then (.ok (.error (.transaction .deadlineExpired)), ⟨disk, deadline.after 1⟩)
  else match options.escape with
    | some code => (.ok (.error (.transaction code)), ⟨disk, deadline.after 1⟩)
    | none =>
      if options.free && !deadline.expired (1 + 2 * options.waits) then
        match decideRepair root disk with
        | .error error => (.error error, ⟨disk, deadline.after (1 + 2 * options.waits + 1)⟩)
        | .ok (.refused code) => (.ok (.error code), ⟨disk, deadline.after (1 + 2 * options.waits + 1)⟩)
        | .ok (.publish run published index) =>
          exec (publishRepair run published index) ⟨disk, deadline.after (1 + 2 * options.waits + 1)⟩
      else (.ok (.error (.transaction .lockTimeout)), ⟨disk, deadline.after (1 + 2 * options.waits + 1)⟩)

theorem exec_repairState_started :
    exec (repairState root options) ⟨disk, deadline⟩ = startedRepair root options deadline disk := by
  suffices h : exec (repairState root options) ⟨disk, deadline.after 0⟩ =
      startedRepair root options deadline disk by
    rwa [Deadline.after_zero] at h
  simp only [repairState, startedRepair, exec_bind, exec_isValid]
  cases deadline.expired 0 with
  | true => rfl
  | false =>
    cases options.escape with
    | some code => rfl
    | none =>
      simp only [Bool.not_false, Bool.not_true, Bool.false_eq_true, if_false, exec_bind, exec_tryAcquire,
        Nat.zero_add]
      cases options.free && !deadline.expired (1 + 2 * options.waits) with
      | false => rfl
      | true =>
        simp only [Bool.not_true, Bool.false_eq_true, if_false, if_true, exec_bind, exec_get]
        cases decideRepair root disk with
        | error error => rfl
        | ok decision => cases decision <;> rfl

/-- A repair that succeeds writes what it decided, and would at the same time have written another
decision. -/
theorem exec_repairState_publish {repaired : Repaired} {session : Session}
    (h : exec (repairState root options) ⟨disk, deadline⟩ = (.ok (.ok repaired), session)) :
    ∃ published, decideRepair root disk = .ok (.publish repaired.run published repaired.index) ∧
      session.disk = (RepairDecision.publish repaired.run published repaired.index).written disk ∧
      ∀ disk' run' index', decideRepair root disk' = .ok (.publish run' published index') →
        exec (repairState root options) ⟨disk', deadline⟩ = (.ok (.ok ⟨run', index'⟩),
          ⟨(RepairDecision.publish run' published index').written disk', session.deadline⟩) := by
  simp only [exec_repairState_started, startedRepair] at h ⊢
  split at h
  · cases h
  · split at h
    · cases h
    · split at h
      · rename_i hescape hlock
        split at h
        · cases h
        · cases h
        · rename_i run published index hdecision
          obtain ⟨left, hpublish⟩ | hpublish := exec_publishRepair deadline (1 + 2 * options.waits + 1) published
          · rw [hpublish] at h
            cases h
            refine ⟨published, hdecision, rfl, fun disk' run' index' h' ↦ ?_⟩
            rw [if_neg ‹_›, h']
            simp only [hlock, if_true, hpublish]
          · exact absurd h (hpublish _ _ _ _ _)
      · cases h

end Repairs

/-! A migrated root, repaired. -/

section Migrated

open Migration

variable {Contents : Type} {format : WalFormat Contents} {isAbsolute : String → Bool}
  {identities : List TaskIdentity} {files files' : FileTree Contents} {root : StateRoot}
  {receipts receipts' : AnyRun → Except Thrown ReceiptAuthority} {options : CallOptions}
  {deadline : Deadline} {index : ActiveIndex} {events : List PersistedStateEvent}
  {event : PersistedStateEvent} {current : Option AnyRun} {run next : AnyRun} {published : Bool}

/-- The store is of the first version. -/
structure Legacy (index : ActiveIndex) (events : List PersistedStateEvent) (current : Option AnyRun) :
    Prop where
  index : index.version = .v1
  events : ∀ event ∈ events, event.version = .v1
  current : ∀ run ∈ current, run.version = .v1

/-- The kinds of which a migrated event has no effect on its run. -/
def ineffective (kind : MutationKind) : Bool := kind ∈ [.goalCycleStarted, .criterionFailureRecorded]

/-- A run whose snapshot bears the number of the event has been published. -/
def isPublished (event : PersistedStateEvent) (current : Option AnyRun) : Bool :=
  current.any (·.transactionRevision = event.sequence)

/-- What a repair yields where the ineffective kinds leave a run as it is but for its number. -/
def legacyRepaired (index : ActiveIndex) (event : PersistedStateEvent) (current : Option AnyRun)
    (repaired : Repaired) : Repaired :=
  match current with
  | none => repaired
  | some run =>
    if ineffective event.mutation.kind ∧ !isPublished event current then
      ⟨run.stamped event.sequence, deriveIndex index (run.stamped event.sequence) event.sequence⟩
    else repaired

def Repaired.migrated (files : FileTree Contents) (repaired : Repaired) : Repaired :=
  ⟨repaired.run.upgraded, migratedIndex files repaired.index⟩

theorem legacyRepaired_index {repaired : Repaired}
    (h : repaired.index = deriveIndex index repaired.run event.sequence) :
    (legacyRepaired index event current repaired).index =
      deriveIndex index (legacyRepaired index event current repaired).run event.sequence := by
  cases current with
  | none => exact h
  | some run =>
    simp only [legacyRepaired]
    split
    · rfl
    · exact h

theorem migratedIndex_revision : (migratedIndex files index).revision = index.revision := by
  rw [migratedIndex]
  split <;> rfl

theorem deriveIndex_migrated (run : AnyRun) (sequence : ℕ) :
    deriveIndex (migratedIndex files index) run.upgraded sequence =
      migratedIndex files (deriveIndex index run sequence) := by
  simp only [migratedIndex]
  split
  · exact deriveIndex_upgraded 1 index run sequence
  · obtain ⟨_, h⟩ := run.upgraded_versioned
    rw [h]
    rfl

theorem Ahead.converted (hformat : format.Lawful) (h : Converted format isAbsolute identities files files')
    (hlegacy : Legacy index events current)
    (hahead : Ahead root (StateFiles.disk format.toTextFormat receipts files) index events event current) :
    Ahead root (StateFiles.disk format.toTextFormat receipts' files') (migratedIndex files index)
      (events.map migratedEvent) (migratedEvent event) (current.map AnyRun.upgraded) where
  hindex := readIndex_converted hformat h hahead.hindex hlegacy.index
  hevents := readEvents_converted hformat h hahead.hevents hlegacy.events
  last := by rw [List.getLast?_map, hahead.last, Option.map_some]
  sequence := by rw [migratedIndex_revision]; exact hahead.sequence
  expected := by rw [migratedIndex_revision]; exact hahead.expected
  hcurrent := readRun_converted hformat h hahead.hcurrent hlegacy.current

theorem readEventFile_of_mem {files : List EventFile} {read : List PersistedStateEvent}
    (h : files.mapM readEventFile = .ok read) (hmem : event ∈ read) :
    ∃ file, readEventFile file = .ok event := by
  induction files generalizing read with
  | nil =>
    obtain rfl := Except.ok.inj h
    cases hmem
  | cons file files ih =>
    rw [List.mapM_cons] at h
    obtain ⟨first, hfirst, h⟩ := bind_eq_ok.mp h
    obtain ⟨rest, hrest, hcons⟩ := bind_eq_ok.mp h
    obtain rfl := Except.ok.inj hcons
    obtain rfl | hmem := List.mem_cons.mp hmem
    · exact ⟨file, hfirst⟩
    · exact ih hrest hmem

/-- An event that was read has the kind of its mutation. -/
theorem Ahead.kind {disk : Disk} (h : Ahead root disk index events event current) :
    event.kind = event.mutation.kind := by
  obtain ⟨read, hread, rfl, -⟩ := readAll_eq_ok.mp (readEvents_eq_ok.mp h.hevents)
  have hmem := (List.perm_insertionSort _ _).mem_iff.mp (List.mem_of_getLast? h.last)
  obtain ⟨file, hfile⟩ := readEventFile_of_mem hread hmem
  obtain ⟨json, -, hschema⟩ := decodeStateEvent_eq_ok.mp (decode_of_readEventFile hfile)
  exact (PersistedStateEvent.reads.settled json event hschema).1.fields.kind

/-- The kinds of which an event of the first version is accepted on a run, but for steering. -/
theorem legacyGeneration_isSome (hkind : event.kind ∉ [.workflowSteered, .criterionSettled,
    .taskEvidenceAccepted, .workflowTerminal]) : taskScoped event.kind = (legacyGeneration event).isSome := by
  rw [legacyGeneration]
  cases hk : event.kind <;> first | decide | simp [hk] at hkind

theorem transition_migrated {authority authority' : Option ReceiptAuthority}
    {prepared : PreparedTransition} (hversion : event.version = .v1)
    (hcurrent : ∀ run ∈ current, run.version = .v1) (hkinds : event.kind = event.mutation.kind)
    (hkind : event.mutation.kind ∉ [.runCreated, .workflowSteered])
    (hunpublished : isPublished event current = false)
    (h : prepareTransition index current event authority = .ok prepared) :
    prepareTransition (migratedIndex files index) (current.map AnyRun.upgraded) (migratedEvent event)
      authority' = .ok ⟨(legacyRepaired index event current ⟨prepared.run, prepared.index⟩).run.upgraded,
        migratedIndex files (legacyRepaired index event current ⟨prepared.run, prepared.index⟩).index⟩ := by
  obtain ⟨created, hcreated, -⟩ | ⟨run, next, rfl, hcontrolled, haddressed, hcontrol, rfl⟩ :=
    prepareTransition_cases h
  · exact absurd (by simp [hcreated, StateMutation.kind]) hkind
  have hlegacy : event.legacyUnbound = false := by rw [PersistedStateEvent.legacyUnbound, hversion]
  rw [controlRun_bound hlegacy] at hcontrol
  have hreceipts := not_receipt_of_v1 hversion hcontrol
  have hscope : taskScoped event.kind = (legacyGeneration event).isSome := by
    refine legacyGeneration_isSome ?_
    rw [hkinds]
    simp only [List.mem_cons, not_or] at hkind hreceipts ⊢
    exact ⟨hkind.2.1, hreceipts⟩
  have haddressed' : Addressed (migratedIndex files index) run.upgraded (migratedEvent event) := by
    rw [AnyRun.upgraded_v1 (hcurrent run rfl)]
    exact haddressed.unbound migratedIndex_revision true _ hscope
  rw [Option.map_some]
  by_cases hnoop : ineffective event.mutation.kind = true
  · have hrun : legacyRepaired index event (some run) ⟨(event.publishes index next).run,
        (event.publishes index next).index⟩ =
        ⟨run.stamped event.sequence, deriveIndex index (run.stamped event.sequence) event.sequence⟩ :=
      if_pos ⟨hnoop, by rw [hunpublished]; rfl⟩
    have hunchanged : controlRun run.upgraded (migratedEvent event) authority' = some run.upgraded :=
      if_pos ⟨rfl, by simpa [ineffective] using hnoop⟩
    rw [hrun, haddressed'.publishes hcontrolled hunchanged, ← deriveIndex_migrated, AnyRun.upgraded_stamped]
    rfl
  · have hrun : legacyRepaired index event (some run) ⟨(event.publishes index next).run,
        (event.publishes index next).index⟩ = ⟨(event.publishes index next).run,
        (event.publishes index next).index⟩ := if_neg fun h ↦ hnoop h.1
    have hnext : next.version = .v1 :=
      (controlRun_cases (controlRun_bound hlegacy ▸ hcontrol)).sameIdentity.version.trans (hcurrent run rfl)
    have hsame : controlRun run.upgraded (migratedEvent event) authority' = some next.upgraded := by
      rw [AnyRun.upgraded_v1 (hcurrent run rfl), AnyRun.upgraded_v1 hnext, controlRun, if_neg]
      · exact controlMutation_versioned hversion rfl hcontrol
      · rintro ⟨-, hkind⟩
        exact hnoop (by simpa [ineffective] using hkind)
    rw [hrun, haddressed'.publishes hcontrolled hsame]
    simp only [PersistedStateEvent.publishes, AnyRun.upgraded_stamped, ← deriveIndex_migrated]
    rfl

theorem readAuthority_migrated {disk : Disk} {authority : Option ReceiptAuthority}
    {prepared : PreparedTransition} (hversion : event.version = .v1)
    (h : prepareTransition index current event authority = .ok prepared) (current' : Option AnyRun) :
    readAuthority disk (migratedEvent event) current' = .ok none := by
  have hbound : receiptBound event.mutation.kind = false := by
    obtain ⟨created, hcreated, -⟩ | ⟨run, next, -, -, -, hcontrol, -⟩ := prepareTransition_cases h
    · rw [hcreated]
      rfl
    · rw [controlRun_bound (by rw [PersistedStateEvent.legacyUnbound, hversion])] at hcontrol
      simpa [receiptBound] using not_receipt_of_v1 hversion hcontrol
  cases current' with
  | none => rfl
  | some run => exact if_neg (by rw [mutation_migratedEvent, hbound]; decide)

/-- What a repair of the first version decides is decided after the migration as well, for its
migrated outcome. -/
theorem decideRepair_migrated (hformat : format.Lawful)
    (h : Converted format isAbsolute identities files files') (hlegacy : Legacy index events current)
    (hahead : Ahead root (StateFiles.disk format.toTextFormat receipts files) index events event current)
    (hkind : isPublished event current = true ∨ event.mutation.kind ∉ [.runCreated, .workflowSteered])
    {repaired : Repaired}
    (hdecision : decideRepair root (StateFiles.disk format.toTextFormat receipts files) =
      .ok (.publish repaired.run published repaired.index)) :
    decideRepair root (StateFiles.disk format.toTextFormat receipts' files') =
      .ok (.publish ((legacyRepaired index event current repaired).migrated files).run published
        ((legacyRepaired index event current repaired).migrated files).index) := by
  have hahead' : Ahead root (StateFiles.disk format.toTextFormat receipts' files') _ _ _ _ :=
    hahead.converted hformat h hlegacy
  rw [hahead.decideRepair] at hdecision
  rw [hahead'.decideRepair]
  obtain ⟨hindex, ⟨rfl, rfl, hstamp, hid, hworkflow⟩ | ⟨rfl, hfilter, authority, prepared, -, hprepared, hrun⟩⟩ :=
    repairEvent_publish.mp hdecision
  · have hpublished : isPublished event (some repaired.run) = true := by simp [isPublished, hstamp]
    have hsame : legacyRepaired index event (some repaired.run) repaired = repaired :=
      if_neg fun h ↦ by simp [hpublished] at h
    rw [hsame]
    refine repairEvent_publish.mpr ⟨?_, .inl ⟨rfl, rfl, ?_, ?_, ?_⟩⟩
    · exact (congrArg (migratedIndex files) hindex).trans (deriveIndex_migrated _ _).symm
    · obtain ⟨_, hversioned⟩ := repaired.run.upgraded_versioned
      rw [Repaired.migrated, hversioned]
      exact hstamp
    · exact (AnyRun.runId_upgraded _).trans hid
    · exact (AnyRun.workflow_upgraded _).trans hworkflow
  · have hversion := hlegacy.events event (List.mem_of_getLast? hahead.last)
    have hunpublished : isPublished event current = false := by
      cases current with
      | none => rfl
      | some run => simpa [isPublished, Option.filter] using hfilter
    have hkind := hkind.resolve_left (by simp [hunpublished])
    have hprepared' : prepareTransition (migratedIndex files index) (current.map AnyRun.upgraded)
        (migratedEvent event) none = _ :=
      transition_migrated hversion hlegacy.current hahead.kind hkind hunpublished hprepared
    have hrepaired : (⟨prepared.run, prepared.index⟩ : Repaired) = repaired := by
      obtain ⟨-, -, next, -, -, -, rfl⟩ := prepareTransition_eq_ok.mp hprepared
      obtain ⟨run, index'⟩ := repaired
      obtain rfl : next.stamped event.sequence = run := hrun
      exact congrArg (Repaired.mk _) hindex.symm
    rw [hrepaired] at hprepared'
    refine repairEvent_publish.mpr ⟨?_, .inr ⟨rfl, ?_, none, _, readAuthority_migrated hversion hprepared _,
      hprepared', rfl⟩⟩
    · exact (congrArg (migratedIndex files) (legacyRepaired_index hindex)).trans (deriveIndex_migrated _ _).symm
    · cases current with
      | none => rfl
      | some run =>
        have hstamp : run.transactionRevision ≠ event.sequence := by simpa [isPublished] using hunpublished
        obtain ⟨version, hversioned⟩ := run.upgraded_versioned
        rw [Option.map_some, hversioned]
        have hdifferent : ¬ decide (run.transactionRevision = event.sequence) = true := by simpa using hstamp
        exact if_neg hdifferent

/-- A root of the first version that is one event ahead, migrated and then repaired: the repair
succeeds and yields the migration of what it yields before, where events of the ineffective kinds have
left their runs alone. -/
theorem repair_migrated (hformat : format.Lawful)
    (hconverted : Converted format isAbsolute identities files files')
    (hlegacy : Legacy index events current)
    (hahead : Ahead root (StateFiles.disk format.toTextFormat receipts files) index events event current)
    (hkind : isPublished event current = true ∨ event.mutation.kind ∉ [.runCreated, .workflowSteered])
    {repaired outcome : Repaired} {session : Session}
    (houtcome : outcome = (legacyRepaired index event current repaired).migrated files)
    (hrepair : exec (repairState root options) ⟨StateFiles.disk format.toTextFormat receipts files, deadline⟩ =
      (.ok (.ok repaired), session)) :
    ∃ published,
      session.disk = (RepairDecision.publish repaired.run published repaired.index).written
        (StateFiles.disk format.toTextFormat receipts files) ∧
      exec (repairState root options) ⟨StateFiles.disk format.toTextFormat receipts' files', deadline⟩ =
        (.ok (.ok outcome), ⟨(RepairDecision.publish outcome.run published outcome.index).written
          (StateFiles.disk format.toTextFormat receipts' files'), session.deadline⟩) := by
  subst houtcome
  obtain ⟨published, hdecision, hdisk, hrepairs⟩ := exec_repairState_publish hrepair
  exact ⟨published, hdisk, hrepairs _ _ _
    (decideRepair_migrated hformat hconverted hlegacy hahead hkind hdecision)⟩

end Migrated

theorem exec_repairState_unlimited {disk : Disk} (hescape : options.escape = none)
    (hfree : options.free = true) (h : decideRepair root disk = .ok (.publish run published index)) :
    exec (repairState root options) ⟨disk, none⟩ =
      (.ok (.ok ⟨run, index⟩), ⟨(RepairDecision.publish run published index).written disk, none⟩) := by
  simp only [repairState, exec_bind, exec_get, exec_isValid_none, hescape, hfree, exec_tryAcquire_none,
    Bool.not_true, Bool.false_eq_true, if_false, h]
  cases published <;> rfl

/-! A root of the first version whose run has been created and started a goal cycle, the last event
being ahead of the index. -/

namespace Sample

open Migration

def migratingCreation : PersistedStateEvent where
  version := .v1
  eventId := eventId
  sequence := 1
  runId := runId
  workflow := .ulwLoop
  kind := .runCreated
  expected := ⟨0, none, none, none⟩
  mutation := .runCreated legacyRun
  atTime := now

def migratingCycle : PersistedStateEvent := legacyEvent (.goalCycleStarted "goal-1")

def migratingFiles : FileTree (List Bytes) :=
  [(StateFiles.indexPath, encodeActiveIndex legacyIndex), (StateFiles.runPath runId, encodeRun legacyRun),
    (StateFiles.eventPath (eventName migratingCreation), encodeEvent migratingCreation),
    (StateFiles.eventPath (eventName migratingCycle), encodeEvent migratingCycle)].foldl
      (StateFiles.write Migration.Sample.format.toTextFormat) ∅

def goalIdentity : TaskIdentity := ⟨runId, "goal-1", .low, "agent-a"⟩

/-- The files with their records converted. -/
def migratedFiles : FileTree (List Bytes) where
  entries := migratingFiles.entries.map fun file ↦ ⟨file.1, (MigrationRecordResult.contents
    (migrateLifecycleRecord Migration.Sample.format.toTextFormat
      (ledgerRules Migration.Sample.format Migration.Sample.isAbsolute) file.1 file.2 [goalIdentity])).getD []⟩
  nodupKeys := by
    rw [List.NodupKeys, List.keys, List.map_map]
    exact migratingFiles.nodupKeys

/-- The root as the store reads it, with no receipts. -/
def rootOf (files : FileTree (List Bytes)) : Disk :=
  StateFiles.disk Migration.Sample.format.toTextFormat (fun _ ↦ .ok .empty) files

theorem migrating_converted : Converted Migration.Sample.format Migration.Sample.isAbsolute [goalIdentity]
    migratingFiles migratedFiles := by decide

theorem migrating_ahead : Ahead root (rootOf migratingFiles) legacyIndex [migratingCreation, migratingCycle]
    migratingCycle (some legacyRun) :=
  ⟨by decide, by decide, rfl, rfl, rfl, by decide⟩

theorem migrating_legacy : Legacy legacyIndex [migratingCreation, migratingCycle] (some legacyRun) := by
  refine ⟨rfl, by decide, ?_⟩
  rintro run ⟨⟩
  rfl

/-- What the repair of the root yields before it is migrated. -/
theorem migrating_decision : ∃ repaired : Repaired, decideRepair root (rootOf migratingFiles) =
    .ok (.publish repaired.run false repaired.index) ∧ repaired.run.revision = 2 := by
  obtain ⟨prepared, hprepared⟩ : ∃ prepared, prepareTransition legacyIndex (some legacyRun) migratingCycle
      none = .ok prepared := ⟨_, rfl⟩
  refine ⟨⟨prepared.run, deriveIndex legacyIndex prepared.run 2⟩, ?_, ?_⟩
  · rw [migrating_ahead.decideRepair]
    exact repairEvent_publish.mpr ⟨rfl, .inr ⟨rfl, rfl, none, prepared, rfl, hprepared, rfl⟩⟩
  · obtain rfl := Except.ok.inj hprepared
    rfl

end Sample

theorem repair_migrated_cycle :
    ∃ (repaired : Repaired) (session : Session) (published : Bool),
      exec (repairState Sample.root Sample.options.toCallOptions) ⟨Sample.rootOf Sample.migratingFiles, none⟩ =
        (.ok (.ok repaired), session) ∧
      session.disk = (RepairDecision.publish repaired.run published repaired.index).written
        (Sample.rootOf Sample.migratingFiles) ∧
      ∃ outcome, outcome = (legacyRepaired Sample.legacyIndex Sample.migratingCycle (some Sample.legacyRun)
          repaired).migrated Sample.migratingFiles ∧
        exec (repairState Sample.root Sample.options.toCallOptions) ⟨Sample.rootOf Sample.migratedFiles, none⟩ =
          (.ok (.ok outcome), ⟨(RepairDecision.publish outcome.run published outcome.index).written
            (Sample.rootOf Sample.migratedFiles), session.deadline⟩) := by
  obtain ⟨repaired, hdecision, -⟩ := Sample.migrating_decision
  have hrepair : exec (repairState Sample.root Sample.options.toCallOptions)
      ⟨Sample.rootOf Sample.migratingFiles, none⟩ = _ := exec_repairState_unlimited rfl rfl hdecision
  obtain ⟨published, hdisk, hmigrated⟩ := repair_migrated Migration.Sample.format_lawful
    Sample.migrating_converted Sample.migrating_legacy Sample.migrating_ahead (.inr (by decide)) rfl hrepair
  exact ⟨repaired, _, published, hrepair, hdisk, _, rfl, hmigrated⟩

/-- A goal cycle that was started before a crash is lost in the repair of the migrated root. -/
theorem migrated_goal_cycle_lost :
    Migration.Converted Migration.Sample.format Migration.Sample.isAbsolute [Sample.goalIdentity]
        Sample.migratingFiles Sample.migratedFiles ∧
      ∃ (repaired outcome : Repaired) (session session' : Session),
        exec (repairState Sample.root Sample.options.toCallOptions) ⟨Sample.rootOf Sample.migratingFiles, none⟩ =
          (.ok (.ok repaired), session) ∧
        exec (repairState Sample.root Sample.options.toCallOptions) ⟨Sample.rootOf Sample.migratedFiles, none⟩ =
          (.ok (.ok outcome), session') ∧
        repaired.run.revision = 2 ∧ outcome.run.revision = 1 := by
  obtain ⟨repaired, hdecision, hrevision⟩ := Sample.migrating_decision
  have hmigrated : decideRepair Sample.root (Sample.rootOf Sample.migratedFiles) = _ :=
    decideRepair_migrated Migration.Sample.format_lawful Sample.migrating_converted Sample.migrating_legacy
      Sample.migrating_ahead (.inr (by decide)) hdecision
  exact ⟨Sample.migrating_converted, repaired, _, _, _, exec_repairState_unlimited rfl rfl hdecision,
    exec_repairState_unlimited rfl rfl hmigrated, hrevision, rfl⟩

end OmpLazy.State

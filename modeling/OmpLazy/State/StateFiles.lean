import OmpLazy.State.Migration
import OmpLazy.State.CommitLaws

namespace OmpLazy.State

open OmpLazy.Foundation OmpLazy.Foundation.Text EventStore

/-! The files of a state root, as the transaction store reads and writes them. -/

namespace StateFiles

variable {Contents : Type}

def indexPath : String := "active.json"

def eventPath (name : String) : String := "events/" ++ name

def runPath (runId : Uuid) : String := "runs/" ++ (runId ++ "/run.json")

section View

variable (format : TextFormat Contents)
  (receipts : AnyRun → Except Thrown ReceiptAuthority)

def eventFile? (file : Sigma fun _ : String ↦ Contents) : Option EventFile :=
  (after "events/" file.1).map fun name ↦ ⟨name, format.parse file.2⟩

/-- What the transaction store finds in the files, with the receipts that it reads. A file tree has its
newest file first. -/
def disk (files : FileTree Contents) : Disk where
  activeIndex := (files.lookup indexPath).map format.parse
  events := (files.entries.filterMap (eventFile? format)).reverse
  runs := fun runId ↦ (files.lookup (runPath runId)).map format.parse
  receipts := receipts

def write (files : FileTree Contents) (file : String × Json) : FileTree Contents :=
  files.insert file.1 (format.stringify file.2)

/-- The writes of `commit`, in its order. -/
def writes (event : EventObject) (prepared : PreparedTransition) : List (String × Json) :=
  [(eventPath (eventName event.value), event.object),
    (runPath prepared.run.runId, encodeRun prepared.run),
    (indexPath, encodeActiveIndex prepared.index)]

/-- The files after a call of `commit` that got through this number of its writes. The file of the
event must be new. -/
def commitFiles (root : StateRoot) (event : EventObject) (written : ℕ) (files : FileTree Contents) :
    FileTree Contents :=
  match decideCommit root (disk format receipts files) event with
  | .ok (.accepted persisted prepared) =>
    if eventPath (eventName persisted.value) ∈ files then files
    else ((writes persisted prepared).take written).foldl (write format) files
  | _ => files

end View

theorem runPath_inj {runId runId' : Uuid} : runPath runId = runPath runId' ↔ runId = runId' := by
  constructor
  · intro h
    have hlist := congrArg String.toList h
    simp only [runPath, String.toList_append, List.append_cancel_left_eq, List.append_cancel_right_eq]
      at hlist
    exact String.toList_injective hlist
  · rintro rfl
    rfl

theorem startsWith_eventPath (name : String) : startsWith "events/" (eventPath name) = true := by
  simp [startsWith, eventPath, String.toList_append]

theorem startsWith_runPath (runId : Uuid) : startsWith "events/" (runPath runId) = false := by
  simp [startsWith, runPath, String.toList_append, List.isPrefixOf]

theorem startsWith_indexPath : startsWith "events/" indexPath = false := by decide

theorem indexPath_ne_runPath (runId : Uuid) : indexPath ≠ runPath runId := by
  intro h
  have hlist := congrArg String.toList h
  simp [runPath, indexPath, String.toList_append] at hlist

section Laws

variable {format : TextFormat Contents}
  {receipts : AnyRun → Except Thrown ReceiptAuthority} {files : FileTree Contents}

theorem filterMap_kerase {path : String} (h : startsWith "events/" path = false)
    (entries : List (Sigma fun _ : String ↦ Contents)) :
    (entries.kerase path).filterMap (eventFile? format) = entries.filterMap (eventFile? format) := by
  induction entries with
  | nil => rfl
  | cons file entries ih =>
    by_cases hpath : path = file.1
    · have hnone : eventFile? format file = none := by
        rw [eventFile?, ← hpath, after_eq_none h, Option.map_none]
      rw [List.kerase_cons_eq hpath, List.filterMap_cons_none hnone]
    · rw [List.kerase_cons_ne hpath, List.filterMap_cons, List.filterMap_cons, ih]

theorem disk_write_event {name : String} {json : Json} (hformat : format.parse (format.stringify json) = some json)
    (hname : eventPath name ∉ files) :
    disk format receipts (write format files (eventPath name, json)) =
      { disk format receipts files with
        events := (disk format receipts files).events ++ [⟨name, some json⟩] } := by
  have hfile : eventFile? format ⟨eventPath name, format.stringify json⟩ = some ⟨name, some json⟩ := by
    rw [eventFile?, eventPath, after_append, Option.map_some, hformat]
  have hindex : indexPath ≠ eventPath name := fun h ↦ by
    cases startsWith_indexPath.symm.trans (h ▸ startsWith_eventPath name)
  have hrun (runId : Uuid) : runPath runId ≠ eventPath name := fun h ↦ by
    cases (startsWith_runPath runId).symm.trans (h ▸ startsWith_eventPath name)
  simp only [disk, write, AList.lookup_insert_ne hindex, AList.lookup_insert_ne (hrun _),
    AList.entries_insert_of_notMem hname, List.filterMap_cons_some hfile, List.reverse_cons]

theorem disk_write_run {run : AnyRun}
    (hformat : format.parse (format.stringify (encodeRun run)) = some (encodeRun run)) :
    disk format receipts (write format files (runPath run.runId, encodeRun run)) =
      (disk format receipts files).writeRun run := by
  have hruns : (fun runId ↦ ((write format files (runPath run.runId, encodeRun run)).lookup
      (runPath runId)).map format.parse) =
      Function.update (disk format receipts files).runs run.runId (some (stringify (encodeRun run))) := by
    funext runId
    by_cases h : runId = run.runId
    · subst h
      rw [write, AList.lookup_insert, Option.map_some, hformat, Function.update_self]
      rfl
    · rw [write, AList.lookup_insert_ne (runPath_inj.not.mpr h), Function.update_of_ne h]
      rfl
  rw [Disk.writeRun, ← hruns]
  simp only [disk, write, AList.lookup_insert_ne (indexPath_ne_runPath _), AList.entries_insert,
    List.filterMap_cons_none, eventFile?, after_eq_none (startsWith_runPath _), Option.map_none,
    filterMap_kerase (startsWith_runPath _)]

theorem disk_write_index {index : ActiveIndex}
    (hformat : format.parse (format.stringify (encodeActiveIndex index)) = some (encodeActiveIndex index)) :
    disk format receipts (write format files (indexPath, encodeActiveIndex index)) =
      (disk format receipts files).writeIndex index := by
  rw [Disk.writeIndex]
  simp only [disk, write, AList.lookup_insert, AList.lookup_insert_ne (indexPath_ne_runPath _).symm,
    AList.entries_insert, List.filterMap_cons_none, eventFile?, after_eq_none startsWith_indexPath,
    Option.map_none, filterMap_kerase startsWith_indexPath, Option.map_some, hformat]
  rfl

/-- The name of an event is new in the store where its path is new in the files. -/
theorem eventName_notMem {name : String} (h : name ∉ (disk format receipts files).events.map (·.name)) :
    eventPath name ∉ files := by
  intro hmem
  obtain ⟨bytes, hentry⟩ := List.mem_keys.mp (AList.mem_keys.mp hmem)
  refine h (List.mem_map.mpr ⟨⟨name, format.parse bytes⟩, ?_, rfl⟩)
  refine List.mem_reverse.mpr (List.mem_filterMap.mpr ⟨_, hentry, ?_⟩)
  rw [eventFile?, eventPath, after_append, Option.map_some]

theorem commitFiles_accepted {root : StateRoot} {event persisted : EventObject}
    {prepared : PreparedTransition}
    (h : decideCommit root (disk format receipts files) event = .ok (.accepted persisted prepared))
    (hname : eventName persisted.value ∉ (disk format receipts files).events.map (·.name))
    (written : ℕ) : commitFiles format receipts root event written files =
      ((writes persisted prepared).take written).foldl (write format) files := by
  rw [commitFiles, h]
  exact if_neg (eventName_notMem hname)

/-- Every call of `commit` leaves the files as some number of its writes does. -/
theorem exec_commit_files (hformat : ∀ json, format.parse (format.stringify json) = some json)
    {root : StateRoot} {options : CommitOptions} {deadline : Deadline} {event : EventObject}
    {outcome : Except Thrown TransactionResult} {session : Session}
    (h : Action.exec (commit root options event) ⟨disk format receipts files, deadline⟩ =
      (outcome, session)) :
    ∃ written, session.disk =
      disk format receipts (commitFiles format receipts root event written files) := by
  obtain ⟨hsame, -⟩ | ⟨-, index, events, current, authority, prepared, hadmits, hpublished⟩ :=
    commit_cases h
  · refine ⟨0, ?_⟩
    rw [hsame, commitFiles]
    split
    · split <;> rfl
    · rfl
  · generalize hpersisted : persistedEventForIndex index event = persisted at hpublished
    have hdecision : decideCommit root (disk format receipts files) event =
        .ok (.accepted persisted prepared) :=
      decideCommit_accepted.mpr ⟨index, events, current, authority, hadmits, hpersisted.symm⟩
    have hevent (hname : eventName persisted.value ∉ (disk format receipts files).events.map (·.name)) :
        disk format receipts (write format files (eventPath (eventName persisted.value), persisted.object)) =
          (disk format receipts files).appendEvent persisted :=
      disk_write_event (hformat _) (eventName_notMem hname)
    generalize session.disk = left at hpublished
    cases hpublished with
    | nothing =>
      refine ⟨0, ?_⟩
      rw [commitFiles, hdecision]
      dsimp only
      split <;> rfl
    | appended _ _ hname =>
      refine ⟨1, ?_⟩
      rw [commitFiles_accepted hdecision hname, ← hevent hname]
      rfl
    | replacedRun _ _ hname =>
      refine ⟨2, ?_⟩
      rw [commitFiles_accepted hdecision hname, ← hevent hname, ← disk_write_run (hformat _)]
      rfl
    | crashed hname | committed hname =>
      refine ⟨3, ?_⟩
      rw [commitFiles_accepted hdecision hname, Disk.publish, ← hevent hname,
        ← disk_write_run (hformat _), ← disk_write_index (hformat _)]
      rfl

end Laws

end StateFiles

end OmpLazy.State

import OmpLazy.Activation.TransactionActivationState

/-! What is read back of the directive of a session, when its file is also written by others. -/

namespace OmpLazy.Activation

open OmpLazy.Foundation OmpLazy.Context TransactionActivationState
open OmpLazy.State (DirectiveActivationRecord hasVersion asString FormatVersion.number)

/-- What a call does to the file of a session. -/
inductive Change where
  | recorded (record : DirectiveActivationRecord)
  | cleared
  | overwritten (receipt : InjectionReceipt)
  deriving DecidableEq, Repr

namespace Change

def contents : Change → Option Json
  | .recorded record => some (encodeDirectiveRecord record)
  | .cleared => none
  | .overwritten receipt => some receipt.encode

def isDirective : Change → Bool
  | .overwritten _ => false
  | _ => true

def directive : Change → Option DirectiveActivationRecord
  | .recorded record => some record
  | _ => none

end Change

def replaced : WriterAnswer → Bool
  | .released | .threw _ true => true
  | _ => false

/-- The session and the change of its file. A call that does not get to its write changes nothing. -/
def DirectiveCall.change : DirectiveCall → Option (String × Change)
  | .recordDirectiveActivation sessionId workflow runId now true =>
    some (sessionId, .recorded (directiveRecord sessionId workflow runId now))
  | .clearDirectiveActivation sessionId true => some (sessionId, .cleared)
  | .writeInjectionReceipt input timestamp answer =>
    let receipt : InjectionReceipt := { input with timestamp := timestamp.text }
    if receipt.accepted && replaced answer then some (input.sessionId, .overwritten receipt) else none
  | _ => none

/-- The changes of the file of a session, in order. A session whose id is refused has no file. -/
def changes (sessionId : String) (calls : List DirectiveCall) : List Change :=
  if Continuation.isValidLifecycleId sessionId then
    (calls.filterMap DirectiveCall.change).filterMap fun change ↦
      if change.1 = sessionId then some change.2 else none
  else []

/-- The latest directive of a session, unless it is cleared. -/
def latestDirective (sessionId : String) (calls : List DirectiveCall) : Option DirectiveActivationRecord :=
  ((changes sessionId calls).filter Change.isDirective).getLast?.bind Change.directive

/-- What is read back of a session is its latest directive. -/
structure ReadsLatest (sessionId : String) (calls : List DirectiveCall) : Prop where
  directive : readDirectiveActivation (filesAfter calls) sessionId = latestDirective sessionId calls
  suppresses : ∀ workflow currentRunId,
    isDirectiveAlreadyActivated (filesAfter calls) sessionId workflow currentRunId =
      TransactionActivationState.suppresses (latestDirective sessionId calls) workflow currentRunId

/-- No receipt was written over what the latest directive or clear left in the file. -/
def NotOverwritten (sessionId : String) (calls : List DirectiveCall) : Prop :=
  ∀ receipt, (changes sessionId calls).getLast? ≠ some (.overwritten receipt)

/-! The file of a session. -/

section File

variable {sessionId : String} {calls : List DirectiveCall} {files : RecordFiles}

theorem directiveActivationPath_eq_some {path : String} :
    directiveActivationPath sessionId = some path ↔ Continuation.isValidLifecycleId sessionId = true ∧
      "directive-activations/" ++ (sessionId ++ ".json") = path := by
  rw [directiveActivationPath]
  split <;> simp_all

theorem directiveActivationPath_inj {session path : String} (h : directiveActivationPath sessionId = some path)
    (h' : directiveActivationPath session = some path) : session = sessionId := by
  obtain ⟨-, rfl⟩ := directiveActivationPath_eq_some.mp h
  obtain ⟨-, hpath⟩ := directiveActivationPath_eq_some.mp h'
  have hlist := congrArg String.toList hpath
  simp only [String.toList_append, List.append_cancel_left_eq, List.append_cancel_right_eq] at hlist
  exact String.toList_injective hlist

/-- What a call does to the file of its session. -/
theorem run_change {call : DirectiveCall} {session : String} {change : Change}
    (h : call.change = some (session, change)) : call.run files =
      (directiveActivationPath session).elim files fun path ↦ Function.update files path change.contents := by
  cases call with
  | recordDirectiveActivation session' workflow runId now replaced =>
    cases replaced <;> cases h
    simp only [DirectiveCall.run, recordDirectiveActivation]
    cases directiveActivationPath session <;> rfl
  | clearDirectiveActivation session' removed =>
    cases removed <;> cases h
    simp only [DirectiveCall.run, clearDirectiveActivation]
    cases directiveActivationPath session <;> rfl
  | writeInjectionReceipt input timestamp answer =>
    simp only [DirectiveCall.change] at h
    split at h
    · rename_i hwrites
      cases h
      obtain ⟨haccepted, hreplaced⟩ := Bool.and_eq_true_iff.mp hwrites
      simp only [DirectiveCall.run, writeInjectionReceipt, haccepted, Bool.not_true, Bool.false_eq_true, if_false]
      cases directiveActivationPath input.sessionId with
      | none => rfl
      | some path =>
        cases answer with
        | lockTimeout => cases hreplaced
        | threw reason replaced => cases replaced <;> first | rfl | cases hreplaced
        | released => rfl
    · cases h

theorem run_unchanged {call : DirectiveCall} (h : call.change = none) : call.run files = files := by
  cases call with
  | recordDirectiveActivation session workflow runId now replaced =>
    cases replaced
    · simp [DirectiveCall.run, recordDirectiveActivation]
    · cases h
  | clearDirectiveActivation session removed =>
    cases removed
    · simp [DirectiveCall.run, clearDirectiveActivation]
    · cases h
  | writeInjectionReceipt input timestamp answer =>
    simp only [DirectiveCall.change, ite_eq_right_iff, reduceCtorEq, imp_false, Bool.and_eq_true_iff,
      not_and, Bool.not_eq_true] at h
    simp only [DirectiveCall.run, writeInjectionReceipt]
    split
    · rfl
    · rename_i haccepted
      have hkept := h (by simpa using haccepted)
      cases directiveActivationPath input.sessionId with
      | none => rfl
      | some path =>
        cases answer with
        | lockTimeout => rfl
        | threw reason replaced => cases replaced <;> first | rfl | cases hkept
        | released => cases hkept

theorem filesAfter_snoc {call : DirectiveCall} : filesAfter (calls ++ [call]) = call.run (filesAfter calls) := by
  rw [filesAfter, List.foldl_append]
  rfl

theorem changes_snoc {call : DirectiveCall} (hvalid : Continuation.isValidLifecycleId sessionId = true) :
    changes sessionId (calls ++ [call]) = changes sessionId calls ++
      (call.change.bind fun change ↦ if change.1 = sessionId then some change.2 else none).toList := by
  simp only [changes, if_pos hvalid, List.filterMap_append]
  cases hchange : call.change with
  | none => simp [hchange]
  | some change =>
    obtain ⟨session, change⟩ := change
    by_cases hsession : session = sessionId <;> simp [hchange, hsession]

/-- The file of a session holds what its last change wrote. -/
theorem file_after {path : String} (hpath : directiveActivationPath sessionId = some path) :
    filesAfter calls path = (changes sessionId calls).getLast?.bind Change.contents := by
  obtain ⟨hvalid, -⟩ := directiveActivationPath_eq_some.mp hpath
  induction calls using List.reverseRecOn with
  | nil => simp [filesAfter, changes]
  | append_singleton calls call ih =>
    rw [filesAfter_snoc, changes_snoc hvalid]
    cases hchange : call.change with
    | none => simpa [run_unchanged hchange] using ih
    | some change =>
      obtain ⟨session, change⟩ := change
      rw [run_change hchange]
      by_cases hsession : session = sessionId
      · subst hsession
        simp [hpath]
      · cases hother : directiveActivationPath session with
        | none => simpa [hsession] using ih
        | some path' =>
          have hne : path ≠ path' := by
            rintro rfl
            exact hsession (directiveActivationPath_inj hpath hother)
          simpa [hsession, Function.update_of_ne hne] using ih

theorem exists_of_recorded {record : DirectiveActivationRecord} (h : .recorded record ∈ changes sessionId calls) :
    ∃ workflow runId now, record = directiveRecord sessionId workflow runId now := by
  rw [changes] at h
  split at h
  · obtain ⟨⟨session, change⟩, hmem, hsession⟩ := List.mem_filterMap.mp h
    obtain ⟨call, -, hchange⟩ := List.mem_filterMap.mp hmem
    obtain ⟨rfl, rfl⟩ : session = sessionId ∧ change = .recorded record := by simpa using hsession
    cases call with
    | recordDirectiveActivation session workflow runId now replaced =>
      cases replaced <;> cases hchange
      exact ⟨workflow, runId, now, rfl⟩
    | clearDirectiveActivation session removed => cases removed <;> cases hchange
    | writeInjectionReceipt input timestamp answer =>
      simp only [DirectiveCall.change] at hchange
      split at hchange <;> cases hchange
  · cases h

end File

/-! What the reader finds there. -/

section Reading

variable {sessionId : String} {calls : List DirectiveCall}

theorem read_directiveRecord (session : String) (workflow : WorkflowActivationId) (runId : Option String)
    (now : IsoTime) : State.readDirectiveActivation session (encodeDirectiveRecord
      (directiveRecord sessionId workflow runId now)) = some (directiveRecord sessionId workflow runId now) := by
  cases runId <;>
    simp [State.readDirectiveActivation, hasVersion, encodeDirectiveRecord, directiveRecord, Json.get?,
      asString, FormatVersion.number, Json.nullable]

/-- A receipt is read as a directive that nobody recorded. -/
theorem read_receipt (session : String) (receipt : InjectionReceipt) :
    State.readDirectiveActivation session receipt.encode =
      some ⟨receipt.sessionId, .string WorkflowActivationId.ultrawork.name, none, ""⟩ := by
  simp [State.readDirectiveActivation, hasVersion, InjectionReceipt.encode, Json.get?, asString,
    FormatVersion.number, WorkflowActivationId.name]

theorem latestDirective_of_last {change : Change} (h : (changes sessionId calls).getLast? = some change)
    (hdirective : change.isDirective = true) : latestDirective sessionId calls = change.directive := by
  obtain ⟨earlier, hchanges⟩ := List.getLast?_eq_some_iff.mp h
  simp [latestDirective, hchanges, hdirective]

/-- A recorded directive has its time. -/
theorem activatedAt_latestDirective {record : DirectiveActivationRecord}
    (h : latestDirective sessionId calls = some record) : record.activatedAt ≠ "" := by
  obtain ⟨change, hlast, hdirective⟩ := Option.bind_eq_some_iff.mp h
  have hmem := (List.mem_filter.mp (List.mem_of_getLast? hlast)).1
  cases change with
  | recorded =>
    cases hdirective
    obtain ⟨workflow, runId, now, rfl⟩ := exists_of_recorded hmem
    exact now.nonempty
  | cleared | overwritten => cases hdirective

theorem readsLatest_of_read
    (h : readDirectiveActivation (filesAfter calls) sessionId = latestDirective sessionId calls) :
    ReadsLatest sessionId calls :=
  ⟨h, fun workflow currentRunId ↦ by rw [isDirectiveAlreadyActivated, h]⟩

theorem read_eq_last {path : String} (hpath : directiveActivationPath sessionId = some path) :
    readDirectiveActivation (filesAfter calls) sessionId =
      (((changes sessionId calls).getLast?).bind Change.contents).bind (State.readDirectiveActivation sessionId) := by
  simp only [readDirectiveActivation, hpath, Option.bind_eq_bind, Option.bind_some, file_after hpath]

theorem not_readsLatest {receipt : InjectionReceipt}
    (h : (changes sessionId calls).getLast? = some (.overwritten receipt)) : ¬ ReadsLatest sessionId calls := by
  intro hreads
  have hvalid : Continuation.isValidLifecycleId sessionId = true := by
    by_contra hvalid
    rw [changes, if_neg hvalid] at h
    cases h
  have hread := hreads.directive
  rw [read_eq_last (directiveActivationPath_eq_some.mpr ⟨hvalid, rfl⟩), h] at hread
  simp only [Option.bind_some, Change.contents, read_receipt] at hread
  exact activatedAt_latestDirective hread.symm rfl

/-- Over every interleaving of the calls, for a root that had no files, what is read back of a session
is its latest directive if and only if no receipt was written over it. -/
theorem readsLatest_iff (sessionId : String) (calls : List DirectiveCall) :
    ReadsLatest sessionId calls ↔ NotOverwritten sessionId calls := by
  constructor
  · intro hreads receipt hlast
    exact not_readsLatest hlast hreads
  intro hkept
  apply readsLatest_of_read
  cases hpath : directiveActivationPath sessionId with
  | none =>
    have hvalid : Continuation.isValidLifecycleId sessionId = false := by
      rw [directiveActivationPath] at hpath
      split at hpath <;> simp_all
    simp [readDirectiveActivation, hpath, latestDirective, changes, hvalid]
  | some path =>
    rw [read_eq_last hpath]
    cases hlast : (changes sessionId calls).getLast? with
    | none => simp [latestDirective, List.getLast?_eq_none_iff.mp hlast]
    | some change =>
      have hmem := List.mem_of_getLast? hlast
      cases change with
      | recorded record =>
        obtain ⟨workflow, runId, now, rfl⟩ := exists_of_recorded hmem
        rw [latestDirective_of_last hlast rfl]
        exact read_directiveRecord ..
      | cleared =>
        rw [latestDirective_of_last hlast rfl]
        rfl
      | overwritten receipt => exact absurd hlast (hkept receipt)

/-- A directive of a run, and a receipt of the same session. -/
def overwrittenCalls : List DirectiveCall :=
  [.recordDirectiveActivation "session-1" .startWork (some "11111111-1111-4111-8111-111111111111")
      ⟨"2024-05-01T10:00:00.000Z", by decide⟩ true,
    .writeInjectionReceipt ⟨"session-1", [⟨"style.md", 120⟩], [], ⟨120, 0, 120⟩, ⟨4096, 2048, 2048⟩⟩
      ⟨"2024-05-01T10:00:01.000Z", by decide⟩ .released]

theorem receipt_replaces_directive :
    ¬ (∀ sessionId calls, ReadsLatest sessionId calls) ∧
      isDirectiveAlreadyActivated (filesAfter overwrittenCalls) "session-1" .startWork
        (some "11111111-1111-4111-8111-111111111111") = false ∧
      isDirectiveAlreadyActivated (filesAfter overwrittenCalls) "session-1" .ultrawork none = true := by
  refine ⟨fun hall ↦ ?_, by decide, by decide⟩
  have hsuppresses := (hall "session-1" overwrittenCalls).suppresses .ultrawork none
  revert hsuppresses
  decide

end Reading

end OmpLazy.Activation

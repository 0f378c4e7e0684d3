import OmpLazy.State.CodecSchemas

namespace OmpLazy.State

inductive IndexErrorCode where
  | duplicateActiveKey
  | duplicateRun
  deriving DecidableEq, Repr

namespace ActiveIndex

/-- `${entry.workflow}\u0000${entry.sessionId}`. -/
def activeKey (entry : ActiveIndexEntry) : String := entry.workflow.text ++ "\x00" ++ entry.sessionId

def validateEntries (keys runIds : List String) : List ActiveIndexEntry → Except IndexErrorCode Unit
  | [] => .ok ()
  | entry :: entries =>
    if activeKey entry ∈ keys then .error .duplicateActiveKey
    else if entry.runId ∈ runIds then .error .duplicateRun
    else validateEntries (activeKey entry :: keys) (entry.runId :: runIds) entries

def validateActiveIndex (index : ActiveIndex) : Except IndexErrorCode Unit :=
  validateEntries [] [] index.entries

/-- At most one entry for each workflow and session, and at most one for each run. -/
structure Valid (index : ActiveIndex) : Prop where
  keys : (index.entries.map fun entry ↦ (entry.workflow, entry.sessionId)).Nodup
  runIds : (index.entries.map (·.runId)).Nodup

theorem activeKey_inj {entry entry' : ActiveIndexEntry} :
    activeKey entry = activeKey entry' ↔
      (entry.workflow, entry.sessionId) = (entry'.workflow, entry'.sessionId) := by
  constructor
  · intro h
    have hlist := congrArg String.toList h
    simp only [activeKey, String.toList_append] at hlist
    cases hw : entry.workflow <;> cases hw' : entry'.workflow <;>
      simp_all [WorkflowKind.text, String.toList_inj]
  · intro h
    rw [Prod.mk.injEq] at h
    rw [activeKey, activeKey, h.1, h.2]

theorem validateEntries_eq_ok {keys runIds : List String} {entries : List ActiveIndexEntry} :
    validateEntries keys runIds entries = .ok () ↔
      ((∀ entry ∈ entries, activeKey entry ∉ keys) ∧ (entries.map activeKey).Nodup) ∧
        (∀ entry ∈ entries, entry.runId ∉ runIds) ∧ (entries.map (·.runId)).Nodup := by
  induction entries generalizing keys runIds with
  | nil => simp [validateEntries]
  | cons entry entries ih =>
    by_cases hkey : activeKey entry ∈ keys
    · simp [validateEntries, hkey]
    by_cases hrun : entry.runId ∈ runIds
    · simp [validateEntries, hkey, hrun]
    have hstep : validateEntries keys runIds (entry :: entries) =
        validateEntries (activeKey entry :: keys) (entry.runId :: runIds) entries := by
      rw [validateEntries, if_neg hkey, if_neg hrun]
    rw [hstep, ih]
    simp only [List.forall_mem_cons, List.map_cons, List.nodup_cons, List.mem_map, not_exists, not_and,
      hkey, hrun, not_false_eq_true, true_and]
    simp only [List.mem_cons, not_or]
    constructor
    · rintro ⟨⟨hk, hkn⟩, hr, hrn⟩
      exact ⟨⟨fun e he ↦ (hk e he).2, fun e he ↦ (hk e he).1, hkn⟩,
        fun e he ↦ (hr e he).2, fun e he ↦ (hr e he).1, hrn⟩
    · rintro ⟨⟨hk, hk', hkn⟩, hr, hr', hrn⟩
      exact ⟨⟨fun e he ↦ ⟨hk' e he, hk e he⟩, hkn⟩, fun e he ↦ ⟨hr' e he, hr e he⟩, hrn⟩

theorem validateActiveIndex_eq_ok {index : ActiveIndex} :
    validateActiveIndex index = .ok () ↔ index.Valid := by
  have hkeys : (index.entries.map activeKey).Nodup ↔
      (index.entries.map fun entry ↦ (entry.workflow, entry.sessionId)).Nodup := by
    simp only [List.Nodup, List.pairwise_map, ne_eq, activeKey_inj]
  simp only [validateActiveIndex, validateEntries_eq_ok, List.not_mem_nil, not_false_eq_true,
    implies_true, true_and, hkeys]
  exact ⟨fun h ↦ ⟨h.1, h.2⟩, fun h ↦ ⟨h.keys, h.runIds⟩⟩

end ActiveIndex

structure ActiveRunQuery where
  runs : List AnyRun
  workflow : WorkflowKind
  sessionId : String

inductive ResolveErrorCode where
  | foreignOwner
  | missingTarget
  | revisionMismatch
  | stateConflict
  deriving DecidableEq, Repr

def statusHintMatches (entry : ActiveIndexEntry) (status : RunStatus) : Bool :=
  match status with
  | .active => entry.statusHint = .active
  | .paused => entry.statusHint = .paused
  | .stuck => entry.statusHint = .stuck
  | .blocked | .needsUserDecision | .reviewBlocked => entry.statusHint = .blocked
  | .completed | .cancelled | .failed | .abandoned => false

def resolveActiveRun (index : ActiveIndex) (query : ActiveRunQuery) : Except ResolveErrorCode AnyRun :=
  match index.validateActiveIndex with
  | .error _ => .error .stateConflict
  | .ok () =>
    match index.entries.find? fun candidate ↦
      candidate.workflow = query.workflow ∧ candidate.sessionId = query.sessionId with
    | none => .error .foreignOwner
    | some entry =>
      match query.runs.find? (·.runId = entry.runId) with
      | none => .error .missingTarget
      | some run =>
        if run.revision ≠ entry.runRevision ∨ run.transactionRevision ≠ entry.transactionRevision ∨
            entry.transactionRevision ≠ index.revision then .error .revisionMismatch
        else if run.workflow ≠ entry.workflow ∨ run.owner.sessionId ≠ entry.sessionId ∨
            run.owner.epoch ≠ entry.ownerEpoch then .error .stateConflict
        else if !statusHintMatches entry run.status then .error .stateConflict
        else .ok run

end OmpLazy.State

import OmpLazy.Observers.ModelCallObserver
import Mathlib.Data.List.Count
import Mathlib.Data.List.Perm.Subperm

/-! The calls that an observer records are among those that were begun. -/

namespace OmpLazy.Observers

open OmpLazy.Foundation

/-- The calls that were begun, as they were begun, and the retry that the next one will be. -/
structure Ledger where
  begun : List PendingCall
  retry : ℤ

namespace Ledger

def opened : Ledger := ⟨[], 0⟩

def note (platform : ObserverPlatform) (ledger : Ledger) : ObserverCall → Ledger
  | .clear => opened
  | .begin packetHash model =>
    match parseStaticActorTrialScope platform model with
    | none => ledger
    | some scope => ⟨ledger.begun ++ [⟨scope, packetHash, ledger.retry⟩], 0⟩
  | .retryStarted attempt maxAttempts =>
    if 1 ≤ attempt ∧ attempt ≤ maxAttempts then { ledger with retry := attempt } else ledger
  | .observeResponse _ | .observeProxyTerminal _ => ledger

/-- What one session has begun since it was last cleared. -/
def noted (platform : ObserverPlatform) (history : List (String × ObserverCall)) (sessionId : String) : Ledger :=
  ((history.filter fun entry ↦ entry.1 = sessionId).map (·.2)).foldl (note platform) opened

end Ledger

/-- A recorded call as it was begun. -/
def ModelCallRecord.begun (call : ModelCallRecord) : PendingCall := ⟨call.scope, call.packetHash, call.retryAttempt⟩

namespace ModelState

def callIds (state : ModelState) (scopeId : String) : List ℕ :=
  (state.calls.filter fun call ↦ call.scope.scopeId = scopeId).map (·.proxyCallId)

structure Accounts (state : ModelState) (ledger : Ledger) : Prop where
  within : (state.calls.map ModelCallRecord.begun ++ state.pending).Subperm ledger.begun
  increasing : ∀ scopeId, (state.callIds scopeId).Pairwise (· < ·)
  retry : state.nextRetryAttempt = ledger.retry

section Steps

variable {platform : ObserverPlatform} {state : ModelState} {ledger : Ledger} {pending : PendingCall}
  {terminal : ProxyTerminalState} {callId : ℕ} {scopeId : String}

theorem created_accounts : Accounts .created .opened where
  within := List.nil_subperm
  increasing _ := .nil
  retry := rfl

theorem Accounts.beginScope (h : state.Accounts ledger) (scope : StaticActorTrialScope) (packetHash : String) :
    (state.beginScope scope packetHash).Accounts ⟨ledger.begun ++ [⟨scope, packetHash, ledger.retry⟩], 0⟩ where
  within := by
    rw [ModelState.beginScope, h.retry, ← List.append_assoc]
    exact h.within.append (List.Subperm.refl _)
  increasing := h.increasing
  retry := rfl

theorem Accounts.retried (h : state.Accounts ledger) (attempt : ℤ) :
    Accounts { state with nextRetryAttempt := attempt } { ledger with retry := attempt } where
  within := h.within
  increasing := h.increasing
  retry := rfl

/-- A pending call may be dropped. -/
theorem Accounts.drops (h : state.Accounts ledger) {others : List PendingCall} (hsub : others.Sublist state.pending) :
    Accounts { state with pending := others } ledger where
  within := ((List.Sublist.refl _).append hsub).subperm.trans h.within
  increasing := h.increasing
  retry := h.retry

theorem le_foldl_max (ids : List ℕ) (start : ℕ) : start ≤ ids.foldl max start ∧ ∀ id ∈ ids, id ≤ ids.foldl max start := by
  induction ids generalizing start with
  | nil => exact ⟨Nat.le_refl _, List.forall_mem_nil _⟩
  | cons id ids ih =>
    obtain ⟨hstart, hids⟩ := ih (max start id)
    refine ⟨Nat.le_trans (Nat.le_max_left _ _) hstart, List.forall_mem_cons.mpr ⟨?_, hids⟩⟩
    exact Nat.le_trans (Nat.le_max_right _ _) hstart

theorem lastCallId_eq (state : ModelState) (scopeId : String) :
    state.lastCallId scopeId = (state.callIds scopeId).foldl max 0 := rfl

theorem callIds_concat (state : ModelState) (call : ModelCallRecord) (scopeId : String) :
    callIds { state with calls := state.calls ++ [call] } scopeId =
      state.callIds scopeId ++ if call.scope.scopeId = scopeId then [call.proxyCallId] else [] := by
  rw [callIds, List.filter_append, List.map_append]
  by_cases hscope : call.scope.scopeId = scopeId
  · rw [List.filter_cons_of_pos (by simpa using hscope), if_pos hscope]
    rfl
  · rw [List.filter_cons_of_neg (by simpa using hscope), if_neg hscope]
    rfl

/-- The pending call that is taken away may be recorded. -/
theorem Accounts.record (h : state.Accounts ledger) {others : List PendingCall}
    (hperm : state.pending.Perm (pending :: others)) (callId : ℕ) (terminal : ProxyTerminalState) :
    (ModelState.record { state with pending := others } pending callId terminal).1.Accounts ledger := by
  have hsubperm : others.Subperm state.pending := (List.sublist_cons_self pending others).subperm.trans hperm.symm.subperm
  rw [ModelState.record]
  split
  · exact ⟨((List.Subperm.refl _).append hsubperm).trans h.within, h.increasing, h.retry⟩
  · rename_i hnew
    rw [lastCallId_eq] at hnew
    refine ⟨?_, fun scopeId ↦ ?_, h.retry⟩
    · have hmoved : (state.calls.map ModelCallRecord.begun ++ [pending] ++ others).Perm
          (state.calls.map ModelCallRecord.begun ++ state.pending) := by
        rw [List.append_assoc]
        exact hperm.symm.append_left _
      rw [List.map_append, List.map_singleton]
      exact hmoved.subperm.trans h.within
    · have hids := callIds_concat { state with pending := others }
        ⟨pending.scope, pending.packetHash, callId, pending.retryAttempt, terminal⟩ scopeId
      refine hids ▸ List.pairwise_append.mpr ⟨h.increasing scopeId, ?_, fun id hid last hlast ↦ ?_⟩
      · split
        · exact List.pairwise_singleton _ _
        · exact .nil
      · split at hlast
        · rename_i hscope
          rw [List.mem_singleton.mp hlast]
          exact Nat.lt_of_le_of_lt ((le_foldl_max _ 0).2 id (hscope ▸ hid)) (Nat.lt_of_not_le hnew)
        · cases hlast

theorem Accounts.observeResponse (h : state.Accounts ledger) (response : Response) :
    (state.observeResponse platform response).1.Accounts ledger := by
  rw [ModelState.observeResponse]
  cases hpending : state.pending with
  | nil => exact h
  | cons pending others =>
    dsimp only
    split
    · exact h.drops (hpending ▸ List.sublist_cons_self pending others)
    · exact h.record (List.Perm.of_eq hpending) _ _

theorem Accounts.observeProxyTerminal (h : state.Accounts ledger) (terminal : ProxyTerminal) :
    (state.observeProxyTerminal terminal).1.Accounts ledger := by
  rw [ModelState.observeProxyTerminal]
  split
  · exact h
  · rename_i pending hpending
    obtain ⟨hlt, rfl⟩ := List.getElem?_eq_some_iff.mp hpending
    exact h.record (List.getElem_cons_eraseIdx_perm hlt).symm _ _

/-- What is refused leaves the recorded calls as they are. -/
theorem record_refused {code : RefusalCode} (h : (state.record pending callId terminal).2 = .refused code) :
    (state.record pending callId terminal).1.calls = state.calls := by
  rw [ModelState.record] at h ⊢
  split
  · rfl
  · rename_i hnew
    rw [if_neg hnew] at h
    cases h

theorem observeResponse_refused {response : Response} {code : RefusalCode}
    (h : (state.observeResponse platform response).2 = .refused code) :
    (state.observeResponse platform response).1.calls = state.calls := by
  rw [ModelState.observeResponse] at h ⊢
  cases hpending : state.pending with
  | nil => rfl
  | cons pending others =>
    rw [hpending] at h
    cases houtcome : response.outcome platform with
    | error code => rfl
    | ok read =>
      rw [houtcome] at h
      exact record_refused h

theorem observeProxyTerminal_refused {terminal : ProxyTerminal} {code : RefusalCode}
    (h : (state.observeProxyTerminal terminal).2 = .refused code) :
    (state.observeProxyTerminal terminal).1.calls = state.calls := by
  rw [ModelState.observeProxyTerminal] at h ⊢
  split
  · rfl
  · rename_i hpending
    rw [hpending] at h
    exact record_refused h

end Steps

end ModelState

/-! The sessions of an observer. -/

namespace ModelStates

section Sessions

variable {platform : ObserverPlatform} {states : ModelStates} {sessionId sessionId' : String}

theorem stateFor_setEntry (states : ModelStates) (state : ModelState) :
    ModelStates.stateFor (setEntry sessionId state states) sessionId' =
      if sessionId = sessionId' then state else states.stateFor sessionId' := by
  rw [stateFor, getEntry_setEntry]
  split <;> rfl

theorem stateFor_clear (states : ModelStates) :
    (states.clear sessionId).stateFor sessionId' =
      if sessionId = sessionId' then .created else states.stateFor sessionId' := by
  have hentry : getEntry sessionId' (states.clear sessionId) =
      if sessionId = sessionId' then none else getEntry sessionId' states := by
    induction states with
    | nil => split <;> rfl
    | cons entry states ih =>
      obtain ⟨k, state⟩ := entry
      rw [clear] at ih ⊢
      by_cases hk : k = sessionId
      · subst hk
        rw [List.filter_cons_of_neg (by simp), ih, getEntry_cons]
        split <;> rfl
      · rw [List.filter_cons_of_pos (by simpa using hk), getEntry_cons, getEntry_cons, ih]
        by_cases hk' : k = sessionId'
        · rw [if_pos hk', if_pos hk', if_neg fun h ↦ hk (hk'.trans h.symm)]
        · rw [if_neg hk', if_neg hk']
  rw [stateFor, hentry]
  split <;> rfl

theorem stateFor_of_entry {state : ModelState} (h : getEntry sessionId states = some state) :
    states.stateFor sessionId = state := by
  rw [stateFor, h, Option.getD_some]

/-- A call of one session is none of another's. -/
theorem stateFor_step_other (hne : sessionId ≠ sessionId') (call : ObserverCall) :
    (states.step platform sessionId call).1.stateFor sessionId' = states.stateFor sessionId' := by
  have hset : ∀ state, ModelStates.stateFor (setEntry sessionId state states) sessionId' = states.stateFor sessionId' :=
    fun state ↦ (stateFor_setEntry states state).trans (if_neg hne)
  cases call with
  | clear => exact (stateFor_clear states).trans (if_neg hne)
  | begin packetHash model =>
    rw [step, begin]
    split
    · rfl
    · exact hset _
  | retryStarted attempt maxAttempts =>
    rw [step, retryStarted]
    split
    · rfl
    · exact hset _
  | observeResponse response =>
    rw [step, observeResponse]
    split
    · rfl
    · exact hset _
  | observeProxyTerminal terminal =>
    rw [step, observeProxyTerminal]
    split
    · rfl
    · split
      · rfl
      · exact hset _

theorem step_accounts {ledger : Ledger} (h : (states.stateFor sessionId).Accounts ledger) (call : ObserverCall) :
    ((states.step platform sessionId call).1.stateFor sessionId).Accounts (ledger.note platform call) := by
  have hset : ∀ state, ModelStates.stateFor (setEntry sessionId state states) sessionId = state :=
    fun state ↦ (stateFor_setEntry states state).trans (if_pos rfl)
  cases call with
  | clear =>
    rw [step, stateFor_clear, if_pos rfl]
    exact ModelState.created_accounts
  | begin packetHash model =>
    rw [step, begin, Ledger.note]
    cases parseStaticActorTrialScope platform model with
    | none => exact h
    | some scope =>
      dsimp only
      rw [hset]
      exact h.beginScope scope packetHash
  | retryStarted attempt maxAttempts =>
    rw [step, retryStarted, Ledger.note]
    by_cases hvalid : 1 ≤ attempt ∧ attempt ≤ maxAttempts
    · rw [if_pos hvalid, if_neg (by omega), hset]
      exact h.retried attempt
    · rw [if_neg hvalid, if_pos (by omega)]
      exact h
  | observeResponse response =>
    rw [step, observeResponse, Ledger.note]
    cases hentry : getEntry sessionId states with
    | none => exact h
    | some state =>
      dsimp only
      rw [hset]
      exact (stateFor_of_entry hentry ▸ h).observeResponse response
  | observeProxyTerminal terminal =>
    rw [step, observeProxyTerminal, Ledger.note]
    cases proxyTerminalSchema terminal with
    | none => exact h
    | some terminal =>
      cases hentry : getEntry sessionId states with
      | none => exact h
      | some state =>
        dsimp only
        rw [hset]
        exact (stateFor_of_entry hentry ▸ h).observeProxyTerminal terminal

/-- What is refused leaves the recorded calls of every session as they are. -/
theorem step_refused {call : ObserverCall} {code : RefusalCode}
    (h : (states.step platform sessionId call).2 = .refused code) (other : String) :
    ((states.step platform sessionId call).1.stateFor other).calls = (states.stateFor other).calls := by
  by_cases hne : sessionId = other
  · subst hne
    have hset : ∀ state, ModelStates.stateFor (setEntry sessionId state states) sessionId = state :=
      fun state ↦ (stateFor_setEntry states state).trans (if_pos rfl)
    cases call with
    | clear => cases h
    | retryStarted attempt maxAttempts => cases h
    | begin packetHash model =>
      rw [step, begin] at h
      split at h <;> cases h
    | observeResponse response =>
      rw [step, observeResponse] at h ⊢
      cases hentry : getEntry sessionId states with
      | none => rfl
      | some state =>
        rw [hentry] at h
        dsimp only at h ⊢
        rw [hset, stateFor_of_entry hentry]
        exact ModelState.observeResponse_refused h
    | observeProxyTerminal terminal =>
      rw [step, observeProxyTerminal] at h ⊢
      cases hterminal : proxyTerminalSchema terminal with
      | none => rfl
      | some terminal =>
        rw [hterminal] at h
        cases hentry : getEntry sessionId states with
        | none => rfl
        | some state =>
          rw [hentry] at h
          dsimp only at h ⊢
          rw [hset, stateFor_of_entry hentry]
          exact ModelState.observeProxyTerminal_refused h
  · rw [stateFor_step_other hne]

/-- What each call keeps, every sequence of calls keeps. -/
theorem after_accounts (platform : ObserverPlatform) (history : List (String × ObserverCall)) (sessionId : String) :
    ((after platform history).stateFor sessionId).Accounts (Ledger.noted platform history sessionId) := by
  induction history using List.reverseRecOn with
  | nil => exact ModelState.created_accounts
  | append_singleton history entry ih =>
    obtain ⟨caller, call⟩ := entry
    rw [after, List.foldl_append, List.foldl_cons, List.foldl_nil, Ledger.noted, List.filter_append, List.map_append,
      List.foldl_append]
    by_cases hcaller : caller = sessionId
    · subst hcaller
      rw [List.filter_cons_of_pos (by simp)]
      exact step_accounts ih call
    · rw [List.filter_cons_of_neg (by simpa using hcaller)]
      exact (stateFor_step_other hcaller call).symm ▸ ih

end Sessions

end ModelStates

/-- In every sequence of calls, whatever sessions make them, the records and the pending calls of a session are calls it
has begun, each of them once at most and as it was begun; the call ids of a scope increase; and a call that is refused
adds no record. -/
theorem calls_accounted (platform : ObserverPlatform) (history : List (String × ObserverCall)) (sessionId : String) :
    let states := ModelStates.after platform history
    let state := states.stateFor sessionId
    let begun := (Ledger.noted platform history sessionId).begun
    (state.calls.map ModelCallRecord.begun ++ state.pending).Subperm begun ∧
    (∀ scopeId : String, (state.calls.countP fun call ↦ call.scope.scopeId = scopeId) +
      (state.pending.countP fun call ↦ call.scope.scopeId = scopeId) ≤
        begun.countP fun call ↦ call.scope.scopeId = scopeId) ∧
    (∀ scopeId, (state.callIds scopeId).Pairwise (· < ·)) ∧
    ∀ caller call code, (states.step platform caller call).2 = .refused code →
      ((states.step platform caller call).1.stateFor sessionId).calls = state.calls := by
  intro states state begun
  have haccounts := ModelStates.after_accounts platform history sessionId
  refine ⟨haccounts.within, fun scopeId ↦ ?_, haccounts.increasing, fun _ _ _ h ↦ ModelStates.step_refused h sessionId⟩
  have hcount := haccounts.within.countP_le fun call ↦ decide (call.scope.scopeId = scopeId)
  rw [List.countP_append, List.countP_map] at hcount
  exact hcount

end OmpLazy.Observers

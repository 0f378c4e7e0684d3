import OmpLazy.Gates.RetrievalBudgetGuard

/-! Any calls of any sessions, while one session keeps its packet. -/

namespace OmpLazy.Gates

open OmpLazy.Foundation OmpLazy.Contracts

variable {sessionId : String} {compiled : CompiledTaskPacket} {guard next : RetrievalBudgetGuard}
  {state : MutableRetrievalState}

namespace RetrievalBudgetGuard

@[simp] theorem set_states_self (value : Option MutableRetrievalState) :
    (guard.set sessionId value).states sessionId = value :=
  Function.update_self ..

theorem set_states_ne {other : String} (h : other ≠ sessionId) (value : Option MutableRetrievalState) :
    (guard.set other value).states sessionId = guard.states sessionId :=
  Function.update_of_ne h.symm ..

/-- A call on another session leaves a session alone. -/
theorem call_states (guard : RetrievalBudgetGuard) {call : RetrievalCall} (h : call.sessionId ≠ sessionId) :
    (guard.call call).2.states sessionId = guard.states sessionId := by
  cases call with
  | activate other _ =>
    simp only [RetrievalBudgetGuard.call, activate]
    split
    · rfl
    · exact set_states_ne h _
  | clear other => exact set_states_ne h _
  | authorize other toolCallId =>
    simp only [RetrievalBudgetGuard.call, authorize, Prod.map]
    split
    · rfl
    split
    · rfl
    split
    · rfl
    split <;> exact set_states_ne h _
  | observe input =>
    simp only [RetrievalBudgetGuard.call, observe, Prod.map]
    split
    · rfl
    split
    · rfl
    split
    · rfl
    split <;> exact set_states_ne h _

/-- A packet that is active already is kept. -/
theorem activate_same {other : CompiledTaskPacket} (hstate : guard.states sessionId = some state)
    (h : other.packetHash = state.compiled.packetHash) : guard.activate sessionId other = guard := by
  rw [activate, hstate, Option.map_some, h, if_pos rfl]

/-- What `authorize` does to a session: it blocks the call, and at most ends the packet, or reserves it. -/
inductive Authorized (state : MutableRetrievalState) (toolCallId : String) :
    Option String → MutableRetrievalState → Prop
  | blocked (reason : String) (terminalCode : Option RetrievalRefusalCode)
      (hkept : ∀ code, state.terminalCode = some code → terminalCode = some code) :
      Authorized state toolCallId (some reason) { state with terminalCode }
  | reserved (hopen : state.terminalCode = none) (hnew : toolCallId ∉ state.seenCallIds)
      (hroom : state.budget.generalCalls + state.pendingCallIds.card + 1 ≤
        state.compiled.packet.budgets.maxCalls) :
      Authorized state toolCallId none { state with
        seenCallIds := insert toolCallId state.seenCallIds
        pendingCallIds := insert toolCallId state.pendingCallIds }

theorem authorize_cases (hstate : guard.states sessionId = some state) (toolCallId : String) :
    ∃ after, (guard.authorize sessionId toolCallId).2.states sessionId = some after ∧
      Authorized state toolCallId (guard.authorize sessionId toolCallId).1 after := by
  simp only [authorize, hstate]
  split
  · exact ⟨state, hstate, .blocked _ _ fun _ h ↦ h⟩
  rename_i hopen
  split
  · exact ⟨state, hstate, .blocked _ _ fun _ h ↦ h⟩
  rename_i hnew
  split
  · exact ⟨_, set_states_self _, .blocked _ _ fun code h ↦ by simp [hopen] at h⟩
  rename_i hroom
  exact ⟨_, set_states_self _, .reserved hopen hnew (not_lt.mp hroom)⟩

/-- What `observe` does to a session: it has ended already, the call is not pending, the result ends the
packet, or it is paid for. -/
inductive Observed (state : MutableRetrievalState) (input : RetrievalInput) :
    RetrievalGuardResult → MutableRetrievalState → Prop
  | ended (code : RetrievalRefusalCode) (hterminal : state.terminalCode = some code) :
      Observed state input (refusal state code) state
  | unknown (hopen : state.terminalCode = none) (hnot : input.toolCallId ∉ state.pendingCallIds) :
      Observed state input .quiet state
  | refused (code : RetrievalRefusalCode) (hopen : state.terminalCode = none)
      (hpending : input.toolCallId ∈ state.pendingCallIds) :
      Observed state input (refusal state code) { state with
        pendingCallIds := state.pendingCallIds.erase input.toolCallId
        terminalCode := some code
        observations := state.observations ++ [input.observation (.refused code)] }
  | metered (budget : RetrievalBudget) (hopen : state.terminalCode = none)
      (hpending : input.toolCallId ∈ state.pendingCallIds)
      (hmetered : meterRetrievalResult state.budget input.result = .ok budget) :
      Observed state input (.metered budget) { state with
        pendingCallIds := state.pendingCallIds.erase input.toolCallId
        budget
        observations := state.observations ++ [input.observation (resultOutcome input.result)] }

theorem observe_cases {input : RetrievalInput} (hstate : guard.states input.sessionId = some state) :
    ∃ after, (guard.observe input).2.states input.sessionId = some after ∧
      Observed state input (guard.observe input).1 after := by
  simp only [observe, hstate]
  split
  · rename_i code hterminal
    exact ⟨state, hstate, .ended code hterminal⟩
  rename_i hopen
  split
  · rename_i hnot
    exact ⟨state, hstate, .unknown hopen hnot⟩
  rename_i hpending
  rw [not_not] at hpending
  split
  · exact ⟨_, set_states_self _, .refused _ hopen hpending⟩
  · rename_i budget hmetered
    exact ⟨_, set_states_self _, .metered budget hopen hpending hmetered⟩

end RetrievalBudgetGuard

/-! What the calls of a session were answered. -/

def authorizedCall (sessionId : String) : RetrievalCall × RetrievalAnswer → Option String
  | (.authorize session toolCallId, .authorized none) => if session = sessionId then some toolCallId else none
  | _ => none

def meteredCall (sessionId : String) : RetrievalCall × RetrievalAnswer → Option RetrievalInput
  | (.observe input, .observed (.metered _)) => if input.sessionId = sessionId then some input else none
  | _ => none

/-- The ids of the calls that were let through. -/
def authorizedIds (sessionId : String) (history : List (RetrievalCall × RetrievalAnswer)) : List String :=
  history.filterMap (authorizedCall sessionId)

/-- The results that were paid for, in their order. -/
def meteredInputs (sessionId : String) (history : List (RetrievalCall × RetrievalAnswer)) :
    List RetrievalInput :=
  history.filterMap (meteredCall sessionId)

/-- The budget that the results leave. -/
def chargedBudget (compiled : CompiledTaskPacket) (inputs : List RetrievalInput) : RetrievalBudget :=
  (inputs.map (·.result)).foldl RetrievalBudget.charge (createRetrievalBudget compiled.packet.tier)

/-- A call that leaves the session its packet. -/
def UnderPacket (sessionId : String) (compiled : CompiledTaskPacket) : RetrievalCall → Prop
  | .activate session other => session = sessionId → other.packetHash = compiled.packetHash
  | .clear session => session ≠ sessionId
  | .authorize _ _ | .observe _ => True

def RetrievalStep (sessionId : String) (compiled : CompiledTaskPacket) (guard : RetrievalBudgetGuard)
    (label : RetrievalCall × RetrievalAnswer) (next : RetrievalBudgetGuard) : Prop :=
  UnderPacket sessionId compiled label.1 ∧ guard.call label.1 = (label.2, next)

/-- What an observation leaves of a budget. -/
def RetrievalObservation.charge (budget : RetrievalBudget) (observation : RetrievalObservation) :
    RetrievalBudget :=
  match observation.outcome with
  | .empty | .status => { budget with generalCalls := budget.generalCalls + 1 }
  | .delivered => { budget with
      generalCalls := budget.generalCalls + 1
      retrievalCalls := budget.retrievalCalls + 1
      retrievalBytes := budget.retrievalBytes + observation.deliveredBytes }
  | .refused _ => budget

def RetrievalObservation.succeeded (observation : RetrievalObservation) : Bool :=
  match observation.outcome with
  | .refused _ => false
  | .empty | .status | .delivered => true

/-- What holds of a session after a history of calls. -/
structure Metered (sessionId : String) (compiled : CompiledTaskPacket)
    (history : List (RetrievalCall × RetrievalAnswer)) (state : MutableRetrievalState) : Prop where
  keeps : state.compiled = compiled
  accepted : state.budget.accepted
  reserved : state.budget.generalCalls + state.pendingCallIds.card ≤ compiled.packet.budgets.maxCalls
  spent : state.budget = chargedBudget compiled (meteredInputs sessionId history)
  recorded : state.budget =
    state.observations.foldl RetrievalObservation.charge (createRetrievalBudget compiled.packet.tier)
  authorized : (authorizedIds sessionId history).Nodup
  seen : ∀ toolCallId, toolCallId ∈ state.seenCallIds ↔ toolCallId ∈ authorizedIds sessionId history
  pending : state.pendingCallIds ⊆ state.seenCallIds
  observed : (state.observations.map (·.toolCallId)).Nodup
  settled : ∀ observation ∈ state.observations,
    observation.toolCallId ∈ state.seenCallIds ∧ observation.toolCallId ∉ state.pendingCallIds
  metered : (meteredInputs sessionId history).map (·.toolCallId) =
    (state.observations.filter (·.succeeded)).map (·.toolCallId)

section Steps

variable {history : List (RetrievalCall × RetrievalAnswer)} {label : RetrievalCall × RetrievalAnswer}

theorem authorizedIds_snoc : authorizedIds sessionId (history ++ [label]) =
    authorizedIds sessionId history ++ (authorizedCall sessionId label).toList := by
  simp only [authorizedIds, List.filterMap_append, List.filterMap_cons, List.filterMap_nil]
  cases authorizedCall sessionId label <;> rfl

theorem meteredInputs_snoc : meteredInputs sessionId (history ++ [label]) =
    meteredInputs sessionId history ++ (meteredCall sessionId label).toList := by
  simp only [meteredInputs, List.filterMap_append, List.filterMap_cons, List.filterMap_nil]
  cases meteredCall sessionId label <;> rfl

theorem authorizedCall_ne (h : label.1.sessionId ≠ sessionId) : authorizedCall sessionId label = none := by
  unfold authorizedCall
  split
  · exact if_neg h
  · rfl

theorem meteredCall_ne (h : label.1.sessionId ≠ sessionId) : meteredCall sessionId label = none := by
  unfold meteredCall
  split
  · exact if_neg h
  · rfl

/-- A call that lets nothing through and pays for nothing changes nothing that counts. -/
theorem Metered.idle (h : Metered sessionId compiled history state)
    (hauthorized : authorizedCall sessionId label = none) (hmetered : meteredCall sessionId label = none)
    (terminalCode : Option RetrievalRefusalCode) :
    Metered sessionId compiled (history ++ [label]) { state with terminalCode } := by
  have hids : authorizedIds sessionId (history ++ [label]) = authorizedIds sessionId history := by
    rw [authorizedIds_snoc, hauthorized, Option.toList_none, List.append_nil]
  have hinputs : meteredInputs sessionId (history ++ [label]) = meteredInputs sessionId history := by
    rw [meteredInputs_snoc, hmetered, Option.toList_none, List.append_nil]
  constructor
  case keeps => exact h.keeps
  case accepted => exact h.accepted
  case reserved => exact h.reserved
  case spent => rw [hinputs]; exact h.spent
  case recorded => exact h.recorded
  case authorized => rw [hids]; exact h.authorized
  case seen => rw [hids]; exact h.seen
  case pending => exact h.pending
  case observed => exact h.observed
  case settled => exact h.settled
  case metered => rw [hinputs]; exact h.metered

theorem Metered.authorize (h : Metered sessionId compiled history state) {toolCallId : String}
    {reason : Option String} {after : MutableRetrievalState}
    (hcase : RetrievalBudgetGuard.Authorized state toolCallId reason after) :
    Metered sessionId compiled (history ++ [(.authorize sessionId toolCallId, .authorized reason)]) after := by
  cases hcase with
  | blocked reason terminalCode _ => exact h.idle rfl rfl terminalCode
  | reserved _ hnew hroom =>
    have hids : authorizedIds sessionId (history ++ [(.authorize sessionId toolCallId, .authorized none)]) =
        authorizedIds sessionId history ++ [toolCallId] := by
      rw [authorizedIds_snoc]
      simp [authorizedCall]
    have hinputs : meteredInputs sessionId
        (history ++ [(.authorize sessionId toolCallId, .authorized none)]) =
        meteredInputs sessionId history := by
      rw [meteredInputs_snoc]
      exact List.append_nil _
    constructor
    case keeps => exact h.keeps
    case accepted => exact h.accepted
    case reserved =>
      rw [h.keeps] at hroom
      rw [Finset.card_insert_of_notMem fun hmem ↦ hnew (h.pending hmem)]
      omega
    case spent => rw [hinputs]; exact h.spent
    case recorded => exact h.recorded
    case authorized =>
      rw [hids]
      exact List.nodup_append.mpr ⟨h.authorized, List.nodup_singleton _, fun x hx y hy heq ↦
        hnew ((h.seen _).mpr (List.mem_singleton.mp hy ▸ heq ▸ hx))⟩
    case seen =>
      intro id
      rw [hids, Finset.mem_insert, List.mem_append, List.mem_singleton, h.seen, or_comm]
    case pending => exact Finset.insert_subset_insert _ h.pending
    case observed => exact h.observed
    case settled =>
      intro observation hmem
      obtain ⟨hseen, hpending⟩ := h.settled observation hmem
      refine ⟨Finset.mem_insert_of_mem hseen, fun hinsert ↦ ?_⟩
      obtain rfl | hinsert := Finset.mem_insert.mp hinsert
      · exact hnew hseen
      · exact hpending hinsert
    case metered => rw [hinputs]; exact h.metered

/-- A call that was pending is observed once. -/
theorem Metered.observed_snoc (h : Metered sessionId compiled history state)
    (observation : RetrievalObservation) (hpending : observation.toolCallId ∈ state.pendingCallIds) :
    ((state.observations ++ [observation]).map (·.toolCallId)).Nodup ∧
      ∀ known ∈ state.observations ++ [observation], known.toolCallId ∈ state.seenCallIds ∧
        known.toolCallId ∉ state.pendingCallIds.erase observation.toolCallId := by
  constructor
  · rw [List.map_append]
    refine List.nodup_append.mpr ⟨h.observed, List.nodup_singleton _, fun x hx y hy heq ↦ ?_⟩
    obtain ⟨known, hknown, rfl⟩ := List.mem_map.mp hx
    have hsame : known.toolCallId = observation.toolCallId := heq.trans (List.mem_singleton.mp hy)
    exact (h.settled known hknown).2 (hsame ▸ hpending)
  · intro known hmem
    obtain hmem | hmem := List.mem_append.mp hmem
    · obtain ⟨hseen, hnot⟩ := h.settled known hmem
      exact ⟨hseen, fun herase ↦ hnot (Finset.mem_of_mem_erase herase)⟩
    · obtain rfl := List.mem_singleton.mp hmem
      exact ⟨h.pending hpending, Finset.notMem_erase _ _⟩

theorem charge_observation (budget : RetrievalBudget) (input : RetrievalInput) :
    (input.observation (resultOutcome input.result)).charge budget = budget.charge input.result := by
  simp only [RetrievalInput.result]
  split
  · rfl
  split <;> rfl

theorem Metered.observe {input : RetrievalInput} (h : Metered input.sessionId compiled history state)
    {result : RetrievalGuardResult} {after : MutableRetrievalState}
    (hcase : RetrievalBudgetGuard.Observed state input result after) :
    Metered input.sessionId compiled (history ++ [(.observe input, .observed result)]) after := by
  cases hcase with
  | ended code _ => exact h.idle rfl rfl state.terminalCode
  | unknown _ _ => exact h.idle rfl rfl state.terminalCode
  | refused code _ hpending =>
    have hkept : Metered input.sessionId compiled
        (history ++ [(.observe input, .observed (refusal state code))])
        { state with terminalCode := some code } := h.idle rfl rfl (some code)
    have hcard := Finset.card_erase_add_one hpending
    have hreserved := h.reserved
    obtain ⟨hobserved, hsettled⟩ := h.observed_snoc (input.observation (.refused code)) hpending
    constructor
    case keeps => exact hkept.keeps
    case accepted => exact hkept.accepted
    case reserved => simp only; omega
    case spent => exact hkept.spent
    case recorded =>
      rw [List.foldl_append]
      exact hkept.recorded
    case authorized => exact hkept.authorized
    case seen => exact hkept.seen
    case pending => exact (Finset.erase_subset _ _).trans h.pending
    case observed => exact hobserved
    case settled => exact hsettled
    case metered =>
      rw [List.filter_append, List.map_append]
      exact hkept.metered.trans (List.append_nil _).symm
  | metered budget _ hpending hmetered =>
    obtain ⟨rfl, haccepted, -⟩ := meterRetrievalResult_ok h.accepted hmetered
    have hids : authorizedIds input.sessionId
        (history ++ [(.observe input, .observed (.metered (state.budget.charge input.result)))]) =
        authorizedIds input.sessionId history := by
      rw [authorizedIds_snoc]
      exact List.append_nil _
    have hinputs : meteredInputs input.sessionId
        (history ++ [(.observe input, .observed (.metered (state.budget.charge input.result)))]) =
        meteredInputs input.sessionId history ++ [input] := by
      rw [meteredInputs_snoc]
      simp [meteredCall]
    have hcard := Finset.card_erase_add_one hpending
    have hreserved := h.reserved
    obtain ⟨hobserved, hsettled⟩ := h.observed_snoc
      (input.observation (resultOutcome input.result)) hpending
    constructor
    case keeps => exact h.keeps
    case accepted => exact haccepted
    case reserved =>
      simp only [charge_generalCalls]
      omega
    case spent =>
      rw [hinputs, chargedBudget, List.map_append, List.foldl_append]
      simp only [h.spent, chargedBudget, List.map_cons, List.map_nil, List.foldl_cons, List.foldl_nil]
    case recorded =>
      rw [List.foldl_append, ← h.recorded, List.foldl_cons, List.foldl_nil, charge_observation]
    case authorized => rw [hids]; exact h.authorized
    case seen => rw [hids]; exact h.seen
    case pending => exact (Finset.erase_subset _ _).trans h.pending
    case observed => exact hobserved
    case settled => exact hsettled
    case metered =>
      have hsucceeded : (input.observation (resultOutcome input.result)).succeeded = true := by
        cases input.result <;> rfl
      rw [hinputs, List.map_append, List.filter_append, List.map_append, h.metered, List.filter_cons,
        if_pos hsucceeded]
      rfl

/-- Any call keeps what holds of a session that keeps its packet. -/
theorem Metered.step (h : Metered sessionId compiled history state)
    (hstate : guard.states sessionId = some state) (hstep : RetrievalStep sessionId compiled guard label next) :
    ∃ after, next.states sessionId = some after ∧ Metered sessionId compiled (history ++ [label]) after := by
  obtain ⟨call, answer⟩ := label
  obtain ⟨hunder, hcall⟩ := hstep
  by_cases hsession : call.sessionId = sessionId
  · cases call with
    | activate session other =>
      obtain rfl : session = sessionId := hsession
      have hkept := RetrievalBudgetGuard.activate_same hstate (h.keeps.symm ▸ hunder rfl)
      cases hcall
      exact ⟨state, by rw [hkept, hstate], h.idle rfl rfl state.terminalCode⟩
    | clear session => exact absurd hsession hunder
    | authorize session toolCallId =>
      obtain rfl : session = sessionId := hsession
      cases hcall
      obtain ⟨after, hafter, hcase⟩ := RetrievalBudgetGuard.authorize_cases hstate toolCallId
      exact ⟨after, hafter, h.authorize hcase⟩
    | observe input =>
      obtain rfl : input.sessionId = sessionId := hsession
      cases hcall
      obtain ⟨after, hafter, hcase⟩ := RetrievalBudgetGuard.observe_cases hstate
      exact ⟨after, hafter, h.observe hcase⟩
  · have hkept := guard.call_states hsession
    rw [hcall] at hkept
    exact ⟨state, hkept.trans hstate, h.idle (authorizedCall_ne hsession) (meteredCall_ne hsession)
      state.terminalCode⟩

end Steps

/-! Once a packet has ended. -/

/-- The session refuses with the code that ended its packet. -/
def RefusedWith (code : RetrievalRefusalCode) (sessionId : String) :
    RetrievalCall × RetrievalAnswer → Prop
  | (.authorize session _, answer) =>
    session = sessionId → answer = .authorized (some ("omp-lazy: " ++ code.text))
  | (.observe input, answer) =>
    input.sessionId = sessionId → ∃ replacement, answer = .observed (.refused code replacement)
  | (.activate _ _, _) | (.clear _, _) => True

theorem ended_step {label : RetrievalCall × RetrievalAnswer} {code : RetrievalRefusalCode}
    (hkeeps : state.compiled = compiled) (hterminal : state.terminalCode = some code)
    (hstate : guard.states sessionId = some state) (hstep : RetrievalStep sessionId compiled guard label next) :
    RefusedWith code sessionId label ∧ next.states sessionId = some state := by
  obtain ⟨call, answer⟩ := label
  obtain ⟨hunder, hcall⟩ := hstep
  by_cases hsession : call.sessionId = sessionId
  · subst hsession
    cases call with
    | activate session other =>
      have hkept := RetrievalBudgetGuard.activate_same hstate (hkeeps.symm ▸ hunder rfl)
      cases hcall
      exact ⟨trivial, hkept.symm ▸ hstate⟩
    | clear session => exact absurd rfl hunder
    | authorize session toolCallId =>
      simp only [RetrievalBudgetGuard.call, RetrievalBudgetGuard.authorize, RetrievalCall.sessionId] at hcall hstate
      rw [hstate] at hcall
      simp only [hterminal] at hcall
      cases hcall
      exact ⟨fun _ ↦ rfl, hstate⟩
    | observe input =>
      simp only [RetrievalBudgetGuard.call, RetrievalBudgetGuard.observe, RetrievalCall.sessionId] at hcall hstate
      rw [hstate] at hcall
      simp only [hterminal] at hcall
      cases hcall
      exact ⟨fun _ ↦ ⟨_, rfl⟩, hstate⟩
  · have hkept := guard.call_states hsession
    rw [hcall] at hkept
    refine ⟨?_, hkept.trans hstate⟩
    cases call with
    | activate _ _ | clear _ => trivial
    | authorize _ _ | observe _ => exact fun h ↦ absurd h hsession

theorem ended_run {later : List (RetrievalCall × RetrievalAnswer)} {code : RetrievalRefusalCode}
    (hkeeps : state.compiled = compiled) (hterminal : state.terminalCode = some code)
    (hstate : guard.states sessionId = some state)
    (hrun : Recorded (RetrievalStep sessionId compiled) guard later next) :
    (∀ label ∈ later, RefusedWith code sessionId label) ∧ next.states sessionId = some state := by
  induction hrun with
  | nil => exact ⟨fun _ h ↦ absurd h List.not_mem_nil, hstate⟩
  | snoc _ hstep ih =>
    obtain ⟨hrefused, hkept⟩ := ih
    obtain ⟨hlast, hnext⟩ := ended_step hkeeps hterminal hkept hstep
    refine ⟨fun label hmem ↦ ?_, hnext⟩
    obtain hmem | hmem := List.mem_append.mp hmem
    · exact hrefused label hmem
    · exact List.mem_singleton.mp hmem ▸ hlast

theorem charged_bytes (compiled : CompiledTaskPacket) (inputs : List RetrievalInput) :
    (chargedBudget compiled inputs).tier = compiled.packet.tier ∧
      (chargedBudget compiled inputs).retrievalBytes = (inputs.map (·.result.bytes)).sum := by
  induction inputs using List.reverseRecOn with
  | nil => exact ⟨rfl, rfl⟩
  | append_singleton inputs input ih =>
    have hcharge : chargedBudget compiled (inputs ++ [input]) =
        (chargedBudget compiled inputs).charge input.result := by
      simp only [chargedBudget, List.map_append, List.foldl_append, List.map_cons, List.map_nil,
        List.foldl_cons, List.foldl_nil]
    rw [hcharge, charge_tier, charge_retrievalBytes, ih.1, ih.2, List.map_append, List.sum_append,
      List.map_singleton, List.sum_singleton]
    exact ⟨rfl, rfl⟩

theorem metered_run {history : List (RetrievalCall × RetrievalAnswer)}
    (hfresh : (guard.states sessionId).map (·.compiled.packetHash) ≠ some compiled.packetHash)
    (hrun : Recorded (RetrievalStep sessionId compiled) (guard.activate sessionId compiled) history next) :
    ∃ state, next.states sessionId = some state ∧ Metered sessionId compiled history state := by
  induction hrun with
  | nil =>
    refine ⟨RetrievalBudgetGuard.started compiled, ?_, ?_⟩
    · rw [RetrievalBudgetGuard.activate, if_neg hfresh, RetrievalBudgetGuard.set_states_self]
    · constructor
      case keeps => rfl
      case accepted => exact createRetrievalBudget_accepted _
      case reserved => exact Nat.zero_le _
      case spent => rfl
      case recorded => rfl
      case authorized => exact List.nodup_nil
      case seen => exact fun _ ↦ by simp [RetrievalBudgetGuard.started, authorizedIds]
      case pending => exact subset_rfl
      case observed => exact List.nodup_nil
      case settled => exact fun _ h ↦ absurd h List.not_mem_nil
      case metered => rfl
  | snoc _ hstep ih =>
    obtain ⟨state, hstate, hmetered⟩ := ih
    exact hmetered.step hstate hstep

/-- Over any calls the guard keeps to the budget of the packet, and once it has refused it goes on
refusing. -/
theorem retrieval_guarded {history : List (RetrievalCall × RetrievalAnswer)}
    (hfresh : (guard.states sessionId).map (·.compiled.packetHash) ≠ some compiled.packetHash)
    (hrun : Recorded (RetrievalStep sessionId compiled) (guard.activate sessionId compiled) history next) :
    ∃ state, next.states sessionId = some state ∧
      state.budget.generalCalls + state.pendingCallIds.card ≤ compiled.packet.budgets.maxCalls ∧
      state.budget = chargedBudget compiled (meteredInputs sessionId history) ∧
      state.budget =
        state.observations.foldl RetrievalObservation.charge (createRetrievalBudget compiled.packet.tier) ∧
      ((meteredInputs sessionId history).map (·.result.bytes)).sum ≤
        compiled.packet.budgets.maxRetrievalBytes ∧
      (authorizedIds sessionId history).Nodup ∧ (state.observations.map (·.toolCallId)).Nodup ∧
      (meteredInputs sessionId history).map (·.toolCallId) =
        (state.observations.filter (·.succeeded)).map (·.toolCallId) ∧
      ∀ code, state.terminalCode = some code → ∀ later last,
        Recorded (RetrievalStep sessionId compiled) next later last →
          (∀ label ∈ later, RefusedWith code sessionId label) ∧
          ∃ after, last.states sessionId = some after ∧ after.budget = state.budget := by
  obtain ⟨state, hstate, hmetered⟩ := metered_run hfresh hrun
  refine ⟨state, hstate, hmetered.reserved, hmetered.spent, hmetered.recorded, ?_, hmetered.authorized,
    hmetered.observed, hmetered.metered, ?_⟩
  · obtain ⟨htier, hbytes⟩ := charged_bytes compiled (meteredInputs sessionId history)
    obtain ⟨-, -, -, hlimit⟩ := accepted_iff.mp hmetered.accepted
    rwa [hmetered.spent, hbytes, htier, ← compiled.budgets_eq] at hlimit
  · intro code hterminal later last hlater
    obtain ⟨hrefused, hkept⟩ := ended_run hmetered.keeps hterminal hstate hlater
    exact ⟨hrefused, state, hkept, rfl⟩

/-- A packet of the lowest tier, with one call that delivers three bytes. -/
def quickPacket : CompiledTaskPacket where
  packet := {
    runId := "11111111-1111-4111-8111-111111111111"
    taskId := "T1"
    generation := 1
    objective := "T1"
    deliverable := "T1"
    allowedPaths := []
    referenceIds := []
    dependencyIds := []
    criteria := [⟨"acceptance", "Complete T1", "T1", "T1", "T1.result"⟩]
    boundaryTags := [.none]
    publicBehavior := false
    tier := .fast
    budgets := tierBudgets .fast
    evidenceRequirements := [⟨"T1.result", .test, true⟩] }
  canonicalJson := "\x7b\x7d"
  packetHash := "hash"
  packetBytes := 2
  budgeted := rfl

def quickCalls : List (RetrievalCall × RetrievalAnswer) :=
  [(.authorize "session" "call-1", .authorized none),
    (.observe ⟨"session", "call-1", false, [.text "abc"]⟩, .observed (.metered ⟨.fast, 1, 1, 3⟩))]

theorem retrieval_guarded_delivered : ∃ state : MutableRetrievalState,
    (meteredInputs "session" quickCalls).length = 1 ∧
      state.budget = chargedBudget quickPacket (meteredInputs "session" quickCalls) ∧
      state.budget.generalCalls + state.pendingCallIds.card ≤ 3 := by
  let guard : RetrievalBudgetGuard := (⟨fun _ ↦ none⟩ : RetrievalBudgetGuard).activate "session" quickPacket
  have hauthorized : Recorded (RetrievalStep "session" quickPacket) guard
      [(.authorize "session" "call-1", .authorized none)] (guard.authorize "session" "call-1").2 :=
    .snoc .nil ⟨trivial, rfl⟩
  have hobserved : Recorded (RetrievalStep "session" quickPacket) guard quickCalls
      ((guard.authorize "session" "call-1").2.observe ⟨"session", "call-1", false, [.text "abc"]⟩).2 :=
    .snoc hauthorized ⟨trivial, rfl⟩
  obtain ⟨state, -, hcalls, hspent, -⟩ := retrieval_guarded (by decide) hobserved
  exact ⟨state, rfl, hspent, hcalls⟩

end OmpLazy.Gates

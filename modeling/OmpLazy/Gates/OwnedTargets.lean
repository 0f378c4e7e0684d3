import OmpLazy.Gates.TaskLedgerGrowth
import OmpLazy.Gates.TaskSpawnGuard

/-! Whose jobs and agents a call may be about that the guard lets through. -/

namespace OmpLazy.Gates

open OmpLazy.Foundation OmpLazy.Foundation.Schema OmpLazy.Foundation.Text OmpLazy.Contracts

/-! The ids in an input. -/

/-- A text, as the schemas of ids return it. -/
def text : Json → Option String
  | .string s => some (trim s)
  | _ => none

def texts : Json → List String
  | .array js => js.filterMap text
  | json => (text json).toList

/-- The texts of a member. -/
def textsAt (input : Json) (key : String) : List String := ((input.get? key).map texts).getD []

def jobIds (input : Json) : List JobId := textsAt input "ids" ++ textsAt input "poll" ++ textsAt input "cancel"

def agentIds (input : Json) : List AgentId := textsAt input "to" ++ textsAt input "from"

/-- The controls whose schemas name a job and an agent at once. -/
def isHubWait (input : Json) : Bool := (hubWaitSchema input).isSome

/-- The jobs of an input that the guard does not look at. -/
def uncheckedJobs (toolName : String) (input : Json) : List JobId :=
  if toolName = "hub" ∧ isHubProcessControl input ∨ toolName = "irc" ∧ isHubWait input then jobIds input
  else []

/-- The agents of an input that the guard does not look at. -/
def uncheckedAgents (toolName : String) (input : Json) : List AgentId :=
  if toolName = "hub" ∧ isHubProcessControl input ∨ toolName = "job" ∧ isHubWait input then agentIds input
  else []

namespace TaskStore

/-- The agents of the current generation of a session's tasks. -/
def ownAgents (store : TaskStore) (sessionId : String) : List AgentId :=
  match store.resolve sessionId with
  | some (.scope scope) => scope.ownedAgents scope.taskGeneration
  | _ => []

def ownJobs (store : TaskStore) (sessionId : String) : List JobId :=
  match store.resolve sessionId with
  | some (.scope scope) => scope.ownedJobs scope.taskGeneration
  | _ => []

end TaskStore

section Inputs

variable {input : Json} {fields : List (String × Json)} {key : String}

theorem text_runtimeId {id : String} (h : runtimeId input = some id) : text input = some id := by
  obtain ⟨h, -⟩ := Option.filter_eq_some_iff.mp h
  cases input with
  | string s =>
    obtain ⟨-, rfl⟩ : trim s ≠ "" ∧ trim s = id := by simpa [nonempty] using h
    rfl
  | null | bool | number | array | object => simp [nonempty] at h

theorem texts_runtimeId {id : String} (h : runtimeId input = some id) : texts input = [id] := by
  have htext := text_runtimeId h
  cases input with
  | array => cases htext
  | _ => exact congrArg Option.toList htext

theorem filterMap_text {js : List Json} {ids : List JobId}
    (h : List.Forall₂ (fun j id ↦ jobIdSchema j = some id) js ids) : js.filterMap text = ids := by
  induction h with
  | nil => rfl
  | cons hid _ ih => rw [List.filterMap_cons, text_runtimeId hid, ih]

theorem texts_ids {ids : List JobId} (h : someOf jobIdSchema input = some ids) : texts input = ids := by
  obtain ⟨h, -⟩ := Option.filter_eq_some_iff.mp h
  obtain ⟨js, rfl, hjs⟩ := array_eq_some h
  exact filterMap_text hjs

theorem textsAt_unlisted {α : Type} {keys : List String} {body : List (String × Json) → Option α} {x : α}
    (h : strictObject keys body input = some x) (hkey : key ∉ keys) : textsAt input key = [] := by
  obtain ⟨fields, rfl, -⟩ := strictObject_eq_some h
  have hlisted := (strictObject_object.mp h).1
  have hnone : Json.member fields key = none := by
    rw [Json.member, Option.map_eq_none_iff, List.find?_eq_none]
    intro f hf heq
    exact hkey (beq_iff_eq.mp heq ▸ hlisted f hf)
  simp [textsAt, Json.get?, hnone]

theorem textsAt_ids {ids : List JobId} (h : required fields key (someOf jobIdSchema) = some ids) :
    textsAt (.object fields) key = ids := by
  obtain ⟨j, hj, hids⟩ := required_eq_some.mp h
  simp [textsAt, Json.get?, hj, texts_ids hids]

theorem textsAt_id {id : String} (h : required fields key runtimeId = some id) :
    textsAt (.object fields) key = [id] := by
  obtain ⟨j, hj, hid⟩ := required_eq_some.mp h
  simp [textsAt, Json.get?, hj, texts_runtimeId hid]

theorem textsAt_optional_ids {ids : Option (List JobId)}
    (h : Schema.optional fields key (someOf jobIdSchema) = some ids) :
    textsAt (.object fields) key = ids.getD [] := by
  rw [Schema.optional] at h
  cases hmember : Json.member fields key with
  | none =>
    rw [hmember] at h
    obtain rfl := Option.some.inj h
    simp [textsAt, Json.get?, hmember]
  | some j =>
    rw [hmember] at h
    obtain ⟨ids, hids, rfl⟩ := Option.map_eq_some_iff.mp h
    simp [textsAt, Json.get?, hmember, texts_ids hids]

theorem textsAt_optional_id {id : Option String} (h : Schema.optional fields key runtimeId = some id) :
    textsAt (.object fields) key = id.toList := by
  rw [Schema.optional] at h
  cases hmember : Json.member fields key with
  | none =>
    rw [hmember] at h
    obtain rfl := Option.some.inj h
    simp [textsAt, Json.get?, hmember]
  | some j =>
    rw [hmember] at h
    obtain ⟨id, hid, rfl⟩ := Option.map_eq_some_iff.mp h
    simp [textsAt, Json.get?, hmember, texts_runtimeId hid]

/-! What each parser makes of the ids. -/

/-- The ids of an input are these jobs and these agents. -/
structure Names (input : Json) (jobs : List JobId) (agents : List AgentId) : Prop where
  jobs : jobIds input = jobs
  agents : agentIds input = agents

theorem names_nothing {α : Type} {keys : List String} {body : List (String × Json) → Option α} {x : α}
    (h : strictObject keys body input = some x)
    (hkeys : ∀ key ∈ ["ids", "poll", "cancel", "to", "from"], key ∉ keys) : Names input [] [] := by
  constructor
  · rw [jobIds, textsAt_unlisted h (hkeys _ (by simp)), textsAt_unlisted h (hkeys _ (by simp)),
      textsAt_unlisted h (hkeys _ (by simp))]
    rfl
  · rw [agentIds, textsAt_unlisted h (hkeys _ (by simp)), textsAt_unlisted h (hkeys _ (by simp))]
    rfl

/-- Only the jobs of one member are named. -/
theorem names_ids {keys : List String} {body : List (String × Json) → Option (List JobId)} {ids : List JobId}
    (h : strictObject keys body input = some ids) (hkey : key ∈ ["ids", "poll", "cancel"])
    (hkeys : ∀ other ∈ ["ids", "poll", "cancel", "to", "from"], other = key ∨ other ∉ keys)
    (hbody : ∀ fields, body fields = some ids → required fields key (someOf jobIdSchema) = some ids) :
    Names input ids [] := by
  have hunlisted : ∀ other ∈ ["ids", "poll", "cancel", "to", "from"], other ≠ key →
      textsAt input other = [] := fun other hother hne ↦
    textsAt_unlisted h ((hkeys other hother).resolve_left hne)
  obtain ⟨fields, rfl, hids⟩ := strictObject_eq_some h
  have hkeyed := textsAt_ids (hbody fields hids)
  simp only [List.mem_cons, List.not_mem_nil, or_false] at hkey
  obtain rfl | rfl | rfl := hkey <;>
    exact ⟨by simp [jobIds, hkeyed, hunlisted], by simp [agentIds, hunlisted]⟩

theorem hubWait_names {wait : HubWait} (h : hubWaitSchema input = some wait) :
    Names input (wait.ids.getD []) wait.fromAgent.toList := by
  have hpoll : textsAt input "poll" = [] := textsAt_unlisted h (by decide)
  have hcancel : textsAt input "cancel" = [] := textsAt_unlisted h (by decide)
  have hto : textsAt input "to" = [] := textsAt_unlisted h (by decide)
  obtain ⟨fields, rfl, hbody⟩ := strictObject_eq_some h
  simp only [Option.bind_eq_bind, Option.bind_eq_some_iff, Option.pure_def, Option.some.injEq] at hbody
  obtain ⟨_, -, ids, hids, fromAgent, hfrom, timeoutMs, -, rfl⟩ := hbody
  constructor
  · rw [jobIds, textsAt_optional_ids hids, hpoll, hcancel, List.append_nil, List.append_nil]
  · rw [agentIds, hto, textsAt_optional_id hfrom, List.nil_append]

theorem send_names {timed : Bool} {send : SendControl} (h : sendSchema timed input = some send) :
    Names input [] [send.toAgent] := by
  have hunlisted : ∀ key ∈ ["ids", "poll", "cancel", "from"], textsAt input key = [] := by
    intro key hkey
    refine textsAt_unlisted h ?_
    revert key
    cases timed <;> decide
  obtain ⟨fields, rfl, hbody⟩ := strictObject_eq_some h
  simp only [Option.bind_eq_bind, Option.bind_eq_some_iff, Option.pure_def, Option.some.injEq] at hbody
  obtain ⟨_, -, toAgent, hto, _, -, _, -, _, -, _, -, rfl⟩ := hbody
  exact ⟨by simp [jobIds, hunlisted], by simp [agentIds, hunlisted, textsAt_id hto]⟩

theorem hubPassive_names {passive : PassiveControl} (h : hubPassiveSchema input = some passive) :
    Names input [] [] := by
  obtain h | ⟨-, h⟩ := Option.or_eq_some_iff.mp h
  · exact names_nothing h (by decide)
  · exact names_nothing h (by decide)

theorem passiveWait_names {passive : PassiveControl} (h : passiveWaitSchema input = some passive) :
    ∃ fromAgent timeoutMs, passive = .wait fromAgent timeoutMs ∧ Names input [] fromAgent.toList := by
  have hunlisted : ∀ key ∈ ["ids", "poll", "cancel", "to"], textsAt input key = [] := by
    intro key hkey
    refine textsAt_unlisted h ?_
    revert key
    decide
  obtain ⟨fields, rfl, hbody⟩ := strictObject_eq_some h
  simp only [Option.bind_eq_bind, Option.bind_eq_some_iff, Option.pure_def, Option.some.injEq] at hbody
  obtain ⟨_, -, fromAgent, hfrom, timeoutMs, -, rfl⟩ := hbody
  exact ⟨fromAgent, timeoutMs, rfl, by simp [jobIds, hunlisted],
    by simp [agentIds, hunlisted, textsAt_optional_id hfrom]⟩

section Parsers

variable {stringify : Json → String} {sha256 : String → String}

theorem parseHubWait_names {wait : ParsedHubWaitControl} (h : parseHubWaitControl stringify input = some wait) :
    isHubWait input = true ∧ Names input wait.jobTargets wait.agentTargets := by
  obtain ⟨parsed, hparsed, rfl⟩ := Option.map_eq_some_iff.mp h
  exact ⟨by rw [isHubWait, hparsed, Option.isSome_some], hubWait_names hparsed⟩

/-- A job control is about the jobs of its input, which has an agent only if it waits. -/
theorem parseJob_names {control : ParsedJobControl} (h : parseJobControl stringify input = some control) :
    jobIds input = control.targets ∧ (agentIds input = [] ∨ isHubWait input = true) ∧
      (control.control = .jobSnapshot ∨ control.control = .jobCancel) := by
  have hnamed : ∀ {jobs : List JobId}, Names input jobs [] →
      jobIds input = jobs ∧ (agentIds input = [] ∨ isHubWait input = true) :=
    fun hnames ↦ ⟨hnames.jobs, .inl hnames.agents⟩
  simp only [parseJobControl, Option.orElse_eq_orElse, Option.orElse_eq_or, Option.or_eq_some_iff,
    Option.map_eq_some_iff] at h
  obtain ⟨_, hjobs, rfl⟩ | ⟨-, ⟨wait, hwait, rfl⟩ | ⟨-, ⟨ids, hcancel, rfl⟩ | ⟨-, ⟨_, hlist, rfl⟩ |
    ⟨-, ⟨_, hdefault, rfl⟩ | ⟨-, ⟨poll, hpoll, rfl⟩ | ⟨-, cancel, hcancelled, rfl⟩⟩⟩⟩⟩⟩ := h
  · obtain ⟨hids, hagents⟩ := hnamed (names_nothing hjobs (by decide))
    exact ⟨hids, hagents, .inl rfl⟩
  · obtain ⟨hwaits, hnames⟩ := parseHubWait_names hwait
    exact ⟨hnames.jobs, .inr hwaits, .inl rfl⟩
  · have hbody : ∀ fields, ((opSchema fields "cancel").bind fun _ ↦
        required fields "ids" (someOf jobIdSchema)) = some ids →
          required fields "ids" (someOf jobIdSchema) = some ids := fun fields hfields ↦ by
      obtain ⟨_, -, hids⟩ := Option.bind_eq_some_iff.mp hfields
      exact hids
    obtain ⟨hids, hagents⟩ := hnamed (names_ids hcancel (by decide) (by decide) hbody)
    exact ⟨hids, hagents, .inr rfl⟩
  · obtain ⟨hids, hagents⟩ := hnamed (names_nothing hlist (by decide))
    exact ⟨hids, hagents, .inl rfl⟩
  · obtain ⟨hids, hagents⟩ := hnamed (names_nothing hdefault (by decide))
    exact ⟨hids, hagents, .inl rfl⟩
  · obtain ⟨hids, hagents⟩ := hnamed (names_ids hpoll (by decide) (by decide) fun _ ↦ id)
    exact ⟨hids, hagents, .inl rfl⟩
  · obtain ⟨hids, hagents⟩ := hnamed (names_ids hcancelled (by decide) (by decide) fun _ ↦ id)
    exact ⟨hids, hagents, .inr rfl⟩

/-- A message is for the agent of its input; a passive control has a job only if it waits. -/
theorem parseIrc_names {control : ParsedIrcControl} (h : parseIrcControl stringify input = some control) :
    agentIds input = control.targets ∧ (jobIds input = [] ∨ isHubWait input = true) := by
  simp only [parseIrcControl, Option.orElse_eq_orElse, Option.orElse_eq_or, Option.or_eq_some_iff,
    Option.map_eq_some_iff] at h
  obtain ⟨send, hsend, rfl⟩ | ⟨-, ⟨passive, hpassive, rfl⟩ | ⟨-, ⟨wait, hwait, rfl⟩ |
    ⟨-, ⟨send, hsend, rfl⟩ | ⟨-, passive, hpassive, rfl⟩⟩⟩⟩ := h
  · exact ⟨(send_names hsend).agents, .inl (send_names hsend).jobs⟩
  · exact ⟨(hubPassive_names hpassive).agents, .inl (hubPassive_names hpassive).jobs⟩
  · obtain ⟨hwaits, hnames⟩ := parseHubWait_names hwait
    exact ⟨hnames.agents, .inr hwaits⟩
  · exact ⟨(send_names hsend).agents, .inl (send_names hsend).jobs⟩
  · obtain hlist | ⟨-, hother⟩ := Option.or_eq_some_iff.mp hpassive
    · have hnames := names_nothing hlist (by decide)
      obtain ⟨_, -, hbody⟩ := strictObject_eq_some hlist
      obtain ⟨_, -, rfl⟩ := Option.map_eq_some_iff.mp hbody
      exact ⟨hnames.agents, .inl hnames.jobs⟩
    obtain hinbox | ⟨-, hwait⟩ := Option.or_eq_some_iff.mp hother
    · have hnames := names_nothing hinbox (by decide)
      obtain ⟨_, -, hbody⟩ := strictObject_eq_some hinbox
      simp only [Option.bind_eq_bind, Option.bind_eq_some_iff, Option.pure_def, Option.some.injEq] at hbody
      obtain ⟨_, -, _, -, rfl⟩ := hbody
      exact ⟨hnames.agents, .inl hnames.jobs⟩
    · obtain ⟨fromAgent, timeoutMs, rfl, hnames⟩ := passiveWait_names hwait
      refine ⟨?_, .inl hnames.jobs⟩
      rw [hnames.agents]
      cases fromAgent <;> rfl

theorem parseTaskSpawn_names {spawn : ParsedTaskSpawn}
    (h : parseTaskSpawn stringify sha256 input = some spawn) : Names input [] [] := by
  rw [parseTaskSpawn] at h
  split at h
  · rename_i flat hflat
    exact names_nothing hflat (by decide)
  · obtain ⟨tasks, htasks, -⟩ := Option.map_eq_some_iff.mp h
    exact names_nothing htasks (by decide)

end Parsers

end Inputs

/-! What the guard checks. -/

section Guard

variable {store : TaskStore} {acquired : Bool} {sessionId : String} {toolCallId : ToolCallId}

/-- A call that returned a status was decided on the run of the session. -/
theorem outcome_scope {call : GateCall} {status : GateStatus} {changed : Bool}
    (h : TaskSpawnGuard.outcome store acquired sessionId call = some (.scope status changed)) :
    ∃ scope, store.resolve sessionId = some (.scope scope) ∧
      (call.decide scope = .returned status ∨ ∃ facts, call.decide scope = .append facts status) := by
  obtain ⟨⟨_, ledgers⟩, hcall, rfl⟩ := Option.map_eq_some_iff.mp h
  obtain ⟨-, hnone | ⟨scope, value, ⟨hresolved, hdecided⟩, hresult⟩⟩ |
    ⟨scope, facts, novel, value, ledger, happends, hresult, -⟩ := TaskStore.transact_cases hcall
  · exact absurd rfl (hnone status changed)
  · obtain ⟨rfl, -⟩ := TaskLedgerTransaction.scope.inj hresult
    exact ⟨scope, hresolved, hdecided.imp_right fun ⟨facts, hfacts, _⟩ ↦ ⟨facts, hfacts⟩⟩
  · obtain ⟨rfl, -⟩ := TaskLedgerTransaction.scope.inj hresult
    exact ⟨scope, happends.hresolved, .inr ⟨facts, happends.hdecided⟩⟩

theorem authorize_outcome {authorization : ControlAuthorization} {status : GateStatus} {changed : Bool}
    (h : TaskSpawnGuard.outcome store acquired sessionId (.authorize authorization) =
      some (.scope status changed)) :
    status = .authorize .noGeneration ∨ status = .authorize .unowned ∨
      ∃ scope, store.resolve sessionId = some (.scope scope) ∧
        authorization.targets ⊆ scope.ownedTargets scope.taskGeneration authorization.control := by
  obtain ⟨scope, hresolved, hreturned | ⟨facts, happend⟩⟩ := outcome_scope h
  · obtain ⟨status, hcall, rfl⟩ := map_eq_returned.mp hreturned
    unfold TaskRunScope.authorize at hcall
    grind
  · obtain ⟨status, hcall, -⟩ := map_eq_append.mp happend
    exact .inr (.inr ⟨scope, hresolved, (TaskRunScope.authorize_append hcall).2.1⟩)

theorem handleJob_owned {control : ParsedJobControl}
    (hcontrol : control.control = .jobSnapshot ∨ control.control = .jobCancel)
    (h : TaskSpawnGuard.handleJob store acquired sessionId toolCallId control = .passed) :
    control.targets ⊆ store.ownJobs sessionId := by
  unfold TaskSpawnGuard.handleJob at h
  split at h
  · cases h
  · cases h
  · split at h
    · rename_i hempty
      rw [hempty]
      exact List.nil_subset _
    · cases h
  · rename_i status changed hunowned hgeneration houtcome
    obtain rfl | rfl | ⟨scope, hresolved, howned⟩ := authorize_outcome houtcome
    · exact (hgeneration rfl).elim
    · exact (hunowned rfl).elim
    · rw [TaskStore.ownJobs, hresolved]
      obtain hsnapshot | hcancel := hcontrol
      · rw [hsnapshot] at howned
        exact howned
      · rw [hcancel] at howned
        exact howned
  · cases h

theorem handleIrc_owned {control : ParsedIrcControl}
    (h : TaskSpawnGuard.handleIrc store acquired sessionId toolCallId control = .passed) :
    control.targets ⊆ store.ownAgents sessionId := by
  unfold TaskSpawnGuard.handleIrc at h
  split at h
  · rename_i hpassive
    rw [hpassive.2]
    exact List.nil_subset _
  dsimp only at h
  split at h
  · cases h
  · rename_i changed houtcome
    obtain hstatus | hstatus | ⟨scope, hresolved, howned⟩ := authorize_outcome houtcome
    · cases hstatus
    · cases hstatus
    · rw [TaskStore.ownAgents, hresolved]
      split at howned <;> exact howned
  · cases h

theorem handleHubWait_owned {control : ParsedHubWaitControl}
    (h : TaskSpawnGuard.handleHubWait store acquired sessionId toolCallId control = .passed) :
    control.jobTargets ⊆ store.ownJobs sessionId ∧ control.agentTargets ⊆ store.ownAgents sessionId := by
  unfold TaskSpawnGuard.handleHubWait at h
  split at h
  · cases h
  · cases h
  · cases h
  · rename_i changed houtcome
    obtain ⟨scope, hresolved, hreturned | ⟨facts, happend⟩⟩ := outcome_scope houtcome
    · obtain ⟨status, hcall, hstatus⟩ := map_eq_returned.mp hreturned
      unfold TaskRunScope.authorizeHubWait at hcall
      grind
    · obtain ⟨status, hcall, -⟩ := map_eq_append.mp happend
      obtain ⟨-, hjobs, hagents, -⟩ := TaskRunScope.authorizeHubWait_append hcall
      rw [TaskStore.ownJobs, TaskStore.ownAgents, hresolved]
      exact ⟨hjobs, hagents⟩
  · cases h

/-- For a session with a live run, the guard lets through what passes through or what it has authorized. -/
theorem handle_passed {stringify : Json → String} {sha256 : String → String} {guard : TaskSpawnGuard}
    {request : TaskSpawnRequest} (hlive : store.resolve request.sessionId ≠ some .none)
    (h : guard.handle stringify sha256 store acquired request = .passed) :
    guard.handleAuthorized store acquired request.sessionId
      (authorizeImmutableToolCall stringify sha256 request) = .passed := by
  unfold TaskSpawnGuard.handle at h
  split at h
  · rename_i hauthorization
    rw [hauthorization, TaskSpawnGuard.handleAuthorized]
  · split at h
    · cases h
    · exact absurd ‹_› hlive
    · cases h
    · exact h

theorem resolve_live {entry : State.ActiveIndexEntry}
    (h : store.index.entries.filter (·.sessionId = sessionId) = [entry]) :
    store.resolve sessionId ≠ some .none := by
  intro hnone
  rw [TaskStore.resolve, h] at hnone
  obtain ⟨found, -, hfound⟩ := Option.bind_eq_some_iff.mp hnone
  cases found with
  | none => cases hfound
  | some run =>
    dsimp only at hfound
    split at hfound
    · obtain ⟨ledger, -, hledger⟩ := Option.bind_eq_some_iff.mp hfound
      cases hledger
    · cases hfound

/-- The jobs and the agents of an input are the session's own. -/
structure Owned (store : TaskStore) (sessionId : String) (jobs : List JobId) (agents : List AgentId) : Prop where
  jobs : jobs ⊆ store.ownJobs sessionId
  agents : agents ⊆ store.ownAgents sessionId

/-- What is not denied was parsed. -/
theorem parsedOr_passed {α : Type} {toolName : String} {authorized : α → ImmutableToolAuthorization}
    {parsed : Option α} {guard : TaskSpawnGuard}
    (h : guard.handleAuthorized store acquired sessionId (parsedOr toolName authorized parsed) = .passed) :
    ∃ value, parsed = some value ∧
      guard.handleAuthorized store acquired sessionId (authorized value) = .passed := by
  cases parsed with
  | none => cases h
  | some value => exact ⟨value, rfl, h⟩

theorem hub_owned {stringify : Json → String} {guard : TaskSpawnGuard} {input : Json}
    (h : guard.handleAuthorized store acquired sessionId
      (match parseHubWaitControl stringify input with
      | some wait => .hubWait toolCallId wait
      | none =>
        match parseJobControl stringify input with
        | some job => .job toolCallId job
        | none => parsedOr "hub" (.irc toolCallId) (parseIrcControl stringify input)) = .passed) :
    Owned store sessionId (jobIds input) (agentIds input) := by
  cases hwait : parseHubWaitControl stringify input with
  | some wait =>
    rw [hwait] at h
    obtain ⟨-, hnames⟩ := parseHubWait_names hwait
    obtain ⟨hjobs, hagents⟩ := handleHubWait_owned h
    exact ⟨hnames.jobs ▸ hjobs, hnames.agents ▸ hagents⟩
  | none =>
    have hnowait : isHubWait input ≠ true := by
      rw [parseHubWaitControl, Option.map_eq_none_iff] at hwait
      simp [isHubWait, hwait]
    rw [hwait] at h
    cases hjob : parseJobControl stringify input with
    | some job =>
      rw [hjob] at h
      obtain ⟨hids, hwaits, hkind⟩ := parseJob_names hjob
      rw [hids, hwaits.resolve_right hnowait]
      exact ⟨handleJob_owned hkind h, List.nil_subset _⟩
    | none =>
      rw [hjob] at h
      obtain ⟨control, hcontrol, hpassed⟩ := parsedOr_passed h
      obtain ⟨hids, hwaits⟩ := parseIrc_names hcontrol
      rw [hids, hwaits.resolve_right hnowait]
      exact ⟨List.nil_subset _, handleIrc_owned hpassed⟩

/-- Of a call that the guard lets through, every job and every agent belongs to the session's own
generation exactly if those do that the guard does not look at: all that a process control of the hub
names, the agent of a job tool's wait and the jobs of a messaging tool's wait. -/
theorem guard_owned_iff {stringify : Json → String} {sha256 : String → String} {guard : TaskSpawnGuard}
    {request : TaskSpawnRequest} {entry : State.ActiveIndexEntry}
    (hlive : store.index.entries.filter (·.sessionId = request.sessionId) = [entry])
    (hcontrolled : request.toolName ∈ controlledToolNames)
    (hpassed : guard.handle stringify sha256 store acquired request = .passed) :
    Owned store request.sessionId (jobIds request.input) (agentIds request.input) ↔
      Owned store request.sessionId (uncheckedJobs request.toolName request.input)
        (uncheckedAgents request.toolName request.input) := by
  constructor
  · rintro ⟨hjobs, hagents⟩
    constructor
    · unfold uncheckedJobs
      split
      · exact hjobs
      · exact List.nil_subset _
    · unfold uncheckedAgents
      split
      · exact hagents
      · exact List.nil_subset _
  rintro ⟨hjobs, hagents⟩
  have hauthorized := handle_passed (resolve_live hlive) hpassed
  obtain ⟨toolName, callId, input, session⟩ := request
  dsimp only at hjobs hagents hauthorized hcontrolled ⊢
  rw [authorizeImmutableToolCall, if_neg (not_not.mpr hcontrolled)] at hauthorized
  dsimp only at hauthorized
  split at hauthorized
  · cases hauthorized
  simp only [controlledToolNames, List.mem_cons, List.not_mem_nil, or_false] at hcontrolled
  obtain rfl | rfl | rfl | rfl := hcontrolled
  · obtain ⟨spawn, hspawn, -⟩ := parsedOr_passed hauthorized
    obtain ⟨hids, hagentIds⟩ := parseTaskSpawn_names hspawn
    rw [hids, hagentIds]
    exact ⟨List.nil_subset _, List.nil_subset _⟩
  · obtain ⟨control, hcontrol, hpassed⟩ := parsedOr_passed hauthorized
    obtain ⟨hids, hwaits, hkind⟩ := parseJob_names hcontrol
    refine ⟨hids ▸ handleJob_owned hkind hpassed, ?_⟩
    obtain hnone | hwait := hwaits
    · rw [hnone]
      exact List.nil_subset _
    · rw [uncheckedAgents, if_pos (.inr ⟨rfl, hwait⟩)] at hagents
      exact hagents
  · obtain ⟨control, hcontrol, hpassed⟩ := parsedOr_passed hauthorized
    obtain ⟨hids, hwaits⟩ := parseIrc_names hcontrol
    refine ⟨?_, hids ▸ handleIrc_owned hpassed⟩
    obtain hnone | hwait := hwaits
    · rw [hnone]
      exact List.nil_subset _
    · rw [uncheckedJobs, if_pos (.inr ⟨rfl, hwait⟩)] at hjobs
      exact hjobs
  · by_cases hprocess : isHubProcessControl input = true
    · rw [uncheckedJobs, if_pos (.inl ⟨rfl, hprocess⟩)] at hjobs
      rw [uncheckedAgents, if_pos (.inl ⟨rfl, hprocess⟩)] at hagents
      exact ⟨hjobs, hagents⟩
    · rw [if_neg hprocess] at hauthorized
      exact hub_owned hauthorized

end Guard

namespace Sample

/-- What the guard answers to a call of the session whose task was bound to an agent and a job. -/
def answer (stringify : Json → String) (toolName : String) (input : Json) : TaskSpawnGuardResult :=
  TaskSpawnGuard.handle stringify id ⟨1, none⟩ (gateStore boundFiles) true
    ⟨toolName, "call-2", input, "session"⟩

/-- A wait for the job and the agent of the session. -/
def ownWait : Json := .object
  [("op", .string "wait"), ("ids", .array [.string "job-1"]), ("from", .string "agent-1")]

def ownWaitText : String :=
  "\x7b\"op\":\"wait\",\"ids\":[\"job-1\"],\"from\":\"agent-1\"\x7d"

/-- A wait for a process that also has a job. -/
def processWait : Json := .object
  [("op", .string "wait"), ("name", .string "build"), ("ids", .array [.string "foreign-job"])]

def agentWait : Json := .object [("op", .string "wait"), ("from", .string "foreign-agent")]

def agentWaitText : String := "\x7b\"op\":\"wait\",\"from\":\"foreign-agent\"\x7d"

def jobWait : Json := .object [("op", .string "wait"), ("ids", .array [.string "foreign-job"])]

def jobWaitText : String := "\x7b\"op\":\"wait\",\"ids\":[\"foreign-job\"]\x7d"

end Sample

theorem guard_owned_wait : Owned (Sample.gateStore Sample.boundFiles) "session"
    (jobIds Sample.ownWait) (agentIds Sample.ownWait) := by
  have hpassed : Sample.answer (fun _ ↦ Sample.ownWaitText) "hub" Sample.ownWait = .passed := by
    decide
  exact (guard_owned_iff rfl (by decide) hpassed).mpr ⟨by decide, by decide⟩

/-- A job of nobody's may be waited for as a process or as a messaging tool's wait, and an agent of
nobody's as a job tool's wait. -/
theorem foreign_targets_pass :
    (Sample.answer (fun _ ↦ "") "hub" Sample.processWait = .passed ∧
      ¬ Owned (Sample.gateStore Sample.boundFiles) "session" (jobIds Sample.processWait)
        (agentIds Sample.processWait)) ∧
    (Sample.answer (fun _ ↦ Sample.agentWaitText) "job" Sample.agentWait = .passed ∧
      ¬ Owned (Sample.gateStore Sample.boundFiles) "session" (jobIds Sample.agentWait)
        (agentIds Sample.agentWait)) ∧
    (Sample.answer (fun _ ↦ Sample.jobWaitText) "irc" Sample.jobWait = .passed ∧
      ¬ Owned (Sample.gateStore Sample.boundFiles) "session" (jobIds Sample.jobWait)
        (agentIds Sample.jobWait)) := by
  refine ⟨⟨by decide, fun h ↦ ?_⟩, ⟨by decide, fun h ↦ ?_⟩, by decide, fun h ↦ ?_⟩
  · exact absurd h.jobs (by decide)
  · exact absurd h.agents (by decide)
  · exact absurd h.jobs (by decide)

end OmpLazy.Gates

import OmpLazy.Contracts.AcceptanceLaws
import OmpLazy.Workflows.TeamOperations

/-! What is kept of the teams over any calls. -/

namespace OmpLazy.Workflows

open OmpLazy.Foundation OmpLazy.Foundation.Schema OmpLazy.Foundation.Text OmpLazy.Contracts OmpLazy.Gates
open OmpLazy.State (FormatVersion)

/-- A team that operations have left: its members are told apart, and have no acceptances before it is
completed. -/
structure TeamState.Kept (isAbsolute : String → Bool) (team : TeamState) : Prop where
  settled : team.Settled isAbsolute
  names : (team.members.map (·.requestedName)).Nodup
  pending : team.status ≠ .completed → team.status ≠ .archived →
    ∀ member ∈ team.members, member.acceptanceKey = none

section Members

variable {isAbsolute : String → Bool} {runtime : TeamRuntime} {team : TeamState} {member : RuntimeMember}
  {members : List RuntimeMember} {worktrees : List TeamWorktreeBinding}

/-- What is bound to a member may change. -/
theorem RuntimeMember.Settled.rebound (h : member.Settled isAbsolute) {agentId jobId path key : Option String}
    (hagent : ∀ s ∈ agentId, IsRuntimeId s) (hjob : ∀ s ∈ jobId, IsRuntimeId s) (hpath : ∀ s ∈ path, s ≠ "")
    (hkey : ∀ s ∈ key, s ≠ "") :
    RuntimeMember.Settled isAbsolute { member with
      actualAgentId := agentId, actualJobId := jobId, worktreePath := path, acceptanceKey := key } := by
  have htrim {ids : Option String} (hids : ∀ s ∈ ids, IsRuntimeId s) : ids.map trim = ids := by
    cases ids with
    | none => rfl
    | some s => exact congrArg some (hids s rfl).2
  obtain ⟨hok, htidy⟩ := h
  refine ⟨⟨hok.definition, fun s hs ↦ (hagent s hs).1, fun s hs ↦ (hjob s hs).1, hpath, hkey⟩, ?_⟩
  have hfocus : trim member.focus = member.focus := congrArg RuntimeMember.focus htidy
  have hownership : member.ownership.map trim = member.ownership := congrArg RuntimeMember.ownership htidy
  have hdeliverable : trim member.deliverable = member.deliverable := congrArg RuntimeMember.deliverable htidy
  simp only [RuntimeMember.tidy, htrim hagent, htrim hjob, hfocus, hownership, hdeliverable]

theorem grounded_settled (h : runtime.Grounded) : runtime.scope.ledger.Settled := by
  obtain ⟨store, sessionId, -, hresolved⟩ := h.scope
  exact (TaskStore.resolve_settled hresolved).1

/-- What is bound to the members is settled, complete and bound to no two of them. -/
theorem bound_members (hruntime : runtime.Grounded) (hteam : team.Kept isAbsolute)
    (hkeys : ∀ member ∈ team.members, member.acceptanceKey = none)
    (h : bindMembers runtime worktrees team = .ok members) :
    (∀ left ∈ members, left.Settled isAbsolute ∧ left.Taken ∧ left.acceptanceKey = none) ∧
      AgentsApart members := by
  obtain ⟨hproven, hbound⟩ := bindMembers_eq_ok h
  obtain ⟨store, sessionId, hcalls, hresolved⟩ := hruntime.scope
  have hcomplete := proven_complete hcalls hresolved hproven
  constructor
  · intro left hleft
    obtain ⟨member, hmember, hbinds⟩ := exists_of_forall₂ hbound hleft
    obtain ⟨identity, hidentity, -, path, hpath, rfl⟩ := bindMember_eq_ok hbinds
    obtain ⟨hagent, hjob⟩ := TaskRunScope.identities_ids (grounded_settled hruntime) hidentity
    have hkey := hkeys member hmember
    refine ⟨?_, ⟨rfl, hcomplete.jobs identity hidentity⟩, hkey⟩
    refine (hteam.settled.member hmember).rebound ?_ hjob ?_ ?_
    · rintro _ ⟨⟩
      exact hagent
    · intro s hs
      obtain ⟨candidate, hcandidate⟩ := hpath s hs
      exact hruntime.worktrees candidate s hcandidate
    · simp [hkey]
  · have hnames := hteam.names
    rw [List.Nodup, List.pairwise_map] at hnames
    refine (pairwise_of_forall₂ hbound (T := fun left left' ↦
      ∀ a ∈ left.actualAgentId, ∀ a' ∈ left'.actualAgentId, a ≠ a') ?_ hnames).filterMap _ fun _ _ hne ↦ hne
    intro member left member' left' hbinds hbinds' hne
    obtain ⟨identity, hidentity, hname, path, -, rfl⟩ := bindMember_eq_ok hbinds
    obtain ⟨identity', hidentity', hname', path', -, rfl⟩ := bindMember_eq_ok hbinds'
    rintro _ ⟨⟩ _ ⟨⟩ hsame
    obtain rfl := List.inj_on_of_nodup_map hcomplete.agents hidentity hidentity' hsame
    exact hne (Option.some.inj (hname.symm.trans hname'))

/-- A member whose result is accepted keeps its agent. -/
theorem accepted_members (hruntime : runtime.Grounded) (hteam : team.Settled isAbsolute)
    (h : team.members.mapM (acceptedMember runtime team) = some members) :
    (∀ left ∈ members, left.Settled isAbsolute ∧ left.acceptanceKey.isSome = true ∧
      ∃ member ∈ team.members, member.Taken → left.Taken) ∧
      members.map (·.actualAgentId) = team.members.map (·.actualAgentId) := by
  have haccepted := mapM_eq_some.mp h
  constructor
  · intro left hleft
    obtain ⟨member, hmember, haccepts⟩ := exists_of_forall₂ haccepted hleft
    obtain ⟨entry, hentry, rfl⟩ := acceptedMember_eq_some haccepts
    obtain ⟨fields, hfields⟩ := hruntime.acceptances entry hentry
    obtain ⟨hok, htidy⟩ := WorkerAcceptanceEvent.fields_settled hfields
    have hkey : entry.idempotencyKey ≠ "" := by
      rw [← congrArg WorkerAcceptanceEvent.idempotencyKey htidy]
      exact hok.idempotencyKey
    obtain ⟨hmemberOk, hmemberTidy⟩ := hteam.member hmember
    refine ⟨⟨⟨hmemberOk.definition, hmemberOk.actualAgentId, hmemberOk.actualJobId, hmemberOk.worktreePath, ?_⟩, ?_⟩,
      rfl, member, hmember, id⟩
    · rintro _ ⟨⟩
      exact hkey
    · exact congrArg (fun tidied : RuntimeMember ↦
        { tidied with acceptanceKey := some entry.idempotencyKey }) hmemberTidy
  · refine map_eq_of_forall₂ (haccepted.imp fun member left haccepts ↦ ?_)
    obtain ⟨_, -, rfl⟩ := acceptedMember_eq_some haccepts
    rfl

theorem released_settled (hteam : team.Settled isAbsolute) :
    ∀ left ∈ team.members.map (·.released), left.Settled isAbsolute := by
  refine List.forall_mem_map.mpr fun member hmember ↦ ?_
  exact (hteam.member hmember).rebound (by simp) (by simp) (by simp) (by simp)

end Members

/-! Revisions. -/

section Revisions

variable {platform : TeamPlatform} {runtime : TeamRuntime} {team : TeamState} {operation : TeamOperation}
  {done : TeamResultStatus} {status : TeamStatus} {members : List RuntimeMember}

/-- A team that is cancelled with an agent bound to it is not to be archived. -/
def TeamState.Stranded (team : TeamState) : Prop :=
  team.status = .cancelled ∧ ∃ member ∈ team.members, member.actualAgentId.isSome = true

theorem TeamState.Kept.member (h : team.Kept platform.isAbsolute) : ∃ member, member ∈ team.members :=
  List.exists_mem_of_length_pos (Nat.lt_of_lt_of_le Nat.zero_lt_two h.settled.ok.size.1)

theorem TeamOperation.Turns.members_settled (h : operation.Turns runtime team done status members)
    (hruntime : runtime.Grounded) (hteam : team.Kept platform.isAbsolute) :
    ∀ left ∈ members, left.Settled platform.isAbsolute := by
  cases h with
  | bind hstatus hmembers =>
    have hkeys := hteam.pending (by simp [hstatus]) (by simp [hstatus])
    obtain ⟨hleft, -⟩ := bound_members hruntime hteam hkeys hmembers
    exact fun left hmem ↦ (hleft left hmem).1
  | complete hstatus hrun hattempt hmembers =>
    obtain ⟨hleft, -⟩ := accepted_members hruntime hteam.settled hmembers
    exact fun left hmem ↦ (hleft left hmem).1
  | archive => exact fun left hmem ↦ hteam.settled.member hmem
  | cancel => exact fun left hmem ↦ hteam.settled.member hmem
  | resume => exact released_settled hteam.settled

/-- A revision is accepted unless its number is too large or it archives agents without acceptances. -/
theorem TeamOperation.Turns.settled_iff (h : operation.Turns runtime team done status members)
    (hruntime : runtime.Grounded) (hteam : team.Kept platform.isAbsolute) :
    (team.revise status members).Settled platform.isAbsolute ↔
      team.revision < maxSafeInteger ∧ ¬ (operation = .archive ∧ team.Stranded) := by
  have hlength : members.length = team.members.length := by
    simpa using congrArg List.length h.definitions
  rw [hteam.settled.revise_iff (h.members_settled hruntime hteam) hlength]
  obtain ⟨hbinds, hapart⟩ := hteam.settled.binds
  cases h with
  | bind hstatus hmembers =>
    have hkeys := hteam.pending (by simp [hstatus]) (by simp [hstatus])
    obtain ⟨hleft, hapart⟩ := bound_members hruntime hteam hkeys hmembers
    have htaken : TeamStatus.active.Binds members := fun left h ↦ (hleft left h).2.1
    simp [htaken, hapart]
  | complete hstatus hrun hattempt hmembers =>
    obtain ⟨hleft, hagents⟩ := accepted_members hruntime hteam.settled hmembers
    rw [hstatus] at hbinds
    have hcompleted : TeamStatus.completed.Binds members := by
      intro left hmem
      obtain ⟨-, hkey, member, hmember, htaken⟩ := hleft left hmem
      exact ⟨htaken (hbinds member hmember), hkey⟩
    have hsame : members.filterMap (·.actualAgentId) = team.members.filterMap (·.actualAgentId) := by
      simpa [List.filterMap_map] using congrArg (List.filterMap id) hagents
    have hapart : AgentsApart members := by
      rw [AgentsApart, hsame]
      exact hapart
    simp [hcompleted, hapart]
  | archive hstatus =>
    have harchived : TeamStatus.archived.Binds team.members ↔ ¬ team.Stranded := by
      obtain hstatus | hstatus := hstatus
      · rw [hstatus] at hbinds
        exact iff_of_true (.inr hbinds) (by simp [TeamState.Stranded, hstatus])
      · have hkeys := hteam.pending (by simp [hstatus]) (by simp [hstatus])
        obtain ⟨member, hmem⟩ := hteam.member
        have hunaccepted : ¬ ∀ member ∈ team.members, member.Taken ∧ member.acceptanceKey.isSome = true := by
          intro hall
          have hkey := (hall member hmem).2
          rw [hkeys member hmem] at hkey
          cases hkey
        rw [TeamStatus.Binds, or_iff_left hunaccepted]
        simp [TeamState.Stranded, hstatus]
    simp [harchived, hapart]
  | cancel hstatus => simp [TeamStatus.Binds, hapart]
  | resume hstatus =>
    have hfree : TeamStatus.initializing.Binds (team.members.map (·.released)) :=
      List.forall_mem_map.mpr fun _ _ ↦ ⟨rfl, rfl, rfl⟩
    have hnone : AgentsApart (team.members.map (·.released)) := by
      simp [AgentsApart, List.filterMap_map, RuntimeMember.released]
    simp [hfree, hnone]

/-- What an operation makes of a team is kept as the team was. -/
theorem TeamState.Kept.next (hteam : team.Kept platform.isAbsolute) (hruntime : runtime.Grounded)
    (h : operation.Turns runtime team done status members)
    (hsettled : (team.revise status members).Settled platform.isAbsolute) :
    (team.revise status members).Kept platform.isAbsolute := by
  refine ⟨hsettled, ?_, ?_⟩
  · have hnames : members.map (·.requestedName) = team.members.map (·.requestedName) := by
      simpa [Function.comp_def, RuntimeMember.definition] using
        congrArg (List.map MemberDefinition.requestedName) h.definitions
    change (members.map _).Nodup
    rw [hnames]
    exact hteam.names
  · intro hcompleted harchived
    cases h with
    | bind hstatus hmembers =>
      have hkeys := hteam.pending (by simp [hstatus]) (by simp [hstatus])
      obtain ⟨hleft, -⟩ := bound_members hruntime hteam hkeys hmembers
      exact fun left hmem ↦ (hleft left hmem).2.2
    | complete => exact absurd rfl hcompleted
    | archive => exact absurd rfl harchived
    | cancel hstatus =>
      obtain hstatus | hstatus := hstatus <;>
        exact hteam.pending (by simp [hstatus]) (by simp [hstatus])
    | resume => exact List.forall_mem_map.mpr fun _ _ ↦ rfl

end Revisions

/-! Teams as they are made. -/

section Created

variable {platform : TeamPlatform} {run : State.AnyRun} {teamName : String} {definition : TeamDefinition}

theorem unbound_settled (hok : definition.Ok platform) (htidy : definition.tidy = definition) :
    ∀ member ∈ (createdTeam run teamName definition).members, member.Settled platform.isAbsolute := by
  have hmembers : ∀ member ∈ definition.members, member.tidy = member :=
    List.map_inj_left.mp ((congrArg TeamDefinition.members htidy).trans (List.map_id _).symm)
  refine List.forall_mem_map.mpr fun member hmember ↦ ⟨⟨hok.members member hmember, ?_, ?_, ?_, ?_⟩, ?_⟩
  · simp [MemberDefinition.unbound]
  · simp [MemberDefinition.unbound]
  · simp [MemberDefinition.unbound]
  · simp [MemberDefinition.unbound]
  · exact congrArg MemberDefinition.unbound (hmembers member hmember)

/-- A team that can be made of its definition is kept. -/
theorem createdTeam_kept_of_settled (hok : definition.Ok platform) (htidy : definition.tidy = definition)
    (hsettled : (createdTeam run teamName definition).Settled platform.isAbsolute) :
    (createdTeam run teamName definition).Kept platform.isAbsolute := by
  refine ⟨hsettled, ?_, fun _ _ ↦ List.forall_mem_map.mpr fun _ _ ↦ rfl⟩
  have hapart := hok.apart
  rw [htidy, membersApart, Bool.and_eq_true, decide_eq_true_eq] at hapart
  simpa [createdTeam, MemberDefinition.unbound, Function.comp_def] using hapart.1

/-- A team is made as it is kept. -/
theorem createdTeam_kept {input : Json} (hrun : State.runSchema (State.encodeRun run) = some run)
    (hdefinition : teamDefinitionSchema platform input = some definition) :
    (createdTeam run definition.teamName definition).Kept platform.isAbsolute := by
  obtain ⟨hrunOk, -⟩ := (State.AnyRun.reads.fixed_iff run).mp hrun
  obtain ⟨hok, htidy⟩ := (TeamDefinition.reads platform).settled _ _ hdefinition
  have hmembers : ∀ member ∈ (createdTeam run definition.teamName definition).members,
      member.Settled platform.isAbsolute := unbound_settled hok htidy
  have hcreated := TeamState.tidy_of_members hmembers
  have hbinds : lifecycleBinds (createdTeam run definition.teamName definition) = true := by
    refine (lifecycleBinds_iff _).mpr ⟨List.forall_mem_map.mpr fun _ _ ↦ ⟨rfl, rfl, rfl⟩, ?_⟩
    simp [AgentsApart, createdTeam, List.filterMap_map, MemberDefinition.unbound]
  have hfirst : 1 ≤ maxSafeInteger ∧ 0 < 1 := by decide
  refine createdTeam_kept_of_settled hok htidy
    ⟨⟨hok.teamName, hrunOk.runId, hrunOk.progressRevision, hfirst, ?_, ?_, ?_⟩, hcreated⟩
  · exact fun member hmember ↦ (hmembers member hmember).ok
  · simpa [createdTeam] using hok.size
  · rw [hcreated]
    exact hbinds

end Created

/-! Calls. -/

section Calls

variable {platform : TeamPlatform} {call : TeamCall} {teams : String → Option Json} {teamName : String}
  {current : Option TeamState} {result : TeamResult} {written : Json}

/-- A write is a tombstone after a deletion, or else the state of the answer. -/
theorem teamWrite_eq_some {version : FormatVersion} (h : teamWrite version teamName current result = some written) :
    (written = teamTombstone version teamName ∧ ∃ state, result = .done .deleted state) ∨
      ∃ done state, done ≠ .deleted ∧ result = .done done (some state) ∧ some state ≠ current ∧
        written = persistedTeam version state := by
  unfold teamWrite at h
  split at h
  · exact .inl ⟨(Option.some.inj h).symm, _, rfl⟩
  · rename_i done state hdone
    split at h
    · cases h
    · rename_i hchanged
      refine .inr ⟨done, state, ?_, rfl, hchanged, (Option.some.inj h).symm⟩
      rintro rfl
      exact hdone rfl
  · cases h

theorem transactTeam_cases {decide : Option TeamState → Option TeamResult} :
    (transactTeam platform teams call teamName decide).teams = teams ∨
      ∃ current result written, IsTeamName teamName ∧
        readTeamFile platform.isAbsolute (teams teamName) = some current ∧ decide current = some result ∧
          teamWrite call.version teamName current result = some written ∧
            (transactTeam platform teams call teamName decide).teams =
              Function.update teams teamName (some written) := by
  unfold transactTeam
  split
  · exact .inl rfl
  rename_i hname
  split
  · exact .inl rfl
  split
  · exact .inl rfl
  split
  · exact .inl rfl
  split
  · exact .inl rfl
  rename_i current hread
  split
  · exact .inl rfl
  rename_i result hdecided
  split
  · exact .inl rfl
  rename_i written hwritten
  have hteamName : IsTeamName teamName := by
    obtain ⟨name, hread⟩ := Option.ne_none_iff_exists'.mp (fun hnone ↦ hname (Option.isNone_iff_eq_none.mpr hnone))
    obtain ⟨hok, -⟩ := (teamName_reads.encoded teamName name).mp hread
    exact hok
  cases call.progress with
  | stopped => exact .inl rfl
  | written => exact .inr ⟨current, result, written, hteamName, hread, hdecided, hwritten, rfl⟩
  | returned => exact .inr ⟨current, result, written, hteamName, hread, hdecided, hwritten, rfl⟩

theorem revised_eq_some {outcome : TeamResultStatus} {next : TeamState} (htidy : next.tidy = next) :
    revised platform outcome next = some result ↔
      next.Settled platform.isAbsolute ∧ result = .done outcome (some next) := by
  rw [revised, Option.map_eq_some_iff]
  constructor
  · rintro ⟨state, hparsed, rfl⟩
    obtain ⟨hsettled, rfl⟩ := (parseTeamState_iff htidy).mp hparsed
    exact ⟨hsettled, rfl⟩
  · rintro ⟨hsettled, rfl⟩
    exact ⟨next, parseTeamState_settled hsettled, rfl⟩

theorem decide_missing (platform : TeamPlatform) (runtime : TeamRuntime) (operation : TeamOperation) :
    operation.decide platform runtime none = some (.refused "team_missing") := by
  cases operation <;> rfl

end Calls

/-! Runs. -/

/-- A call of any session on any team. -/
def TeamStep (platform : TeamPlatform) (teams later : String → Option Json) : Prop :=
  ∃ call : TeamCall, call.runtime.Grounded ∧ (call.run platform teams).teams = later

/-- A file is read as a team that is kept, or as none. -/
def FileKept (platform : TeamPlatform) (file : Option Json) : Prop :=
  ∃ current, readTeamFile platform.isAbsolute file = some current ∧
    ∀ team ∈ current, team.Kept platform.isAbsolute

section Runs

variable {platform : TeamPlatform} {runtime : TeamRuntime} {team state : TeamState} {current : Option TeamState}
  {operation : TeamOperation} {done : TeamResultStatus} {teams later : String → Option Json}

/-- An operation throws when its revision is not accepted. -/
theorem TeamOperation.Turns.throws_iff {status : TeamStatus} {members : List RuntimeMember}
    (h : operation.Turns runtime team done status members) (hruntime : runtime.Grounded)
    (hteam : team.Kept platform.isAbsolute) :
    operation.decide platform runtime (some team) = none ↔
      ¬ (team.revision < maxSafeInteger ∧ ¬ (operation = .archive ∧ team.Stranded)) := by
  rw [h.decide, revised, Option.map_eq_none_iff, ← h.settled_iff hruntime hteam]
  exact parseTeamState_eq_none (TeamState.tidy_of_members (h.members_settled hruntime hteam))

theorem TeamState.Kept.decided (hteam : team.Kept platform.isAbsolute) (hruntime : runtime.Grounded)
    (h : operation.decide platform runtime (some team) = some (.done done (some state))) :
    state = team ∨ state.Kept platform.isAbsolute := by
  obtain ⟨done', status, members, hturns⟩ | ⟨result, hdecided, hleaves⟩ := decide_cases platform runtime team operation
  · rw [hturns.decide, revised_eq_some (TeamState.tidy_of_members (hturns.members_settled hruntime hteam))] at h
    obtain ⟨hsettled, hresult⟩ := h
    obtain ⟨-, hstate⟩ := TeamResult.done.inj hresult
    obtain rfl := Option.some.inj hstate
    exact .inr (hteam.next hruntime hturns hsettled)
  · obtain rfl := Option.some.inj (hdecided.symm.trans h)
    cases hleaves
    exact .inl rfl

theorem initializeTeam_made {input : Json} {definition : TeamDefinition}
    (hrun : State.runSchema (State.encodeRun runtime.run) = some runtime.run)
    (hdefinition : teamDefinitionSchema platform input = some definition)
    (h : initializeTeam platform runtime definition current = some (.done done (some state))) :
    some state = current ∨ state = createdTeam runtime.run definition.teamName definition := by
  cases current with
  | none =>
    have hkept := createdTeam_kept hrun hdefinition
    obtain ⟨-, hresult⟩ := (revised_eq_some hkept.settled.tidy).mp h
    obtain ⟨-, hstate⟩ := TeamResult.done.inj hresult
    exact .inr (Option.some.inj hstate)
  | some team =>
    rw [initializeTeam] at h
    split at h
    · obtain ⟨-, hstate⟩ := TeamResult.done.inj (Option.some.inj h)
      exact .inl hstate.symm
    · cases Option.some.inj h

theorem TeamRuntime.Grounded.run (h : runtime.Grounded) :
    State.runSchema (State.encodeRun runtime.run) = some runtime.run := by
  obtain ⟨store, sessionId, -, hresolved⟩ := h.scope
  obtain ⟨entry, -, hrun, -⟩ := TaskStore.resolve_eq_scope hresolved
  exact store.decoded _ _ hrun

/-- A call keeps the teams if its decision leaves a team as it is kept. -/
theorem transactTeam_kept {call : TeamCall} {teamName : String} {decide : Option TeamState → Option TeamResult}
    (hdecide : ∀ current done state, (∀ team ∈ current, team.Kept platform.isAbsolute) →
      decide current = some (.done done (some state)) → some state ≠ current → state.Kept platform.isAbsolute)
    (hbefore : ∀ teamName, FileKept platform (teams teamName)) (other : String) :
    FileKept platform ((transactTeam platform teams call teamName decide).teams other) := by
  obtain hsame | ⟨current, result, written, hname, hread, hdecided, hwritten, hteams⟩ := transactTeam_cases
  · exact hsame ▸ hbefore other
  rw [hteams]
  by_cases hother : other = teamName
  · subst hother
    rw [Function.update_self]
    obtain ⟨current', hread', hkept⟩ := hbefore other
    obtain rfl := Option.some.inj (hread'.symm.trans hread)
    obtain ⟨rfl, -⟩ | ⟨done, state, -, rfl, hchanged, rfl⟩ := teamWrite_eq_some hwritten
    · exact ⟨none, teamTombstone_read hname _, fun _ h ↦ absurd h (Option.not_mem_none _)⟩
    · have hstate := hdecide _ _ _ hkept hdecided hchanged
      exact ⟨some state, hstate.settled.read _, fun _ h ↦ Option.some.inj h ▸ hstate⟩
  · rw [Function.update_of_ne hother]
    exact hbefore other

theorem TeamStep.kept (h : TeamStep platform teams later) (hbefore : ∀ teamName, FileKept platform (teams teamName))
    (teamName : String) : FileKept platform (later teamName) := by
  obtain ⟨call, hruntime, rfl⟩ := h
  unfold TeamCall.run
  split
  · split
    · exact hbefore teamName
    rename_i definition hdefinition
    split
    · exact hbefore teamName
    refine transactTeam_kept ?_ hbefore teamName
    intro current done state hcurrent hdecided hchanged
    obtain hsame | rfl := initializeTeam_made hruntime.run hdefinition hdecided
    · exact absurd hsame hchanged
    · exact createdTeam_kept hruntime.run hdefinition
  · refine transactTeam_kept ?_ hbefore teamName
    intro current done state hcurrent hdecided hchanged
    cases current with
    | none =>
      rw [decide_missing] at hdecided
      cases Option.some.inj hdecided
    | some team =>
      obtain rfl | hkept := (hcurrent team rfl).decided hruntime hdecided
      · exact absurd rfl hchanged
      · exact hkept

/-- From no teams on, after any calls, the teams are kept. -/
theorem kept_of_calls (h : Relation.ReflTransGen (TeamStep platform) (fun _ ↦ none) teams) (teamName : String) :
    FileKept platform (teams teamName) := by
  induction h generalizing teamName with
  | refl => exact ⟨none, rfl, fun _ h ↦ absurd h (Option.not_mem_none _)⟩
  | tail _ hstep ih => exact hstep.kept ih teamName

theorem transactTeam_written {call : TeamCall} {teamName : String} {decide : Option TeamState → Option TeamResult}
    {result : TeamResult} {written : Json} (hname : IsTeamName teamName)
    (hcall : (call.inRepository && call.locked && call.resolved) = true) (hprogress : call.progress = .returned)
    (hread : readTeamFile platform.isAbsolute (teams teamName) = some current) (hdecided : decide current = some result)
    (hwritten : teamWrite call.version teamName current result = some written) :
    (transactTeam platform teams call teamName decide).teams teamName = some written := by
  rw [IsTeamName] at hname
  simp only [Bool.and_eq_true] at hcall
  simp [transactTeam, hname, hcall, hread, hdecided, hwritten, hprogress]

theorem teamWrite_done {teamName : String} {version : FormatVersion} (hdone : done ≠ .deleted)
    (hchanged : some state ≠ current) :
    teamWrite version teamName current (.done done (some state)) = some (persistedTeam version state) := by
  cases done <;> first | exact absurd rfl hdone | exact if_neg hchanged

/-- A call that gets the lock in the repository, and returns. -/
def TeamRuntime.call (runtime : TeamRuntime) (request : TeamRequest) : TeamCall :=
  ⟨request, true, true, true, runtime, .v2, .returned⟩

/-- A team can be made where there is none. -/
theorem created_of_calls (h : Relation.ReflTransGen (TeamStep platform) (fun _ ↦ none) teams) {input : Json}
    {definition : TeamDefinition} (hruntime : runtime.Grounded) (htools : ["task", "hub"] ⊆ runtime.toolNames)
    (hdefinition : teamDefinitionSchema platform input = some definition)
    (hread : readTeamFile platform.isAbsolute (teams definition.teamName) = some none) :
    ∃ later, Relation.ReflTransGen (TeamStep platform) (fun _ ↦ none) later ∧
      readTeamFile platform.isAbsolute (later definition.teamName) =
        some (some (createdTeam runtime.run definition.teamName definition)) := by
  let call := runtime.call (.initializeTeam input)
  have hkept := createdTeam_kept hruntime.run hdefinition
  have hdecided : initializeTeam platform runtime definition none =
      some (.done .created (some (createdTeam runtime.run definition.teamName definition))) :=
    (revised_eq_some hkept.settled.tidy).mpr ⟨hkept.settled, rfl⟩
  have hwritten : (call.run platform teams).teams definition.teamName =
      some (persistedTeam .v2 (createdTeam runtime.run definition.teamName definition)) := by
    have hrun : call.run platform teams = transactTeam platform teams call definition.teamName
        (initializeTeam platform runtime definition) := by
      simp [TeamCall.run, call, TeamRuntime.call, hdefinition, htools]
    rw [hrun]
    exact transactTeam_written hkept.settled.ok.teamName rfl rfl hread hdecided (teamWrite_done (by decide) (by simp))
  refine ⟨(call.run platform teams).teams, h.tail ⟨call, hruntime, rfl⟩, ?_⟩
  rw [hwritten]
  exact hkept.settled.read .v2

/-- A team is revised by each operation that it passes. -/
theorem turned_call {teamName : String} {status : TeamStatus} {members : List RuntimeMember}
    (hkept : FileKept platform (teams teamName)) (hname : IsTeamName teamName)
    (hread : readTeamFile platform.isAbsolute (teams teamName) = some (some team)) (hruntime : runtime.Grounded)
    (hturns : operation.Turns runtime team done status members) (hrevision : team.revision < maxSafeInteger)
    (hstranded : ¬ (operation = .archive ∧ team.Stranded)) :
    readTeamFile platform.isAbsolute (((runtime.call (.operate teamName operation)).run platform teams).teams teamName) =
      some (some (team.revise status members)) := by
  obtain ⟨current, hcurrent, hkept⟩ := hkept
  obtain rfl := Option.some.inj (hcurrent.symm.trans hread)
  have hteam := hkept team rfl
  have hsettled := (hturns.settled_iff hruntime hteam).mpr ⟨hrevision, hstranded⟩
  have hdecided : operation.decide platform runtime (some team) =
      some (.done done (some (team.revise status members))) := by
    rw [hturns.decide]
    exact (revised_eq_some hsettled.tidy).mpr ⟨hsettled, rfl⟩
  have hdone : done ≠ .deleted := by cases hturns <;> decide
  have hchanged : some (team.revise status members) ≠ some team := by
    intro hsame
    have hsame := congrArg TeamState.revision (Option.some.inj hsame)
    simp [TeamState.revise] at hsame
  have hwritten : ((runtime.call (.operate teamName operation)).run platform teams).teams teamName =
      some (persistedTeam .v2 (team.revise status members)) :=
    transactTeam_written hname rfl rfl hread hdecided (teamWrite_done hdone hchanged)
  rw [hwritten]
  exact hsettled.read .v2

theorem turned_of_calls (h : Relation.ReflTransGen (TeamStep platform) (fun _ ↦ none) teams) {teamName : String}
    {status : TeamStatus} {members : List RuntimeMember} (hname : IsTeamName teamName)
    (hread : readTeamFile platform.isAbsolute (teams teamName) = some (some team)) (hruntime : runtime.Grounded)
    (hturns : operation.Turns runtime team done status members) (hrevision : team.revision < maxSafeInteger)
    (hstranded : ¬ (operation = .archive ∧ team.Stranded)) :
    ∃ later, Relation.ReflTransGen (TeamStep platform) (fun _ ↦ none) later ∧
      readTeamFile platform.isAbsolute (later teamName) = some (some (team.revise status members)) :=
  ⟨_, h.tail ⟨runtime.call (.operate teamName operation), hruntime, rfl⟩,
    turned_call (kept_of_calls h teamName) hname hread hruntime hturns hrevision hstranded⟩

/-- A team that is archived is deleted. -/
theorem deleted_call {teamName : String} (hname : IsTeamName teamName)
    (hread : readTeamFile platform.isAbsolute (teams teamName) = some (some team))
    (hstatus : team.status = .archived) :
    readTeamFile platform.isAbsolute (((runtime.call (.operate teamName .delete)).run platform teams).teams teamName) =
      some none := by
  have hdecided : TeamOperation.delete.decide platform runtime (some team) = some (.done .deleted none) :=
    congrArg some (if_pos hstatus)
  have hwritten : ((runtime.call (.operate teamName .delete)).run platform teams).teams teamName =
      some (teamTombstone .v2 teamName) :=
    transactTeam_written hname rfl rfl hread hdecided rfl
  rw [hwritten]
  exact teamTombstone_read hname .v2

end Runs

end OmpLazy.Workflows

import OmpLazy.Workflows.TeamStateLaws
import OmpLazy.Workflows.TeammodeContract

/-! What the operations make of a team. -/

namespace OmpLazy.Workflows

open OmpLazy.Foundation OmpLazy.Foundation.Schema OmpLazy.Foundation.Text OmpLazy.Contracts OmpLazy.Gates

/-! What a status asks of the members. -/

/-- An agent and its job are bound to the member. -/
def RuntimeMember.Taken (member : RuntimeMember) : Prop :=
  member.actualAgentId.isSome = true ∧ member.actualJobId.isSome = true

def TeamStatus.Binds (members : List RuntimeMember) : TeamStatus → Prop
  | .initializing => ∀ member ∈ members,
      member.actualAgentId = none ∧ member.actualJobId = none ∧ member.acceptanceKey = none
  | .active => ∀ member ∈ members, member.Taken
  | .completed => ∀ member ∈ members, member.Taken ∧ member.acceptanceKey.isSome = true
  | .cancelled => True
  | .archived => (∀ member ∈ members, member.actualAgentId = none) ∨
      ∀ member ∈ members, member.Taken ∧ member.acceptanceKey.isSome = true

/-- No agent is bound to two members. -/
def AgentsApart (members : List RuntimeMember) : Prop := (members.filterMap (·.actualAgentId)).Nodup

theorem lifecycleBinds_iff (team : TeamState) :
    lifecycleBinds team = true ↔ team.status.Binds team.members ∧ AgentsApart team.members := by
  cases hstatus : team.status with
  | initializing =>
    simp [lifecycleBinds, hstatus, TeamStatus.Binds, AgentsApart, and_assoc]
  | active =>
    simp [lifecycleBinds, hstatus, TeamStatus.Binds, RuntimeMember.Taken, AgentsApart, Option.isSome_iff_ne_none]
  | completed =>
    simp [lifecycleBinds, hstatus, TeamStatus.Binds, RuntimeMember.Taken, AgentsApart, Option.isSome_iff_ne_none,
      forall_and]
  | cancelled => simp [lifecycleBinds, hstatus, TeamStatus.Binds, AgentsApart]
  | archived =>
    cases hany : team.members.any (·.actualAgentId.isSome) with
    | false =>
      have hfree : ∀ member ∈ team.members, member.actualAgentId = none := by simpa using hany
      rw [TeamStatus.Binds, iff_true_intro (Or.inl hfree), true_and]
      simp [lifecycleBinds, hstatus, hany, AgentsApart]
    | true =>
      have htaken : ¬ ∀ member ∈ team.members, member.actualAgentId = none := by
        simpa [Option.isSome_iff_ne_none] using hany
      rw [TeamStatus.Binds, or_iff_right htaken]
      simp [lifecycleBinds, hstatus, hany, RuntimeMember.Taken, AgentsApart, Option.isSome_iff_ne_none, forall_and]

/-! Revisions. -/

/-- A member that its schema leaves as it is. -/
structure RuntimeMember.Settled (isAbsolute : String → Bool) (member : RuntimeMember) : Prop where
  ok : member.Ok isAbsolute
  tidy : member.tidy = member

section Revisions

variable {isAbsolute : String → Bool} {platform : TeamPlatform} {team state : TeamState} {status : TeamStatus}
  {members : List RuntimeMember}

theorem TeamState.Settled.member (h : team.Settled isAbsolute) {member : RuntimeMember}
    (hmember : member ∈ team.members) : member.Settled isAbsolute := by
  have htidy := List.map_inj_left.mp ((congrArg TeamState.members h.tidy).trans (List.map_id _).symm)
  exact ⟨h.ok.members member hmember, htidy member hmember⟩

theorem TeamState.Settled.binds (h : team.Settled isAbsolute) :
    team.status.Binds team.members ∧ AgentsApart team.members := by
  rw [← lifecycleBinds_iff, ← congrArg lifecycleBinds h.tidy]
  exact h.ok.binds

theorem TeamState.tidy_of_members (h : ∀ member ∈ state.members, member.Settled isAbsolute) : state.tidy = state := by
  have hmembers : state.members.map RuntimeMember.tidy = state.members :=
    (List.map_congr_left fun member hmember ↦ (h member hmember).tidy).trans (List.map_id _)
  rw [TeamState.tidy, hmembers]

/-- A revision with settled members is accepted if its number is safe and its status binds them. -/
theorem TeamState.Settled.revise_iff (h : team.Settled isAbsolute)
    (hmembers : ∀ member ∈ members, member.Settled isAbsolute) (hlength : members.length = team.members.length) :
    (team.revise status members).Settled isAbsolute ↔
      team.revision < maxSafeInteger ∧ status.Binds members ∧ AgentsApart members := by
  have htidy : (team.revise status members).tidy = team.revise status members := tidy_of_members hmembers
  have hbinds := lifecycleBinds_iff (team.revise status members)
  constructor
  · intro hsettled
    exact ⟨hsettled.ok.revision.1, hsettled.binds⟩
  · rintro ⟨hrevision, hsafe⟩
    refine ⟨⟨h.ok.teamName, h.ok.runId, h.ok.attempt, ⟨hrevision, Nat.succ_pos _⟩, ?_, ?_, ?_⟩, htidy⟩
    · exact fun member hmember ↦ (hmembers member hmember).ok
    · exact hlength.symm ▸ h.ok.size
    · rw [htidy]
      exact hbinds.mpr hsafe

theorem parseTeamState_iff (h : state.tidy = state) {parsed : TeamState} :
    parseTeamState platform state = some parsed ↔ state.Settled platform.isAbsolute ∧ state = parsed := by
  rw [parseTeamState, (TeamState.reads _).encoded, h]
  exact and_congr_left fun _ ↦ ⟨fun hok ↦ ⟨hok, h⟩, fun hsettled ↦ hsettled.ok⟩

theorem parseTeamState_settled (h : state.Settled platform.isAbsolute) : parseTeamState platform state = some state :=
  (parseTeamState_iff h.tidy).mpr ⟨h, rfl⟩

theorem parseTeamState_eq_none (h : state.tidy = state) :
    parseTeamState platform state = none ↔ ¬ state.Settled platform.isAbsolute := by
  rw [Option.eq_none_iff_forall_ne_some]
  constructor
  · intro hnone hsettled
    exact hnone state (parseTeamState_settled hsettled)
  · intro hsettled parsed hparsed
    exact hsettled ((parseTeamState_iff h).mp hparsed).1

end Revisions

/-! What an operation does. -/

/-- The statuses that an operation goes on from. -/
def TeamOperation.admits : TeamOperation → TeamStatus → Bool
  | .bind _, status => status = .initializing || status = .active
  | .complete, status => status = .active || status = .completed
  | .archive, status => status = .completed || status = .cancelled || status = .archived
  | .cancel, status => status = .initializing || status = .active || status = .cancelled
  | .resume, status => status = .cancelled
  | .delete, status => status = .archived

/-- Whether an operation looks at more than the status. -/
def TeamOperation.checked : TeamOperation → Bool
  | .bind _ | .complete => true
  | _ => false

/-- The revision for which an operation passes its checks: its answer, the status and the members. -/
inductive TeamOperation.Turns (runtime : TeamRuntime) (team : TeamState) :
    TeamOperation → TeamResultStatus → TeamStatus → List RuntimeMember → Prop
  | bind {worktrees : List TeamWorktreeBinding} {members : List RuntimeMember} : team.status = .initializing →
      bindMembers runtime worktrees team = .ok members → Turns runtime team (.bind worktrees) .bound .active members
  | complete {members : List RuntimeMember} : team.status = .active → team.runId = runtime.run.runId →
      team.attempt = runtime.run.progressRevision → team.members.mapM (acceptedMember runtime team) = some members →
      Turns runtime team .complete .completed .completed members
  | archive : team.status = .completed ∨ team.status = .cancelled →
      Turns runtime team .archive .archived .archived team.members
  | cancel : team.status = .initializing ∨ team.status = .active →
      Turns runtime team .cancel .cancelled .cancelled team.members
  | resume : team.status = .cancelled →
      Turns runtime team .resume .resumed .initializing (team.members.map (·.released))

/-- What an operation answers that makes no revision. -/
inductive TeamOperation.Leaves (team : TeamState) : TeamOperation → TeamResult → Prop
  | replayed {operation : TeamOperation} : operation.admits team.status = true →
      Leaves team operation (.done .replayed (some team))
  | deleted : team.status = .archived → Leaves team .delete (.done .deleted none)
  | refused {operation : TeamOperation} {code : String} :
      (operation.admits team.status = true → operation.checked = true) → Leaves team operation (.refused code)

section Decisions

variable {platform : TeamPlatform} {runtime : TeamRuntime} {team : TeamState} {operation : TeamOperation}
  {done : TeamResultStatus} {status : TeamStatus} {members : List RuntimeMember}

theorem TeamOperation.Turns.decide (h : operation.Turns runtime team done status members) :
    operation.decide platform runtime (some team) = revised platform done (team.revise status members) := by
  cases h with
  | bind hstatus hmembers => simp [TeamOperation.decide, bindTeam, hstatus, hmembers]
  | complete hstatus hrun hattempt hmembers =>
    simp [TeamOperation.decide, completeTeam, hstatus, hrun, hattempt, hmembers]
  | archive hstatus => obtain hstatus | hstatus := hstatus <;> simp [TeamOperation.decide, archiveTeam, hstatus]
  | cancel hstatus => obtain hstatus | hstatus := hstatus <;> simp [TeamOperation.decide, cancelTeam, hstatus]
  | resume hstatus => simp [TeamOperation.decide, resumeTeam, hstatus]

/-- An operation on a team revises it, or answers at once. -/
theorem decide_cases (platform : TeamPlatform) (runtime : TeamRuntime) (team : TeamState)
    (operation : TeamOperation) :
    (∃ done status members, operation.Turns runtime team done status members) ∨
      ∃ result, operation.decide platform runtime (some team) = some result ∧ operation.Leaves team result := by
  cases operation with
  | bind worktrees =>
    by_cases hstatus : team.status = .initializing
    · cases hmembers : bindMembers runtime worktrees team with
      | ok members => exact .inl ⟨_, _, _, .bind hstatus hmembers⟩
      | error code =>
        refine .inr ⟨.refused code, ?_, .refused fun _ ↦ rfl⟩
        simp [TeamOperation.decide, bindTeam, hstatus, hmembers]
    · right
      simp only [TeamOperation.decide, bindTeam, ne_eq, hstatus, not_false_eq_true, if_true]
      by_cases hactive : team.status = .active
      · simp only [hactive, not_true_eq_false, if_false]
        split
        · split
          · exact ⟨_, rfl, .replayed (by simp [TeamOperation.admits, hactive])⟩
          · exact ⟨_, rfl, .refused fun _ ↦ rfl⟩
        · exact ⟨_, rfl, .refused fun _ ↦ rfl⟩
      · exact ⟨_, if_pos hactive, .refused fun _ ↦ rfl⟩
  | complete =>
    simp only [TeamOperation.decide, completeTeam]
    split
    · rename_i hcompleted
      exact .inr ⟨_, rfl, .replayed (by simp [TeamOperation.admits, hcompleted])⟩
    split
    · exact .inr ⟨_, rfl, .refused fun _ ↦ rfl⟩
    rename_i hguard
    simp only [not_or, not_not] at hguard
    split
    · exact .inr ⟨_, rfl, .refused fun _ ↦ rfl⟩
    · rename_i members hmembers
      exact .inl ⟨_, _, _, .complete hguard.1 hguard.2.1 hguard.2.2 hmembers⟩
  | archive =>
    simp only [TeamOperation.decide, archiveTeam]
    split
    · rename_i harchived
      exact .inr ⟨_, rfl, .replayed (by simp [TeamOperation.admits, harchived])⟩
    split
    · rename_i harchived hguard
      exact .inr ⟨_, rfl, .refused fun hadmits ↦ by simp [TeamOperation.admits, harchived, hguard] at hadmits⟩
    · rename_i hguard
      exact .inl ⟨_, _, _, .archive (by tauto)⟩
  | cancel =>
    simp only [TeamOperation.decide, cancelTeam]
    split
    · rename_i hcancelled
      exact .inr ⟨_, rfl, .replayed (by simp [TeamOperation.admits, hcancelled])⟩
    split
    · rename_i hcancelled hguard
      exact .inr ⟨_, rfl, .refused fun hadmits ↦ by simp [TeamOperation.admits, hcancelled, hguard] at hadmits⟩
    · rename_i hguard
      exact .inl ⟨_, _, _, .cancel (by tauto)⟩
  | resume =>
    by_cases hstatus : team.status = .cancelled
    · exact .inl ⟨_, _, _, .resume hstatus⟩
    · refine .inr ⟨_, if_pos hstatus, .refused fun hadmits ↦ ?_⟩
      exact absurd (of_decide_eq_true hadmits) hstatus
  | delete =>
    right
    by_cases hstatus : team.status = .archived
    · exact ⟨_, congrArg some (if_pos hstatus), .deleted hstatus⟩
    · refine ⟨_, congrArg some (if_neg hstatus), .refused fun hadmits ↦ ?_⟩
      exact absurd (of_decide_eq_true hadmits) hstatus

end Decisions

/-! The members that an operation leaves. -/

/-- What stands behind the answers that an operation gets: the ledger of its session came of the calls on tasks,
the acceptances were read, and a worktree has a path. -/
structure TeamRuntime.Grounded (runtime : TeamRuntime) : Prop where
  scope : ∃ (store : TaskStore) (sessionId : String),
    Relation.ReflTransGen TypedTransacts (fun _ ↦ none) store.ledgers ∧
      store.resolve sessionId = some (.scope runtime.scope)
  acceptances : ∀ event ∈ runtime.acceptances, ∃ fields, acceptanceEventFields fields = some event
  worktrees : ∀ candidate path, runtime.validateTeamWorktree candidate = .ok path → path ≠ ""

section Members

variable {runtime : TeamRuntime} {team : TeamState} {identities : List RuntimeIdentityRecord}
  {worktrees : List TeamWorktreeBinding} {member left : RuntimeMember} {members : List RuntimeMember}

theorem bindMember_eq_ok (h : bindMember runtime identities worktrees member = .ok left) :
    ∃ identity ∈ identities, identity.requestedName = some member.requestedName ∧ ∃ path : Option String,
      (∀ s ∈ path, ∃ candidate, runtime.validateTeamWorktree candidate = .ok s) ∧
        left = { member with
          actualAgentId := some identity.actualAgentId, actualJobId := identity.actualJobId, worktreePath := path } := by
  unfold bindMember at h
  split at h
  · rename_i identity hmatches
    have hmem : identity ∈ [identity] := List.mem_singleton_self _
    rw [← hmatches, List.mem_filter, Bool.and_eq_true, decide_eq_true_eq] at hmem
    refine ⟨identity, hmem.1, hmem.2.1, ?_⟩
    split at h
    · obtain rfl := Except.ok.inj h
      exact ⟨none, fun _ hs ↦ absurd hs (Option.not_mem_none _), rfl⟩
    · rename_i worktree _
      split at h
      · cases h
      · rename_i path hpath
        obtain rfl := Except.ok.inj h
        exact ⟨some path, fun s hs ↦ ⟨worktree.path, hpath.trans (congrArg Except.ok (Option.some.inj hs))⟩, rfl⟩
  · cases h

theorem bindMembers_eq_ok (h : bindMembers runtime worktrees team = .ok members) :
    runtime.scope.proven = true ∧ List.Forall₂ (fun member left ↦
      bindMember runtime (runtime.scope.runtimeIdentities runtime.scope.taskGeneration) worktrees member = .ok left)
        team.members members := by
  unfold bindMembers at h
  split at h
  · cases h
  rename_i hproven
  rw [Bool.not_eq_true', Bool.not_eq_false] at hproven
  dsimp only at h
  split at h
  · cases h
  split at h
  · cases h
  split at h
  · cases h
  exact ⟨hproven, mapM_eq_ok.mp h⟩

theorem acceptedMember_eq_some (h : acceptedMember runtime team member = some left) :
    ∃ entry ∈ runtime.acceptances, left = { member with acceptanceKey := some entry.idempotencyKey } := by
  obtain ⟨entry, hfound, rfl⟩ := Option.map_eq_some_iff.mp h
  exact ⟨entry, List.mem_of_find?_eq_some hfound, rfl⟩

end Members

/-- An operation leaves what the definition says of the members. -/
theorem TeamOperation.Turns.definitions {runtime : TeamRuntime} {team : TeamState} {operation : TeamOperation}
    {done : TeamResultStatus} {status : TeamStatus} {members : List RuntimeMember}
    (h : operation.Turns runtime team done status members) :
    members.map (·.definition) = team.members.map (·.definition) := by
  cases h with
  | bind hstatus hmembers =>
    refine map_eq_of_forall₂ ((bindMembers_eq_ok hmembers).2.imp fun member left hbound ↦ ?_)
    obtain ⟨_, -, -, _, -, rfl⟩ := bindMember_eq_ok hbound
    rfl
  | complete hstatus hrun hattempt hmembers =>
    refine map_eq_of_forall₂ ((mapM_eq_some.mp hmembers).imp fun member left haccepted ↦ ?_)
    obtain ⟨_, -, rfl⟩ := acceptedMember_eq_some haccepted
    rfl
  | archive => rfl
  | cancel => rfl
  | resume => exact List.map_map.trans rfl

end OmpLazy.Workflows

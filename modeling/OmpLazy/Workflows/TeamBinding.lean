import OmpLazy.Workflows.TeamRuns

/-! Teams whose members are bound to a proven capability. -/

namespace OmpLazy.Workflows

open OmpLazy.Foundation OmpLazy.Foundation.Schema OmpLazy.Contracts OmpLazy.Gates
open Relation (ReflTransGen)

section Binding

variable {platform : TeamPlatform} {runtime : TeamRuntime} {team : TeamState}
  {worktrees : List TeamWorktreeBinding}

theorem bind_accepted (hruntime : runtime.Grounded) (hteam : team.Kept platform.isAbsolute)
    {done : TeamResultStatus} {state : TeamState}
    (h : bindTeam platform runtime worktrees (some team) = some (.done done (some state))) :
    teamStateSchema platform.isAbsolute (encodeTeamState state) = some state := by
  rw [← TeamState.settled_iff]
  have hdecided : TeamOperation.decide platform runtime (.bind worktrees) (some team) =
      some (.done done (some state)) := h
  obtain rfl | hkept := hteam.decided hruntime hdecided
  · exact hteam.settled
  · exact hkept.settled

/-- A team that is starting takes the members to which the identities can be bound. -/
theorem bind_built (hruntime : runtime.Grounded) (hteam : team.Kept platform.isAbsolute)
    (hrevision : team.revision < maxSafeInteger) (hstatus : team.status = .initializing)
    {members : List RuntimeMember} (hmembers : bindMembers runtime worktrees team = .ok members) :
    bindTeam platform runtime worktrees (some team) = some (.done .bound (some (team.revise .active members))) := by
  have hturns : TeamOperation.Turns runtime team (.bind worktrees) .bound .active members := .bind hstatus hmembers
  have hsettled := (hturns.settled_iff hruntime hteam).mpr ⟨hrevision, by simp⟩
  exact hturns.decide.trans ((revised_eq_some hsettled.tidy).mpr ⟨hsettled, rfl⟩)

theorem bind_refused (hstatus : team.status = .initializing) {code : String}
    (hmembers : bindMembers runtime worktrees team = .error code) :
    bindTeam platform runtime worktrees (some team) = some (.refused code) := by
  simp [bindTeam, hstatus, hmembers]

/-- To bind a team throws only when its revision is the greatest that there is. -/
theorem bind_answers (hruntime : runtime.Grounded) (hteam : team.Kept platform.isAbsolute)
    (hrevision : team.revision < maxSafeInteger) :
    (bindTeam platform runtime worktrees (some team)).isSome = true := by
  obtain ⟨done, status, members, hturns⟩ | ⟨result, hdecided, -⟩ :=
    decide_cases platform runtime team (.bind worktrees)
  · cases hturns with
    | bind hstatus hmembers =>
      rw [bind_built hruntime hteam hrevision hstatus hmembers]
      rfl
  · exact Option.isSome_of_eq_some hdecided

/-- Whatever calls have made of the ledgers and of the teams: the identities of a proven capability are complete,
and to bind a team to them is refused or leaves a state that its schema accepts. -/
theorem proven_team_binds {store : TaskStore} {sessionId : String} {scope : TaskRunScope}
    (hcalls : ReflTransGen TypedTransacts (fun _ ↦ none) store.ledgers)
    (hresolved : store.resolve sessionId = some (.scope scope)) (hproven : scope.proven = true) :
    CompleteIdentities (scope.runtimeIdentities scope.taskGeneration) ∧
      ∀ (platform : TeamPlatform) (runtime : TeamRuntime) (teams : String → Option Json) (teamName : String)
        (team : TeamState) (worktrees : List TeamWorktreeBinding), runtime.Grounded → runtime.scope = scope →
        ReflTransGen (TeamStep platform) (fun _ ↦ none) teams →
        readTeamFile platform.isAbsolute (teams teamName) = some (some team) →
          (∀ done state, bindTeam platform runtime worktrees (some team) = some (.done done (some state)) →
            teamStateSchema platform.isAbsolute (encodeTeamState state) = some state) ∧
          (team.revision < maxSafeInteger →
            (bindTeam platform runtime worktrees (some team)).isSome = true ∧
            ∀ members, team.status = .initializing → bindMembers runtime worktrees team = .ok members →
              bindTeam platform runtime worktrees (some team) =
                some (.done .bound (some (team.revise .active members)))) := by
  refine ⟨proven_complete hcalls hresolved hproven, ?_⟩
  rintro platform runtime teams teamName team worktrees hruntime rfl hteams hread
  obtain ⟨current, hcurrent, hkept⟩ := kept_of_calls hteams teamName
  obtain rfl := Option.some.inj (hcurrent.symm.trans hread)
  have hteam := hkept team rfl
  exact ⟨fun done state ↦ bind_accepted hruntime hteam, fun hrevision ↦
    ⟨bind_answers hruntime hteam hrevision, fun members hstatus ↦ bind_built hruntime hteam hrevision hstatus⟩⟩

/-- A team that is starting may be cancelled and resumed. -/
theorem restarted_of_calls {teams : String → Option Json} {teamName : String}
    (hteams : ReflTransGen (TeamStep platform) (fun _ ↦ none) teams) (hname : IsTeamName teamName)
    (hread : readTeamFile platform.isAbsolute (teams teamName) = some (some team)) (hruntime : runtime.Grounded)
    (hstatus : team.status = .initializing) (hrevision : team.revision + 1 < maxSafeInteger) :
    ∃ later, ReflTransGen (TeamStep platform) (fun _ ↦ none) later ∧
      readTeamFile platform.isAbsolute (later teamName) = some (some
        { team with revision := team.revision + 2, members := team.members.map (·.released) }) := by
  have hcancel : TeamOperation.Turns runtime team .cancel .cancelled .cancelled team.members := .cancel (.inl hstatus)
  obtain ⟨cancelled, hcancelled, hread⟩ :=
    turned_of_calls hteams hname hread hruntime hcancel (by omega) (by simp)
  have hresume : TeamOperation.Turns runtime (team.revise .cancelled team.members) .resume .resumed .initializing
      (team.members.map (·.released)) := .resume rfl
  obtain ⟨resumed, hresumed, hread⟩ :=
    turned_of_calls hcancelled hname hread hruntime hresume hrevision (by simp)
  refine ⟨resumed, hresumed, hread.trans ?_⟩
  rw [TeamState.revise, TeamState.revise, ← hstatus]

/-- Cancelled and resumed again and again, a team has any odd revision. -/
theorem cycled_of_calls {input : Json} {definition : TeamDefinition} (hruntime : runtime.Grounded)
    (htools : ["task", "hub"] ⊆ runtime.toolNames)
    (hdefinition : teamDefinitionSchema platform input = some definition) (cycles : ℕ)
    (hcycles : 2 * cycles + 1 ≤ maxSafeInteger) :
    ∃ teams, ReflTransGen (TeamStep platform) (fun _ ↦ none) teams ∧
      readTeamFile platform.isAbsolute (teams definition.teamName) = some (some
        { createdTeam runtime.run definition.teamName definition with revision := 2 * cycles + 1 }) := by
  have hname := (createdTeam_kept hruntime.run hdefinition).settled.ok.teamName
  induction cycles with
  | zero => exact created_of_calls .refl hruntime htools hdefinition rfl
  | succ cycles ih =>
    obtain ⟨teams, hteams, hread⟩ := ih (by omega)
    obtain ⟨later, hlater, hread⟩ := restarted_of_calls hteams hname hread hruntime rfl (by dsimp only; omega)
    refine ⟨later, hlater, hread.trans ?_⟩
    have hreleased : definition.members.map (fun member ↦ member.unbound.released) =
        definition.members.map (·.unbound) := rfl
    simp [createdTeam, Function.comp_def, hreleased, Nat.mul_add, Nat.add_right_comm]

end Binding

namespace Sample

def teamPlatform : TeamPlatform where
  nfc := id
  nfc_ascii := id_ascii
  sha256 _ := String.ofList (List.replicate 64 '0')
  sha256_hex _ c hc := by
    obtain rfl : c = '0' := List.eq_of_mem_replicate (String.toList_ofList ▸ hc)
    decide
  stringify _ := ""
  toLowerCase := id
  isAbsolute _ := false
  posixNormalize := id
  relative _ path := path
  localeLe left right := ordinalLe left right

def member (requestedName path : String) : MemberDefinition :=
  ⟨requestedName, .low, "focus", [path], "deliverable", false⟩

/-- The team of two proven tasks. -/
def pairDefinition : TeamDefinition := ⟨"pair", [member "worker-a" "a", member "worker-b" "b"]⟩

def trioDefinition : TeamDefinition :=
  ⟨"trio", [member "worker-a" "a", member "worker-b" "b", member "worker-c" "c"]⟩

def pairMembers : List RuntimeMember :=
  [⟨"worker-a", .low, "focus", ["a"], "deliverable", false, some "agent-1", some "agent-1", none, none⟩,
    ⟨"worker-b", .low, "focus", ["b"], "deliverable", false, some "agent-2", some "job-2", none, none⟩]

def teamRuntime (scope : TaskRunScope) : TeamRuntime where
  toolNames := ["task", "hub"]
  scope
  acceptances := []
  realpath := some
  validateTeamWorktree _ := .error "unreadable"

end Sample

theorem pairDefinition_read : teamDefinitionSchema Sample.teamPlatform (encodeTeamDefinition Sample.pairDefinition) =
    some Sample.pairDefinition := by decide

theorem trioDefinition_read : teamDefinitionSchema Sample.teamPlatform (encodeTeamDefinition Sample.trioDefinition) =
    some Sample.trioDefinition := by decide

theorem teamRuntime_grounded {scope : TaskRunScope}
    (h : (Sample.gateStore Sample.pairFiles).resolve "session" = some (.scope scope)) :
    (Sample.teamRuntime scope).Grounded where
  scope := ⟨_, _, pair_calls, h⟩
  acceptances _ hentry := absurd hentry List.not_mem_nil
  worktrees _ _ hpath := by cases hpath

/-- The members of the pair are bound to the two proven tasks. -/
theorem pair_bound {scope : TaskRunScope} (hproven : scope.proven = true)
    (hidentities : scope.runtimeIdentities scope.taskGeneration = Sample.pairIdentities) (run : State.AnyRun)
    (revision : ℕ) : bindMembers (Sample.teamRuntime scope) []
      { createdTeam run Sample.pairDefinition.teamName Sample.pairDefinition with revision } =
        .ok Sample.pairMembers := by
  unfold bindMembers
  simp only [Sample.teamRuntime, hproven, hidentities]
  rfl

/-- A pair of tasks is not to be bound to three members, and the last revision of a pair is not to be bound. -/
theorem proven_bind_fails : ∃ (store : TaskStore) (sessionId : String) (scope : TaskRunScope) (runtime : TeamRuntime),
    ReflTransGen TypedTransacts (fun _ ↦ none) store.ledgers ∧ store.resolve sessionId = some (.scope scope) ∧
      scope.proven = true ∧ runtime.Grounded ∧ runtime.scope = scope ∧
        (∃ teams team, ReflTransGen (TeamStep Sample.teamPlatform) (fun _ ↦ none) teams ∧
          readTeamFile Sample.teamPlatform.isAbsolute (teams "trio") = some (some team) ∧
            bindTeam Sample.teamPlatform runtime [] (some team) = some (.refused "identity_mapping_incomplete")) ∧
        ∃ teams team, ReflTransGen (TeamStep Sample.teamPlatform) (fun _ ↦ none) teams ∧
          readTeamFile Sample.teamPlatform.isAbsolute (teams "pair") = some (some team) ∧
            bindTeam Sample.teamPlatform runtime [] (some team) = none := by
  obtain ⟨scope, hresolved, -, hproven, hidentities⟩ := pair_proven
  have hruntime := teamRuntime_grounded hresolved
  refine ⟨_, _, scope, Sample.teamRuntime scope, pair_calls, hresolved, hproven, hruntime, rfl, ?_, ?_⟩
  · obtain ⟨teams, hteams, hread⟩ := created_of_calls .refl hruntime (by simp [Sample.teamRuntime]) trioDefinition_read rfl
    refine ⟨teams, _, hteams, hread, bind_refused rfl ?_⟩
    unfold bindMembers
    simp only [Sample.teamRuntime, hproven, hidentities]
    rfl
  · have hlast : 2 * (maxSafeInteger / 2) + 1 = maxSafeInteger := by decide
    obtain ⟨teams, hteams, hread⟩ := cycled_of_calls hruntime (by simp [Sample.teamRuntime]) pairDefinition_read
      (maxSafeInteger / 2) hlast.le
    rw [hlast] at hread
    refine ⟨teams, _, hteams, hread, ?_⟩
    obtain ⟨current, hcurrent, hkept⟩ := kept_of_calls hteams "pair"
    obtain rfl := Option.some.inj (hcurrent.symm.trans hread)
    have hturns := TeamOperation.Turns.bind rfl (pair_bound hproven hidentities scope.run maxSafeInteger)
    exact (hturns.throws_iff hruntime (hkept _ rfl)).mpr fun h ↦ absurd h.1 (Nat.lt_irrefl _)

/-- The pair can be bound. -/
theorem proven_pair_binds : ∃ (store : TaskStore) (sessionId : String) (scope : TaskRunScope) (team : TeamState),
    store.resolve sessionId = some (.scope scope) ∧
      CompleteIdentities (scope.runtimeIdentities scope.taskGeneration) ∧
        bindTeam Sample.teamPlatform (Sample.teamRuntime scope) [] (some team) =
          some (.done .bound (some (team.revise .active Sample.pairMembers))) := by
  obtain ⟨scope, hresolved, -, hproven, hidentities⟩ := pair_proven
  have hruntime := teamRuntime_grounded hresolved
  obtain ⟨teams, hteams, hread⟩ := created_of_calls .refl hruntime (by simp [Sample.teamRuntime]) pairDefinition_read rfl
  obtain ⟨hcomplete, hbinds⟩ := proven_team_binds pair_calls hresolved hproven
  obtain ⟨-, hanswers⟩ := hbinds _ _ teams _ _ [] hruntime rfl hteams hread
  obtain ⟨-, hbuilt⟩ := hanswers (by simp [createdTeam, maxSafeInteger])
  exact ⟨_, _, scope, _, hresolved, hcomplete,
    hbuilt _ rfl (pair_bound hproven hidentities scope.run 1)⟩

end OmpLazy.Workflows

import OmpLazy.Workflows.TeamBinding

/-! The life of a team: what can be done to it in each status. -/

namespace OmpLazy.Workflows

open OmpLazy.Foundation OmpLazy.Foundation.Schema OmpLazy.Contracts OmpLazy.Gates
open Relation (ReflTransGen)

/-- A call passes the checks of an operation, which then makes a revision. -/
def TeamOperation.revises (runtime : TeamRuntime) (team : TeamState) : TeamOperation → Bool
  | .bind worktrees => team.status = .initializing && (bindMembers runtime worktrees team).isOk
  | .complete => team.status = .active && team.runId = runtime.run.runId &&
      team.attempt = runtime.run.progressRevision && (team.members.mapM (acceptedMember runtime team)).isSome
  | .archive => team.status = .completed || team.status = .cancelled
  | .cancel => team.status = .initializing || team.status = .active
  | .resume => team.status = .cancelled
  | .delete => false

/-- No revision is made of the greatest one, and no team is archived that was cancelled with agents. -/
def TeamOperation.Fits (runtime : TeamRuntime) (team : TeamState) (operation : TeamOperation) : Prop :=
  (operation.revises runtime team = true → team.revision < maxSafeInteger) ∧
    ¬ (operation = .archive ∧ team.Stranded)

/-- An operation answers with a state that its schema accepts, with the deletion of the team, or, if it looks at
more than the status, with a refusal. -/
def TeamOperation.Serves (platform : TeamPlatform) (operation : TeamOperation) : TeamResult → Prop
  | .done _ (some state) => teamStateSchema platform.isAbsolute (encodeTeamState state) = some state
  | .done done none => operation = .delete ∧ done = .deleted
  | .refused _ => operation.checked = true

section Lifecycle

variable {platform : TeamPlatform} {runtime : TeamRuntime} {team : TeamState} {operation : TeamOperation}
  {done : TeamResultStatus} {status : TeamStatus} {members : List RuntimeMember}

theorem TeamOperation.revises_iff : operation.revises runtime team = true ↔
    ∃ done status members, operation.Turns runtime team done status members := by
  constructor
  · intro h
    cases operation with
    | bind worktrees =>
      simp only [revises, Bool.and_eq_true, decide_eq_true_eq] at h
      obtain ⟨hstatus, hok⟩ := h
      cases hmembers : bindMembers runtime worktrees team with
      | ok members => exact ⟨_, _, _, .bind hstatus hmembers⟩
      | error code =>
        rw [hmembers] at hok
        cases hok
    | complete =>
      simp only [revises, Bool.and_eq_true, decide_eq_true_eq] at h
      obtain ⟨⟨⟨hstatus, hrun⟩, hattempt⟩, hsome⟩ := h
      obtain ⟨members, hmembers⟩ := Option.isSome_iff_exists.mp hsome
      exact ⟨_, _, _, .complete hstatus hrun hattempt hmembers⟩
    | archive =>
      simp only [revises, Bool.or_eq_true, decide_eq_true_eq] at h
      exact ⟨_, _, _, .archive h⟩
    | cancel =>
      simp only [revises, Bool.or_eq_true, decide_eq_true_eq] at h
      exact ⟨_, _, _, .cancel h⟩
    | resume => exact ⟨_, _, _, .resume (of_decide_eq_true h)⟩
    | delete => cases h
  · rintro ⟨done, status, members, h⟩
    cases h with
    | bind hstatus hmembers => simp [revises, hstatus, hmembers, Except.isOk, Except.toBool]
    | complete hstatus hrun hattempt hmembers => simp [revises, hstatus, hrun, hattempt, hmembers]
    | archive hstatus => simpa [revises] using hstatus
    | cancel hstatus => simpa [revises] using hstatus
    | resume hstatus => simpa [revises] using hstatus

/-- What makes no revision had none to make. -/
theorem leaves_unturned {result : TeamResult} (hdecided : operation.decide platform runtime (some team) = some result)
    (hleaves : operation.Leaves team result) : ¬ operation.Turns runtime team done status members := by
  intro hturns
  rw [hturns.decide, revised, Option.map_eq_some_iff] at hdecided
  obtain ⟨state, -, rfl⟩ := hdecided
  cases hleaves
  cases hturns

/-- An operation that goes on from the status of a team serves it exactly if its revision fits. -/
theorem serves_iff (hruntime : runtime.Grounded) (hteam : team.Kept platform.isAbsolute)
    (hadmits : operation.admits team.status = true) :
    (∃ result, operation.decide platform runtime (some team) = some result ∧ operation.Serves platform result) ↔
      operation.Fits runtime team := by
  obtain ⟨done, status, members, hturns⟩ | ⟨result, hdecided, hleaves⟩ :=
    decide_cases platform runtime team operation
  · have hrevises := TeamOperation.revises_iff.mpr ⟨_, _, _, hturns⟩
    constructor
    · rintro ⟨result, hdecided, -⟩
      have hfits := not_imp_comm.mp (hturns.throws_iff hruntime hteam).mpr (hdecided ▸ Option.some_ne_none result)
      exact ⟨fun _ ↦ hfits.1, hfits.2⟩
    · rintro ⟨hrevision, hstranded⟩
      have hsettled := (hturns.settled_iff hruntime hteam).mpr ⟨hrevision hrevises, hstranded⟩
      have hdecided := hturns.decide.trans ((revised_eq_some hsettled.tidy).mpr ⟨hsettled, rfl⟩)
      exact ⟨_, hdecided, TeamState.settled_iff.mp hsettled⟩
  · refine iff_of_true ⟨result, hdecided, ?_⟩ ⟨?_, ?_⟩
    · cases hleaves with
      | replayed => exact TeamState.settled_iff.mp hteam.settled
      | deleted => exact ⟨rfl, rfl⟩
      | refused hchecked => exact hchecked hadmits
    · intro hrevises
      obtain ⟨done, status, members, hturns⟩ := TeamOperation.revises_iff.mp hrevises
      exact absurd hturns (leaves_unturned hdecided hleaves)
    · rintro ⟨rfl, hstatus, -⟩
      have hturns : TeamOperation.Turns runtime team .archive .archived .archived team.members := .archive (.inr hstatus)
      exact leaves_unturned hdecided hleaves hturns

/-- A completed or cancelled team can be archived, and then deleted, exactly if its archiving fits. -/
theorem archived_deleted_iff (hruntime : runtime.Grounded) (hteam : team.Kept platform.isAbsolute)
    (hstatus : team.status = .completed ∨ team.status = .cancelled) :
    (∃ archived, archiveTeam platform (some team) = some (.done .archived (some archived)) ∧
      deleteTeam (some archived) = some (.done .deleted none)) ↔
        TeamOperation.Fits runtime team .archive := by
  have hturns : TeamOperation.Turns runtime team .archive .archived .archived team.members := .archive hstatus
  have hrevises := TeamOperation.revises_iff.mpr ⟨_, _, _, hturns⟩
  have hfits : TeamOperation.Fits runtime team .archive ↔
      (team.revise .archived team.members).Settled platform.isAbsolute := by
    rw [hturns.settled_iff hruntime hteam, TeamOperation.Fits]
    exact and_congr_left fun _ ↦ ⟨fun h ↦ h hrevises, fun h _ ↦ h⟩
  have htidy : (team.revise .archived team.members).tidy = team.revise .archived team.members :=
    TeamState.tidy_of_members (hturns.members_settled hruntime hteam)
  have hdecided : archiveTeam platform (some team) = revised platform .archived (team.revise .archived team.members) :=
    hturns.decide
  rw [hfits, hdecided]
  constructor
  · rintro ⟨archived, harchived, -⟩
    exact ((revised_eq_some htidy).mp harchived).1
  · intro hsettled
    exact ⟨_, (revised_eq_some htidy).mpr ⟨hsettled, rfl⟩, rfl⟩

/-- Whatever calls have made of the teams: every file can be read, an operation that goes on from the status of a
team serves it exactly if its revision fits, and a completed or cancelled team can be archived and deleted
exactly if that fits. -/
theorem team_lifecycle_iff {teams : String → Option Json}
    (hteams : ReflTransGen (TeamStep platform) (fun _ ↦ none) teams) (teamName : String) :
    ∃ current, readTeamFile platform.isAbsolute (teams teamName) = some current ∧
      ∀ team ∈ current, ∀ runtime : TeamRuntime, runtime.Grounded →
        (∀ operation : TeamOperation, operation.admits team.status = true →
          ((∃ result, operation.decide platform runtime (some team) = some result ∧
            operation.Serves platform result) ↔ operation.Fits runtime team)) ∧
        (team.status = .completed ∨ team.status = .cancelled →
          ((∃ archived, archiveTeam platform (some team) = some (.done .archived (some archived)) ∧
            deleteTeam (some archived) = some (.done .deleted none)) ↔ TeamOperation.Fits runtime team .archive)) := by
  obtain ⟨current, hread, hkept⟩ := kept_of_calls hteams teamName
  refine ⟨current, hread, fun team hteam runtime hruntime ↦ ⟨fun operation hadmits ↦ ?_, fun hstatus ↦ ?_⟩⟩
  · exact serves_iff hruntime (hkept team hteam) hadmits
  · exact archived_deleted_iff hruntime (hkept team hteam) hstatus

end Lifecycle

/-- A pair that is starting can be cancelled. -/
theorem team_lifecycle_pair : ∃ (runtime : TeamRuntime) (team : TeamState) (result : TeamResult),
    team.status = .initializing ∧
      TeamOperation.cancel.decide Sample.teamPlatform runtime (some team) = some result ∧
        TeamOperation.cancel.Serves Sample.teamPlatform result := by
  obtain ⟨scope, hresolved, -, -, -⟩ := pair_proven
  have hruntime := teamRuntime_grounded hresolved
  obtain ⟨teams, hteams, hread⟩ := created_of_calls .refl hruntime (by simp [Sample.teamRuntime]) pairDefinition_read rfl
  obtain ⟨current, hcurrent, hlifecycle⟩ := team_lifecycle_iff hteams "pair"
  obtain rfl := Option.some.inj (hcurrent.symm.trans hread)
  obtain ⟨hserves, -⟩ := hlifecycle _ rfl _ hruntime
  obtain ⟨result, hdecided, hresult⟩ := (hserves .cancel rfl).mpr
    ⟨fun _ ↦ by simp [createdTeam, maxSafeInteger], by simp⟩
  exact ⟨_, _, result, rfl, hdecided, hresult⟩

/-- A pair that was bound and then cancelled is not to be archived. -/
theorem stranded_pair_throws : ∃ (runtime : TeamRuntime) (teams : String → Option Json) (team : TeamState),
    runtime.Grounded ∧ ReflTransGen (TeamStep Sample.teamPlatform) (fun _ ↦ none) teams ∧
      readTeamFile Sample.teamPlatform.isAbsolute (teams "pair") = some (some team) ∧ team.status = .cancelled ∧
        TeamOperation.archive.admits team.status = true ∧ archiveTeam Sample.teamPlatform (some team) = none := by
  obtain ⟨scope, hresolved, -, hproven, hidentities⟩ := pair_proven
  have hruntime := teamRuntime_grounded hresolved
  obtain ⟨created, hcreated, hread⟩ :=
    created_of_calls .refl hruntime (by simp [Sample.teamRuntime]) pairDefinition_read rfl
  have hname : IsTeamName Sample.pairDefinition.teamName :=
    (createdTeam_kept hruntime.run pairDefinition_read).settled.ok.teamName
  have hbind := TeamOperation.Turns.bind rfl (pair_bound hproven hidentities scope.run 1)
  obtain ⟨bound, hbound, hread⟩ := turned_of_calls hcreated hname hread hruntime hbind
    (by simp [createdTeam, maxSafeInteger]) (by simp)
  have hcancel : TeamOperation.Turns (Sample.teamRuntime scope) ((createdTeam scope.run
      Sample.pairDefinition.teamName Sample.pairDefinition).revise .active Sample.pairMembers) .cancel .cancelled
        .cancelled Sample.pairMembers := .cancel (.inr rfl)
  obtain ⟨teams, hteams, hread⟩ := turned_of_calls hbound hname hread hruntime hcancel
    (by simp [TeamState.revise, createdTeam, maxSafeInteger]) (by simp)
  refine ⟨_, teams, _, hruntime, hteams, hread, rfl, rfl, ?_⟩
  obtain ⟨current, hcurrent, hkept⟩ := kept_of_calls hteams "pair"
  obtain rfl := Option.some.inj (hcurrent.symm.trans hread)
  have harchive : TeamOperation.Turns (Sample.teamRuntime scope) (((createdTeam scope.run
      Sample.pairDefinition.teamName Sample.pairDefinition).revise .active Sample.pairMembers).revise .cancelled
        Sample.pairMembers) .archive .archived .archived Sample.pairMembers := .archive (.inr rfl)
  refine (harchive.throws_iff hruntime (hkept _ rfl)).mpr fun h ↦ h.2 ⟨rfl, rfl, ?_⟩
  exact ⟨_, List.mem_cons_self, rfl⟩

end OmpLazy.Workflows

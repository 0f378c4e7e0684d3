import OmpLazy.Contracts.WorkerAcceptanceLedger
import OmpLazy.Gates.ProvenCapability
import OmpLazy.Workflows.TeamDefinition

/-! The operations on teams, each on the state in the file of the team. -/

namespace OmpLazy.Workflows

open OmpLazy.Foundation OmpLazy.Foundation.Schema OmpLazy.Contracts OmpLazy.Gates
open OmpLazy.State (FormatVersion AnyRun)

inductive TeamResultStatus where
  | created
  | replayed
  | bound
  | completed
  | cancelled
  | resumed
  | archived
  | deleted
  deriving DecidableEq, Repr

inductive TeamResult where
  | done (status : TeamResultStatus) (state : Option TeamState)
  | refused (code : String)
  deriving DecidableEq, Repr

/-- The operations on a team that is there. -/
inductive TeamOperation where
  | bind (worktrees : List TeamWorktreeBinding)
  | complete
  | archive
  | cancel
  | resume
  | delete
  deriving DecidableEq, Repr

inductive TeamRequest where
  | initializeTeam (input : Json)
  | operate (teamName : String) (operation : TeamOperation)
  deriving DecidableEq, Repr

/-- What an operation asks for: the tools of its caller, the run of its session with its ledger of tasks, the
results that are accepted for the run, and the paths on the disk. -/
structure TeamRuntime where
  toolNames : List String
  scope : TaskRunScope
  acceptances : List WorkerAcceptanceEvent
  realpath : String → Option String
  validateTeamWorktree : String → Except String String

def TeamRuntime.run (runtime : TeamRuntime) : AnyRun := runtime.scope.run

section Operations

variable (platform : TeamPlatform) (runtime : TeamRuntime)

/-- `TeamStateSchema.parse(state)` -/
def parseTeamState (state : TeamState) : Option TeamState :=
  teamStateSchema platform.isAbsolute (encodeTeamState state)

/-- The next revision of a team. -/
def TeamState.revise (team : TeamState) (status : TeamStatus) (members : List RuntimeMember) : TeamState :=
  { team with revision := team.revision + 1, status, members }

/-- What an operation answers that makes the next revision; nothing when the schema refuses it. -/
def revised (outcome : TeamResultStatus) (next : TeamState) : Option TeamResult :=
  (parseTeamState platform next).map fun state ↦ .done outcome (some state)

/-- A team that is made from its definition in the run. -/
def createdTeam (run : AnyRun) (teamName : String) (definition : TeamDefinition) : TeamState :=
  ⟨teamName, run.runId, run.progressRevision, 1, .initializing, definition.members.map (·.unbound)⟩

def initializeTeam (definition : TeamDefinition) : Option TeamState → Option TeamResult
  | some current =>
    if current.runId = runtime.run.runId ∧ current.attempt = runtime.run.progressRevision ∧
        matchesTeamDefinition platform current definition then
      some (.done .replayed (some current))
    else some (.refused "team_conflict")
  | none => revised platform .created (createdTeam runtime.run definition.teamName definition)

/-- What is bound to a member: the identity of its name and role, and its worktree if it has one. -/
def bindMember (identities : List RuntimeIdentityRecord) (worktrees : List TeamWorktreeBinding)
    (member : RuntimeMember) : Except String RuntimeMember :=
  match identities.filter fun identity ↦ identity.requestedName = some member.requestedName &&
      identity.agentType = some member.agentType.text with
  | [identity] =>
    match worktrees.find? (·.requestedName = member.requestedName) with
    | none => .ok { member with
        actualAgentId := some identity.actualAgentId, actualJobId := identity.actualJobId, worktreePath := none }
    | some worktree =>
      match runtime.validateTeamWorktree worktree.path with
      | .error code => .error code
      | .ok path => .ok { member with
          actualAgentId := some identity.actualAgentId, actualJobId := identity.actualJobId,
          worktreePath := some path }
  | _ => .error "identity_mapping_incomplete"

/-- The members of a team that is starting, bound to the identities of the current generation. -/
def bindMembers (worktrees : List TeamWorktreeBinding) (current : TeamState) : Except String (List RuntimeMember) :=
  if !runtime.scope.proven then .error "async_capability_unproven"
  else
    let identities := runtime.scope.runtimeIdentities runtime.scope.taskGeneration
    if identities.length ≠ current.members.length then .error "identity_mapping_incomplete"
    else if ¬ (identities.map (·.actualAgentId)).Nodup then .error "identity_mapping_incomplete"
    else if ¬ (worktrees.map (·.requestedName)).Nodup ∨
        ¬ worktrees.map (·.requestedName) ⊆ current.members.map (·.requestedName) then
      .error "invalid_worktree_binding"
    else current.members.mapM (bindMember runtime identities worktrees)

def bindTeam (worktrees : List TeamWorktreeBinding) : Option TeamState → Option TeamResult
  | none => some (.refused "team_missing")
  | some current =>
    if current.status ≠ .initializing then
      if current.status ≠ .active then some (.refused "invalid_team_state")
      else
        match worktrees.mapM fun binding ↦ (runtime.realpath binding.path).map ({ binding with path := · }) with
        | some canonical =>
          if matchesTeamWorktreeBindings current canonical then some (.done .replayed (some current))
          else some (.refused "team_bind_conflict")
        | none => some (.refused "team_bind_conflict")
    else
      match bindMembers runtime worktrees current with
      | .error code => some (.refused code)
      | .ok members => revised platform .bound (current.revise .active members)

/-- The acceptance of a member's result in the current generation. -/
def acceptedMember (current : TeamState) (member : RuntimeMember) : Option RuntimeMember :=
  (runtime.acceptances.find? fun candidate ↦ candidate.attempt = current.attempt &&
    candidate.runRevision = runtime.run.revision && candidate.ownerSessionId = runtime.run.owner.sessionId &&
    candidate.ownerEpoch = runtime.run.owner.epoch && candidate.taskGeneration = runtime.scope.taskGeneration &&
    some candidate.actualAgentId = member.actualAgentId && candidate.actualJobId = member.actualJobId &&
    candidate.workerRole = member.agentType).map fun entry ↦
      { member with acceptanceKey := some entry.idempotencyKey }

def completeTeam : Option TeamState → Option TeamResult
  | none => some (.refused "team_missing")
  | some current =>
    if current.status = .completed then some (.done .replayed (some current))
    else if current.status ≠ .active ∨ current.runId ≠ runtime.run.runId ∨
        current.attempt ≠ runtime.run.progressRevision then
      some (.refused "invalid_team_state")
    else
      match current.members.mapM (acceptedMember runtime current) with
      | none => some (.refused "parent_acceptance_incomplete")
      | some members => revised platform .completed (current.revise .completed members)

def archiveTeam : Option TeamState → Option TeamResult
  | none => some (.refused "team_missing")
  | some current =>
    if current.status = .archived then some (.done .replayed (some current))
    else if current.status ≠ .completed ∧ current.status ≠ .cancelled then some (.refused "team_not_completed")
    else revised platform .archived (current.revise .archived current.members)

def cancelTeam : Option TeamState → Option TeamResult
  | none => some (.refused "team_missing")
  | some current =>
    if current.status = .cancelled then some (.done .replayed (some current))
    else if current.status ≠ .initializing ∧ current.status ≠ .active then some (.refused "invalid_team_state")
    else revised platform .cancelled (current.revise .cancelled current.members)

def RuntimeMember.released (member : RuntimeMember) : RuntimeMember :=
  { member with actualAgentId := none, actualJobId := none, worktreePath := none, acceptanceKey := none }

def resumeTeam : Option TeamState → Option TeamResult
  | none => some (.refused "team_missing")
  | some current =>
    if current.status ≠ .cancelled then some (.refused "invalid_team_state")
    else revised platform .resumed (current.revise .initializing (current.members.map (·.released)))

def deleteTeam : Option TeamState → Option TeamResult
  | none => some (.refused "team_missing")
  | some current => some (if current.status = .archived then .done .deleted none else .refused "team_not_archived")

def TeamOperation.decide : TeamOperation → Option TeamState → Option TeamResult
  | .bind worktrees => bindTeam platform runtime worktrees
  | .complete => completeTeam platform runtime
  | .archive => archiveTeam platform
  | .cancel => cancelTeam platform
  | .resume => resumeTeam platform
  | .delete => deleteTeam

end Operations

/-! A call. -/

/-- How far the write of a call gets, and whether it returns. -/
inductive TeamProgress where
  | stopped
  | written
  | returned
  deriving DecidableEq, Repr

/-- A request with what its call is told: whether it is in the repository and gets the lock, whether its
session has a run, and the version of the index. -/
structure TeamCall where
  request : TeamRequest
  inRepository : Bool
  locked : Bool
  resolved : Bool
  runtime : TeamRuntime
  version : FormatVersion
  progress : TeamProgress

structure TeamEffect where
  answer : Option TeamResult
  teams : String → Option Json

section Calls

variable (platform : TeamPlatform)

/-- What a decision writes, if it writes something. -/
def teamWrite (version : FormatVersion) (teamName : String) (current : Option TeamState) : TeamResult → Option Json
  | .done .deleted _ => some (teamTombstone version teamName)
  | .done _ (some state) => if some state = current then none else some (persistedTeam version state)
  | _ => none

/-- `#transact` -/
def transactTeam (teams : String → Option Json) (call : TeamCall) (teamName : String)
    (decide : Option TeamState → Option TeamResult) : TeamEffect :=
  if (teamNameSchema (.string teamName)).isNone then ⟨some (.refused "invalid_team_name"), teams⟩
  else if !call.inRepository then ⟨some (.refused "cwd_mismatch"), teams⟩
  else if !call.locked then ⟨some (.refused "state_conflict"), teams⟩
  else if !call.resolved then ⟨some (.refused "caller_not_current_parent"), teams⟩
  else
    match readTeamFile platform.isAbsolute (teams teamName) with
    | none => ⟨none, teams⟩
    | some current =>
      match decide current with
      | none => ⟨none, teams⟩
      | some result =>
        match teamWrite call.version teamName current result with
        | none => ⟨some result, teams⟩
        | some written =>
          match call.progress with
          | .stopped => ⟨none, teams⟩
          | .written => ⟨none, Function.update teams teamName (some written)⟩
          | .returned => ⟨some result, Function.update teams teamName (some written)⟩

def TeamCall.run (teams : String → Option Json) (call : TeamCall) : TeamEffect :=
  match call.request with
  | .initializeTeam input =>
    match teamDefinitionSchema platform input with
    | none => ⟨some (.refused "invalid_team"), teams⟩
    | some definition =>
      if ¬ ["task", "hub"] ⊆ call.runtime.toolNames then
        ⟨some (.refused "async_team_surfaces_unavailable"), teams⟩
      else transactTeam platform teams call definition.teamName (initializeTeam platform call.runtime definition)
  | .operate teamName operation =>
    transactTeam platform teams call teamName (operation.decide platform call.runtime)

end Calls

end OmpLazy.Workflows

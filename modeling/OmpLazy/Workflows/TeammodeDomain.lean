import OmpLazy.Contracts.AgentIds
import OmpLazy.Foundation.Members

namespace OmpLazy.Workflows

open OmpLazy.Foundation OmpLazy.Foundation.Schema OmpLazy.Foundation.Text OmpLazy.Contracts
open OmpLazy.State (Uuid uuidSchema positiveCounter)

/-- The members of a definition of a team, with what the runtime bound to them. -/
structure RuntimeMember where
  requestedName : String
  agentType : WorkerRole
  focus : String
  ownership : List String
  deliverable : String
  isolated : Bool
  actualAgentId : Option AgentId
  actualJobId : Option JobId
  worktreePath : Option String
  acceptanceKey : Option String
  deriving DecidableEq, Repr

inductive TeamStatus where
  | initializing
  | active
  | completed
  | cancelled
  | archived
  deriving DecidableEq, Repr

structure TeamState where
  teamName : String
  runId : Uuid
  attempt : ℕ
  revision : ℕ
  status : TeamStatus
  members : List RuntimeMember
  deriving DecidableEq, Repr

def TeamStatus.text : TeamStatus → String
  | .initializing => "initializing"
  | .active => "active"
  | .completed => "completed"
  | .cancelled => "cancelled"
  | .archived => "archived"

/-- `/^[a-z0-9]+(?:-[a-z0-9]+)*$/`, which is runs of such characters between single hyphens, and at
most 64 characters. -/
def teamNameSchema : Schema String := string.refine fun s ↦
  (s.toList.splitOn '-').all (fun part ↦ !part.isEmpty && part.all fun c ↦
    isDigit c || ('a' ≤ c && c ≤ 'z')) && utf16Length s ≤ 64

/-- `z.string().trim().min(1).max(bound)`. -/
def textUpTo (bound : ℕ) : Schema String := nonempty.refine fun s ↦ utf16Length s ≤ bound

/-- `z.string().min(1)`. -/
def untrimmed : Schema String := string.refine fun s ↦ s ≠ ""

section Platform

variable (isAbsolute : String → Bool)

/-- A path in the repository; `isAbsolute` is that of the platform. -/
def ownedPath : Schema String := (textUpTo 512).refine fun value ↦
  let normalized := value.toList.map fun c ↦ if c = '\\' then '/' else c
  !isAbsolute value && normalized.head? ≠ some '/' && !(normalized.splitOn '/').contains ['.', '.']

def runtimeMemberSchema : Schema RuntimeMember :=
  strictObject ["requestedName", "agentType", "focus", "ownership", "deliverable", "isolated",
    "actualAgentId", "actualJobId", "worktreePath", "acceptanceKey"] fun fields ↦ do
      let requestedName ← required fields "requestedName" teamNameSchema
      let agentType ← required fields "agentType" workerRoleSchema
      let focus ← required fields "focus" (textUpTo 1024)
      let ownership ← required fields "ownership"
        ((ownedPath isAbsolute).array.refine fun paths ↦ 1 ≤ paths.length && paths.length ≤ 32)
      let deliverable ← required fields "deliverable" (textUpTo 1024)
      let isolated ← required fields "isolated" boolean
      let actualAgentId ← required fields "actualAgentId" agentIdSchema.nullable
      let actualJobId ← required fields "actualJobId" jobIdSchema.nullable
      let worktreePath ← required fields "worktreePath" untrimmed.nullable
      let acceptanceKey ← required fields "acceptanceKey" untrimmed.nullable
      return ⟨requestedName, agentType, focus, ownership, deliverable, isolated, actualAgentId,
        actualJobId, worktreePath, acceptanceKey⟩

def teamStatusSchema : Schema TeamStatus :=
  oneOf [.initializing, .active, .completed, .cancelled, .archived] TeamStatus.text

/-- The members of a team that is starting are not bound, those of one that is active, completed or
archived after it was bound are, and completion needs acceptances. -/
def lifecycleBinds (team : TeamState) : Bool :=
  let archivedBound := team.status = .archived && team.members.any (·.actualAgentId.isSome)
  let requiresIdentity := team.status = .active || team.status = .completed || archivedBound
  let invalid := team.members.any fun member ↦
    if team.status = .initializing then
      member.actualAgentId.isSome || member.actualJobId.isSome || member.acceptanceKey.isSome
    else requiresIdentity && (member.actualAgentId.isNone || member.actualJobId.isNone)
  let missingAcceptance := (team.status = .completed || archivedBound) &&
    team.members.any (·.acceptanceKey.isNone)
  !invalid && !missingAcceptance && (team.members.filterMap (·.actualAgentId)).Nodup

def teamFields (fields : List (String × Json)) : Option TeamState := do
  let teamName ← required fields "teamName" teamNameSchema
  let runId ← required fields "runId" uuidSchema
  let attempt ← required fields "attempt" counter
  let revision ← required fields "revision" positiveCounter
  let status ← required fields "status" teamStatusSchema
  let members ← required fields "members" ((runtimeMemberSchema isAbsolute).array.refine fun members ↦
    2 ≤ members.length && members.length ≤ 8)
  return ⟨teamName, runId, attempt, revision, status, members⟩

def teamKeys : List String :=
  ["schemaVersion", "teamName", "runId", "attempt", "revision", "status", "members"]

def teamStateSchema : Schema TeamState :=
  (strictObject teamKeys fun fields ↦ do
    let () ← required fields "schemaVersion" (literal (.nat 1))
    teamFields isAbsolute fields).refine lifecycleBinds

/-- A deleted team, in a version. -/
def tombstoneSchema (version : ℕ) : Schema Unit :=
  strictObject ["deleted", "schemaVersion", "teamName"] fun fields ↦ do
    let () ← required fields "deleted" (literal (.bool true))
    let () ← required fields "schemaVersion" (literal (.nat version))
    let _ ← required fields "teamName" teamNameSchema
    return ()

def teamTombstoneSchema : Schema Unit := union (tombstoneSchema 1) (tombstoneSchema 2)

/-- The second version calls an active team bound. -/
def persistedTeamStateSchema : Schema TeamState := fun value ↦
  if value.get? "schemaVersion" ≠ some (.nat 2) then teamStateSchema isAbsolute value
  else
    let legacy := value.set "schemaVersion" (.nat 1)
    teamStateSchema isAbsolute
      (if value.get? "status" = some (.string "bound") then legacy.set "status" (.string "active")
      else legacy)

/-- `TeammodeStateStore.read`: a deleted team is read as none. -/
def readTeam (json : Json) : Option (Option TeamState) :=
  if (teamTombstoneSchema json).isSome then some none
  else (persistedTeamStateSchema isAbsolute json).map some

end Platform

end OmpLazy.Workflows

import OmpLazy.Contracts.CompileTaskPacket
import OmpLazy.Foundation.Platform
import OmpLazy.State.LifecycleReaders

/-! The definitions of teams, and the files in which their states are kept. -/

namespace OmpLazy.Workflows

open OmpLazy.Foundation OmpLazy.Foundation.Schema OmpLazy.Foundation.Text OmpLazy.Contracts
open OmpLazy.State (FormatVersion encodeNullableString encodeStrings)

/-- Besides, the order in which the platform sorts names, `left.localeCompare(right) <= 0`. -/
structure TeamPlatform extends Platform where
  localeLe : String → String → Bool

structure MemberDefinition where
  requestedName : String
  agentType : WorkerRole
  focus : String
  ownership : List String
  deliverable : String
  isolated : Bool
  deriving DecidableEq, Repr

structure TeamDefinition where
  teamName : String
  members : List MemberDefinition
  deriving DecidableEq, Repr

structure TeamWorktreeBinding where
  requestedName : String
  path : String
  deriving DecidableEq, Repr

/-- What the definition says of a member. -/
def RuntimeMember.definition (member : RuntimeMember) : MemberDefinition :=
  ⟨member.requestedName, member.agentType, member.focus, member.ownership, member.deliverable, member.isolated⟩

/-- A member to which the runtime has bound nothing. -/
def MemberDefinition.unbound (member : MemberDefinition) : RuntimeMember :=
  ⟨member.requestedName, member.agentType, member.focus, member.ownership, member.deliverable, member.isolated,
    none, none, none, none⟩

/-- `value.replaceAll("\\", "/")` -/
def forwardSlashes (value : String) : String :=
  String.ofList (value.toList.map fun c ↦ if c = '\\' then '/' else c)

def stripLeadingDot : List Char → List Char
  | '.' :: '/' :: rest => rest
  | chars => chars

def stripTrailingSlash (chars : List Char) : List Char :=
  if chars.getLast? = some '/' then chars.dropLast else chars

def pathsOverlap (left right : String) : Bool :=
  left = "." || right = "." || left = right || startsWith (right ++ "/") left || startsWith (left ++ "/") right

section Platform

variable (platform : TeamPlatform)

def normalizedOwnership (value : String) : String :=
  let normalized := stripTrailingSlash (stripLeadingDot (platform.posixNormalize (forwardSlashes value)).toList)
  if normalized = [] then "." else String.ofList normalized

def memberDefinitionSchema : Schema MemberDefinition :=
  strictObject ["requestedName", "agentType", "focus", "ownership", "deliverable", "isolated"] fun fields ↦ do
    let requestedName ← required fields "requestedName" teamNameSchema
    let agentType ← required fields "agentType" workerRoleSchema
    let focus ← required fields "focus" (textUpTo 1024)
    let ownership ← required fields "ownership"
      ((ownedPath platform.isAbsolute).array.refine fun paths ↦ 1 ≤ paths.length && paths.length ≤ 32)
    let deliverable ← required fields "deliverable" (textUpTo 1024)
    let isolated ← required fields "isolated" boolean
    return ⟨requestedName, agentType, focus, ownership, deliverable, isolated⟩

/-- What the members claim, each path with the name of the member. -/
def ownershipClaims (members : List MemberDefinition) : List (String × String) :=
  members.flatMap fun member ↦ member.ownership.map fun path ↦
    (member.requestedName, normalizedOwnership platform path)

/-- The names of the members are unique, and no two members claim paths that overlap. -/
def membersApart (team : TeamDefinition) : Bool :=
  (team.members.map (·.requestedName)).Nodup &&
    (ownershipClaims platform team.members).Pairwise fun left right ↦
      left.1 = right.1 ∨ pathsOverlap left.2 right.2 = false

def teamDefinitionSchema : Schema TeamDefinition :=
  (strictObject ["teamName", "members"] fun fields ↦ do
    let teamName ← required fields "teamName" teamNameSchema
    let members ← required fields "members" ((memberDefinitionSchema platform).array.refine fun members ↦
      2 ≤ members.length && members.length ≤ 8)
    return ⟨teamName, members⟩).refine (membersApart platform)

/-- A definition in the form in which it is compared: paths and members in order. -/
def teamDefinitionKey (teamName : String) (members : List MemberDefinition) : TeamDefinition where
  teamName
  members := (members.map fun member ↦
    { member with ownership := sortedStrings (member.ownership.map (normalizedOwnership platform)) }).mergeSort
      fun left right ↦ platform.localeLe left.requestedName right.requestedName

def matchesTeamDefinition (state : TeamState) (definition : TeamDefinition) : Bool :=
  teamDefinitionKey platform state.teamName (state.members.map (·.definition)) =
    teamDefinitionKey platform definition.teamName definition.members

end Platform

/-- The names are told apart and have the paths that the members have. -/
def matchesTeamWorktreeBindings (state : TeamState) (bindings : List TeamWorktreeBinding) : Bool :=
  let expected := state.members.filterMap fun member ↦ member.worktreePath.map (member.requestedName, ·)
  (bindings.map (·.requestedName)).Nodup && bindings.length = expected.length && expected.all fun member ↦
    (bindings.find? (·.requestedName = member.1)).map (·.path) = some member.2

/-! The texts of a state. -/

def encodeMemberDefinition (member : MemberDefinition) : Json :=
  .object [("requestedName", .string member.requestedName), ("agentType", .string member.agentType.text),
    ("focus", .string member.focus), ("ownership", encodeStrings member.ownership),
    ("deliverable", .string member.deliverable), ("isolated", .bool member.isolated)]

def encodeTeamDefinition (definition : TeamDefinition) : Json :=
  .object [("teamName", .string definition.teamName),
    ("members", .array (definition.members.map encodeMemberDefinition))]

def encodeMember (member : RuntimeMember) : Json :=
  .object [("requestedName", .string member.requestedName), ("agentType", .string member.agentType.text),
    ("focus", .string member.focus), ("ownership", encodeStrings member.ownership),
    ("deliverable", .string member.deliverable), ("isolated", .bool member.isolated),
    ("actualAgentId", encodeNullableString member.actualAgentId),
    ("actualJobId", encodeNullableString member.actualJobId),
    ("worktreePath", encodeNullableString member.worktreePath),
    ("acceptanceKey", encodeNullableString member.acceptanceKey)]

/-- The members of a state after its version. -/
def teamStateFields (status : String) (state : TeamState) : List (String × Json) :=
  [("teamName", .string state.teamName), ("runId", .string state.runId), ("attempt", .nat state.attempt),
    ("revision", .nat state.revision), ("status", .string status),
    ("members", .array (state.members.map encodeMember))]

def encodeTeamState (state : TeamState) : Json :=
  .object (("schemaVersion", .nat 1) :: teamStateFields state.status.text state)

/-- The second version calls an active team bound. -/
def persistedStatus : TeamStatus → String
  | .active => "bound"
  | status => status.text

/-- What `replace` writes in a repository of this version. -/
def persistedTeam : FormatVersion → TeamState → Json
  | .v1, state => encodeTeamState state
  | .v2, state => .object (("schemaVersion", .nat 2) :: teamStateFields (persistedStatus state.status) state)

/-- What `remove` writes. -/
def teamTombstone (version : FormatVersion) (teamName : String) : Json :=
  .object [("deleted", .bool true), ("schemaVersion", .nat version.number), ("teamName", .string teamName)]

/-- The state in a file, if there is one; nothing when the reader throws. -/
def readTeamFile (isAbsolute : String → Bool) (file : Option Json) : Option (Option TeamState) :=
  file.elim (some none) (readTeam isAbsolute)

end OmpLazy.Workflows

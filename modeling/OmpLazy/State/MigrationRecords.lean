import OmpLazy.Contracts.AgentIds
import OmpLazy.State.Codec
import OmpLazy.State.EventStore

namespace OmpLazy.State

open OmpLazy.Foundation OmpLazy.Foundation.Text

structure TaskIdentity where
  runId : String
  taskId : String
  role : Contracts.WorkerRole
  agentId : String
  deriving DecidableEq, Repr

inductive MigrationRecordResult (Contents : Type) where
  | current (bytes : Contents)
  | migrated (bytes : Contents)
  | invalid
  deriving DecidableEq

/-- The texts of files: their lines, what `JSON.parse` and `JSON.stringify` make of them, and their
SHA-256 in hexadecimal. -/
structure TextFormat (Contents : Type) where
  lines : Contents → List Contents
  parse : Contents → Option Json
  stringify : Json → Contents
  hash : Contents → String

/-- The rules of the records that are not those of the store: the ledgers of the tasks, of the
acceptances and rejections and of the teams. -/
structure LedgerRules (Contents : Type) where
  taskIdentities : Json → Option (List TaskIdentity)
  isTaskLedger : Json → Bool
  isTeamState : Json → Bool
  isTombstone : Json → Bool
  migrateAcceptance : Json → List TaskIdentity → MigrationRecordResult Contents
  migrateRejections : Json → List TaskIdentity → MigrationRecordResult Contents
  migrateWal : Contents → List TaskIdentity → MigrationRecordResult Contents

namespace Migration

section Paths

def isNameChar (c : Char) : Bool :=
  isDigit c || ('a' ≤ c && c ≤ 'z') || ('A' ≤ c && c ≤ 'Z') || c == '.' || c == '_' || c == '-'

/-- `[0-9a-f-]+`. -/
def isHexName (stem : List Char) : Bool := !stem.isEmpty && stem.all EventStore.isEventIdChar

/-- `[0-9A-Za-z][0-9A-Za-z._-]{0,63}`. -/
def isSessionName : List Char → Bool
  | [] => false
  | c :: rest => isNameChar c && c != '.' && c != '_' && c != '-' && rest.all isNameChar &&
      rest.length ≤ 63

/-- `[a-z0-9-]+`. -/
def isTeamName (stem : List Char) : Bool :=
  !stem.isEmpty && stem.all fun c ↦ isDigit c || ('a' ≤ c && c ≤ 'z') || c == '-'

/-- `\d{16}-[0-9a-f-]+`. -/
def isEventName (stem : List Char) : Bool :=
  match digits 16 stem with
  | some (_, '-' :: rest) => isHexName rest
  | _ => false

def named (start finish : String) (isName : List Char → Bool) (path : String) : Bool :=
  ((between start finish path).map isName).getD false

def isLifecyclePath (path : String) : Bool :=
  path == "active.json" ||
  named "runs/" "/run.json" isHexName path ||
  named "events/" ".json" isEventName path ||
  named "task-facts/" ".json" isHexName path ||
  named "worker-acceptance/" ".wal.jsonl" isHexName path ||
  named "worker-acceptance/" ".json" isHexName path ||
  named "worker-rejections/" ".json" isHexName path ||
  named "teams/" ".json" isTeamName path ||
  named "directive-activations/" ".json" isSessionName path ||
  named "continuation-counters/" ".json" isSessionName path ||
  named "model-chain-provenance/" ".json" isSessionName path

end Paths

section Records

variable {Contents : Type} (format : TextFormat Contents) (rules : LedgerRules Contents)

/-- A record is an object. -/
def parseRecord (bytes : Contents) : Option Json :=
  match format.parse bytes with
  | some (.object fields) => some (.object fields)
  | _ => none

def schemaVersion (value : Json) : Option ℕ :=
  if value.get? "schemaVersion" = some (.nat 1) then some 1
  else if value.get? "schemaVersion" = some (.nat 2) then some 2
  else none

/-- `{ ...omit(value, ["schemaVersion"]), schemaVersion: 1 }`. -/
def asV1 (value : Json) : Json := (value.without ["schemaVersion"]).set "schemaVersion" (.nat 1)

def currentV2 (value : Json) (accepts : Json → Bool) : Bool :=
  schemaVersion value = some 2 && accepts (asV1 value)

def migrateIndex (bytes : Contents) (value : Json) : MigrationRecordResult Contents :=
  if currentV2 (value.without ["migrationRevision"]) fun v ↦ (activeIndexSchema v).isSome then
    .current bytes
  else if (activeIndexSchema value).isNone then .invalid
  else .migrated (format.stringify
    ((value.set "schemaVersion" (.nat 2)).set "migrationRevision" (.nat 1)))

def migrateRun (bytes : Contents) (value : Json) : MigrationRecordResult Contents :=
  if currentV2 (value.without ["packetHash", "expectedHead"]) fun v ↦ (runSchema v).isSome then
    .current bytes
  else if (runSchema value).isNone then .invalid
  else .migrated (format.stringify
    (((value.set "schemaVersion" (.nat 2)).set "packetHash" .null).set "expectedHead" .null))

def taskScoped (kind : MutationKind) : Bool :=
  kind ∈ [.planReconciled, .goalCycleStarted, .criterionFailureRecorded]

def orderedTaskId : StateMutation → Option String
  | .planReconciled taskIds _ _ => taskIds.head?
  | .goalCycleStarted goalId => some goalId
  | .criterionFailureRecorded _ criterionId _ => some criterionId
  | _ => none

def migrateEvent (bytes : Contents) (value : Json) (identities : List TaskIdentity) :
    MigrationRecordResult Contents :=
  if (stateEventV2Schema value).isSome then .current bytes
  else
    match stateEventSchema value with
    | none => .invalid
    | some event =>
      let eventIdentities := identities.filter fun identity ↦
        identity.runId = event.runId && some identity.taskId = orderedTaskId event.mutation
      if taskScoped event.kind && eventIdentities.length ≠ 1 then .invalid
      else
        let generation := if taskScoped event.kind then some 1 else none
        .migrated (format.stringify (((value.set "schemaVersion" (.nat 2)).set "expected"
          (encodeExpected (.v2 none generation true) event.expected)).set "legacyHeadUnbound"
            (.bool true)))

def migrateTaskFacts (bytes : Contents) (value : Json) : MigrationRecordResult Contents :=
  if currentV2 (value.without ["packetHash", "tier", "reservationId"]) rules.isTaskLedger then
    .current bytes
  else if !rules.isTaskLedger value then .invalid
  else .migrated (format.stringify ((((value.set "schemaVersion" (.nat 2)).set "packetHash"
    .null).set "tier" .null).set "reservationId" .null))

def migrateTeam (bytes : Contents) (value : Json) : MigrationRecordResult Contents :=
  let isV2 := schemaVersion value = some 2
  let v2Team := if isV2 ∧ value.get? "status" = some (.string "bound") then
    (asV1 value).set "status" (.string "active") else asV1 value
  if isV2 ∧ rules.isTeamState v2Team then .current bytes
  else if isV2 ∧ rules.isTombstone (asV1 value) then .current bytes
  else if schemaVersion value ≠ some 1 then .invalid
  else if rules.isTombstone value then
    .migrated (format.stringify (value.set "schemaVersion" (.nat 2)))
  else if !rules.isTeamState value then .invalid
  else
    let value' := value.set "schemaVersion" (.nat 2)
    .migrated (format.stringify (if value.get? "status" = some (.string "active") then
      value'.set "status" (.string "bound") else value'))

def migrateVersion (bytes : Contents) (value : Json) : MigrationRecordResult Contents :=
  match schemaVersion value with
  | some 2 => .current bytes
  | some 1 => .migrated (format.stringify (value.set "schemaVersion" (.nat 2)))
  | _ => .invalid

def migrateLifecycleRecord (path : String) (bytes : Contents) (identities : List TaskIdentity) :
    MigrationRecordResult Contents :=
  if endsWith ".wal.jsonl" path then rules.migrateWal bytes identities
  else
    match parseRecord format bytes with
    | none => .invalid
    | some value =>
      if path = "active.json" then migrateIndex format bytes value
      else if startsWith "runs/" path then migrateRun format bytes value
      else if startsWith "events/" path then migrateEvent format bytes value identities
      else if startsWith "task-facts/" path then migrateTaskFacts format rules bytes value
      else if startsWith "worker-acceptance/" path then rules.migrateAcceptance value identities
      else if startsWith "worker-rejections/" path then rules.migrateRejections value identities
      else if startsWith "teams/" path then migrateTeam format rules bytes value
      else if startsWith "directive-activations/" path || startsWith "continuation-counters/" path ||
          startsWith "model-chain-provenance/" path then migrateVersion format bytes value
      else .invalid

def identitiesFromTaskFacts : List (String × Contents) → Option (List TaskIdentity)
  | [] => some []
  | (path, bytes) :: files =>
    if !startsWith "task-facts/" path then identitiesFromTaskFacts files
    else do
      let value ← parseRecord format bytes
      let source := if schemaVersion value = some 2 then
        asV1 (value.without ["packetHash", "tier", "reservationId"]) else value
      let identities ← rules.taskIdentities source
      let others ← identitiesFromTaskFacts files
      return identities ++ others

def isFutureLifecycleRecord (bytes : Contents) : Bool :=
  (format.lines bytes).any fun line ↦
    match (parseRecord format line).bind (·.get? "schemaVersion") with
    | some (.number version) => 2 < version
    | _ => false

end Records

end Migration

end OmpLazy.State

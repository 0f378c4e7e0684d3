import OmpLazy.Workflows.TeammodeContract

/-! Reservations, each of which makes its team when it is consumed. -/

namespace OmpLazy.Commands

open OmpLazy.Foundation OmpLazy.Foundation.Schema OmpLazy.Foundation.Text OmpLazy.Contracts OmpLazy.Workflows
open OmpLazy.State (Uuid AnyRun FormatVersion uuidSchema positiveCounter hashSchema)

/-- Besides, the file that `join` makes of a name: the name of a team has its own. -/
structure ReservationPlatform extends TeamPlatform where
  fileOf : String → String
  fileOf_teamName : ∀ name, teamNameSchema (.string name) = some name → fileOf name = name

structure TeamReservation where
  reservationId : String
  teamName : String
  runId : Uuid
  ownerSessionId : String
  ownerEpoch : ℕ
  expectedHead : String
  definition : TeamDefinition
  consumed : Bool
  deriving DecidableEq, Repr

inductive TeamReservationResult where
  | ok (reservationId : String) (state : Option TeamState)
  | refused (code : String)
  deriving DecidableEq, Repr

/-- What is hashed of a reservation. -/
def TeamReservation.semantic (reservation : TeamReservation) : List (String × Json) :=
  [("teamName", .string reservation.teamName), ("runId", .string reservation.runId),
    ("ownerSessionId", .string reservation.ownerSessionId), ("ownerEpoch", .nat reservation.ownerEpoch),
    ("expectedHead", .string reservation.expectedHead),
    ("definition", encodeTeamDefinition reservation.definition)]

def encodeReservation (reservation : TeamReservation) : Json :=
  .object (("schemaVersion", .nat 1) :: ("reservationId", .string reservation.reservationId) ::
    (reservation.semantic ++ [("consumed", .bool reservation.consumed)]))

/-- The head of the repository, or why it cannot be told. -/
abbrev GitEvidenceBinding := Except String String

/-- The run is of the second version and expects the head. -/
def expectsHead (run : AnyRun) (head : String) : Bool :=
  match run.version with
  | .v1 => false
  | .v2 _ expectedHead => expectedHead = some head

structure ReservationFiles where
  teams : String → Option Json
  reservations : String → Option Json

section Platform

variable (platform : ReservationPlatform)

def reservationSchema : Schema TeamReservation :=
  strictObject ["schemaVersion", "reservationId", "teamName", "runId", "ownerSessionId", "ownerEpoch",
    "expectedHead", "definition", "consumed"] fun fields ↦ do
      let () ← required fields "schemaVersion" (literal (.nat 1))
      let reservationId ← required fields "reservationId" hashSchema
      let teamName ← required fields "teamName" teamNameSchema
      let runId ← required fields "runId" uuidSchema
      let ownerSessionId ← required fields "ownerSessionId" nonempty
      let ownerEpoch ← required fields "ownerEpoch" positiveCounter
      let expectedHead ← required fields "expectedHead" commitSchema
      let definition ← required fields "definition" (teamDefinitionSchema platform.toTeamPlatform)
      let consumed ← required fields "consumed" boolean
      return ⟨reservationId, teamName, runId, ownerSessionId, ownerEpoch, expectedHead, definition, consumed⟩

/-- The reservation in a file, if there is one; nothing when the reader throws. -/
def readReservation (file : Option Json) : Option (Option TeamReservation) :=
  file.elim (some none) fun json ↦ (reservationSchema platform json).map some

def candidateReservation (run : AnyRun) (definition : TeamDefinition) (expectedHead : String) :
    Option TeamReservation :=
  let candidate : TeamReservation :=
    ⟨"", definition.teamName, run.runId, run.owner.sessionId, run.owner.epoch, expectedHead, definition, false⟩
  let reservationId := platform.sha256 (platform.stringify (.object candidate.semantic))
  reservationSchema platform (encodeReservation { candidate with reservationId })

/-! A call that prepares a reservation. -/

structure PrepareCall where
  locked : Bool
  run : AnyRun
  definition : TeamDefinition
  expectedHead : String
  progress : TeamProgress

structure PrepareEffect where
  answer : Option TeamReservationResult
  files : ReservationFiles

def prepareTeamReservation (files : ReservationFiles) (call : PrepareCall) : PrepareEffect :=
  if !call.locked then ⟨some (.refused "state_conflict"), files⟩
  else
    match candidateReservation platform call.run call.definition call.expectedHead with
    | none => ⟨none, files⟩
    | some candidate =>
      let file := platform.fileOf call.definition.teamName
      match readReservation platform (files.reservations file) with
      | none => ⟨none, files⟩
      | some (some existing) =>
        if existing.reservationId = candidate.reservationId then ⟨some (.ok existing.reservationId none), files⟩
        else ⟨some (.refused "idempotency_conflict"), files⟩
      | some none =>
        let later := { files with
          reservations := Function.update files.reservations file (some (encodeReservation candidate)) }
        match call.progress with
        | .stopped => ⟨none, files⟩
        | .written => ⟨none, later⟩
        | .returned => ⟨some (.ok candidate.reservationId none), later⟩

/-! A call that consumes one. -/

/-- How far the writes of a call get, the team's before the mark's, and whether it returns. -/
inductive ConsumeProgress where
  | stopped
  | created
  | marked
  | returned
  deriving DecidableEq, Repr

structure ConsumeCall where
  locked : Bool
  callerSessionId : String
  teamName : String
  reservationId : String
  readRun : Uuid → Option (Option AnyRun)
  git : GitEvidenceBinding
  version : FormatVersion
  progress : ConsumeProgress

inductive ConsumeDecision where
  | answered (result : TeamReservationResult)
  | creates (reservation : TeamReservation) (state : TeamState)
  deriving DecidableEq, Repr

/-- Why the run does not hold the reservation for the caller, if it does not. -/
def unheldCode (call : ConsumeCall) (reservation : TeamReservation) (run : AnyRun) : Option String :=
  if run.owner.sessionId ≠ call.callerSessionId then some "owner_mismatch"
  else if run.owner.epoch ≠ reservation.ownerEpoch then some "owner_epoch_mismatch"
  else if !expectsHead run reservation.expectedHead then some "stale_head"
  else none

/-- What becomes of a reservation that is held, given the team that is there. -/
def consumeHeld (call : ConsumeCall) (reservation : TeamReservation) (run : AnyRun) :
    Option TeamState → Option ConsumeDecision
  | some current =>
    if matchesTeamDefinition platform.toTeamPlatform current reservation.definition then
      some (.answered (.ok call.reservationId (some current)))
    else some (.answered (.refused "idempotency_conflict"))
  | none =>
    match call.git with
    | .error code => some (.answered (.refused code))
    | .ok head =>
      if head ≠ reservation.expectedHead then some (.answered (.refused "stale_head"))
      else if reservation.consumed then some (.answered (.refused "idempotency_conflict"))
      else (parseTeamState platform.toTeamPlatform (createdTeam run call.teamName reservation.definition)).map
        (.creates reservation)

/-- The decision of a call; nothing when it throws. -/
def decideConsume (files : ReservationFiles) (call : ConsumeCall) : Option ConsumeDecision :=
  if !call.locked then some (.answered (.refused "state_conflict"))
  else do
    match ← readReservation platform (files.reservations (platform.fileOf call.teamName)) with
    | none => some (.answered (.refused "missing_target"))
    | some reservation =>
      if reservation.reservationId ≠ call.reservationId then
        some (.answered (.refused "idempotency_conflict"))
      else
        match ← call.readRun reservation.runId with
        | none => some (.answered (.refused "missing_target"))
        | some run =>
          match unheldCode call reservation run with
          | some code => some (.answered (.refused code))
          | none => do
            let current ← readTeamFile platform.isAbsolute (files.teams (platform.fileOf call.teamName))
            consumeHeld platform call reservation run current

/-- What a call leaves; `created` is the team that it made, if it made one. -/
structure ConsumeEffect where
  answer : Option TeamReservationResult
  files : ReservationFiles
  created : Option TeamState

def consumeTeamReservation (files : ReservationFiles) (call : ConsumeCall) : ConsumeEffect :=
  match decideConsume platform files call with
  | none => ⟨none, files, none⟩
  | some (.answered result) => ⟨some result, files, none⟩
  | some (.creates reservation state) =>
    let file := platform.fileOf call.teamName
    let made := { files with teams := Function.update files.teams file (some (persistedTeam call.version state)) }
    let marked := { made with
      reservations := Function.update files.reservations file
        (some (encodeReservation { reservation with consumed := true })) }
    match call.progress with
    | .stopped => ⟨none, files, none⟩
    | .created => ⟨none, made, some state⟩
    | .marked => ⟨none, marked, some state⟩
    | .returned => ⟨some (.ok call.reservationId (some state)), marked, some state⟩

end Platform

end OmpLazy.Commands

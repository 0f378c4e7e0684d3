import OmpLazy.Commands.TeamReservationStore
import OmpLazy.Workflows.TeamLifecycle

/-! Of each reservation at most one team is made, as long as no team is deleted whose reservation has no mark. -/

namespace OmpLazy.Commands

open OmpLazy.Foundation OmpLazy.Foundation.Schema OmpLazy.Foundation.Text OmpLazy.Contracts OmpLazy.Workflows
open OmpLazy.State (Uuid AnyRun FormatVersion hashSchema hash_reads uuid_reads positiveCounter_reads)
open Relation (ReflTransGen)

/-! What the schema of a reservation accepts. -/

namespace TeamReservation

@[mk_iff] structure Ok (platform : TeamPlatform) (reservation : TeamReservation) : Prop where
  reservationId : isLowerHexOf 64 reservation.reservationId = true
  teamName : IsTeamName reservation.teamName
  runId : isUuid reservation.runId = true
  ownerSessionId : trim reservation.ownerSessionId ≠ ""
  ownerEpoch : reservation.ownerEpoch ≤ maxSafeInteger ∧ 0 < reservation.ownerEpoch
  expectedHead : isLowerHexOf 40 reservation.expectedHead = true
  definition : reservation.definition.Ok platform

def tidy (reservation : TeamReservation) : TeamReservation :=
  { reservation with
    ownerSessionId := trim reservation.ownerSessionId
    definition := reservation.definition.tidy }

theorem reads (platform : ReservationPlatform) :
    Reads (reservationSchema platform) encodeReservation (Ok platform.toTeamPlatform) tidy where
  encoded x y := by
    simp [reservationSchema, encodeReservation, semantic, strictObject_object, required, literal,
      Option.bind_eq_some_iff, hash_reads.encoded, teamName_reads.encoded, uuid_reads.encoded,
      nonempty_reads.encoded, positiveCounter_reads.encoded, commit_reads.encoded, boolean_reads.encoded,
      (TeamDefinition.reads platform.toTeamPlatform).encoded, and_assoc, ok_iff, tidy]
  settled j y hy := by
    obtain ⟨fields, -, hy⟩ := strictObject_eq_some hy
    simp only [Option.bind_eq_bind, Option.bind_eq_some_iff, Option.pure_def, Option.some.injEq] at hy
    obtain ⟨-, -, reservationId, hid, teamName, hname, runId, hrun, session, hsession, epoch, hepoch, head, hhead,
      definition, hdefinition, consumed, -, rfl⟩ := hy
    have hid := hash_reads.required_settled hid
    have hname := teamName_reads.required_settled hname
    have hrun := uuid_reads.required_settled hrun
    have hsession := nonempty_reads.required_settled hsession
    have hepoch := positiveCounter_reads.required_settled hepoch
    have hhead := commit_reads.required_settled hhead
    have hdefinition := (TeamDefinition.reads platform.toTeamPlatform).required_settled hdefinition
    exact ⟨⟨hid.1, hname.1, hrun.1, hsession.1, hepoch.1, hhead.1, hdefinition.1⟩, by
      simp [tidy, hsession.2, hdefinition.2]⟩

/-- A reservation that its schema leaves as it is. -/
structure Settled (platform : TeamPlatform) (reservation : TeamReservation) : Prop where
  ok : reservation.Ok platform
  tidy : reservation.tidy = reservation

variable {platform : ReservationPlatform} {reservation : TeamReservation}

theorem settled_of_read {json : Json} (h : reservationSchema platform json = some reservation) :
    reservation.Settled platform.toTeamPlatform := by
  obtain ⟨hok, htidy⟩ := (reads platform).settled json reservation h
  exact ⟨hok, htidy⟩

theorem Settled.read (h : reservation.Settled platform.toTeamPlatform) :
    readReservation platform (some (encodeReservation reservation)) = some (some reservation) := by
  rw [readReservation, Option.elim_some, ((reads platform).encoded reservation reservation).mpr ⟨h.ok, h.tidy⟩]
  rfl

theorem Settled.mark (h : reservation.Settled platform.toTeamPlatform) :
    Settled platform.toTeamPlatform { reservation with consumed := true } :=
  ⟨⟨h.ok.reservationId, h.ok.teamName, h.ok.runId, h.ok.ownerSessionId, h.ok.ownerEpoch, h.ok.expectedHead,
    h.ok.definition⟩, congrArg (fun tidied : TeamReservation ↦ { tidied with consumed := true }) h.tidy⟩

end TeamReservation

/-! Calls, with a record of the teams that they make. -/

/-- The team as it was made. -/
def origin (team : TeamState) : TeamState :=
  { team with revision := 1, status := .initializing, members := team.members.map (·.definition.unbound) }

/-- The files, and the teams that were made of reservations so far. -/
structure ReservedTeams where
  files : ReservationFiles
  created : List (String × TeamState)

def ReservedTeams.start : ReservedTeams := ⟨⟨fun _ ↦ none, fun _ ↦ none⟩, []⟩

inductive ReservationCall where
  | prepare (call : PrepareCall)
  | consume (call : ConsumeCall)
  | operate (call : TeamCall)

/-- A call on a team is an operation on one that is there, with answers that are grounded. -/
def ReservationCall.Allowed : ReservationCall → Prop
  | .operate call => call.runtime.Grounded ∧ ∃ teamName operation, call.request = .operate teamName operation
  | _ => True

section Calls

variable (platform : ReservationPlatform)

def ReservationCall.run (system : ReservedTeams) : ReservationCall → ReservedTeams
  | .prepare call => { system with files := (prepareTeamReservation platform system.files call).files }
  | .consume call =>
    let effect := consumeTeamReservation platform system.files call
    ⟨effect.files, system.created ++ (effect.created.map (call.reservationId, ·)).toList⟩
  | .operate call =>
    { system with files := { system.files with
        teams := (call.run platform.toTeamPlatform system.files.teams).teams } }

/-- A call deletes a team whose reservation is not marked as consumed. -/
def ReservationCall.Uncovers (system : ReservedTeams) : ReservationCall → Prop
  | .operate call => ∃ teamName team reservation, call.request = .operate teamName .delete ∧
      readTeamFile platform.isAbsolute (system.files.teams teamName) = some (some team) ∧ team.status = .archived ∧
        readReservation platform (system.files.reservations teamName) = some (some reservation) ∧
          reservation.consumed = false
  | _ => False

def ReservationStep (system later : ReservedTeams) : Prop :=
  ∃ call : ReservationCall, call.Allowed ∧ call.run platform system = later

/-- A call that covers what it deletes. -/
def CoveredStep (system later : ReservedTeams) : Prop :=
  ∃ call : ReservationCall, call.Allowed ∧ ¬ call.Uncovers platform system ∧ call.run platform system = later

end Calls

section Origins

variable {platform : TeamPlatform} {runtime : TeamRuntime} {team : TeamState}

theorem origin_created (run : AnyRun) (teamName : String) (definition : TeamDefinition) :
    origin (createdTeam run teamName definition) = createdTeam run teamName definition := by
  simp [origin, createdTeam, Function.comp_def, RuntimeMember.definition, MemberDefinition.unbound]

theorem origin_revised {operation : TeamOperation} {done : TeamResultStatus} {status : TeamStatus}
    {members : List RuntimeMember} (h : operation.Turns runtime team done status members) :
    origin (team.revise status members) = origin team := by
  have hunbound := congrArg (List.map MemberDefinition.unbound) h.definitions
  simp only [List.map_map] at hunbound
  simp only [origin, TeamState.revise]
  exact congrArg (fun members ↦ TeamState.mk team.teamName team.runId team.attempt 1 .initializing members) hunbound

end Origins

/-! What a call leaves. -/

section Effects

variable {platform : ReservationPlatform} {files : ReservationFiles}

theorem readReservation_eq_some {file : Option Json} {reservation : TeamReservation}
    (h : readReservation platform file = some (some reservation)) :
    ∃ json, reservationSchema platform json = some reservation := by
  cases file with
  | none => cases Option.some.inj h
  | some json =>
    obtain ⟨found, hfound, hsame⟩ := Option.map_eq_some_iff.mp h
    obtain rfl := Option.some.inj hsame
    exact ⟨json, hfound⟩

/-- A reservation is only prepared where there is none. -/
theorem prepare_cases (call : PrepareCall) :
    (prepareTeamReservation platform files call).files = files ∨
      ∃ teamName candidate, readReservation platform (files.reservations teamName) = some none ∧
        candidate.Settled platform.toTeamPlatform ∧
          (prepareTeamReservation platform files call).files = { files with
            reservations := Function.update files.reservations teamName (some (encodeReservation candidate)) } := by
  unfold prepareTeamReservation
  split
  · exact .inl rfl
  split
  · exact .inl rfl
  rename_i candidate hcandidate
  have hsettled := TeamReservation.settled_of_read hcandidate
  dsimp only
  split
  · exact .inl rfl
  · split <;> exact .inl rfl
  rename_i hread
  cases call.progress with
  | stopped => exact .inl rfl
  | written => exact .inr ⟨_, candidate, hread, hsettled, rfl⟩
  | returned => exact .inr ⟨_, candidate, hread, hsettled, rfl⟩

theorem consumeHeld_creates {call : ConsumeCall} {held reservation : TeamReservation} {run : AnyRun}
    {current : Option TeamState} {state : TeamState}
    (h : consumeHeld platform call held run current = some (.creates reservation state)) :
    current = none ∧ reservation = held ∧ held.consumed = false ∧
      parseTeamState platform.toTeamPlatform (createdTeam run call.teamName held.definition) = some state := by
  unfold consumeHeld at h
  split at h
  · split at h <;> cases Option.some.inj h
  split at h
  · cases Option.some.inj h
  split at h
  · cases Option.some.inj h
  split at h
  · cases Option.some.inj h
  rename_i hconsumed
  obtain ⟨parsed, hparsed, hcreates⟩ := Option.map_eq_some_iff.mp h
  obtain ⟨rfl, rfl⟩ := ConsumeDecision.creates.inj hcreates
  exact ⟨rfl, rfl, Bool.eq_false_iff.mpr hconsumed, hparsed⟩

/-- A team is made where there is none, of a reservation without a mark. -/
theorem decideConsume_creates {call : ConsumeCall} {reservation : TeamReservation} {state : TeamState}
    (h : decideConsume platform files call = some (.creates reservation state)) :
    IsTeamName call.teamName ∧
      readReservation platform (files.reservations call.teamName) = some (some reservation) ∧
        reservation.reservationId = call.reservationId ∧ reservation.consumed = false ∧
          readTeamFile platform.isAbsolute (files.teams call.teamName) = some none ∧
            state.teamName = call.teamName ∧ origin state = state ∧ state.Kept platform.isAbsolute := by
  unfold decideConsume at h
  split at h
  · cases Option.some.inj h
  obtain ⟨found, hread, h⟩ := Option.bind_eq_some_iff.mp h
  cases found with
  | none => cases Option.some.inj h
  | some found =>
    dsimp only at h
    split at h
    · cases Option.some.inj h
    rename_i hid
    obtain ⟨run, -, h⟩ := Option.bind_eq_some_iff.mp h
    cases run with
    | none => cases Option.some.inj h
    | some run =>
      dsimp only at h
      split at h
      · cases Option.some.inj h
      obtain ⟨current, hcurrent, h⟩ := Option.bind_eq_some_iff.mp h
      obtain ⟨rfl, rfl, hconsumed, hparsed⟩ := consumeHeld_creates h
      obtain ⟨json, hjson⟩ := readReservation_eq_some hread
      obtain ⟨hok, htidy⟩ := TeamReservation.settled_of_read hjson
      have hdefinition := congrArg TeamReservation.definition htidy
      obtain ⟨hsettled, rfl⟩ := (parseTeamState_iff (TeamState.tidy_of_members
        (unbound_settled hok.definition hdefinition))).mp hparsed
      have hname : IsTeamName call.teamName := hsettled.ok.teamName
      rw [platform.fileOf_teamName _ hname] at hread hcurrent
      exact ⟨hname, hread, not_not.mp hid, hconsumed, hcurrent, rfl, origin_created _ _ _,
        createdTeam_kept_of_settled hok.definition hdefinition hsettled⟩

/-- A reservation that is marked or whose team is there is refused or answered with that team. -/
theorem decideConsume_answered {call : ConsumeCall} {reservation : TeamReservation} {current : Option TeamState}
    (hname : IsTeamName call.teamName)
    (hread : readReservation platform (files.reservations call.teamName) = some (some reservation))
    (hcurrent : readTeamFile platform.isAbsolute (files.teams call.teamName) = some current)
    (hcovered : reservation.consumed = true ∨ current ≠ none) :
    (call.readRun reservation.runId = none ∧ decideConsume platform files call = none) ∨
      (∃ code, decideConsume platform files call = some (.answered (.refused code))) ∨
        ∃ state, current = some state ∧
          decideConsume platform files call = some (.answered (.ok call.reservationId (some state))) := by
  rw [decideConsume, platform.fileOf_teamName _ hname, hread]
  split
  · exact .inr (.inl ⟨_, rfl⟩)
  dsimp only [Option.bind_eq_bind, Option.bind_some]
  split
  · exact .inr (.inl ⟨_, rfl⟩)
  cases hrun : call.readRun reservation.runId with
  | none => exact .inl ⟨rfl, rfl⟩
  | some found =>
    right
    cases found with
    | none => exact .inl ⟨_, rfl⟩
    | some run =>
      dsimp only [Option.bind_some]
      split
      · exact .inl ⟨_, rfl⟩
      rw [hcurrent, Option.bind_some]
      cases current with
      | some state =>
        rw [consumeHeld]
        split
        · exact .inr ⟨state, rfl, rfl⟩
        · exact .inl ⟨_, rfl⟩
      | none =>
        have hconsumed : reservation.consumed = true := hcovered.resolve_right (not_not.mpr rfl)
        rw [consumeHeld, hconsumed]
        split
        · exact .inl ⟨_, rfl⟩
        · split <;> exact .inl ⟨_, rfl⟩

/-- What is written when a team is made; the mark may be missing. -/
theorem consume_cases (call : ConsumeCall) :
    ((consumeTeamReservation platform files call).files = files ∧
      (consumeTeamReservation platform files call).created = none) ∨
    ∃ reservation state, decideConsume platform files call = some (.creates reservation state) ∧
      (consumeTeamReservation platform files call).created = some state ∧
        (consumeTeamReservation platform files call).files.teams =
          Function.update files.teams call.teamName (some (persistedTeam call.version state)) ∧
        ((consumeTeamReservation platform files call).files.reservations = files.reservations ∨
          (consumeTeamReservation platform files call).files.reservations = Function.update files.reservations
            call.teamName (some (encodeReservation { reservation with consumed := true }))) := by
  unfold consumeTeamReservation
  split
  · exact .inl ⟨rfl, rfl⟩
  · exact .inl ⟨rfl, rfl⟩
  rename_i reservation state hcreates
  obtain ⟨hname, -⟩ := decideConsume_creates hcreates
  rw [platform.fileOf_teamName _ hname]
  cases call.progress with
  | stopped => exact .inl ⟨rfl, rfl⟩
  | created => exact .inr ⟨reservation, state, hcreates, rfl, rfl, .inl rfl⟩
  | marked => exact .inr ⟨reservation, state, hcreates, rfl, rfl, .inr rfl⟩
  | returned => exact .inr ⟨reservation, state, hcreates, rfl, rfl, .inr rfl⟩

/-- What an operation makes of a team is of the same origin. -/
theorem origin_decided {runtime : TeamRuntime} {team state : TeamState} {operation : TeamOperation}
    {done : TeamResultStatus} (hruntime : runtime.Grounded) (hteam : team.Kept platform.isAbsolute)
    (h : operation.decide platform.toTeamPlatform runtime (some team) = some (.done done (some state))) :
    origin state = origin team := by
  obtain ⟨done', status, members, hturns⟩ | ⟨result, hdecided, hleaves⟩ :=
    decide_cases platform.toTeamPlatform runtime team operation
  · have htidy : (team.revise status members).tidy = team.revise status members :=
      TeamState.tidy_of_members (hturns.members_settled hruntime hteam)
    rw [hturns.decide, revised_eq_some htidy] at h
    obtain ⟨-, hstate⟩ := TeamResult.done.inj h.2
    rw [Option.some.inj hstate]
    exact origin_revised hturns
  · obtain rfl := Option.some.inj (hdecided.symm.trans h)
    cases hleaves
    rfl

theorem deleted_decided {runtime : TeamRuntime} {team : TeamState} {operation : TeamOperation}
    {state : Option TeamState}
    (h : operation.decide platform.toTeamPlatform runtime (some team) = some (.done .deleted state)) :
    operation = .delete ∧ team.status = .archived := by
  obtain ⟨done, status, members, hturns⟩ | ⟨result, hdecided, hleaves⟩ :=
    decide_cases platform.toTeamPlatform runtime team operation
  · rw [hturns.decide, revised, Option.map_eq_some_iff] at h
    obtain ⟨_, -, hdone⟩ := h
    obtain ⟨rfl, -⟩ := TeamResult.done.inj hdone
    cases hturns
  · obtain rfl := Option.some.inj (hdecided.symm.trans h)
    cases hleaves with
    | deleted hstatus => exact ⟨rfl, hstatus⟩

/-- An operation deletes a team that is archived, or writes one of the same origin. -/
theorem operate_cases {call : TeamCall} {teams : String → Option Json} {teamName : String} {operation : TeamOperation}
    (hkept : FileKept platform.toTeamPlatform (teams teamName)) (hruntime : call.runtime.Grounded)
    (hrequest : call.request = .operate teamName operation) :
    (call.run platform.toTeamPlatform teams).teams = teams ∨
      ∃ team written, readTeamFile platform.isAbsolute (teams teamName) = some (some team) ∧
        (call.run platform.toTeamPlatform teams).teams = Function.update teams teamName (some written) ∧
          ((operation = .delete ∧ team.status = .archived ∧
            readTeamFile platform.isAbsolute (some written) = some none) ∨
            ∃ state, readTeamFile platform.isAbsolute (some written) = some (some state) ∧
              origin state = origin team) := by
  have hrun : call.run platform.toTeamPlatform teams = transactTeam platform.toTeamPlatform teams call teamName
      (operation.decide platform.toTeamPlatform call.runtime) := by
    rw [TeamCall.run, hrequest]
  rw [hrun]
  obtain hsame | ⟨current, result, written, hname, hread, hdecided, hwritten, hteams⟩ :=
    @transactTeam_cases platform.toTeamPlatform call teams teamName _
  · exact .inl hsame
  obtain ⟨current', hread', hkept⟩ := hkept
  obtain rfl := Option.some.inj (hread'.symm.trans hread)
  cases current' with
  | none =>
    rw [decide_missing] at hdecided
    obtain rfl := Option.some.inj hdecided
    cases hwritten
  | some team =>
    refine .inr ⟨team, written, hread, hteams, ?_⟩
    obtain ⟨rfl, state, rfl⟩ | ⟨done, state, -, rfl, hchanged, rfl⟩ := teamWrite_eq_some hwritten
    · obtain ⟨hdelete, hstatus⟩ := deleted_decided hdecided
      exact .inl ⟨hdelete, hstatus, teamTombstone_read hname _⟩
    · obtain rfl | hstate := (hkept team rfl).decided hruntime hdecided
      · exact absurd rfl hchanged
      · exact .inr ⟨state, hstate.settled.read _, origin_decided hruntime (hkept team rfl) hdecided⟩

end Effects

/-! What holds over a run. -/

/-- No two teams of one name have been made; the reservation of one that was is marked, unless the team is still
there; and every team that is there was made. -/
structure ReservedTeams.Sound (platform : ReservationPlatform) (system : ReservedTeams) : Prop where
  teams : ∀ teamName, FileKept platform.toTeamPlatform (system.files.teams teamName)
  reservations : ∀ teamName, ∃ found, readReservation platform (system.files.reservations teamName) = some found
  named : ∀ entry ∈ system.created, IsTeamName entry.2.teamName
  distinct : (system.created.map (·.2.teamName)).Nodup
  covered : ∀ entry ∈ system.created, ∃ reservation,
    readReservation platform (system.files.reservations entry.2.teamName) = some (some reservation) ∧
      reservation.reservationId = entry.1 ∧ (reservation.consumed = true ∨
        readTeamFile platform.isAbsolute (system.files.teams entry.2.teamName) ≠ some none)
  made : ∀ teamName team, readTeamFile platform.isAbsolute (system.files.teams teamName) = some (some team) →
    ∃ entry ∈ system.created, entry.2.teamName = teamName ∧ origin team = entry.2

section Runs

variable {platform : ReservationPlatform} {system : ReservedTeams}

theorem ReservedTeams.start_sound : ReservedTeams.start.Sound platform where
  teams _ := ⟨none, rfl, fun _ h ↦ absurd h (Option.not_mem_none _)⟩
  reservations _ := ⟨none, rfl⟩
  named _ h := absurd h List.not_mem_nil
  distinct := List.nodup_nil
  covered _ h := absurd h List.not_mem_nil
  made _ _ h := by cases Option.some.inj h

namespace ReservedTeams.Sound

theorem prepare (h : system.Sound platform) (call : PrepareCall) :
    (ReservationCall.run platform system (.prepare call)).Sound platform := by
  obtain hsame | ⟨teamName, candidate, hread, hsettled, hfiles⟩ := @prepare_cases platform system.files call
  · rw [ReservationCall.run, hsame]
    exact h
  rw [ReservationCall.run, hfiles]
  refine ⟨h.teams, ?_, h.named, h.distinct, ?_, h.made⟩
  · intro other
    dsimp only
    by_cases hother : other = teamName
    · rw [hother, Function.update_self, hsettled.read]
      exact ⟨_, rfl⟩
    · rw [Function.update_of_ne hother]
      exact h.reservations other
  · intro entry hentry
    dsimp only
    obtain ⟨reservation, hreservation, hid, hcovered⟩ := h.covered entry hentry
    have hother : entry.2.teamName ≠ teamName := by
      rintro rfl
      cases Option.some.inj (hread.symm.trans hreservation)
    rw [Function.update_of_ne hother]
    exact ⟨reservation, hreservation, hid, hcovered⟩

/-- A reservation that made a team does not make another one. -/
theorem fresh (h : system.Sound platform) {call : ConsumeCall} {reservation : TeamReservation} {state : TeamState}
    (hcreates : decideConsume platform system.files call = some (.creates reservation state)) :
    ∀ entry ∈ system.created, entry.2.teamName ≠ call.teamName := by
  obtain ⟨-, hread, -, hconsumed, hnone, -⟩ := decideConsume_creates hcreates
  rintro entry hentry hname
  obtain ⟨found, hfound, -, hcovered⟩ := h.covered entry hentry
  rw [hname] at hfound hcovered
  obtain rfl := Option.some.inj (Option.some.inj (hread.symm.trans hfound))
  obtain hmarked | hthere := hcovered
  · rw [hconsumed] at hmarked
    cases hmarked
  · exact hthere hnone

theorem consume (h : system.Sound platform) (call : ConsumeCall) :
    (ReservationCall.run platform system (.consume call)).Sound platform := by
  obtain ⟨hfiles, hcreated⟩ | ⟨reservation, state, hcreates, hcreated, hteams, hreservations⟩ :=
    @consume_cases platform system.files call
  · rw [ReservationCall.run, hfiles, hcreated]
    simpa using h
  have hfresh := h.fresh hcreates
  obtain ⟨hname, hread, hid, -, hnone, hstate, horigin, hkept⟩ := decideConsume_creates hcreates
  obtain ⟨json, hjson⟩ := readReservation_eq_some hread
  have hmarked := (TeamReservation.settled_of_read hjson).mark.read
  have hteam : readTeamFile platform.isAbsolute (some (persistedTeam call.version state)) = some (some state) :=
    hkept.settled.read _
  rw [ReservationCall.run, hcreated]
  refine ⟨?_, ?_, ?_, ?_, ?_, ?_⟩ <;> dsimp only
  · intro other
    rw [hteams]
    by_cases hother : other = call.teamName
    · rw [hother, Function.update_self]
      exact ⟨some state, hteam, fun _ hteam ↦ Option.some.inj hteam ▸ hkept⟩
    · rw [Function.update_of_ne hother]
      exact h.teams other
  · intro other
    obtain hunmarked | hwritten := hreservations
    · rw [hunmarked]
      exact h.reservations other
    rw [hwritten]
    by_cases hother : other = call.teamName
    · rw [hother, Function.update_self, hmarked]
      exact ⟨_, rfl⟩
    · rw [Function.update_of_ne hother]
      exact h.reservations other
  · refine List.forall_mem_append.mpr ⟨h.named, List.forall_mem_singleton.mpr ?_⟩
    exact hkept.settled.ok.teamName
  · rw [Option.map_some, Option.toList_some, List.map_append, List.map_singleton, hstate, List.nodup_append]
    refine ⟨h.distinct, List.nodup_singleton _, ?_⟩
    intro name hmem name' hmem' hsame
    obtain ⟨entry, hentry, rfl⟩ := List.mem_map.mp hmem
    exact hfresh entry hentry (hsame.trans (List.mem_singleton.mp hmem'))
  · intro entry hentry
    obtain hold | hnew := List.mem_append.mp hentry
    · obtain ⟨found, hfound, hfoundId, hcovered⟩ := h.covered entry hold
      have hother := hfresh entry hold
      rw [hteams, Function.update_of_ne hother]
      refine ⟨found, ?_, hfoundId, hcovered⟩
      obtain hunmarked | hwritten := hreservations
      · rw [hunmarked, hfound]
      · rw [hwritten, Function.update_of_ne hother, hfound]
    · obtain rfl : entry = (call.reservationId, state) := by simpa using hnew
      dsimp only
      rw [hstate, hteams, Function.update_self, hteam]
      obtain hunmarked | hwritten := hreservations
      · rw [hunmarked]
        exact ⟨reservation, hread, hid, .inr (by simp)⟩
      · rw [hwritten, Function.update_self, hmarked]
        exact ⟨_, rfl, hid, .inl rfl⟩
  · intro other team hteamRead
    rw [hteams] at hteamRead
    by_cases hother : other = call.teamName
    · rw [hother, Function.update_self, hteam] at hteamRead
      obtain rfl := Option.some.inj (Option.some.inj hteamRead)
      refine ⟨(call.reservationId, state), ?_, hstate.trans hother.symm, horigin⟩
      simp
    · rw [Function.update_of_ne hother] at hteamRead
      obtain ⟨entry, hentry, hmade⟩ := h.made other team hteamRead
      exact ⟨entry, List.mem_append_left _ hentry, hmade⟩

theorem operate (h : system.Sound platform) {call : TeamCall} (hallowed : ReservationCall.Allowed (.operate call))
    (hcovers : ¬ ReservationCall.Uncovers platform system (.operate call)) :
    (ReservationCall.run platform system (.operate call)).Sound platform := by
  obtain ⟨hruntime, teamName, operation, hrequest⟩ := hallowed
  obtain hsame | ⟨team, written, hread, hteams, hwritten⟩ :=
    operate_cases (h.teams teamName) hruntime hrequest
  · rw [ReservationCall.run, hsame]
    exact h
  have hstep : TeamStep platform.toTeamPlatform system.files.teams
      (call.run platform.toTeamPlatform system.files.teams).teams := ⟨call, hruntime, rfl⟩
  refine ⟨hstep.kept h.teams, h.reservations, h.named, h.distinct, ?_, ?_⟩
  · intro entry hentry
    obtain ⟨reservation, hreservation, hid, hcovered⟩ := h.covered entry hentry
    refine ⟨reservation, hreservation, hid, ?_⟩
    dsimp only [ReservationCall.run]
    rw [hteams]
    by_cases hname : entry.2.teamName = teamName
    · rw [hname, Function.update_self]
      obtain ⟨rfl, hstatus, -⟩ | ⟨state, hstate, -⟩ := hwritten
      · left
        by_contra hunmarked
        exact hcovers ⟨teamName, team, reservation, hrequest, hread, hstatus, hname ▸ hreservation,
          Bool.eq_false_iff.mpr hunmarked⟩
      · right
        rw [hstate]
        simp
    · rw [Function.update_of_ne hname]
      exact hcovered
  · intro other later hlater
    dsimp only [ReservationCall.run] at hlater
    rw [hteams] at hlater
    by_cases hother : other = teamName
    · subst hother
      rw [Function.update_self] at hlater
      obtain ⟨-, -, hnone⟩ | ⟨state, hstate, hsame⟩ := hwritten
      · cases Option.some.inj (hnone.symm.trans hlater)
      · obtain rfl := Option.some.inj (Option.some.inj (hstate.symm.trans hlater))
        obtain ⟨entry, hentry, hmade, horigin⟩ := h.made other team hread
        exact ⟨entry, hentry, hmade, hsame.trans horigin⟩
    · rw [Function.update_of_ne hother] at hlater
      exact h.made other later hlater

end ReservedTeams.Sound

theorem CoveredStep.step {later : ReservedTeams} (h : CoveredStep platform system later) :
    ReservationStep platform system later := by
  obtain ⟨call, hallowed, -, hrun⟩ := h
  exact ⟨call, hallowed, hrun⟩

theorem CoveredStep.sound {later : ReservedTeams} (h : CoveredStep platform system later)
    (hbefore : system.Sound platform) : later.Sound platform := by
  obtain ⟨call, hallowed, hcovers, rfl⟩ := h
  cases call with
  | prepare call => exact hbefore.prepare call
  | consume call => exact hbefore.consume call
  | operate call => exact hbefore.operate hallowed hcovers

theorem sound_of_calls (h : ReflTransGen (CoveredStep platform) .start system) : system.Sound platform := by
  induction h with
  | refl => exact ReservedTeams.start_sound
  | tail _ hstep ih => exact hstep.sound ih

/-- What consumes a reservation again leaves the files, and is refused or answered with the team that was made. -/
theorem consumed_again (h : system.Sound platform) (call : ConsumeCall) {team : TeamState}
    (hmade : (call.reservationId, team) ∈ system.created) (hname : team.teamName = call.teamName) :
    let effect := consumeTeamReservation platform system.files call
    effect.files = system.files ∧ effect.created = none ∧
      ((∃ runId, call.readRun runId = none ∧ effect.answer = none) ∨
        (∃ code, effect.answer = some (.refused code)) ∨
          ∃ state, effect.answer = some (.ok call.reservationId (some state)) ∧
            readTeamFile platform.isAbsolute (system.files.teams call.teamName) = some (some state) ∧
              origin state = team) := by
  obtain ⟨reservation, hread, -, hcovered⟩ := h.covered _ hmade
  have hteamName := h.named _ hmade
  obtain ⟨current, hcurrent, -⟩ := h.teams call.teamName
  dsimp only at hread hcovered hteamName ⊢
  rw [hname] at hread hcovered hteamName
  rw [hcurrent, ne_eq, Option.some.injEq] at hcovered
  obtain ⟨hrun, hdecided⟩ | ⟨code, hdecided⟩ | ⟨state, rfl, hdecided⟩ :=
    decideConsume_answered hteamName hread hcurrent hcovered
  · rw [consumeTeamReservation, hdecided]
    exact ⟨rfl, rfl, .inl ⟨_, hrun, rfl⟩⟩
  · rw [consumeTeamReservation, hdecided]
    exact ⟨rfl, rfl, .inr (.inl ⟨code, rfl⟩)⟩
  · rw [consumeTeamReservation, hdecided]
    refine ⟨rfl, rfl, .inr (.inr ⟨state, rfl, hcurrent, ?_⟩)⟩
    obtain ⟨entry, hentry, hentryName, horigin⟩ := h.made _ _ hcurrent
    have hsame := List.inj_on_of_nodup_map h.distinct hentry hmade (hentryName.trans hname.symm)
    rw [horigin, hsame]

/-- As long as no team is deleted whose reservation has no mark: over any calls, cut between any two writes, each
reservation makes its team at most once, and consumed again it is refused or answered with that team. -/
theorem reservation_creates_once (h : ReflTransGen (CoveredStep platform) .start system) :
    (system.created.map fun entry ↦ (entry.1, entry.2.teamName)).Nodup ∧
      ∀ (call : ConsumeCall) (team : TeamState), (call.reservationId, team) ∈ system.created →
        team.teamName = call.teamName →
          let effect := consumeTeamReservation platform system.files call
          effect.files = system.files ∧ effect.created = none ∧
            ((∃ runId, call.readRun runId = none ∧ effect.answer = none) ∨
              (∃ code, effect.answer = some (.refused code)) ∨
                ∃ state, effect.answer = some (.ok call.reservationId (some state)) ∧
                  readTeamFile platform.isAbsolute (system.files.teams call.teamName) = some (some state) ∧
                    origin state = team) := by
  have hsound := sound_of_calls h
  refine ⟨List.Nodup.of_map Prod.snd ?_, fun call team ↦ consumed_again hsound call⟩
  rw [List.map_map]
  exact hsound.distinct

end Runs

namespace Sample

def reservationPlatform : ReservationPlatform where
  toTeamPlatform := Workflows.Sample.teamPlatform
  fileOf := id
  fileOf_teamName _ _ := rfl

def head : String := String.ofList (List.replicate 40 'a')

def reservedRun : AnyRun := { State.Sample.run with version := .v2 none (some head) }

def pairReserved : TeamReservation :=
  ⟨String.ofList (List.replicate 64 '0'), "pair", reservedRun.runId, "session", 1, head,
    Workflows.Sample.pairDefinition, false⟩

def pairTeam : TeamState := createdTeam reservedRun "pair" Workflows.Sample.pairDefinition

def prepareCall : PrepareCall := ⟨true, reservedRun, Workflows.Sample.pairDefinition, head, .returned⟩

def consumeCall (progress : ConsumeProgress) : ConsumeCall :=
  ⟨true, "session", "pair", pairReserved.reservationId, fun _ ↦ some (some reservedRun), .ok head, .v2, progress⟩

/-- The reservation is there. -/
def preparedSystem : ReservedTeams :=
  ⟨⟨fun _ ↦ none, Function.update (fun _ ↦ none) "pair" (some (encodeReservation pairReserved))⟩, []⟩

/-- Its team was made, but not its mark. -/
def cutSystem : ReservedTeams :=
  ⟨⟨Function.update (fun _ ↦ none) "pair" (some (persistedTeam .v2 pairTeam)), preparedSystem.files.reservations⟩,
    [(pairReserved.reservationId, pairTeam)]⟩

end Sample

theorem pair_candidate : candidateReservation Sample.reservationPlatform Sample.reservedRun
    Workflows.Sample.pairDefinition Sample.head = some Sample.pairReserved := by decide

theorem pairTeam_kept : Sample.pairTeam.Kept Sample.reservationPlatform.isAbsolute :=
  createdTeam_kept (by decide) pairDefinition_read

/-- Where there is no team, a reservation without a mark makes it. -/
theorem pair_creates {files : ReservationFiles} (progress : ConsumeProgress)
    (hread : readReservation Sample.reservationPlatform (files.reservations "pair") = some (some Sample.pairReserved))
    (hnone : readTeamFile Sample.reservationPlatform.isAbsolute (files.teams "pair") = some none) :
    decideConsume Sample.reservationPlatform files (Sample.consumeCall progress) =
      some (.creates Sample.pairReserved Sample.pairTeam) := by
  have hparsed : parseTeamState Sample.reservationPlatform.toTeamPlatform Sample.pairTeam = some Sample.pairTeam :=
    parseTeamState_settled pairTeam_kept.settled
  rw [decideConsume]
  simp only [Sample.consumeCall, Bool.not_true, Bool.false_eq_true, if_false, ne_eq]
  change Option.bind (readReservation Sample.reservationPlatform (files.reservations "pair")) _ = _
  rw [hread]
  change Option.bind (readTeamFile Sample.reservationPlatform.isAbsolute (files.teams "pair")) _ = _
  have hhead : ¬ Sample.head ≠ Sample.pairReserved.expectedHead := not_not.mpr rfl
  have hunmarked : ¬ Sample.pairReserved.consumed = true := Bool.false_ne_true
  rw [hnone, Option.bind_some, consumeHeld]
  dsimp only
  rw [if_neg hhead, if_neg hunmarked]
  exact congrArg (Option.map _) hparsed

theorem pair_prepared : ReservationCall.run Sample.reservationPlatform .start (.prepare Sample.prepareCall) =
    Sample.preparedSystem := by
  have heffect : prepareTeamReservation Sample.reservationPlatform ReservedTeams.start.files Sample.prepareCall =
      ⟨some (.ok Sample.pairReserved.reservationId none), Sample.preparedSystem.files⟩ := by
    simp only [prepareTeamReservation, Sample.prepareCall, pair_candidate]
    rfl
  rw [ReservationCall.run, heffect]
  rfl

theorem reserved_read : readReservation Sample.reservationPlatform
    (Sample.preparedSystem.files.reservations "pair") = some (some Sample.pairReserved) := by
  have hfile : Sample.preparedSystem.files.reservations "pair" = some (encodeReservation Sample.pairReserved) := by
    simp [Sample.preparedSystem]
  rw [hfile]
  exact (TeamReservation.settled_of_read pair_candidate).read

/-- The call that makes the team is cut before its mark. -/
theorem pair_cut : ReservationCall.run Sample.reservationPlatform Sample.preparedSystem
    (.consume (Sample.consumeCall .created)) = Sample.cutSystem := by
  have hcreates := pair_creates .created reserved_read rfl
  have heffect : consumeTeamReservation Sample.reservationPlatform Sample.preparedSystem.files
      (Sample.consumeCall .created) = ⟨none, Sample.cutSystem.files, some Sample.pairTeam⟩ := by
    rw [consumeTeamReservation, hcreates]
    rfl
  rw [ReservationCall.run, heffect]
  rfl

theorem cut_of_calls : ReflTransGen (CoveredStep Sample.reservationPlatform) .start Sample.cutSystem :=
  (ReflTransGen.single ⟨.prepare Sample.prepareCall, trivial, id, pair_prepared⟩).tail
    ⟨.consume (Sample.consumeCall .created), trivial, id, pair_cut⟩

/-- Consumed again, the cut reservation is answered without making its team again. -/
theorem reservation_creates_once_cut :
    (consumeTeamReservation Sample.reservationPlatform Sample.cutSystem.files
      (Sample.consumeCall .returned)).created = none := by
  obtain ⟨-, hagain⟩ := reservation_creates_once cut_of_calls
  exact (hagain (Sample.consumeCall .returned) Sample.pairTeam (List.mem_singleton_self _) rfl).2.1

/-- The reservation is consumed up to its mark; then its team is cancelled, archived and deleted, and it is
consumed again. -/
theorem reservation_creates_twice : ∃ system,
    ReflTransGen (ReservationStep Sample.reservationPlatform) .start system ∧
      ∃ reservationId team, system.created = [(reservationId, team), (reservationId, team)] := by
  obtain ⟨scope, hresolved, -, -, -⟩ := Gates.pair_proven
  have hruntime := teamRuntime_grounded hresolved
  let operate (operation : TeamOperation) : ReservationCall :=
    .operate ((Workflows.Sample.teamRuntime scope).call (.operate "pair" operation))
  have hoperate (operation : TeamOperation) : (operate operation).Allowed := ⟨hruntime, _, _, rfl⟩
  have hname : IsTeamName "pair" := pairTeam_kept.settled.ok.teamName
  have hread : readTeamFile Sample.reservationPlatform.isAbsolute (Sample.cutSystem.files.teams "pair") =
      some (some Sample.pairTeam) := pairTeam_kept.settled.read .v2
  -- the team is cancelled
  let cancelled := ReservationCall.run Sample.reservationPlatform Sample.cutSystem (operate .cancel)
  have hcancelled : ReflTransGen (CoveredStep Sample.reservationPlatform) .start cancelled := by
    refine cut_of_calls.tail ⟨operate .cancel, hoperate _, ?_, rfl⟩
    rintro ⟨_, _, _, hrequest, -⟩
    cases hrequest
  have hcancels : TeamOperation.Turns (Workflows.Sample.teamRuntime scope) Sample.pairTeam .cancel .cancelled .cancelled
      Sample.pairTeam.members := .cancel (.inl rfl)
  have hread := turned_call ((sound_of_calls cut_of_calls).teams "pair") hname hread hruntime hcancels (by decide) (by simp)
  -- and archived
  let archived := ReservationCall.run Sample.reservationPlatform cancelled (operate .archive)
  have harchives : TeamOperation.Turns (Workflows.Sample.teamRuntime scope)
      (Sample.pairTeam.revise .cancelled Sample.pairTeam.members) .archive .archived .archived
        Sample.pairTeam.members := .archive (.inr rfl)
  have hread := turned_call ((sound_of_calls hcancelled).teams "pair") hname hread hruntime harchives (by decide)
    (by simp [TeamState.Stranded, TeamState.revise, Sample.pairTeam, createdTeam, MemberDefinition.unbound])
  -- and deleted
  let deleted := ReservationCall.run Sample.reservationPlatform archived (operate .delete)
  have hnone : readTeamFile Sample.reservationPlatform.isAbsolute (deleted.files.teams "pair") = some none :=
    deleted_call hname hread rfl
  have hcreates : decideConsume Sample.reservationPlatform deleted.files (Sample.consumeCall .returned) =
      some (.creates Sample.pairReserved Sample.pairTeam) := pair_creates .returned reserved_read hnone
  have heffect : (consumeTeamReservation Sample.reservationPlatform deleted.files
      (Sample.consumeCall .returned)).created = some Sample.pairTeam := by
    rw [consumeTeamReservation, hcreates]
    rfl
  refine ⟨ReservationCall.run Sample.reservationPlatform deleted (.consume (Sample.consumeCall .returned)), ?_,
    Sample.pairReserved.reservationId, Sample.pairTeam, ?_⟩
  · have hsteps : ReflTransGen (ReservationStep Sample.reservationPlatform) .start cancelled :=
      ReflTransGen.mono (fun _ _ ↦ CoveredStep.step) _ _ hcancelled
    exact .tail (.tail (.tail hsteps ⟨operate .archive, hoperate _, rfl⟩) ⟨operate .delete, hoperate _, rfl⟩)
      ⟨.consume (Sample.consumeCall .returned), trivial, rfl⟩
  · rw [ReservationCall.run, heffect]
    rfl

end OmpLazy.Commands

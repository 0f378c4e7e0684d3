import OmpLazy.State.CodecLaws
import OmpLazy.Workflows.TeamDefinition

/-! What the schemas of teams accept, and that a state is read as it was written. -/

namespace OmpLazy.Workflows

open OmpLazy.Foundation OmpLazy.Foundation.Schema OmpLazy.Foundation.Text OmpLazy.Contracts
open OmpLazy.State (Uuid FormatVersion encodeNullableString encodeStrings uuid_reads positiveCounter_reads)

/-- A name of a team or of a member. -/
def IsTeamName (name : String) : Prop := teamNameSchema (.string name) = some name

theorem teamName_reads : Reads teamNameSchema Json.string IsTeamName id := by
  have hreads := checked_reads fun s ↦ (s.toList.splitOn '-').all (fun part ↦ !part.isEmpty && part.all fun c ↦
    isDigit c || ('a' ≤ c && c ≤ 'z')) && utf16Length s ≤ 64
  refine hreads.of_iff fun name ↦ ?_
  rw [IsTeamName, teamNameSchema, hreads.fixed_iff]
  exact (and_iff_left rfl).symm

theorem textUpTo_reads (bound : ℕ) : Reads (textUpTo bound) Json.string
    (fun s ↦ trim s ≠ "" ∧ utf16Length (trim s) ≤ bound) trim :=
  (nonempty_reads.refine _).of_iff (by simp)

/-- The path is in the repository. -/
def ownable (isAbsolute : String → Bool) (value : String) : Bool :=
  let normalized := value.toList.map fun c ↦ if c = '\\' then '/' else c
  !isAbsolute value && normalized.head? ≠ some '/' && !(normalized.splitOn '/').contains ['.', '.']

def OwnedPathOk (isAbsolute : String → Bool) (path : String) : Prop :=
  (trim path ≠ "" ∧ utf16Length (trim path) ≤ 512) ∧ ownable isAbsolute (trim path) = true

theorem ownedPath_reads (isAbsolute : String → Bool) :
    Reads (ownedPath isAbsolute) Json.string (OwnedPathOk isAbsolute) trim :=
  (textUpTo_reads 512).refine (ownable isAbsolute)

def OwnershipOk (isAbsolute : String → Bool) (paths : List String) : Prop :=
  (∀ path ∈ paths, OwnedPathOk isAbsolute path) ∧ 1 ≤ paths.length ∧ paths.length ≤ 32

theorem ownership_reads (isAbsolute : String → Bool) :
    Reads ((ownedPath isAbsolute).array.refine fun paths ↦ 1 ≤ paths.length && paths.length ≤ 32) encodeStrings
      (OwnershipOk isAbsolute) (List.map trim) :=
  ((ownedPath_reads isAbsolute).array.refine _).of_iff (by simp [OwnershipOk])

theorem nullableUntrimmed_reads :
    Reads untrimmed.nullable encodeNullableString (fun o ↦ ∀ s ∈ o, s ≠ "") (Option.map id) :=
  ((checked_reads fun s ↦ s ≠ "").of_iff (by simp)).nullable (by simp)

/-! Members. -/

namespace MemberDefinition

@[mk_iff] structure Ok (isAbsolute : String → Bool) (member : MemberDefinition) : Prop where
  requestedName : IsTeamName member.requestedName
  focus : trim member.focus ≠ "" ∧ utf16Length (trim member.focus) ≤ 1024
  ownership : OwnershipOk isAbsolute member.ownership
  deliverable : trim member.deliverable ≠ "" ∧ utf16Length (trim member.deliverable) ≤ 1024

def tidy (member : MemberDefinition) : MemberDefinition :=
  { member with
    focus := trim member.focus
    ownership := member.ownership.map trim
    deliverable := trim member.deliverable }

theorem reads (platform : TeamPlatform) :
    Reads (memberDefinitionSchema platform) encodeMemberDefinition (Ok platform.isAbsolute) tidy where
  encoded x y := by
    simp [memberDefinitionSchema, encodeMemberDefinition, strictObject_object, required, Option.bind_eq_some_iff,
      teamName_reads.encoded, workerRole_reads.encoded, (textUpTo_reads 1024).encoded,
      (ownership_reads platform.isAbsolute).encoded, boolean_reads.encoded, and_assoc, ok_iff, tidy]
  settled j y hy := by
    obtain ⟨fields, -, hy⟩ := strictObject_eq_some hy
    simp only [Option.bind_eq_bind, Option.bind_eq_some_iff, Option.pure_def, Option.some.injEq] at hy
    obtain ⟨name, hname, role, -, focus, hfocus, ownership, hownership, deliverable, hdeliverable, isolated, -, rfl⟩ :=
      hy
    have hname := teamName_reads.required_settled hname
    have hfocus := (textUpTo_reads 1024).required_settled hfocus
    have hownership := (ownership_reads platform.isAbsolute).required_settled hownership
    have hdeliverable := (textUpTo_reads 1024).required_settled hdeliverable
    exact ⟨⟨hname.1, hfocus.1, hownership.1, hdeliverable.1⟩, by
      simp [tidy, hfocus.2, hownership.2, hdeliverable.2]⟩

end MemberDefinition

namespace RuntimeMember

@[mk_iff] structure Ok (isAbsolute : String → Bool) (member : RuntimeMember) : Prop where
  definition : member.definition.Ok isAbsolute
  actualAgentId : ∀ s ∈ member.actualAgentId, trim s ≠ "" ∧ utf16Length (trim s) ≤ 160
  actualJobId : ∀ s ∈ member.actualJobId, trim s ≠ "" ∧ utf16Length (trim s) ≤ 160
  worktreePath : ∀ s ∈ member.worktreePath, s ≠ ""
  acceptanceKey : ∀ s ∈ member.acceptanceKey, s ≠ ""

def tidy (member : RuntimeMember) : RuntimeMember :=
  { member with
    focus := trim member.focus
    ownership := member.ownership.map trim
    deliverable := trim member.deliverable
    actualAgentId := member.actualAgentId.map trim
    actualJobId := member.actualJobId.map trim }

theorem reads (isAbsolute : String → Bool) :
    Reads (runtimeMemberSchema isAbsolute) encodeMember (Ok isAbsolute) tidy where
  encoded x y := by
    simp [runtimeMemberSchema, encodeMember, strictObject_object, required, Option.bind_eq_some_iff,
      teamName_reads.encoded, workerRole_reads.encoded, (textUpTo_reads 1024).encoded,
      (ownership_reads isAbsolute).encoded, boolean_reads.encoded, agentIdSchema, jobIdSchema,
      nullableRuntimeId_reads.encoded, nullableUntrimmed_reads.encoded, and_assoc, ok_iff, tidy, definition,
      MemberDefinition.ok_iff]
  settled j y hy := by
    obtain ⟨fields, -, hy⟩ := strictObject_eq_some hy
    simp only [Option.bind_eq_bind, Option.bind_eq_some_iff, Option.pure_def, Option.some.injEq] at hy
    obtain ⟨name, hname, role, -, focus, hfocus, ownership, hownership, deliverable, hdeliverable, isolated, -, agent,
      hagent, job, hjob, worktree, hworktree, key, hkey, rfl⟩ := hy
    have hname := teamName_reads.required_settled hname
    have hfocus := (textUpTo_reads 1024).required_settled hfocus
    have hownership := (ownership_reads isAbsolute).required_settled hownership
    have hdeliverable := (textUpTo_reads 1024).required_settled hdeliverable
    have hagent := nullableRuntimeId_reads.required_settled hagent
    have hjob := nullableRuntimeId_reads.required_settled hjob
    have hworktree := nullableUntrimmed_reads.required_settled hworktree
    have hkey := nullableUntrimmed_reads.required_settled hkey
    exact ⟨⟨⟨hname.1, hfocus.1, hownership.1, hdeliverable.1⟩, hagent.1, hjob.1, hworktree.1, hkey.1⟩, by
      simp [tidy, hfocus.2, hownership.2, hdeliverable.2, hagent.2, hjob.2]⟩

end RuntimeMember

/-! Teams. -/

namespace TeamState

variable {isAbsolute : String → Bool} {team : TeamState}

def tidy (team : TeamState) : TeamState := { team with members := team.members.map RuntimeMember.tidy }

@[mk_iff] structure Ok (isAbsolute : String → Bool) (team : TeamState) : Prop where
  teamName : IsTeamName team.teamName
  runId : isUuid team.runId = true
  attempt : team.attempt ≤ maxSafeInteger
  revision : team.revision ≤ maxSafeInteger ∧ 0 < team.revision
  members : ∀ member ∈ team.members, member.Ok isAbsolute
  size : 2 ≤ team.members.length ∧ team.members.length ≤ 8
  binds : lifecycleBinds team.tidy = true

theorem teamStatus_reads : Reads teamStatusSchema (fun x ↦ .string x.text) (fun _ ↦ True) id :=
  oneOf_reads fun x ↦ by cases x <;> rfl

theorem members_reads (isAbsolute : String → Bool) :
    Reads ((runtimeMemberSchema isAbsolute).array.refine fun members ↦ 2 ≤ members.length && members.length ≤ 8)
      (fun members ↦ .array (members.map encodeMember))
      (fun members ↦ (∀ member ∈ members, member.Ok isAbsolute) ∧ 2 ≤ members.length ∧ members.length ≤ 8)
      (List.map RuntimeMember.tidy) :=
  ((RuntimeMember.reads isAbsolute).array.refine _).of_iff (by simp)

theorem reads (isAbsolute : String → Bool) :
    Reads (teamStateSchema isAbsolute) encodeTeamState (Ok isAbsolute) tidy where
  encoded x y := by
    rw [teamStateSchema, Schema.refine, Option.filter_eq_some_iff]
    simp [encodeTeamState, teamStateFields, teamKeys, teamFields, strictObject_object, required, literal,
      Option.bind_eq_some_iff, teamName_reads.encoded, uuid_reads.encoded, counter_reads.encoded,
      positiveCounter_reads.encoded, teamStatus_reads.encoded, (members_reads isAbsolute).encoded, and_assoc, ok_iff,
      tidy]
    intro _ _ _ _ _ _ _ _
    constructor
    · rintro ⟨rfl, hbinds⟩
      exact ⟨hbinds, rfl⟩
    · rintro ⟨hbinds, rfl⟩
      exact ⟨rfl, hbinds⟩
  settled j y hy := by
    obtain ⟨hy, hbinds⟩ := Option.filter_eq_some_iff.mp hy
    obtain ⟨fields, -, hy⟩ := strictObject_eq_some hy
    simp only [teamFields, Option.bind_eq_bind, Option.bind_eq_some_iff, Option.pure_def, Option.some.injEq] at hy
    obtain ⟨-, -, name, hname, runId, hrun, attempt, hattempt, revision, hrevision, status, -, members, hmembers, rfl⟩ :=
      hy
    have hname := teamName_reads.required_settled hname
    have hrun := uuid_reads.required_settled hrun
    have hattempt := counter_reads.required_settled hattempt
    have hrevision := positiveCounter_reads.required_settled hrevision
    have hmembers := (members_reads isAbsolute).required_settled hmembers
    have htidy : tidy ⟨name, runId, attempt, revision, status, members⟩ =
        ⟨name, runId, attempt, revision, status, members⟩ := by rw [tidy, hmembers.2]
    exact ⟨⟨hname.1, hrun.1, hattempt.1, hrevision.1, hmembers.1.1, hmembers.1.2,
      (congrArg lifecycleBinds htidy).trans hbinds⟩, htidy⟩

/-- A state that its schema leaves as it is. -/
structure Settled (isAbsolute : String → Bool) (team : TeamState) : Prop where
  ok : team.Ok isAbsolute
  tidy : team.tidy = team

theorem settled_iff : team.Settled isAbsolute ↔ teamStateSchema isAbsolute (encodeTeamState team) = some team := by
  rw [(reads isAbsolute).fixed_iff]
  exact ⟨fun h ↦ ⟨h.ok, h.tidy⟩, fun h ↦ ⟨h.1, h.2⟩⟩

end TeamState

/-! Definitions. -/

namespace TeamDefinition

def tidy (definition : TeamDefinition) : TeamDefinition :=
  { definition with members := definition.members.map MemberDefinition.tidy }

@[mk_iff] structure Ok (platform : TeamPlatform) (definition : TeamDefinition) : Prop where
  teamName : IsTeamName definition.teamName
  members : ∀ member ∈ definition.members, member.Ok platform.isAbsolute
  size : 2 ≤ definition.members.length ∧ definition.members.length ≤ 8
  apart : membersApart platform definition.tidy = true

theorem members_reads (platform : TeamPlatform) :
    Reads ((memberDefinitionSchema platform).array.refine fun members ↦ 2 ≤ members.length && members.length ≤ 8)
      (fun members ↦ .array (members.map encodeMemberDefinition))
      (fun members ↦ (∀ member ∈ members, member.Ok platform.isAbsolute) ∧ 2 ≤ members.length ∧ members.length ≤ 8)
      (List.map MemberDefinition.tidy) :=
  ((MemberDefinition.reads platform).array.refine _).of_iff (by simp)

theorem reads (platform : TeamPlatform) :
    Reads (teamDefinitionSchema platform) encodeTeamDefinition (Ok platform) tidy where
  encoded x y := by
    rw [teamDefinitionSchema, Schema.refine, Option.filter_eq_some_iff]
    simp [encodeTeamDefinition, strictObject_object, required, Option.bind_eq_some_iff, teamName_reads.encoded,
      (members_reads platform).encoded, and_assoc, ok_iff, tidy]
    intro _ _ _ _
    constructor
    · rintro ⟨rfl, hapart⟩
      exact ⟨hapart, rfl⟩
    · rintro ⟨hapart, rfl⟩
      exact ⟨rfl, hapart⟩
  settled j y hy := by
    obtain ⟨hy, hapart⟩ := Option.filter_eq_some_iff.mp hy
    obtain ⟨fields, -, hy⟩ := strictObject_eq_some hy
    simp only [Option.bind_eq_bind, Option.bind_eq_some_iff, Option.pure_def, Option.some.injEq] at hy
    obtain ⟨name, hname, members, hmembers, rfl⟩ := hy
    have hname := teamName_reads.required_settled hname
    have hmembers := (members_reads platform).required_settled hmembers
    have htidy : tidy ⟨name, members⟩ = ⟨name, members⟩ := by rw [tidy, hmembers.2]
    exact ⟨⟨hname.1, hmembers.1.1, hmembers.1.2, (congrArg (membersApart platform) htidy).trans hapart⟩, htidy⟩

end TeamDefinition

/-! The files of teams. -/

section Files

variable {isAbsolute : String → Bool} {team : TeamState} {version : FormatVersion} {teamName : String}

theorem tombstone_refuses_state (version : ℕ) (number : ℕ) (status : String) :
    tombstoneSchema version (.object (("schemaVersion", .nat number) :: teamStateFields status team)) = none := by
  simp [tombstoneSchema, strictObject, teamStateFields]

theorem persistedTeam_read (team : TeamState) (version : FormatVersion) :
    persistedTeamStateSchema isAbsolute (persistedTeam version team) =
      teamStateSchema isAbsolute (encodeTeamState team) := by
  cases version with
  | v1 =>
    rw [persistedTeamStateSchema, if_pos]
    · rfl
    · simp [persistedTeam, encodeTeamState, Json.get?, teamStateFields, Json.nat]
  | v2 =>
    rw [persistedTeamStateSchema, if_neg (by simp [persistedTeam, Json.get?, teamStateFields])]
    cases hstatus : team.status <;>
      simp [persistedTeam, persistedStatus, encodeTeamState, Json.get?, Json.set, Json.setField, teamStateFields,
        hstatus, TeamStatus.text]

/-- A state is read as it was written, in either version. -/
theorem TeamState.Settled.read (h : team.Settled isAbsolute) (version : FormatVersion) :
    readTeamFile isAbsolute (some (persistedTeam version team)) = some (some team) := by
  have htombstone : teamTombstoneSchema (persistedTeam version team) = none := by
    rw [teamTombstoneSchema, union, Option.or_eq_none_iff]
    cases version <;> exact ⟨tombstone_refuses_state .., tombstone_refuses_state ..⟩
  rw [readTeamFile, Option.elim_some, readTeam, htombstone, persistedTeam_read, TeamState.settled_iff.mp h]
  rfl

theorem teamTombstone_read (h : IsTeamName teamName) (version : FormatVersion) :
    readTeamFile isAbsolute (some (teamTombstone version teamName)) = some none := by
  have htombstone : (teamTombstoneSchema (teamTombstone version teamName)).isSome = true := by
    have hname : teamNameSchema (.string teamName) = some teamName := h
    cases version <;>
      simp [teamTombstoneSchema, union, tombstoneSchema, teamTombstone, strictObject, required, literal, hname,
        FormatVersion.number]
  rw [readTeamFile, Option.elim_some, readTeam, if_pos htombstone]

end Files

end OmpLazy.Workflows

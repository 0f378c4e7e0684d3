import OmpLazy.Foundation.PosixPaths
import OmpLazy.Workflows.TeamStateLaws

/-! Who owns which paths in a team. -/

namespace OmpLazy.Workflows

open OmpLazy.Foundation OmpLazy.Foundation.Schema OmpLazy.Foundation.Text OmpLazy.Foundation.PosixPaths
open OmpLazy.Contracts

section Ownership

variable {platform : TeamPlatform} {claim claim' path : String}

/-- A claim as its schema leaves it. -/
structure Relative (claim : String) : Prop where
  nonempty : claim ≠ ""
  root : (forwardSlashes claim).toList.head? ≠ some '/'
  parent : ['.', '.'] ∉ (forwardSlashes claim).toList.splitOn '/'

/-- The segments of a claim, with either slash. -/
def ownedSegments (claim : String) : List (List Char) := segments (forwardSlashes claim)

theorem stripLeadingDot_of_ne {chars : List Char} (h : ∀ rest, chars ≠ '.' :: '/' :: rest) :
    stripLeadingDot chars = chars := by
  unfold stripLeadingDot
  split
  · exact absurd rfl (h _)
  · rfl

theorem normalizedOwnership_eq (hnormalize : ∀ value, platform.posixNormalize value = posixNormalize value)
    (h : Relative claim) : (normalizedOwnership platform claim).toList =
      if ownedSegments claim = [] then ['.'] else ['/'].intercalate (ownedSegments claim) := by
  have hne : forwardSlashes claim ≠ "" := by
    intro hempty
    refine h.nonempty (String.toList_eq_nil_iff.mp ?_)
    simpa [forwardSlashes] using congrArg String.toList hempty
  have hnormal := posixNormalize_relative hne h.root h.parent
  rw [normalizedOwnership, hnormalize, hnormal, ownedSegments]
  by_cases hnone : segments (forwardSlashes claim) = []
  · rw [if_pos hnone]
    split <;> rfl
  · rw [if_neg hnone]
    obtain ⟨hlast, hstart⟩ := intercalate_segments hnone
    have hjoined : ['/'].intercalate (segments (forwardSlashes claim)) ≠ [] :=
      mt (intercalate_eq_nil fun _ h ↦ (segment_spec h).1).mp hnone
    have hstripped : stripTrailingSlash (['/'].intercalate (segments (forwardSlashes claim)) ++
        if (forwardSlashes claim).toList.getLast? = some '/' then ['/'] else []) =
          ['/'].intercalate (segments (forwardSlashes claim)) := by
      split
      · rw [stripTrailingSlash, List.getLast?_concat, if_pos rfl, List.dropLast_concat]
      · rw [List.append_nil, stripTrailingSlash, if_neg hlast]
    rw [stripLeadingDot_of_ne (hstart _), hstripped, if_neg hjoined, String.toList_ofList]

theorem startsWith_append {s t : String} {rest : List Char} (h : t.toList = s.toList ++ rest) :
    startsWith s t = true := by
  rw [startsWith, h, List.isPrefixOf_iff_prefix]
  exact List.prefix_append _ _

/-- Claims of which one lies at or below the other overlap. -/
theorem pathsOverlap_of_below (hnormalize : ∀ value, platform.posixNormalize value = posixNormalize value)
    (h : Relative claim) (h' : Relative claim') (hleads : ownedSegments claim <+: ownedSegments claim') :
    pathsOverlap (normalizedOwnership platform claim) (normalizedOwnership platform claim') = true ∧
      pathsOverlap (normalizedOwnership platform claim') (normalizedOwnership platform claim) = true := by
  have hclaim := normalizedOwnership_eq hnormalize h
  have hclaim' := normalizedOwnership_eq hnormalize h'
  generalize normalizedOwnership platform claim = left at hclaim ⊢
  generalize normalizedOwnership platform claim' = right at hclaim' ⊢
  obtain ⟨below, hbelow⟩ := hleads
  by_cases hroot : ownedSegments claim = []
  · obtain rfl : left = "." := String.toList_inj.mp (by rw [hclaim, if_pos hroot]; rfl)
    simp [pathsOverlap]
  · by_cases hsame : below = []
    · obtain rfl : left = right := by
        rw [← String.toList_inj, hclaim, hclaim', ← hbelow, hsame, List.append_nil]
      simp [pathsOverlap]
    · have hright : right.toList = (left ++ "/").toList ++ ['/'].intercalate below := by
        rw [hclaim', ← hbelow, if_neg (by simp [hroot]), intercalate_append hroot hsame, String.toList_append, hclaim,
          if_neg hroot]
        simp
      simp [pathsOverlap, startsWith_append hright]

end Ownership

/-! The claims of a team. -/

section Claims

variable {platform : TeamPlatform} {json : Json} {team : TeamDefinition}

theorem relative_of_ok {path : String} (h : OwnedPathOk platform.isAbsolute path) (htrim : trim path = path) :
    Relative path := by
  obtain ⟨⟨hne, -⟩, hown⟩ := h
  rw [htrim] at hne hown
  simp only [ownable, Bool.and_eq_true, decide_eq_true_eq, Bool.not_eq_true', List.contains_eq_mem,
    decide_eq_false_iff_not] at hown
  refine ⟨hne, ?_, ?_⟩
  · rw [forwardSlashes, String.toList_ofList]
    exact hown.1.2
  · rw [forwardSlashes, String.toList_ofList]
    exact hown.2

theorem map_fixed {α : Type} {f : α → α} {xs : List α} (h : xs.map f = xs) : ∀ x ∈ xs, f x = x :=
  List.map_inj_left.mp (h.trans (List.map_id xs).symm)

theorem claims_apart (h : membersApart platform team = true) : team.members.Pairwise fun a b ↦
    ∀ claim ∈ a.ownership, ∀ claim' ∈ b.ownership,
      pathsOverlap (normalizedOwnership platform claim) (normalizedOwnership platform claim') = false := by
  simp only [membersApart, Bool.and_eq_true, decide_eq_true_eq] at h
  obtain ⟨hnames, hclaims⟩ := h
  have hnames : team.members.Pairwise fun a b ↦ a.requestedName ≠ b.requestedName := List.pairwise_map.mp hnames
  refine (hnames.and (List.pairwise_flatMap.mp hclaims).2).imp fun {a b} hpair claim hclaim claim' hclaim' ↦ ?_
  obtain hsame | hapart := hpair.2 _ (List.mem_map_of_mem hclaim) _ (List.mem_map_of_mem hclaim')
  · exact absurd hsame hpair.1
  · exact hapart

/-- A path of the repository lies at or below a claim, whichever way the two are written. -/
def Owns (claim path : String) : Prop := AtOrBelow (forwardSlashes claim) (forwardSlashes path)

/-- No path lies at or below claims of two members. -/
theorem ownership_disjoint (platform : TeamPlatform)
    (hnormalize : ∀ value, platform.posixNormalize value = posixNormalize value) (json : Json) (team : TeamDefinition)
    (h : teamDefinitionSchema platform json = some team) : team.members.Pairwise fun a b ↦
      ∀ claim ∈ a.ownership, ∀ claim' ∈ b.ownership, ∀ path, ¬ (Owns claim path ∧ Owns claim' path) := by
  obtain ⟨hok, htidy⟩ := (TeamDefinition.reads platform).settled json team h
  have hrelative : ∀ member ∈ team.members, ∀ claim ∈ member.ownership, Relative claim := by
    intro member hmember claim hclaim
    have hmember' := map_fixed (congrArg TeamDefinition.members htidy) member hmember
    have htrim := map_fixed (congrArg MemberDefinition.ownership hmember') claim hclaim
    exact relative_of_ok ((hok.members member hmember).ownership.1 claim hclaim) htrim
  have hapart := claims_apart (htidy ▸ hok.apart)
  refine hapart.imp_of_mem fun {a b} ha hb hapart claim hclaim claim' hclaim' path hpath ↦ ?_
  have hclaims := hapart claim hclaim claim' hclaim'
  have hrel := hrelative a ha claim hclaim
  have hrel' := hrelative b hb claim' hclaim'
  obtain hleads | hleads := comparable_of_common hpath.1 hpath.2
  · rw [(pathsOverlap_of_below hnormalize hrel hrel' hleads).1] at hclaims
    cases hclaims
  · rw [(pathsOverlap_of_below hnormalize hrel' hrel hleads).2] at hclaims
    cases hclaims

end Claims

namespace Sample

def posixPlatform : TeamPlatform where
  nfc := id
  nfc_ascii := id_ascii
  sha256 _ := "00"
  sha256_hex _ := zeros_hex
  stringify _ := "\x7b\x7d"
  toLowerCase := id
  isAbsolute := startsWith "/"
  posixNormalize := posixNormalize
  relative _ path := path
  localeLe left right := ordinalLe left right

/-- Two members that own folders next to each other, one of them written another way. -/
def neighbours : TeamDefinition where
  teamName := "pair"
  members := [⟨"worker-a", .low, "focus", ["./src//a\\"], "deliverable", false⟩,
    ⟨"worker-b", .low, "focus", ["src/ab"], "deliverable", false⟩]

end Sample

/-- Neither of them owns the other's files. -/
theorem neighbours_disjoint : ¬ (Owns "./src//a\\" "src/a/main.ts" ∧ Owns "src/ab" "src/a/main.ts") := by
  have hread : teamDefinitionSchema Sample.posixPlatform (encodeTeamDefinition Sample.neighbours) =
      some Sample.neighbours := by decide
  have hapart := ownership_disjoint Sample.posixPlatform (fun _ ↦ rfl) _ _ hread
  exact (List.pairwise_cons.mp hapart).1 _ List.mem_cons_self _ List.mem_cons_self _ List.mem_cons_self _

end OmpLazy.Workflows

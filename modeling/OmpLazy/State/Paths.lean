import OmpLazy.Foundation.Paths
import OmpLazy.Foundation.PlatformPaths
import OmpLazy.Foundation.Spans

/-! Which paths lie within a root. -/

namespace OmpLazy.State

open OmpLazy.Foundation OmpLazy.Foundation.PathRules OmpLazy.Foundation.Paths

/-- Lower case: what stands on either side of a slash is lowered by itself, and nothing becomes a slash or goes away. -/
structure LowerCase where
  toLowerCase : List Char → List Char
  slash : ∀ before behind, toLowerCase (before ++ '/' :: behind) = toLowerCase before ++ '/' :: toLowerCase behind
  lacks : ∀ text, '/' ∉ text → '/' ∉ toLowerCase text
  blank : ∀ text, toLowerCase text = [] ↔ text = []

inductive PathPlatform
  | posix
  | win32
  deriving DecidableEq

namespace PathPlatform

def rules (lower : LowerCase) : PathPlatform → PathRules
  | posix => .posix
  | win32 => .win32 lower.toLowerCase

def isSeparator : PathPlatform → Char → Bool
  | posix, c => c = '/'
  | win32, c => c = '/' || c = '\\'

def separator : PathPlatform → Char
  | posix => '/'
  | win32 => '\\'

/-- The name of a file or a folder, a server or a share. -/
structure IsName (platform : PathPlatform) (name : List Char) : Prop where
  names : ¬ Redundant name
  lacks : ∀ c ∈ name, platform.isSeparator c = false

/-- What a path starts from: the root, a drive or a share, by its segments. -/
inductive IsDevice : PathPlatform → List (List Char) → Prop
  | root : IsDevice .posix [[]]
  | drive {letter : Char} (letters : letter.isAlpha = true) : IsDevice .win32 [[letter, ':']]
  | share {server share : List Char} (names : IsName .win32 server ∧ IsName .win32 share) :
      IsDevice .win32 [[], [], server, share]

end PathPlatform

open PathPlatform

/-- An absolute normalised path. -/
structure AbsolutePath (platform : PathPlatform) where
  device : List (List Char)
  names : List (List Char)
  isDevice : platform.IsDevice device
  isName : ∀ name ∈ names, platform.IsName name

variable {platform : PathPlatform}

/-- The segments that a path is spelled with: the path of a device ends in a separator. -/
def AbsolutePath.segments (path : AbsolutePath platform) : List (List Char) :=
  path.device ++ if path.names = [] then [[]] else path.names

def AbsolutePath.spelled (path : AbsolutePath platform) : List Char :=
  [platform.separator].intercalate path.segments

variable (lower : LowerCase)

def SameDevice (root candidate : AbsolutePath platform) : Prop :=
  List.Forall₂ (fun a b ↦ (platform.rules lower).sameName a b = true) root.device candidate.device

instance (root candidate : AbsolutePath platform) : Decidable (SameDevice lower root candidate) :=
  inferInstanceAs (Decidable (List.Forall₂ _ _ _))

/-- `relative(root, candidate)`: the candidate as it is where it has another device. -/
def relative (root candidate : AbsolutePath platform) : List Char :=
  if SameDevice lower root candidate then (platform.rules lower).relative root.names candidate.names
  else candidate.spelled

def isDisplayPathContained (root candidate : AbsolutePath platform) : Bool :=
  let pathFromRoot := relative lower root candidate
  pathFromRoot = [] || (!(['.', '.', platform.separator].isPrefixOf pathFromRoot) && pathFromRoot ≠ ['.', '.'])

/-- `replace(/\/$/, "")` -/
def dropSlash (path : List Char) : List Char := if path.getLast? = some '/' then path.dropLast else path

def canonicalComparisonPath (platform : PathPlatform) (path : List Char) : List Char :=
  let normalized := dropSlash (withSlashes path)
  if platform = .win32 then lower.toLowerCase normalized else normalized

def isCanonicalPathContained (platform : PathPlatform) (root candidate : List Char) : Bool :=
  let canonicalRoot := canonicalComparisonPath lower platform root
  let canonicalCandidate := canonicalComparisonPath lower platform candidate
  canonicalCandidate = canonicalRoot || (canonicalRoot ++ ['/']).isPrefixOf canonicalCandidate

/-- The candidate is the root, or lies below it segment by segment. -/
def Below (root candidate : AbsolutePath platform) : Prop :=
  SameDevice lower root candidate ∧ Leads (platform.rules lower).sameName root.names candidate.names

/-! Display paths. -/

section Display

variable {lower : LowerCase} {root candidate : AbsolutePath platform} {names : List (List Char)}

theorem rules_separator (lower : LowerCase) (platform : PathPlatform) :
    (platform.rules lower).separator = platform.separator := by
  cases platform <;> rfl

theorem isSeparator_separator (platform : PathPlatform) : platform.isSeparator platform.separator = true := by
  cases platform <;> decide

theorem PathPlatform.IsName.separator_notMem {name : List Char} (h : platform.IsName name) : platform.separator ∉ name := by
  intro hmem
  have hlacks := h.lacks _ hmem
  rw [isSeparator_separator] at hlacks
  cases hlacks

/-- What leads down does not begin with a parent. -/
theorem not_climbs_of_names (hnames : ∀ name ∈ names, platform.IsName name) :
    ¬ ['.', '.', platform.separator] <+: [platform.separator].intercalate names ∧
      [platform.separator].intercalate names ≠ ['.', '.'] := by
  have hparent : platform.separator ∉ ['.', '.'] := by cases platform <;> decide
  by_cases hnil : names = []
  · rw [hnil, List.intercalate_nil]
    exact ⟨fun hleads ↦ List.cons_ne_nil _ _ (List.prefix_nil.mp hleads), (List.cons_ne_nil _ _).symm⟩
  · have hsplit := List.splitOn_intercalate platform.separator (fun name hname ↦ (hnames name hname).separator_notMem) hnil
    constructor
    · rintro ⟨rest, hrest⟩
      rw [← hrest] at hsplit
      have hcut := List.splitOn_append_cons_self_of_not_mem hparent rest
      rw [List.cons_append, List.cons_append, List.nil_append] at hcut
      have hfirst : ['.', '.'] ∈ names := by
        rw [← hsplit]
        exact hcut ▸ List.mem_cons_self
      exact (hnames _ hfirst).names (.inr (.inr rfl))
    · intro hparents
      rw [hparents, List.splitOn_eq_singleton hparent] at hsplit
      exact (hnames ['.', '.'] (hsplit ▸ List.mem_singleton_self _)).names (.inr (.inr rfl))

theorem climbs_of_parent (names : List (List Char)) :
    ['.', '.', platform.separator] <+: [platform.separator].intercalate (['.', '.'] :: names) ∨
      [platform.separator].intercalate (['.', '.'] :: names) = ['.', '.'] := by
  rw [intercalate_cons]
  cases names with
  | nil => exact .inr rfl
  | cons name names =>
    rw [List.flatMap_cons]
    exact .inl ⟨_, rfl⟩

theorem isDisplayPathContained_iff : isDisplayPathContained lower root candidate = true ↔
    relative lower root candidate = [] ∨ ¬ ['.', '.', platform.separator] <+: relative lower root candidate ∧
      relative lower root candidate ≠ ['.', '.'] := by
  simp only [isDisplayPathContained, Bool.or_eq_true, Bool.and_eq_true, decide_eq_true_eq, Bool.not_eq_true',
    Bool.eq_false_iff, Ne, List.isPrefixOf_iff_prefix]

theorem display_same (h : SameDevice lower root candidate) : isDisplayPathContained lower root candidate = true ↔
    Leads (platform.rules lower).sameName root.names candidate.names := by
  rw [isDisplayPathContained_iff, relative, if_pos h, PathRules.relative, rules_separator, leads_iff]
  have hle := commonLength_le (platform.rules lower).sameName root.names candidate.names
  generalize commonLength (platform.rules lower).sameName root.names candidate.names = common at hle
  constructor
  · intro hcontained
    by_contra hne
    obtain ⟨climbs, hclimbs⟩ := Nat.exists_eq_succ_of_ne_zero (n := root.names.length - common) (by omega)
    rw [hclimbs, List.replicate_succ, List.cons_append] at hcontained
    obtain hnil | ⟨hparents, hparent⟩ := hcontained
    · rw [intercalate_cons] at hnil
      cases hnil
    · obtain hleads | heq := @climbs_of_parent platform (List.replicate climbs ['.', '.'] ++ candidate.names.drop common)
      · exact hparents hleads
      · exact hparent heq
  · rintro rfl
    rw [Nat.sub_self, List.replicate_zero, List.nil_append]
    exact .inr (not_climbs_of_names fun name hname ↦ candidate.isName name (List.mem_of_mem_drop hname))

theorem sameDevice_posix (root candidate : AbsolutePath .posix) : SameDevice lower root candidate := by
  obtain ⟨device, names, hdevice, hnames⟩ := root
  obtain ⟨device', names', hdevice', hnames'⟩ := candidate
  cases hdevice
  cases hdevice'
  exact .cons (PathRules.same _ _) .nil

theorem spelled_first (path : AbsolutePath .win32) : ∃ c cs, path.spelled = c :: cs ∧ c ≠ '.' := by
  obtain ⟨device, names, hdevice, hnames⟩ := path
  rw [AbsolutePath.spelled, AbsolutePath.segments]
  cases hdevice with
  | @drive letter hletter =>
    refine ⟨letter, _, intercalate_cons _ _ _, ?_⟩
    rintro rfl
    exact absurd hletter (by decide)
  | share => exact ⟨'\\', _, intercalate_cons _ _ _, by decide⟩

/-- Another drive or share counts as contained. -/
theorem display_other (h : ¬ SameDevice lower root candidate) : isDisplayPathContained lower root candidate = true := by
  rw [isDisplayPathContained_iff, relative, if_neg h]
  cases platform with
  | posix => exact absurd (sameDevice_posix root candidate) h
  | win32 =>
    obtain ⟨c, cs, hspelled, hc⟩ := spelled_first candidate
    rw [hspelled]
    exact .inr ⟨fun hleads ↦ hc (List.cons_prefix_cons.mp hleads).1.symm, fun heq ↦ hc (List.cons.inj heq).1⟩

end Display

/-! Canonical paths. -/

/-- Segments without the one that a separator at the end leaves. -/
def dropBlank (segments : List (List Char)) : List (List Char) :=
  if segments.getLast? = some [] then segments.dropLast else segments

section Canonical

variable {lower : LowerCase} {path text : List Char} {segments names : List (List Char)}

theorem dropBlank_concat (segments : List (List Char)) : dropBlank (segments ++ [[]]) = segments := by
  rw [dropBlank, List.getLast?_concat, if_pos rfl, List.dropLast_concat]

theorem dropBlank_append (segments : List (List Char)) (hne : names ≠ []) :
    dropBlank (segments ++ names) = segments ++ dropBlank names := by
  rw [dropBlank, dropBlank, List.getLast?_append_of_ne_nil _ hne, List.dropLast_append_of_ne_nil hne]
  split <;> rfl

theorem splitOn_dropSlash (hne : path ≠ []) : (dropSlash path).splitOn '/' = dropBlank (path.splitOn '/') := by
  by_cases hslash : path.getLast? = some '/'
  · obtain ⟨front, rfl⟩ := List.getLast?_eq_some_iff.mp hslash
    have hsplit : (front ++ ['/']).splitOn '/' = front.splitOn '/' ++ [[]] := List.splitOn_append_cons_self front []
    rw [dropSlash, if_pos hslash, List.dropLast_concat, hsplit, dropBlank_concat]
  · rw [dropSlash, if_neg hslash, dropBlank, if_neg]
    intro hblank
    obtain ⟨front, hfront⟩ := List.getLast?_eq_some_iff.mp hblank
    have hpath : ['/'].intercalate (path.splitOn '/') = path := List.intercalate_splitOn '/'
    rw [hfront] at hpath
    cases front with
    | nil => exact hne hpath.symm
    | cons first front =>
      rw [List.cons_append, intercalate_cons, List.flatMap_append, List.flatMap_singleton, List.append_nil,
        ← List.append_assoc] at hpath
      exact hslash (hpath ▸ List.getLast?_concat)

/-- A text is lowered segment by segment. -/
theorem splitOn_toLowerCase (lower : LowerCase) (text : List Char) :
    (lower.toLowerCase text).splitOn '/' = (text.splitOn '/').map lower.toLowerCase := by
  induction hlength : text.length using Nat.strong_induction_on generalizing text with
  | _ n ih =>
    by_cases hslash : '/' ∈ text
    · obtain ⟨before, behind, rfl, hbefore⟩ := List.eq_append_cons_of_mem hslash
      rw [List.length_append, List.length_cons] at hlength
      rw [lower.slash, List.splitOn_append_cons_self_of_not_mem (lower.lacks before hbefore),
        List.splitOn_append_cons_self_of_not_mem hbefore, List.map_cons, ih behind.length (by omega) behind rfl]
    · rw [List.splitOn_eq_singleton hslash, List.splitOn_eq_singleton (lower.lacks text hslash), List.map_singleton]

theorem isCanonicalPathContained_iff {root candidate : List Char} :
    isCanonicalPathContained lower platform root candidate = true ↔
      (canonicalComparisonPath lower platform root).splitOn '/' <+:
        (canonicalComparisonPath lower platform candidate).splitOn '/' := by
  simp only [isCanonicalPathContained, Bool.or_eq_true, decide_eq_true_eq, List.isPrefixOf_iff_prefix, splitOn_isPrefix]

theorem separator_slash (platform : PathPlatform) : platform.separator = '/' ∨ platform.separator = '\\' := by
  cases platform with
  | posix => exact .inl rfl
  | win32 => exact .inr rfl

theorem segments_cons (path : AbsolutePath platform) : ∃ first second others, path.segments = first :: second :: others := by
  have htail : ∃ name names, (if path.names = [] then [[]] else path.names) = name :: names := by
    split
    · exact ⟨[], [], rfl⟩
    · rename_i hne
      exact List.exists_cons_of_ne_nil hne
  obtain ⟨name, names, htail⟩ := htail
  obtain ⟨device, _, hdevice, _⟩ := path
  rw [AbsolutePath.segments, htail]
  cases hdevice with
  | root => exact ⟨_, _, _, rfl⟩
  | drive => exact ⟨_, _, _, rfl⟩
  | share => exact ⟨_, _, _, rfl⟩

/-- The segments of a path once backslashes separate as well. -/
theorem splitOn_folded (path : AbsolutePath platform) :
    (dropSlash (withSlashes path.spelled)).splitOn '/' = dropBlank (path.segments.flatMap pieces) := by
  obtain ⟨first, second, others, hsegments⟩ := segments_cons path
  have hpieces : pieces path.spelled = path.segments.flatMap pieces :=
    pieces_intercalate (separator_slash platform) (hsegments ▸ List.cons_ne_nil _ _)
  have hne : path.spelled ≠ [] := by
    rw [AbsolutePath.spelled, hsegments, intercalate_cons, List.flatMap_cons, List.append_assoc]
    exact List.append_ne_nil_of_right_ne_nil _ (List.cons_ne_nil _ _)
  have hfolded : withSlashes path.spelled ≠ [] := mt List.map_eq_nil_iff.mp hne
  rw [splitOn_dropSlash hfolded, ← hpieces, pieces]

theorem dropBlank_names (hnames : ∀ name ∈ names, name ≠ []) : dropBlank names = names := by
  rw [dropBlank, if_neg]
  exact fun hlast ↦ hnames [] (List.mem_of_getLast? hlast) rfl

theorem dropBlank_segments (path : AbsolutePath platform) : dropBlank path.segments = path.device ++ path.names := by
  rw [AbsolutePath.segments]
  split
  · rename_i hnil
    rw [dropBlank_concat, hnil, List.append_nil]
  · rename_i hne
    rw [dropBlank_append _ hne, dropBlank_names]
    exact fun name hname hnil ↦ (path.isName name hname).names (.inl hnil)

theorem PathPlatform.IsName.whole {name : List Char} (h : IsName .win32 name) : pieces name = [name] := by
  refine pieces_whole fun c hc ↦ ?_
  have hlacks := h.lacks c hc
  rw [isSeparator, Bool.or_eq_false_iff, decide_eq_false_iff_not, decide_eq_false_iff_not] at hlacks
  exact hlacks

theorem flatMap_whole (h : ∀ segment ∈ segments, pieces segment = [segment]) : segments.flatMap pieces = segments := by
  induction segments with
  | nil => rfl
  | cons segment segments ih =>
    obtain ⟨hsegment, hrest⟩ := List.forall_mem_cons.mp h
    rw [List.flatMap_cons, hsegment, ih hrest, List.singleton_append]

theorem segments_whole (path : AbsolutePath .win32) : ∀ segment ∈ path.segments, pieces segment = [segment] := by
  have hblank : pieces [] = [[]] := rfl
  intro segment hsegment
  obtain hdevice | hnames := List.mem_append.mp hsegment
  · obtain ⟨device, names, hisDevice, _⟩ := path
    cases hisDevice with
    | @drive letter hletter =>
      obtain rfl := List.mem_singleton.mp hdevice
      refine pieces_whole fun c hc ↦ ?_
      obtain rfl | hc := List.mem_cons.mp hc
      · constructor <;>
        · rintro rfl
          exact absurd hletter (by decide)
      · obtain rfl := List.mem_singleton.mp hc
        exact ⟨by decide, by decide⟩
    | @share server share hshare =>
      simp only [List.mem_cons, List.not_mem_nil, or_false] at hdevice
      obtain rfl | rfl | rfl | rfl := hdevice
      · exact hblank
      · exact hblank
      · exact hshare.1.whole
      · exact hshare.2.whole
  · split at hnames
    · rw [List.mem_singleton.mp hnames]
      exact hblank
    · exact (path.isName segment hnames).whole

theorem canonical_win32 (path : AbsolutePath .win32) : (canonicalComparisonPath lower .win32 path.spelled).splitOn '/' =
    (path.device ++ path.names).map lower.toLowerCase := by
  rw [canonicalComparisonPath, if_pos rfl, splitOn_toLowerCase, splitOn_folded, flatMap_whole (segments_whole path),
    dropBlank_segments]

/-- POSIX names where a backslash separates as well. -/
def backslashed (names : List (List Char)) : List (List Char) := dropBlank (names.flatMap fun name ↦ name.splitOn '\\')

theorem pieces_of_name {name : List Char} (h : '/' ∉ name) : pieces name = name.splitOn '\\' := by
  induction name with
  | nil => rfl
  | cons c name ih =>
    rw [List.mem_cons, not_or] at h
    by_cases hback : c = '\\'
    · rw [pieces_slash (.inr hback), ih h.2, List.splitOn_cons_eq_if_modifyHead, if_pos (beq_iff_eq.mpr hback)]
    · rw [pieces_cons (Ne.symm h.1) hback, ih h.2, List.splitOn_cons_eq_if_modifyHead, if_neg (mt beq_iff_eq.mp hback)]

theorem flatMap_pieces (h : ∀ name ∈ names, IsName .posix name) :
    names.flatMap pieces = names.flatMap fun name ↦ name.splitOn '\\' := by
  refine List.flatMap_congr fun name hname ↦ pieces_of_name fun hslash ↦ ?_
  have hlacks := (h name hname).lacks '/' hslash
  cases hlacks

theorem canonical_posix (path : AbsolutePath .posix) : (canonicalComparisonPath lower .posix path.spelled).splitOn '/' =
    [] :: backslashed path.names := by
  have hdevice : path.device = [[]] := by
    obtain ⟨device, names, hdevice, _⟩ := path
    cases hdevice
    rfl
  rw [canonicalComparisonPath, if_neg (by decide), splitOn_folded, AbsolutePath.segments, hdevice, List.flatMap_append,
    List.flatMap_singleton, backslashed, ← flatMap_pieces path.isName]
  have hblank : pieces [] = [[]] := rfl
  by_cases hnil : path.names = []
  · rw [if_pos hnil, hnil, List.flatMap_singleton, hblank, dropBlank_concat]
    rfl
  · obtain ⟨name, names, hnames⟩ := List.exists_cons_of_ne_nil hnil
    rw [if_neg hnil, hblank, dropBlank_append, List.singleton_append]
    rw [hnames, List.flatMap_cons]
    exact List.append_ne_nil_of_left_ne_nil (pieces_ne_nil name) _

theorem dropBlank_leads (segments : List (List Char)) : dropBlank segments <+: segments := by
  rw [dropBlank]
  split
  · exact List.dropLast_prefix _
  · exact List.prefix_rfl

theorem backslashed_leads {names' : List (List Char)} (h : names <+: names') : backslashed names <+: backslashed names' := by
  obtain ⟨rest, rfl⟩ := h
  rw [backslashed, backslashed, List.flatMap_append]
  by_cases hnil : (rest.flatMap fun name ↦ name.splitOn '\\') = []
  · exact ⟨[], (List.append_nil _).trans (congrArg dropBlank (by rw [hnil, List.append_nil]))⟩
  · rw [dropBlank_append _ hnil]
    exact (dropBlank_leads _).trans (List.prefix_append _ _)

end Canonical

/-! Where containment is exact. -/

section Exact

variable {lower : LowerCase}

theorem below_posix {root candidate : AbsolutePath .posix} : Below lower root candidate ↔ root.names <+: candidate.names := by
  have hsame : ∀ a b, (PathPlatform.posix.rules lower).sameName a b = true ↔ id a = id b := fun _ _ ↦ decide_eq_true_iff
  rw [Below, and_iff_right (sameDevice_posix root candidate), leads_map hsame, List.map_id, List.map_id]

theorem below_win32 {root candidate : AbsolutePath .win32} : Below lower root candidate ↔
    root.device.map lower.toLowerCase = candidate.device.map lower.toLowerCase ∧
      root.names.map lower.toLowerCase <+: candidate.names.map lower.toLowerCase := by
  have hsame : ∀ a b, (PathPlatform.win32.rules lower).sameName a b = true ↔ lower.toLowerCase a = lower.toLowerCase b :=
    fun _ _ ↦ decide_eq_true_iff
  rw [Below, SameDevice, forall₂_map hsame, leads_map hsame]

theorem canonical_posix_iff {root candidate : AbsolutePath .posix} :
    isCanonicalPathContained lower .posix root.spelled candidate.spelled = true ↔
      backslashed root.names <+: backslashed candidate.names := by
  rw [isCanonicalPathContained_iff, canonical_posix, canonical_posix, List.cons_prefix_cons, and_iff_right rfl]

theorem append_prefix_append {α : Type*} {xs xs' ys ys' : List α} (h : xs.length = xs'.length) :
    xs ++ ys <+: xs' ++ ys' ↔ xs = xs' ∧ ys <+: ys' := by
  constructor
  · rintro ⟨rest, hrest⟩
    rw [List.append_assoc] at hrest
    obtain ⟨rfl, rfl⟩ := List.append_inj hrest h
    exact ⟨rfl, List.prefix_append _ _⟩
  · rintro ⟨rfl, hys⟩
    exact (List.prefix_append_right_inj _).mpr hys

theorem canonical_win32_iff {root candidate : AbsolutePath .win32} :
    isCanonicalPathContained lower .win32 root.spelled candidate.spelled = true ↔ Below lower root candidate := by
  rw [isCanonicalPathContained_iff, canonical_win32, canonical_win32, List.map_append, List.map_append, below_win32]
  by_cases hlength : root.device.length = candidate.device.length
  · exact append_prefix_append (by rw [List.length_map, List.length_map, hlength])
  · obtain ⟨device, names, hdevice, hnames⟩ := root
    obtain ⟨device', names', hdevice', hnames'⟩ := candidate
    have hblank := (lower.blank []).mpr rfl
    cases hdevice with
    | @drive letter hletter =>
      have hletter := mt (lower.blank [letter, ':']).mp (List.cons_ne_nil _ _)
      cases hdevice' with
      | drive => exact absurd rfl hlength
      | share => simp [hblank, hletter]
    | share =>
      cases hdevice' with
      | @drive letter hletter =>
        have hletter := mt (lower.blank [letter, ':']).mp (List.cons_ne_nil _ _)
        simp [hblank, Ne.symm hletter]
      | share => exact absurd rfl hlength

/-- On POSIX no backslash in a name makes the root lead the candidate; on Windows both are on one drive or share. -/
def Unmistaken (lower : LowerCase) : {platform : PathPlatform} → AbsolutePath platform → AbsolutePath platform → Prop
  | .posix, root, candidate => backslashed root.names <+: backslashed candidate.names → root.names <+: candidate.names
  | .win32, root, candidate => SameDevice lower root candidate

/-- Both guards find the candidates below the root, and no others, where nothing is mistaken for a path below it. -/
theorem containment_exact_iff (lower : LowerCase) (platform : PathPlatform) (root candidate : AbsolutePath platform) :
    ((isDisplayPathContained lower root candidate = true ↔ Below lower root candidate) ∧
      (isCanonicalPathContained lower platform root.spelled candidate.spelled = true ↔ Below lower root candidate)) ↔
    Unmistaken lower root candidate := by
  cases platform with
  | posix =>
    have hsame : SameDevice lower root candidate := sameDevice_posix root candidate
    have hdisplay : isDisplayPathContained lower root candidate = true ↔ Below lower root candidate := by
      rw [display_same hsame, Below, and_iff_right hsame]
    rw [and_iff_right hdisplay, canonical_posix_iff, below_posix]
    exact ⟨fun h ↦ h.mp, fun h ↦ ⟨h, backslashed_leads⟩⟩
  | win32 =>
    rw [and_iff_left canonical_win32_iff]
    constructor
    · intro h
      by_contra hother
      exact hother (h.mp (display_other hother)).1
    · intro hsame
      have hsame : SameDevice lower root candidate := hsame
      rw [display_same hsame, Below, and_iff_right hsame]

end Exact

namespace Sample

/-- Lower case of a text that has it already. -/
def lowered : LowerCase where
  toLowerCase := id
  slash _ _ := rfl
  lacks _ h := h
  blank _ := Iff.rfl

def onDrive (letter : Char) (h : letter.isAlpha = true) : AbsolutePath .win32 :=
  ⟨[[letter, ':']], [], .drive h, List.forall_mem_nil _⟩

def named (name : List Char) (h : IsName .posix name) : AbsolutePath .posix :=
  ⟨[[]], [name], .root, List.forall_mem_singleton.mpr h⟩

def plain : AbsolutePath .posix := named ['a'] ⟨by decide, List.all_iff_forall_prop.mp (by decide)⟩

def withBackslash : AbsolutePath .posix := named ['a', '\\', 'b'] ⟨by decide, List.all_iff_forall_prop.mp (by decide)⟩

end Sample

open Sample in
/-- `relative` leaves the path of another drive as it is, and a name with a backslash becomes two. -/
theorem others_contained :
    (isDisplayPathContained lowered (onDrive 'c' rfl) (onDrive 'd' rfl) = true ∧
      ¬ Below lowered (onDrive 'c' rfl) (onDrive 'd' rfl)) ∧
    isCanonicalPathContained lowered .posix plain.spelled withBackslash.spelled = true ∧
      ¬ Below lowered plain withBackslash := by
  have hdrive : ¬ SameDevice lowered (onDrive 'c' rfl) (onDrive 'd' rfl) := by decide
  refine ⟨⟨display_other hdrive, fun hbelow ↦ hdrive hbelow.1⟩, canonical_posix_iff.mpr (by decide), ?_⟩
  rw [below_posix]
  decide

end OmpLazy.State

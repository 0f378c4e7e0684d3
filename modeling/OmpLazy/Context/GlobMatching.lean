import OmpLazy.Context.RulesAssembly
import OmpLazy.Foundation.Paths
import OmpLazy.Foundation.Wildcard

/-! What a glob matches. -/

namespace OmpLazy.Context

open OmpLazy.Foundation OmpLazy.Foundation.Wildcard Glob

/-! The meaning of a glob. -/

/-- A star is a wildcard, and a question mark takes one character. -/
def symbol (c : UInt16) : Option (Option UInt16) :=
  if c = star then none else if c = question then some none else some (some c)

def Takes (wanted : Option UInt16) (c : UInt16) : Prop := ∀ d ∈ wanted, d = c

def SegmentMatches (pattern segment : CodeUnits) : Prop := Matches Takes (pattern.map symbol) segment

/-- A segment of two stars is a wildcard for segments. -/
def segmentSymbol (part : CodeUnits) : Option CodeUnits := if part = [star, star] then none else some part

def GlobMatches (glob path : CodeUnits) : Prop := Matches SegmentMatches ((parts glob).map segmentSymbol) (parts path)

section Segments

variable {pattern segment rest : CodeUnits} {saved : Option StarPosition} {c d : UInt16}

@[simp] theorem symbol_star : symbol star = none := rfl

@[simp] theorem symbol_question : symbol question = some none := rfl

theorem symbol_eq_none : symbol c = none ↔ c = star := by
  unfold symbol
  split
  · simp_all
  · split <;> simp_all

/-- A character of a segment is taken by a question mark and by itself. -/
theorem matches_head (hhead : pattern.head? = some question ∨ pattern.head? = some c)
    (h : SegmentMatches pattern.tail rest) : SegmentMatches pattern (c :: rest) := by
  cases pattern with
  | nil => simp at hhead
  | cons d pattern =>
    simp only [List.head?_cons, Option.some.injEq, List.tail_cons] at hhead h
    obtain rfl | rfl := hhead
    · exact .one (fun _ hd ↦ absurd hd (Option.not_mem_none _)) h
    · by_cases hstar : d = star
      · subst hstar
        exact .more (.skip h)
      · rw [SegmentMatches, List.map_cons, symbol, if_neg hstar]
        split
        · exact .one (fun _ hd ↦ absurd hd (Option.not_mem_none _)) h
        · exact .one (fun _ hd ↦ (Option.some.inj hd).symm) h

/-- The only patterns that take a character that is no star without a star are those. -/
theorem head_of_matches (hstar : pattern.head? ≠ some star) (h : SegmentMatches pattern (c :: rest)) :
    (pattern.head? = some question ∨ pattern.head? = some c) ∧ SegmentMatches pattern.tail rest := by
  cases pattern with
  | nil => cases h
  | cons d pattern =>
    have hd : d ≠ star := fun heq ↦ hstar (congrArg some heq)
    rw [SegmentMatches, List.map_cons, symbol, if_neg hd] at h
    simp only [List.head?_cons, Option.some.injEq, List.tail_cons]
    split at h
    · rename_i hquestion
      exact ⟨.inl hquestion, (Matches.some_iff.mp h).2⟩
    · obtain ⟨htakes, h⟩ := Matches.some_iff.mp h
      exact ⟨.inr (htakes d rfl), h⟩

theorem eq_star_cons (h : pattern.head? = some star) : pattern = star :: pattern.tail := by
  cases pattern with
  | nil => cases h
  | cons d pattern => rw [List.tail_cons, Option.some.inj h]

/-- Where the loop ends with a match there is one, from where it stands or from the star that it remembers. -/
theorem segmentLoop_sound {hsaved} (h : segmentLoop pattern segment saved hsaved = true) :
    SegmentMatches pattern segment ∨ ∃ s ∈ saved, SegmentMatches (star :: s.pattern) s.segment := by
  fun_induction segmentLoop pattern segment saved hsaved with
  | case1 pattern saved hsaved =>
    left
    rw [SegmentMatches, Matches.nil_right_iff]
    simpa [List.all_eq_true, symbol_eq_none] using h
  | case2 pattern saved c rest hsaved hhead _ ih =>
    obtain h | h := ih h
    · exact .inl (matches_head hhead h)
    · exact .inr h
  | case3 pattern saved c rest hsaved _ hstar _ ih =>
    left
    rw [eq_star_cons hstar]
    obtain h | ⟨s, hs, h⟩ := ih h
    · exact .skip h
    · obtain rfl := Option.some.inj hs
      exact h
  | case4 => cases h
  | case5 pattern c rest hhead hstar s hsaved _ ih =>
    have hmatches : SegmentMatches (star :: s.pattern) s.segment.tail := by
      obtain h | ⟨s', hs', h⟩ := ih h
      · exact .skip h
      · obtain rfl := Option.some.inj hs'
        exact h
    exact .inr ⟨s, rfl, hmatches.of_suffix (List.tail_suffix _)⟩

/-- The loop has come from the star that it remembers without passing another one. -/
structure StarPosition.Reaches (s : StarPosition) (pattern segment : CodeUnits) : Prop where
  plain : star ∉ s.segment
  passed : ∃ front taken, s.pattern = front ++ pattern ∧ s.segment = taken ++ segment ∧
    front.length = taken.length ∧ star ∉ front

theorem StarPosition.Reaches.refl (h : star ∉ segment) : StarPosition.Reaches ⟨pattern, segment⟩ pattern segment :=
  ⟨h, [], [], rfl, rfl, rfl, List.not_mem_nil⟩

theorem StarPosition.Reaches.step {s : StarPosition} (h : s.Reaches pattern (c :: rest))
    (hhead : pattern.head? = some question ∨ pattern.head? = some c) : s.Reaches pattern.tail rest := by
  obtain ⟨front, taken, hpattern, hsegment, hlength, hfront⟩ := h.passed
  have hc : c ≠ star := by
    rintro rfl
    exact h.plain (hsegment ▸ by simp)
  cases pattern with
  | nil => simp at hhead
  | cons d pattern =>
    refine ⟨h.plain, front ++ [d], taken ++ [c], by simp [hpattern], by simp [hsegment], by simp [hlength], ?_⟩
    have hd : star ≠ d := by
      simp only [List.head?_cons, Option.some.injEq] at hhead
      obtain rfl | rfl := hhead
      · decide
      · exact hc.symm
    simp [hfront, hd]

theorem exists_map_some {front : CodeUnits} (h : star ∉ front) :
    ∃ bs : List (Option UInt16), front.map symbol = bs.map some ∧ bs.length = front.length := by
  induction front with
  | nil => exact ⟨[], rfl, rfl⟩
  | cons d front ih =>
    simp only [List.mem_cons, not_or] at h
    obtain ⟨bs, hbs, hlength⟩ := ih h.2
    obtain ⟨b, hb⟩ := Option.ne_none_iff_exists.mp (mt symbol_eq_none.mp (Ne.symm h.1))
    exact ⟨b :: bs, by rw [List.map_cons, hbs, ← hb, List.map_cons], by simp [hlength]⟩

/-- What matches from the star on has its rest from where the loop stands on. -/
theorem StarPosition.Reaches.behind {s : StarPosition} (h : s.Reaches pattern segment)
    (hmatches : SegmentMatches (star :: s.pattern) s.segment.tail) :
    ∃ rest, rest <:+ segment ∧ SegmentMatches pattern rest := by
  obtain ⟨front, taken, hpattern, hsegment, hlength, hfront⟩ := h.passed
  obtain ⟨bs, hbs, hcount⟩ := exists_map_some hfront
  rw [SegmentMatches, List.map_cons, symbol_star, hpattern, List.map_append, hbs] at hmatches
  exact hmatches.forget (hcount.trans hlength) (hsegment ▸ List.tail_suffix _)

/-- Where the loop ends without a match in a segment without stars there is none. -/
theorem segmentLoop_complete {hsaved} (hplain : star ∉ segment) (hreaches : ∀ s ∈ saved, s.Reaches pattern segment)
    (h : ¬ segmentLoop pattern segment saved hsaved = true) :
    ¬ SegmentMatches pattern segment ∧ ∀ s ∈ saved, ¬ SegmentMatches (star :: s.pattern) s.segment.tail := by
  fun_induction segmentLoop pattern segment saved hsaved with
  | case1 pattern saved hsaved =>
    have hpattern : ¬ SegmentMatches pattern [] := by
      rw [SegmentMatches, Matches.nil_right_iff]
      simpa [List.all_eq_true, symbol_eq_none] using h
    refine ⟨hpattern, fun s hs hmatches ↦ ?_⟩
    obtain ⟨rest, hrest, hmatches⟩ := (hreaches s hs).behind hmatches
    obtain rfl := List.suffix_nil.mp hrest
    exact hpattern hmatches
  | case2 pattern saved c rest hsaved hhead _ ih =>
    obtain ⟨hc, hrest⟩ := not_or.mp (mt List.mem_cons.mpr hplain)
    obtain ⟨hnone, hstars⟩ := ih hrest (fun s hs ↦ (hreaches s hs).step hhead) h
    refine ⟨fun hmatches ↦ hnone (head_of_matches ?_ hmatches).2, hstars⟩
    rintro hstar
    rw [hstar] at hhead
    obtain hhead | hhead := hhead
    · exact absurd (Option.some.inj hhead) (by decide)
    · exact hc (Option.some.inj hhead)
  | case3 pattern saved c rest hsaved _ hstar _ ih =>
    obtain ⟨hnone, hstars⟩ := ih hplain (fun s hs ↦ Option.some.inj hs ▸ .refl hplain) h
    have hpattern : ¬ SegmentMatches pattern (c :: rest) := by
      rw [eq_star_cons hstar, SegmentMatches, List.map_cons, symbol_star, Matches.none_cons_iff, not_or]
      exact ⟨hnone, hstars _ rfl⟩
    refine ⟨hpattern, fun s hs hmatches ↦ hpattern ?_⟩
    obtain ⟨r, hr, hmatches⟩ := (hreaches s hs).behind hmatches
    rw [eq_star_cons hstar] at hmatches ⊢
    exact hmatches.of_suffix hr
  | case4 pattern c rest hhead hstar =>
    exact ⟨fun hmatches ↦ hhead (head_of_matches hstar hmatches).1, fun s hs ↦ absurd hs (Option.not_mem_none s)⟩
  | case5 pattern c rest hhead hstar s hsaved _ ih =>
    refine ⟨fun hmatches ↦ hhead (head_of_matches hstar hmatches).1, fun s' hs' ↦ ?_⟩
    obtain rfl := Option.some.inj hs'
    have hplain' : star ∉ s.segment.tail := fun hmem ↦ (hreaches s rfl).plain (List.mem_of_mem_tail hmem)
    obtain ⟨hnone, hstars⟩ := ih hplain' (fun s hs ↦ Option.some.inj hs ▸ .refl hplain') h
    cases hsegment : s.segment.tail with
    | nil =>
      rw [hsegment] at hnone
      exact fun hmatches ↦ hnone (Matches.none_nil_iff.mp hmatches)
    | cons a t =>
      have htail := hstars _ rfl
      rw [hsegment] at hnone htail
      exact fun hmatches ↦ (Matches.none_cons_iff.mp hmatches).elim hnone htail

theorem segmentMatch_sound (h : segmentMatch pattern segment = true) : SegmentMatches pattern segment := by
  obtain h | ⟨s, hs, -⟩ := segmentLoop_sound h
  · exact h
  · cases hs

theorem segmentMatch_iff (hplain : star ∉ segment) :
    segmentMatch pattern segment = true ↔ SegmentMatches pattern segment := by
  refine ⟨segmentMatch_sound, not_imp_not.mp fun h ↦ ?_⟩
  exact (segmentLoop_complete hplain (fun _ hs ↦ absurd hs (Option.not_mem_none _)) h).1

theorem segmentLoop_plain {hsaved} (hplain : star ∉ pattern) (hnone : saved = none)
    (h : ¬ segmentLoop pattern segment saved hsaved = true) : ¬ SegmentMatches pattern segment := by
  fun_induction segmentLoop pattern segment saved hsaved with
  | case1 pattern saved =>
    rw [SegmentMatches, Matches.nil_right_iff]
    simpa [List.all_eq_true, symbol_eq_none] using h
  | case2 pattern saved c rest _ hhead _ ih =>
    have hstar : pattern.head? ≠ some star := fun heq ↦ hplain (List.mem_of_mem_head? heq)
    have htail : star ∉ pattern.tail := fun hmem ↦ hplain (List.mem_of_mem_tail hmem)
    exact fun hmatches ↦ ih htail hnone h (head_of_matches hstar hmatches).2
  | case3 pattern saved c rest _ _ hstar => exact absurd (List.mem_of_mem_head? hstar) hplain
  | case4 pattern c rest hhead hstar => exact fun hmatches ↦ hhead (head_of_matches hstar hmatches).1
  | case5 => cases hnone

/-- Patterns without a star are matched exactly. -/
theorem segmentMatch_iff_of_pattern (hplain : star ∉ pattern) :
    segmentMatch pattern segment = true ↔ SegmentMatches pattern segment :=
  ⟨segmentMatch_sound, not_imp_not.mp (segmentLoop_plain hplain rfl)⟩

theorem segmentMatches_self (pattern : CodeUnits) : SegmentMatches pattern pattern := by
  induction pattern with
  | nil => exact .nil
  | cons c pattern ih => exact matches_head (.inr rfl) ih

/-- The loop takes a pattern for itself, star for star, and has nothing left to take more. -/
theorem segmentLoop_append {more : CodeUnits} (hmore : more ≠ []) (pattern : CodeUnits) {hsaved} :
    ¬ segmentLoop pattern (pattern ++ more) none hsaved = true := by
  induction pattern with
  | nil =>
    obtain ⟨c, rest, rfl⟩ := List.exists_cons_of_ne_nil hmore
    change ¬ segmentLoop [] (c :: rest) none _ = true
    rw [segmentLoop]
    simp
  | cons c pattern ih =>
    change ¬ segmentLoop (c :: pattern) (c :: (pattern ++ more)) none _ = true
    rw [segmentLoop, if_pos (.inr rfl)]
    exact ih

theorem segmentMatches_append {p q s t : CodeUnits} (h : SegmentMatches p s) (h' : SegmentMatches q t) :
    SegmentMatches (p ++ q) (s ++ t) := by
  rw [SegmentMatches, List.map_append]
  exact h.append h'

/-- A segment with a star takes a longer one that starts as the segment itself does. -/
theorem exists_longer (hstar : star ∈ pattern) : ∃ more : CodeUnits, more ≠ [] ∧
    SegmentMatches pattern (pattern ++ more) ∧ ∀ c ∈ more, c ∈ pattern ∨ c = 0x79 := by
  obtain ⟨front, back, hpattern⟩ := List.append_of_mem hstar
  have hlonger : ∀ more, SegmentMatches (star :: back) more → SegmentMatches pattern (pattern ++ more) := by
    intro more hmore
    rw [hpattern, List.append_assoc]
    exact segmentMatches_append (segmentMatches_self _) (hmore.of_suffix (List.suffix_append _ _))
  by_cases hback : back = []
  · refine ⟨[0x79], List.cons_ne_nil _ _, hlonger _ ?_, fun c hc ↦ .inr (List.mem_singleton.mp hc)⟩
    rw [hback]
    exact .more (.skip .nil)
  · refine ⟨back, hback, hlonger _ (segmentMatches_self back).skip, fun c hc ↦ .inl ?_⟩
    rw [hpattern]
    exact List.mem_append_right _ (List.mem_cons_of_mem _ hc)

end Segments

section Globs

variable {glob path : CodeUnits} {globParts pathParts : List CodeUnits}

/-- The recursion over the segments is exact, whatever takes a segment. -/
theorem globMatchImpl_iff : globMatchImpl globParts pathParts = true ↔
    Matches (fun g p ↦ segmentMatch g p = true) (globParts.map segmentSymbol) pathParts := by
  fun_induction globMatchImpl globParts pathParts with
  | case1 globParts p pathParts ih₁ ih₂ =>
    rw [Bool.or_eq_true, ih₁, ih₂, List.map_cons, segmentSymbol, if_pos rfl, Matches.none_cons_iff]
  | case2 g globParts p pathParts hg ih =>
    rw [Bool.and_eq_true, ih, List.map_cons, segmentSymbol, if_neg hg, Matches.some_iff]
  | case3 globParts pathParts hends =>
    rw [Bool.and_eq_true, List.all_eq_true, List.isEmpty_iff]
    cases pathParts with
    | nil =>
      rw [Matches.nil_right_iff]
      simp [segmentSymbol]
    | cons p pathParts =>
      cases globParts with
      | nil => simp [Matches.nil_iff]
      | cons g globParts => exact (hends g globParts p pathParts rfl rfl).elim

/-- A glob is plain if its stars are all segments of two. -/
def PlainGlob (glob : CodeUnits) : Prop := ∀ g ∈ parts glob, g = [star, star] ∨ star ∉ g

theorem segmentSymbol_eq_some {g h : CodeUnits} : segmentSymbol g = some h ↔ g = h ∧ g ≠ [star, star] := by
  unfold segmentSymbol
  split
  · simp_all
  · simp_all

theorem matchGlob_sound (h : matchGlob glob path = true) : GlobMatches glob path :=
  (globMatchImpl_iff.mp h).mono fun _ _ _ _ ↦ segmentMatch_sound

theorem star_mem_of_part {g : CodeUnits} (hg : g ∈ parts path) (hstar : star ∈ g) : star ∈ path := by
  obtain ⟨c, hc, hstar⟩ := List.mem_map.mp (Paths.part_subset hg hstar)
  split at hstar
  · exact absurd hstar (by decide)
  · exact hstar ▸ hc

/-- Paths without a star are matched exactly. -/
theorem matchGlob_iff_of_path (hpath : star ∉ path) : matchGlob glob path = true ↔ GlobMatches glob path := by
  refine ⟨matchGlob_sound, fun h ↦ globMatchImpl_iff.mpr (h.mono fun g _ p hp hmatches ↦ ?_)⟩
  exact (segmentMatch_iff fun hstar ↦ hpath (star_mem_of_part hp hstar)).mpr hmatches

/-- So are plain globs. -/
theorem matchGlob_iff_of_glob (hglob : PlainGlob glob) : matchGlob glob path = true ↔ GlobMatches glob path := by
  refine ⟨matchGlob_sound, fun h ↦ globMatchImpl_iff.mpr (h.mono fun g hg p _ hmatches ↦ ?_)⟩
  obtain ⟨part, hpart, hsymbol⟩ := List.mem_map.mp hg
  obtain ⟨rfl, hne⟩ := segmentSymbol_eq_some.mp hsymbol
  exact (segmentMatch_iff_of_pattern ((hglob part hpart).resolve_left hne)).mpr hmatches

theorem part_plain {g : CodeUnits} {c : UInt16} (hg : g ∈ parts path) (hc : c ∈ g) : c ≠ slash ∧ c ≠ backslash := by
  constructor
  · rintro rfl
    exact Paths.separator_notMem hg hc
  · rintro rfl
    obtain ⟨c, -, hbackslash⟩ := List.mem_map.mp (Paths.part_subset hg hc)
    split at hbackslash
    · exact absurd hbackslash (by decide)
    · rename_i hne
      exact hne hbackslash

theorem parts_intercalate {segments : List CodeUnits} (hne : segments ≠ [])
    (h : ∀ part ∈ segments, ∀ c ∈ part, c ≠ slash ∧ c ≠ backslash) :
    parts ([slash].intercalate segments) = segments := by
  have hnormal : normalizePath ([slash].intercalate segments) = [slash].intercalate segments := by
    refine (List.map_congr_left fun c hc ↦ if_neg ?_).trans (List.map_id _)
    obtain hc | ⟨part, hpart, hc⟩ := Paths.mem_intercalate hc
    · rw [List.mem_singleton.mp hc]
      decide
    · exact (h part hpart c hc).2
  rw [parts, hnormal, List.splitOn_intercalate _ (fun part hpart hc ↦ (h part hpart _ hc).1 rfl) hne]

/-- A glob that is not plain misses a path: the star is taken by a star, and what stands behind it in the
path has no place in the glob. -/
theorem exists_missed (hglob : ¬ PlainGlob glob) : ∃ path, GlobMatches glob path ∧ ¬ matchGlob glob path = true := by
  simp only [PlainGlob, not_forall, not_or, not_not] at hglob
  obtain ⟨g, hg, hne, hstar⟩ := hglob
  obtain ⟨pre, post, hparts⟩ := List.append_of_mem hg
  obtain ⟨more, hmore, hmatches, hchars⟩ := exists_longer hstar
  have hsymbols : ((parts glob).map segmentSymbol).reduceOption =
      (pre.map segmentSymbol).reduceOption ++ g :: (post.map segmentSymbol).reduceOption := by
    rw [hparts, List.map_append, List.map_cons, segmentSymbol_eq_some.mpr ⟨rfl, hne⟩, List.reduceOption_append,
      List.reduceOption_cons_of_some]
  have hmem : ∀ part ∈ (pre.map segmentSymbol).reduceOption ++ g :: (post.map segmentSymbol).reduceOption,
      part ∈ parts glob := by
    intro part hpart
    rw [← hsymbols, List.reduceOption_mem_iff] at hpart
    obtain ⟨part', hpart', hsymbol⟩ := List.mem_map.mp hpart
    exact (segmentSymbol_eq_some.mp hsymbol).1 ▸ hpart'
  generalize (pre.map segmentSymbol).reduceOption = front at hsymbols hmem
  generalize (post.map segmentSymbol).reduceOption = back at hsymbols hmem
  have hsegments : parts ([slash].intercalate (front ++ (g ++ more) :: back)) = front ++ (g ++ more) :: back := by
    refine parts_intercalate (by simp) fun part hpart c hc ↦ ?_
    have hplain : ∀ part ∈ parts glob, ∀ c ∈ part, c ≠ slash ∧ c ≠ backslash := fun _ h _ ↦ part_plain h
    simp only [List.mem_append, List.mem_cons] at hpart hmem
    obtain hpart | rfl | hpart := hpart
    · exact hplain part (hmem part (.inl hpart)) c hc
    · obtain hc | hc := List.mem_append.mp hc
      · exact hplain g hg c hc
      · obtain hc | rfl := hchars c hc
        · exact hplain g hg c hc
        · decide
    · exact hplain part (hmem part (.inr (.inr hpart))) c hc
  refine ⟨[slash].intercalate (front ++ (g ++ more) :: back), ?_, fun h ↦ ?_⟩
  · rw [GlobMatches, hsegments]
    refine Matches.of_forall₂ (hsymbols ▸ List.rel_append ?_ (.cons hmatches ?_))
    · exact List.forall₂_same.mpr fun part _ ↦ segmentMatches_self part
    · exact List.forall₂_same.mpr fun part _ ↦ segmentMatches_self part
  · rw [matchGlob, globMatchImpl_iff, hsegments] at h
    have htaken := h.forall₂_of_length (by simp [hsymbols])
    rw [hsymbols] at htaken
    have hdrop := List.forall₂_drop front.length htaken
    rw [List.drop_left, List.drop_left] at hdrop
    cases hdrop with
    | cons hmatch _ => exact segmentLoop_append hmore g hmatch

/-- A glob is matched exactly on every path if and only if it is plain, and every glob is on a path without a
star; what is matched is never more than the glob means. -/
theorem glob_exact_iff (glob : CodeUnits) :
    ((∀ path, matchGlob glob path = true ↔ GlobMatches glob path) ↔ PlainGlob glob) ∧
      (∀ path, star ∉ path → (matchGlob glob path = true ↔ GlobMatches glob path)) ∧
        ∀ path, matchGlob glob path = true → GlobMatches glob path := by
  refine ⟨⟨fun h ↦ ?_, fun h path ↦ matchGlob_iff_of_glob h⟩, fun path ↦ matchGlob_iff_of_path,
    fun path ↦ matchGlob_sound⟩
  by_contra hglob
  obtain ⟨path, hmatches, hmissed⟩ := exists_missed hglob
  exact hmissed ((h path).mpr hmatches)

/-- `*` against `*a`. -/
theorem star_misses_star : ¬ ∀ glob path, matchGlob glob path = true ↔ GlobMatches glob path := by
  intro h
  have hglob : parts (codeUnits "*") = [[star]] := by decide
  have hpath : parts (codeUnits "*a") = [[star] ++ [0x61]] := by decide
  have hmatches : GlobMatches (codeUnits "*") (codeUnits "*a") := by
    rw [GlobMatches, hglob, hpath]
    exact .one (.more (.more (.skip .nil))) .nil
  have hmatch := (h _ _).mpr hmatches
  rw [matchGlob, hglob, hpath, globMatchImpl_iff] at hmatch
  exact segmentLoop_append (List.cons_ne_nil _ _) _ (Matches.some_iff.mp hmatch).1

end Globs

end OmpLazy.Context

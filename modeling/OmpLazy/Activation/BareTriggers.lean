import OmpLazy.Activation.Matcher

/-! The words that activate ultrawork, where they stand in a text. -/

namespace OmpLazy.Activation

open OmpLazy.Foundation OmpLazy.Foundation.Text OmpLazy.Foundation.Spans

/-! What is left of a text. -/

section Marks

/-- Whether each character of a text lies outside the fenced code blocks, and the quoted strings of what is left. -/
def outside (text : List Char) : List Bool :=
  spread (stays fencedCodeBlock text) (stays quotedString (stripFencedCodeBlocks text))

def marked (text : List Char) : List (Char × Bool) := text.zip (outside text)

theorem marked_text (text : List Char) : (marked text).map (·.1) = text := by
  rw [marked, outside]
  refine List.map_fst_zip (Nat.le_of_eq ?_)
  rw [spread_length, stays_length]

theorem kept_marked (text : List Char) : kept (marked text) = stripQuotedStrings (stripFencedCodeBlocks text) := by
  have hfenced : kept (text.zip (stays fencedCodeBlock text)) = stripFencedCodeBlocks text := kept_stays _ text
  rw [marked, outside, kept_spread (stays_length _ _), hfenced]
  · exact kept_stays quotedString _
  · rw [hfenced, stays_length]

end Marks

/-! Words of a text, and the parts of a word on both sides of what was cut out. -/

section Words

variable {text : List Char} {part : List Char}

def separates (item : Char × Bool) : Bool := item.2 && isSeparator item.1

/-- The parts of a word, between what was cut out of it. -/
def parts (word : List (Char × Bool)) : List (List Char) :=
  ((word.splitOnP fun item ↦ !item.2).map (·.map (·.1))).filter (· ≠ [])

/-- The words between separators, each in its parts. -/
def words (text : List Char) : List (List (List Char)) := ((marked text).splitOnP separates).map parts

theorem flatten_parts (word : List (Char × Bool)) : (parts word).flatten = kept word := by
  have hnonempty : ∀ runs : List (List Char), (runs.filter (· ≠ [])).flatten = runs.flatten := by
    intro runs
    induction runs with
    | nil => rfl
    | cons run runs ih => cases run <;> simp_all
  rw [parts, hnonempty]
  induction word with
  | nil => rfl
  | cons item word ih =>
    obtain ⟨c, mark⟩ := item
    rw [List.splitOnP_cons_eq_if_modifyHead, kept_cons]
    cases hruns : word.splitOnP fun item ↦ !item.2 with
    | nil => exact absurd hruns (List.splitOnP_ne_nil _ word)
    | cons run runs =>
      rw [hruns] at ih
      cases mark <;> simp_all

/-- The tokens of the code are the words with their parts joined. -/
theorem tokenize_words (text : List Char) : tokenize (stripQuotedStrings (stripFencedCodeBlocks text)) =
    ((words text).map List.flatten).filter (· ≠ []) := by
  rw [tokenize, ← kept_marked, splitOnP_kept, words, List.map_map]
  congr 1
  exact List.map_congr_left fun word _ ↦ (flatten_parts word).symm

/-- Where the text or a removed span ends, or a separator stands. -/
def IsEdge (item : Option (Char × Bool)) : Prop := ∀ found ∈ item, found.2 = true → isSeparator found.1 = true

/-- A word of the text itself, outside all that is cut out. -/
def WholeToken (text token : List Char) : Prop :=
  token ≠ [] ∧ (∀ c ∈ token, isSeparator c = false) ∧ ∃ pre post,
    marked text = pre ++ token.map (·, true) ++ post ∧ IsEdge pre.getLast? ∧ IsEdge post.head?

theorem isEdge_iff {item : Option (Char × Bool)} :
    IsEdge item ↔ ∀ found ∈ item, (separates found || !found.2) = true := by
  refine forall₂_congr fun found _ ↦ ?_
  rw [separates]
  cases found.2 <;> simp

theorem wholeToken_iff {token : List Char} : WholeToken text token ↔ ∃ word ∈ words text, token ∈ word := by
  have hwords : (∃ word ∈ words text, token ∈ word) ↔ token ≠ [] ∧
      ∃ run ∈ (marked text).splitOnP (fun item ↦ separates item || !item.2), run.map (·.1) = token := by
    simp only [words, parts, splitOnP_or, List.mem_map, List.mem_flatMap, exists_exists_and_eq_and, List.mem_filter,
      decide_eq_true_eq]
    constructor
    · rintro ⟨word, hword, ⟨run, hrun, rfl⟩, hne⟩
      exact ⟨hne, run, ⟨word, hword, hrun⟩, rfl⟩
    · rintro ⟨hne, run, ⟨word, hword, hrun⟩, rfl⟩
      exact ⟨word, hword, ⟨run, hrun, rfl⟩, hne⟩
  rw [hwords, WholeToken]
  refine and_congr_right fun _ ↦ ?_
  constructor
  · rintro ⟨hseparators, pre, post, hmarked, hpre, hpost⟩
    refine ⟨token.map (·, true), mem_splitOnP.mpr ⟨pre, post, hmarked, ?_, isEdge_iff.mp hpre, isEdge_iff.mp hpost⟩, ?_⟩
    · intro item hitem
      obtain ⟨c, hc, rfl⟩ := List.mem_map.mp hitem
      simp [separates, hseparators c hc]
    · rw [List.map_map]
      exact List.map_id token
  · rintro ⟨run, hrun, rfl⟩
    obtain ⟨pre, post, hmarked, hstops, hpre, hpost⟩ := mem_splitOnP.mp hrun
    have hkept : ∀ item ∈ run, item.2 = true ∧ isSeparator item.1 = false := by
      intro item hitem
      have h := hstops item hitem
      rw [separates] at h
      cases hmark : item.2 <;> simp_all
    refine ⟨?_, pre, post, ?_, isEdge_iff.mpr hpre, isEdge_iff.mpr hpost⟩
    · intro c hc
      obtain ⟨item, hitem, rfl⟩ := List.mem_map.mp hc
      exact (hkept item hitem).2
    · rw [hmarked, List.map_map]
      congr 2
      refine (List.map_id run).symm.trans (List.map_congr_left fun item hitem ↦ ?_)
      exact Prod.ext rfl (hkept item hitem).1

end Words

/-! What activates. -/

section Triggers

variable {platform : TextPlatform} {text : String}

/-- `ultrawork` or `ulw`, in any letter case. -/
def IsTrigger (platform : TextPlatform) (token : List Char) : Prop :=
  platform.toLowerCase (String.ofList token) = platform.toLowerCase "ultrawork" ∨
    platform.toLowerCase (String.ofList token) = platform.toLowerCase "ulw"

def Activates (platform : TextPlatform) (text : String) : Prop :=
  ∃ registration, matchActivation platform text = some registration ∧ registration.workflow = .ultrawork

/-- A trigger is in the text as a whole token. -/
def HasTrigger (platform : TextPlatform) (text : List Char) : Prop := ∃ token, WholeToken text token ∧ IsTrigger platform token

def ultraworkRegistration : CommandRegistration := ⟨.ultrawork, "/omp-lazy-ultrawork(omp)"⟩

theorem triggerAllowlist_eq :
    triggerAllowlist = [⟨"ultrawork", ultraworkRegistration⟩, ⟨"ulw", ultraworkRegistration⟩] := by decide

theorem matchTriggerAllowlist_eq_some (text : List Char) :
    (∃ registration, matchTriggerAllowlist platform text = some registration ∧ registration.workflow = .ultrawork) ↔
      ∃ token ∈ tokenize (stripQuotedStrings (stripFencedCodeBlocks text)), IsTrigger platform token := by
  rw [matchTriggerAllowlist, triggerAllowlist_eq]
  generalize tokenize (stripQuotedStrings (stripFencedCodeBlocks text)) = tokens
  have hany : (∃ token ∈ tokens, IsTrigger platform token) ↔
      (tokens.any fun token ↦ matchesTriggerExact platform token "ultrawork") = true ∨
        (tokens.any fun token ↦ matchesTriggerExact platform token "ulw") = true := by
    simp only [List.any_eq_true, matchesTriggerExact, decide_eq_true_eq, IsTrigger, and_or_left, exists_or]
  have hagreed : agreed [ultraworkRegistration] = some ultraworkRegistration ∧
      agreed [ultraworkRegistration, ultraworkRegistration] = some ultraworkRegistration ∧ agreed [] = none := by
    decide
  have hworkflow : ultraworkRegistration.workflow = .ultrawork := rfl
  rw [hany]
  cases hlong : tokens.any fun token ↦ matchesTriggerExact platform token "ultrawork" <;>
    cases hshort : tokens.any fun token ↦ matchesTriggerExact platform token "ulw" <;>
      simp [hlong, hshort, hagreed, hworkflow]

theorem parts_ne_nil {word : List (Char × Bool)} {part : List Char} (h : part ∈ parts word) : part ≠ [] := by
  simpa using (List.mem_filter.mp h).2

/-- Without the name of a command, a text activates by a word whose parts together are a trigger. -/
theorem activates_word_iff
    (hnone : ∀ registration ∈ commandRegistrations, matchesToken platform text registration.command = false) :
    Activates platform text ↔ ∃ word ∈ words text.toList, word ≠ [] ∧ IsTrigger platform word.flatten := by
  have hcommands : commandRegistrations.filter (fun registration ↦ matchesToken platform text registration.command) =
      [] := List.filter_eq_nil_iff.mpr fun registration h ↦ by simp [hnone registration h]
  rw [Activates, matchActivation, hcommands, List.isEmpty_nil, if_pos rfl, matchTriggerAllowlist_eq_some,
    tokenize_words]
  constructor
  · rintro ⟨token, htoken, htrigger⟩
    obtain ⟨hjoined, hne⟩ := List.mem_filter.mp htoken
    obtain ⟨word, hword, rfl⟩ := List.mem_map.mp hjoined
    exact ⟨word, hword, fun h ↦ by simp [h] at hne, htrigger⟩
  · rintro ⟨word, hword, hne, htrigger⟩
    refine ⟨word.flatten, List.mem_filter.mpr ⟨List.mem_map_of_mem hword, decide_eq_true ?_⟩, htrigger⟩
    obtain ⟨run, -, rfl⟩ := List.mem_map.mp hword
    obtain ⟨part, rest, hparts⟩ := List.exists_cons_of_ne_nil hne
    have hpart := parts_ne_nil (hparts ▸ List.mem_cons_self)
    simp [hparts, hpart]

/-- A trigger stands by itself: no other text is joined to it over what was cut out. -/
def Alone (platform : TextPlatform) (text : List Char) : Prop :=
  ∃ word ∈ words text, ∃ token, word = [token] ∧ IsTrigger platform token

/-- Parts that are joined over what was cut out make a trigger. -/
def Joined (platform : TextPlatform) (text : List Char) : Prop :=
  ∃ word ∈ words text, 2 ≤ word.length ∧ IsTrigger platform word.flatten

/-- A trigger is joined to other text over what was cut out. -/
def Swallowed (platform : TextPlatform) (text : List Char) : Prop :=
  ∃ word ∈ words text, 2 ≤ word.length ∧ ∃ token ∈ word, IsTrigger platform token

/-- A word has no part, one, or more. -/
theorem exists_word_iff {P : List (List Char) → Prop} : (∃ word ∈ words text.toList, word ≠ [] ∧ P word) ↔
    (∃ word ∈ words text.toList, ∃ token, word = [token] ∧ P [token]) ∨
      ∃ word ∈ words text.toList, 2 ≤ word.length ∧ P word := by
  constructor
  · rintro ⟨word, hword, hne, h⟩
    rcases word with _ | ⟨token, _ | ⟨next, rest⟩⟩
    · exact absurd rfl hne
    · exact .inl ⟨_, hword, token, rfl, h⟩
    · exact .inr ⟨_, hword, by simp, h⟩
  · rintro (⟨word, hword, token, rfl, h⟩ | ⟨word, hword, hlength, h⟩)
    · exact ⟨_, hword, List.cons_ne_nil _ _, h⟩
    · exact ⟨word, hword, fun hempty ↦ by simp [hempty] at hlength, h⟩

/-- A text without the name of a command activates ultrawork for a trigger that is in it, and only then, when a
trigger stands by itself, or when one that is joined together and one that is joined to other text come together. -/
theorem bare_trigger_iff (platform : TextPlatform) (text : String)
    (hnone : ∀ registration ∈ commandRegistrations, matchesToken platform text registration.command = false) :
    (Activates platform text ↔ HasTrigger platform text.toList) ↔
      Alone platform text.toList ∨ (Joined platform text.toList ↔ Swallowed platform text.toList) := by
  have hactivates : Activates platform text ↔ Alone platform text.toList ∨ Joined platform text.toList := by
    rw [activates_word_iff hnone, exists_word_iff]
    simp only [List.flatten_cons, List.flatten_nil, List.append_nil]
    rfl
  have htrigger : HasTrigger platform text.toList ↔ Alone platform text.toList ∨ Swallowed platform text.toList := by
    have hwords : HasTrigger platform text.toList ↔
        ∃ word ∈ words text.toList, word ≠ [] ∧ ∃ token ∈ word, IsTrigger platform token := by
      simp only [HasTrigger, wholeToken_iff]
      constructor
      · rintro ⟨token, ⟨word, hword, htoken⟩, h⟩
        exact ⟨word, hword, List.ne_nil_of_mem htoken, token, htoken, h⟩
      · rintro ⟨word, hword, -, token, htoken, h⟩
        exact ⟨token, ⟨word, hword, htoken⟩, h⟩
    rw [hwords, exists_word_iff]
    simp only [List.mem_singleton, exists_eq_left]
    rfl
  rw [hactivates, htrigger]
  by_cases halone : Alone platform text.toList <;> simp [halone]

namespace Sample

/-- ASCII text. -/
def asciiPlatform : TextPlatform where
  toLowerCase text := String.ofList (text.toList.map Char.toLower)
  foldCase := Char.toLower
  isLetterOrNumber c := c.isAlphanum

/-- `ulw` in two parts around a quoted letter. -/
def splitTrigger : String := String.ofList ['u', backtick, 'x', backtick, 'l', 'w']

theorem splitTrigger_unnamed : ∀ registration ∈ commandRegistrations,
    matchesToken asciiPlatform splitTrigger registration.command = false := by decide

theorem splitTrigger_words : words splitTrigger.toList = [[['u'], ['l', 'w']]] := by decide

theorem request_unnamed : ∀ registration ∈ commandRegistrations,
    matchesToken asciiPlatform "please run ULW now" registration.command = false := by decide

theorem request_words : words "please run ULW now".toList =
    [["please".toList], ["run".toList], ["ULW".toList], ["now".toList]] := by decide

end Sample

theorem request_activates : Activates Sample.asciiPlatform "please run ULW now" ↔
    HasTrigger Sample.asciiPlatform "please run ULW now".toList := by
  refine (bare_trigger_iff Sample.asciiPlatform "please run ULW now" Sample.request_unnamed).mpr (.inl ?_)
  rw [Alone, Sample.request_words]
  exact ⟨["ULW".toList], by simp, "ULW".toList, rfl, .inr (by decide)⟩

/-- A trigger that nobody typed: its two parts are joined when the quoted letter between them is cut out. -/
theorem split_trigger_activates : ¬ ∀ (platform : TextPlatform) (text : String),
    (∀ registration ∈ commandRegistrations, matchesToken platform text registration.command = false) →
      (Activates platform text ↔ HasTrigger platform text.toList) := by
  intro h
  have hiff := h Sample.asciiPlatform Sample.splitTrigger Sample.splitTrigger_unnamed
  have hactivates : Activates Sample.asciiPlatform Sample.splitTrigger :=
    ⟨ultraworkRegistration, by decide, rfl⟩
  obtain ⟨token, hwhole, htrigger⟩ := hiff.mp hactivates
  obtain ⟨word, hword, htoken⟩ := wholeToken_iff.mp hwhole
  rw [Sample.splitTrigger_words, List.mem_singleton] at hword
  rw [hword, List.mem_cons, List.mem_singleton] at htoken
  obtain rfl | rfl := htoken
  · revert htrigger
    rw [IsTrigger]
    decide
  · revert htrigger
    rw [IsTrigger]
    decide

end Triggers

end OmpLazy.Activation

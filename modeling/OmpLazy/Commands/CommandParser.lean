import OmpLazy.Foundation.Spans
import OmpLazy.Foundation.Text
import Mathlib.Data.List.TakeWhile
import Mathlib.Tactic.Common

/-! The words of a command line. -/

namespace OmpLazy.Commands

open OmpLazy.Foundation.Text OmpLazy.Foundation.Spans

def doubleQuote : Char := Char.ofNat 0x22

def singleQuote : Char := Char.ofNat 0x27

def isQuote (c : Char) : Bool := c = doubleQuote || c = singleQuote

/-- Whether a token that a quote opens, or none, goes on with a character. -/
def goesOn : Option Char → Char → Bool
  | none, c => !isSpace c
  | some quote, c => c ≠ quote

/-- The text of the token at the front, and what follows the token. -/
def scanToken (args : List Char) : Option (List Char × List Char) :=
  let quote := args.head?.filter isQuote
  let fromStart := if quote.isNone then args else args.drop 1
  let text := fromStart.takeWhile (goesOn quote)
  let fromEnd := fromStart.dropWhile (goesOn quote)
  if quote.isSome ∧ fromEnd = [] then none
  else if text = [] then none
  else some (text, if quote.isNone then fromEnd else fromEnd.drop 1)

section Scanning

variable {args cs text rest : List Char} {c quote : Char}

theorem scanToken_bare (hc : isQuote c = false) : scanToken (c :: cs) =
    if (c :: cs).takeWhile (goesOn none) = [] then none
    else some ((c :: cs).takeWhile (goesOn none), (c :: cs).dropWhile (goesOn none)) := by
  have hopens : (some c).filter isQuote = none := if_neg (Bool.not_eq_true _ ▸ hc)
  rw [scanToken, List.head?_cons, hopens]
  rfl

theorem scanToken_quoted (hquote : isQuote quote = true) : scanToken (quote :: cs) =
    if cs.dropWhile (goesOn (some quote)) = [] then none
    else if cs.takeWhile (goesOn (some quote)) = [] then none
    else some (cs.takeWhile (goesOn (some quote)), (cs.dropWhile (goesOn (some quote))).drop 1) := by
  have hopens : (some quote).filter isQuote = some quote := if_pos hquote
  rw [scanToken, List.head?_cons, hopens]
  simp only [Option.isNone_some, Bool.false_eq_true, if_false, List.drop_one, List.tail_cons, Option.isSome_some, true_and]

theorem scanToken_shorter (h : scanToken args = some (text, rest)) : rest.length < args.length := by
  cases args with
  | nil => cases h
  | cons c cs =>
    by_cases hc : isQuote c = true
    · rw [scanToken_quoted hc] at h
      split at h
      · cases h
      · split at h
        · cases h
        · cases h
          have hle := List.length_dropWhile_le (goesOn (some c)) cs
          rw [List.length_drop, List.length_cons]
          omega
    · rw [scanToken_bare (Bool.eq_false_iff.mpr hc)] at h
      split at h
      · cases h
      · rename_i htext
        cases h
        have hlength := congrArg List.length (List.takeWhile_append_dropWhile (p := goesOn none) (l := c :: cs))
        have hpos := List.length_pos_iff.mpr htext
        rw [List.length_append] at hlength
        omega

end Scanning

/-- `tokenize`, with `none` for null. -/
def tokenizeList (args : List Char) : Option (List (List Char)) :=
  match args.dropWhile isSpace, List.length_dropWhile_le isSpace args with
  | [], _ => some []
  | c :: cs, hle =>
    match hscan : scanToken (c :: cs) with
    | none => none
    | some (text, rest) =>
      have : rest.length < args.length := Nat.lt_of_lt_of_le (scanToken_shorter hscan) hle
      if rest.head?.all isSpace then (tokenizeList rest).map (text :: ·) else none
termination_by args.length

def tokenize (args : String) : Option (List String) := (tokenizeList args.toList).map (List.map String.ofList)

/-! The grammar. -/

/-- A token as it is spelled, with its text. -/
inductive Token : List Char → List Char → Prop
  | bare {text : List Char} (nonempty : text ≠ []) (run : ∀ c ∈ text, isSpace c = false)
      (opens : ∀ c ∈ text.head?, isQuote c = false) : Token text text
  | quoted {quote : Char} {text : List Char} (opens : isQuote quote = true) (nonempty : text ≠ [])
      (lacks : quote ∉ text) : Token (quote :: (text ++ [quote])) text

/-- Tokens that white space separates. -/
inductive Sentence : List Char → List (List Char) → Prop
  | blank {gap : List Char} (blanks : ∀ c ∈ gap, isSpace c = true) : Sentence gap []
  | word {gap spelling text rest : List Char} {words : List (List Char)} (blanks : ∀ c ∈ gap, isSpace c = true)
      (token : Token spelling text) (separated : ∀ c ∈ rest.head?, isSpace c = true) (others : Sentence rest words) :
      Sentence (gap ++ (spelling ++ rest)) (text :: words)

section Grammar

variable {args gap spelling text rest cs : List Char} {words : List (List Char)} {c quote : Char}

theorem isSpace_of_isQuote (h : isQuote quote = true) : isSpace quote = false := by
  rw [isQuote, Bool.or_eq_true, decide_eq_true_eq, decide_eq_true_eq] at h
  obtain rfl | rfl := h <;> decide

theorem goesOn_none (c : Char) : goesOn none c = true ↔ isSpace c = false := by
  rw [goesOn, Bool.not_eq_true']

theorem goesOn_some (quote c : Char) : goesOn (some quote) c = true ↔ c ≠ quote := decide_eq_true_iff

theorem Token.opening (h : Token spelling text) : ∃ c cs, spelling = c :: cs ∧ isSpace c = false := by
  cases h with
  | bare hne hrun _ =>
    obtain ⟨c, cs, rfl⟩ := List.exists_cons_of_ne_nil hne
    exact ⟨c, cs, rfl, hrun c List.mem_cons_self⟩
  | quoted hopens _ _ => exact ⟨_, _, rfl, isSpace_of_isQuote hopens⟩

/-- A token is read where white space, or nothing, follows it. -/
theorem scanToken_token (h : Token spelling text) (hrest : ∀ c ∈ rest.head?, isSpace c = true) :
    scanToken (spelling ++ rest) = some (text, rest) := by
  cases h with
  | bare hne hrun hopens =>
    have hinside : ∀ c ∈ spelling, goesOn none c = true := fun c hc ↦ (goesOn_none c).mpr (hrun c hc)
    have hstops : ∀ c ∈ rest.head?, goesOn none c = false := fun c hc ↦ by rw [goesOn, hrest c hc, Bool.not_true]
    have htext := takeWhile_run hinside hstops
    have hafter := dropWhile_run hinside hstops
    obtain ⟨c, cs, rfl⟩ := List.exists_cons_of_ne_nil hne
    rw [List.cons_append] at htext hafter ⊢
    rw [scanToken_bare (hopens c rfl), htext, hafter, if_neg hne]
  | @quoted quote text hopens hne hlacks =>
    have hinside : ∀ c ∈ text, goesOn (some quote) c = true := by
      intro c hc
      rw [goesOn_some]
      rintro rfl
      exact hlacks hc
    have hstops : ∀ c ∈ (quote :: rest).head?, goesOn (some quote) c = false := by
      intro c hc
      obtain rfl := Option.some.inj hc
      exact decide_eq_false (not_not.mpr rfl)
    rw [List.cons_append, List.append_assoc, List.singleton_append, scanToken_quoted hopens,
      takeWhile_run hinside hstops, dropWhile_run hinside hstops, if_neg (List.cons_ne_nil _ _), if_neg hne]
    rfl

/-- What is read is a token. -/
theorem token_of_scanToken (hc : isSpace c = false) (h : scanToken (c :: cs) = some (text, rest)) :
    ∃ spelling, c :: cs = spelling ++ rest ∧ Token spelling text := by
  by_cases hquote : isQuote c = true
  · rw [scanToken_quoted hquote] at h
    have hcut := List.takeWhile_append_dropWhile (p := goesOn (some c)) (l := cs)
    have hfirst := List.head?_dropWhile_not (goesOn (some c)) cs
    have hinside := List.all_takeWhile (p := goesOn (some c)) (l := cs)
    cases hafter : cs.dropWhile (goesOn (some c)) with
    | nil =>
      rw [hafter, if_pos rfl] at h
      cases h
    | cons stop others =>
      rw [hafter, if_neg (List.cons_ne_nil _ _)] at h
      rw [hafter] at hcut hfirst
      by_cases hne : cs.takeWhile (goesOn (some c)) = []
      · rw [if_pos hne] at h
        cases h
      · rw [if_neg hne] at h
        cases h
        have hstop : stop = c := by simpa [goesOn] using hfirst
        subst hstop
        refine ⟨stop :: (cs.takeWhile (goesOn (some stop)) ++ [stop]), ?_, .quoted hquote hne ?_⟩
        · rw [List.cons_append, List.append_assoc, List.singleton_append]
          exact congrArg (List.cons stop) hcut.symm
        · intro hmem
          exact (goesOn_some stop stop).mp (List.all_eq_true.mp hinside stop hmem) rfl
  · have hopens := Bool.eq_false_iff.mpr hquote
    have hne : (c :: cs).takeWhile (goesOn none) ≠ [] := by
      rw [List.takeWhile_cons_of_pos ((goesOn_none c).mpr hc)]
      exact List.cons_ne_nil _ _
    rw [scanToken_bare hopens, if_neg hne] at h
    cases h
    refine ⟨_, (List.takeWhile_append_dropWhile (p := goesOn none)).symm, .bare hne ?_ ?_⟩
    · intro x hx
      exact (goesOn_none x).mp (List.all_eq_true.mp List.all_takeWhile x hx)
    · rw [List.takeWhile_cons_of_pos ((goesOn_none c).mpr hc)]
      intro x hx
      obtain rfl := Option.some.inj hx
      exact hopens

theorem tokenizeList_blank (h : args.dropWhile isSpace = []) : tokenizeList args = some [] := by
  rw [tokenizeList]
  split
  · rfl
  · rename_i heq _
    rw [h] at heq
    cases heq

theorem tokenizeList_unread (h : args.dropWhile isSpace = c :: cs) (hscan : scanToken (c :: cs) = none) :
    tokenizeList args = none := by
  rw [tokenizeList]
  split
  · rename_i heq _
    rw [h] at heq
    cases heq
  · rename_i heq _
    obtain ⟨rfl, rfl⟩ := List.cons.inj (h.symm.trans heq)
    split
    · rfl
    · rename_i hread
      rw [hscan] at hread
      cases hread

theorem tokenizeList_read (h : args.dropWhile isSpace = c :: cs) (hscan : scanToken (c :: cs) = some (text, rest)) :
    tokenizeList args = if rest.head?.all isSpace then (tokenizeList rest).map (text :: ·) else none := by
  rw [tokenizeList]
  split
  · rename_i heq _
    rw [h] at heq
    cases heq
  · rename_i heq _
    obtain ⟨rfl, rfl⟩ := List.cons.inj (h.symm.trans heq)
    split
    · rename_i hread
      rw [hscan] at hread
      cases hread
    · rename_i hread
      rw [hscan] at hread
      cases hread
      rfl

theorem sentence_of_tokenizeList (h : tokenizeList args = some words) : Sentence args words := by
  induction hlength : args.length using Nat.strong_induction_on generalizing args words with
  | _ n ih =>
    have hcut := List.takeWhile_append_dropWhile (p := isSpace) (l := args)
    have hblanks : ∀ c ∈ args.takeWhile isSpace, isSpace c = true := List.all_eq_true.mp List.all_takeWhile
    cases hafter : args.dropWhile isSpace with
    | nil =>
      rw [tokenizeList_blank hafter] at h
      cases h
      rw [hafter, List.append_nil] at hcut
      exact .blank (hcut ▸ hblanks)
    | cons c cs =>
      have hc : isSpace c = false := by
        have hfirst := List.head?_dropWhile_not isSpace args
        rw [hafter] at hfirst
        exact hfirst
      cases hscan : scanToken (c :: cs) with
      | none =>
        rw [tokenizeList_unread hafter hscan] at h
        cases h
      | some read =>
        obtain ⟨text, rest⟩ := read
        rw [tokenizeList_read hafter hscan] at h
        split at h
        · rename_i hrest
          obtain ⟨others, hothers, rfl⟩ := Option.map_eq_some_iff.mp h
          obtain ⟨spelling, hspelling, htoken⟩ := token_of_scanToken hc hscan
          have hle := List.length_dropWhile_le isSpace args
          have hlt := scanToken_shorter hscan
          rw [hafter] at hle hcut
          rw [← hcut, hspelling]
          exact .word hblanks htoken ((Option.all_eq_true _ _).mp hrest) (ih rest.length (by omega) hothers rfl)
        · cases h

theorem tokenizeList_of_sentence (h : Sentence args words) : tokenizeList args = some words := by
  induction h with
  | blank hblanks =>
    refine tokenizeList_blank ?_
    rw [List.dropWhile_eq_nil_iff]
    exact hblanks
  | @word gap spelling text rest words hblanks htoken hseparated _ ih =>
    obtain ⟨c, cs, hopening, hc⟩ := htoken.opening
    have hafter : (gap ++ (spelling ++ rest)).dropWhile isSpace = spelling ++ rest := by
      refine dropWhile_run hblanks fun x hx ↦ ?_
      rw [hopening] at hx
      obtain rfl := Option.some.inj hx
      exact hc
    have hscan := scanToken_token htoken hseparated
    rw [hopening, List.cons_append] at hafter hscan
    rw [hopening, List.cons_append, tokenizeList_read hafter hscan, if_pos, ih, Option.map_some]
    exact (Option.all_eq_true _ _).mpr hseparated

theorem tokenizeList_iff : tokenizeList args = some words ↔ Sentence args words :=
  ⟨sentence_of_tokenizeList, tokenizeList_of_sentence⟩

theorem Sentence.indent (h : Sentence args words) (hgap : ∀ c ∈ gap, isSpace c = true) : Sentence (gap ++ args) words := by
  cases h with
  | blank hblanks => exact .blank (List.forall_mem_append.mpr ⟨hgap, hblanks⟩)
  | word hblanks htoken hseparated hothers =>
    rw [← List.append_assoc]
    exact .word (List.forall_mem_append.mpr ⟨hgap, hblanks⟩) htoken hseparated hothers

end Grammar

/-! Strings. -/

/-- A quote that a word lacks. -/
structure Quotable (word : String) (quote : Char) : Prop where
  nonempty : word ≠ ""
  opens : isQuote quote = true
  lacks : quote ∉ word.toList

def quoteWord (word : String) (quote : Char) : String := String.ofList (quote :: (word.toList ++ [quote]))

section Strings

variable {word : String} {quote : Char} {gap : List Char}

theorem Quotable.token (h : Quotable word quote) : Token (quoteWord word quote).toList word.toList := by
  rw [quoteWord, String.toList_ofList]
  exact .quoted h.opens (fun hnil ↦ h.nonempty (String.toList_eq_nil_iff.mp hnil)) h.lacks

theorem sentence_quoted (hgap : ∀ c ∈ gap, isSpace c = true) (hne : gap ≠ []) {words : List (String × Char)}
    (hwords : ∀ w ∈ words, Quotable w.1 w.2) :
    Sentence (gap.intercalate (words.map fun w ↦ (quoteWord w.1 w.2).toList)) (words.map fun w ↦ w.1.toList) := by
  induction words with
  | nil => exact .blank (List.forall_mem_nil _)
  | cons w words ih =>
    obtain ⟨hw, hwords⟩ := List.forall_mem_cons.mp hwords
    have hrest := ih hwords
    cases words with
    | nil =>
      have hlast := Sentence.word (List.forall_mem_nil _) hw.token (by simp) (.blank (List.forall_mem_nil _))
      rw [List.nil_append, List.append_nil] at hlast
      rw [List.map_singleton, List.map_singleton, List.intercalate_singleton]
      exact hlast
    | cons w' words =>
      rw [List.map_cons, List.map_cons, List.map_cons, List.intercalate_cons_cons, List.append_assoc]
      refine @Sentence.word [] _ _ _ _ (List.forall_mem_nil _) hw.token ?_ (hrest.indent hgap)
      intro c hc
      rw [List.head?_append_of_ne_nil _ hne] at hc
      exact hgap c (List.mem_of_mem_head? hc)

theorem tokenize_iff (args : String) (words : List String) :
    tokenize args = some words ↔ Sentence args.toList (words.map String.toList) := by
  rw [tokenize, Option.map_eq_some_iff, ← tokenizeList_iff]
  constructor
  · rintro ⟨texts, htexts, rfl⟩
    rw [htexts, List.map_map]
    exact congrArg some ((List.map_id texts).symm.trans (List.map_congr_left fun text _ ↦ String.toList_ofList.symm))
  · intro h
    refine ⟨_, h, ?_⟩
    rw [List.map_map]
    exact (List.map_congr_left fun word _ ↦ String.ofList_toList).trans (List.map_id words)

/-- The words of a line are read where it is a sentence of them, and no others. Words that are put between quotes they
lack are read back. -/
theorem tokenizer_accepts_grammar :
    (∀ (args : String) (words : List String),
      tokenize args = some words ↔ Sentence args.toList (words.map String.toList)) ∧
    (∀ args : String, tokenize args = none ↔ ¬ ∃ words, Sentence args.toList words) ∧
    ∀ (gap : String) (words : List (String × Char)), gap ≠ "" → (∀ c ∈ gap.toList, isSpace c = true) →
      (∀ w ∈ words, Quotable w.1 w.2) →
        tokenize (gap.intercalate (words.map fun w ↦ quoteWord w.1 w.2)) = some (words.map fun w ↦ w.1) := by
  refine ⟨tokenize_iff, ?_, ?_⟩
  · intro args
    rw [tokenize, Option.map_eq_none_iff, Option.eq_none_iff_forall_ne_some, not_exists]
    exact forall_congr' fun words ↦ not_congr tokenizeList_iff
  · intro gap words hne hgap hwords
    rw [tokenize_iff, String.toList_intercalate, List.map_map, List.map_map]
    exact sentence_quoted hgap (fun hnil ↦ hne (String.toList_eq_nil_iff.mp hnil)) hwords

end Strings

end OmpLazy.Commands

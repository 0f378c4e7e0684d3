import OmpLazy.Context.RulesDiscovery
import OmpLazy.Foundation.Paths
import OmpLazy.Workflows.ScaffoldPlan

/-! A document of a rule is read as it was written, in whatever style it was written. -/

namespace OmpLazy.Context

open OmpLazy.Foundation OmpLazy.Foundation.Text
open OmpLazy.Workflows (joinLineBreaks joinLineBreaks_append isLineTerminator)

/-! How a document is written. -/

section Styles

structure RuleDocument where
  globs : List String
  order : Option ℤ
  description : Option String
  body : String

inductive Quoting where
  | bare
  | double
  | single

def Quoting.wrap : Quoting → List Char → List Char
  | bare, text => text
  | double, text => doubleQuote :: (text ++ [doubleQuote])
  | single, text => singleQuote :: (text ++ [singleQuote])

/-- A list of items, each indented and quoted in a way of its own, or JSON with some blanks after every comma. -/
inductive GlobStyle where
  | block (indent : ℕ → ℕ) (quoting : ℕ → Quoting)
  | inline (blanks : ℕ)

inductive RuleKey where
  | globs
  | order
  | description
  deriving DecidableEq

def RuleKey.text : RuleKey → List Char
  | globs => globsKey
  | order => orderKey
  | description => descriptionKey

structure RuleStyle where
  keys : List RuleKey
  complete : keys.Perm [.globs, .order, .description]
  globs : GlobStyle
  order : Quoting
  description : Quoting
  crlf : Bool

def inlineList (blanks : ℕ) (globs : List String) : List Char :=
  '[' :: ((',' :: List.replicate blanks ' ').intercalate (globs.map fun glob ↦ Quoting.double.wrap glob.toList) ++ [']'])

def itemLine (indent : ℕ) (quoting : Quoting) (glob : String) : List Char :=
  List.replicate indent ' ' ++ '-' :: ' ' :: quoting.wrap glob.toList

def scalarLine (key : RuleKey) (quoting : Quoting) (text : List Char) : List Char :=
  key.text ++ ':' :: ' ' :: quoting.wrap text

def orderText (order : ℤ) : List Char := (toString order).toList

/-- The lines of one key. -/
def RuleStyle.linesOf (style : RuleStyle) (document : RuleDocument) : RuleKey → List (List Char)
  | .globs =>
    match style.globs with
    | .block indent quoting =>
      (globsKey ++ [':']) :: document.globs.mapIdx fun i glob ↦ itemLine (indent i) (quoting i) glob
    | .inline blanks => [globsKey ++ ':' :: ' ' :: inlineList blanks document.globs]
  | .order => (document.order.map fun order ↦ scalarLine .order style.order (orderText order)).toList
  | .description =>
    (document.description.map fun text ↦ scalarLine .description style.description text.toList).toList

def fenceLine : List Char := ['-', '-', '-']

def RuleStyle.lines (style : RuleStyle) (document : RuleDocument) : List (List Char) :=
  fenceLine :: (style.keys.flatMap (style.linesOf document) ++ fenceLine :: document.body.toList.splitOn '\n')

def RuleStyle.render (style : RuleStyle) (document : RuleDocument) : String :=
  String.ofList ((if style.crlf then ['\r', '\n'] else ['\n']).intercalate (style.lines document))

structure GlobOk (isAbsolute : String → Bool) (glob : String) : Prop where
  trimmed : Trimmed glob
  length : utf16Length glob ≤ 200
  relative : isRelativeGlob isAbsolute glob = true
  plain : ∀ c ∈ glob.toList, c ≠ doubleQuote ∧ c ≠ singleQuote ∧ c ≠ '\\' ∧ 0x20 ≤ c.toNat ∧
    isLineTerminator c = false

structure DescriptionOk (text : String) : Prop where
  trimmed : Trimmed text
  length : utf16Length text ≤ 500
  single : ∀ c ∈ text.toList, isLineTerminator c = false
  start : ∀ c ∈ text.toList.head?, c ≠ '[' ∧ c ≠ doubleQuote ∧ c ≠ singleQuote

structure RuleDocument.Ok (isAbsolute : String → Bool) (document : RuleDocument) : Prop where
  some : document.globs ≠ []
  most : document.globs.length ≤ 64
  globs : ∀ glob ∈ document.globs, GlobOk isAbsolute glob
  order : ∀ order ∈ document.order, -9999 ≤ order ∧ order ≤ 9999
  description : ∀ text ∈ document.description, DescriptionOk text
  trimmed : trim document.body = document.body
  body : '\r' ∉ document.body.toList

end Styles

/-! Lines. -/

section Lines

variable {state : FrontmatterState} {key : RuleKey} {value text : List Char} {quoting : Quoting}

theorem key_head (key : RuleKey) : ∃ c rest, key.text = c :: rest ∧ isLetter c = true ∧ isSpace c = false ∧ c ≠ '-' := by
  cases key
  · exact ⟨'g', "lobs".toList, by decide, by decide, by decide, by decide⟩
  · exact ⟨'o', "rder".toList, by decide, by decide, by decide, by decide⟩
  · exact ⟨'d', "escription".toList, by decide, by decide, by decide, by decide⟩

theorem key_chars (key : RuleKey) : ∀ c ∈ key.text, isKeyChar c = true := by
  cases key <;> exact List.all_eq_true.mp (by decide)

/-- No key is the name of what every object has. -/
theorem key_new (key : RuleKey) : ¬ ((none : Option FieldValue).isSome = true ∨ key.text ∈ inheritedNames) := by
  cases key <;> decide

theorem keyText_injective : Function.Injective RuleKey.text := by
  intro a b h
  cases a <;> cases b <;> first | rfl | exact absurd h (by decide)

theorem mem_dropWhile {cs : List Char} {c : Char} (hc : c ∈ cs) (hspace : isSpace c = false) :
    c ∈ cs.dropWhile isSpace := by
  rw [← List.takeWhile_append_dropWhile (p := isSpace) (l := cs), List.mem_append] at hc
  obtain htake | hdrop := hc
  · rw [List.mem_takeWhile_imp htake] at hspace
    cases hspace
  · exact hdrop

/-- Only spaces are trimmed. -/
theorem mem_trimList {cs : List Char} {c : Char} (hc : c ∈ cs) (hspace : isSpace c = false) : c ∈ trimList cs := by
  have hreverse : c ∈ (cs.dropWhile isSpace).reverse := List.mem_reverse.mpr (mem_dropWhile hc hspace)
  exact List.mem_reverse.mpr (mem_dropWhile hreverse hspace)

/-- A line that begins with a key is read as a pair. -/
theorem readLine_key (hvalue : ∀ c ∈ value.dropWhile isSpace, isLineTerminator c = false) :
    readLine state (key.text ++ ':' :: value) = readPair state key.text (value.dropWhile isSpace) := by
  obtain ⟨c, rest, hkey, hletter, hspace, hdash⟩ := key_head key
  have hdrop : (key.text ++ ':' :: value).dropWhile isSpace = key.text ++ ':' :: value := by
    rw [hkey, List.cons_append, List.dropWhile_cons_of_neg (by simp [hspace])]
  have hitem : itemOf (key.text ++ ':' :: value) = none := by
    rw [itemOf, hdrop, hkey]
    split
    · rename_i heq
      exact absurd (List.cons.inj heq).1 hdash
    · rfl
  have hcolon : isKeyChar ':' = false := by decide
  have hpair : pairOf (key.text ++ ':' :: value) = some (key.text, value.dropWhile isSpace) := by
    have hany : (value.dropWhile isSpace).any isLineTerminator = false := by simpa using hvalue
    have hhead : key.text.head?.any isLetter = true := by rw [hkey]; exact hletter
    rw [pairOf, List.takeWhile_append_of_pos (key_chars key), List.dropWhile_append_of_pos (key_chars key),
      List.takeWhile_cons_of_neg (by simp [hcolon]), List.dropWhile_cons_of_neg (by simp [hcolon]), List.append_nil]
    simp [hany, hhead]
  have hblank : trimList (key.text ++ ':' :: value) ≠ [] :=
    List.ne_nil_of_mem (mem_trimList (c := c) (by simp [hkey]) hspace)
  rw [readLine, if_neg hblank, hitem, hpair]

theorem isSpace_quote : isSpace doubleQuote = false ∧ isSpace singleQuote = false := by decide

theorem isSpace_lineTerminator {c : Char} (h : isLineTerminator c = true) : isSpace c = true := by
  simp only [isLineTerminator, List.mem_cons, List.not_mem_nil, or_false, decide_eq_true_eq] at h
  simp only [isSpace, List.mem_cons, List.not_mem_nil, or_false, Bool.or_eq_true, decide_eq_true_eq]
  omega

/-- The ends of a quoted text are no spaces. -/
theorem wrap_ends (quoting : Quoting) (htext : trimList text = text) :
    (∀ c ∈ (quoting.wrap text).head?, isSpace c = false) ∧
      ∀ c ∈ (quoting.wrap text).getLast?, isSpace c = false := by
  cases quoting with
  | bare => exact trimList_eq_self.mp htext
  | double =>
    refine ⟨fun c hc ↦ ?_, fun c hc ↦ ?_⟩
    · cases hc
      exact isSpace_quote.1
    · rw [Quoting.wrap, ← List.cons_append, List.getLast?_concat] at hc
      cases hc
      exact isSpace_quote.1
  | single =>
    refine ⟨fun c hc ↦ ?_, fun c hc ↦ ?_⟩
    · cases hc
      exact isSpace_quote.2
    · rw [Quoting.wrap, ← List.cons_append, List.getLast?_concat] at hc
      cases hc
      exact isSpace_quote.2

theorem trimList_wrap (quoting : Quoting) (htext : trimList text = text) :
    trimList (quoting.wrap text) = quoting.wrap text := trimList_eq_self.mpr (wrap_ends quoting htext)

theorem dropWhile_wrap (quoting : Quoting) (htext : trimList text = text) :
    (quoting.wrap text).dropWhile isSpace = quoting.wrap text := by
  have hhead := (wrap_ends quoting htext).1
  cases hwrap : quoting.wrap text with
  | nil => rfl
  | cons c rest =>
    rw [hwrap] at hhead
    exact List.dropWhile_cons_of_neg (by simp [hhead c rfl])

/-- What was quoted is unquoted, and what was not stays as it is. -/
theorem unquote_wrap (htext : trimList text = text) (hne : text ≠ [])
    (hlines : ∀ c ∈ text, isLineTerminator c = false)
    (hstart : ∀ c ∈ text.head?, c ≠ doubleQuote ∧ c ≠ singleQuote) : unquote (quoting.wrap text) = text := by
  have hany : text.any isLineTerminator = false := by simpa using hlines
  rw [unquote, trimList_wrap quoting htext]
  cases quoting with
  | bare =>
    cases text with
    | nil => exact absurd rfl hne
    | cons c rest =>
      obtain ⟨hdouble, hsingle⟩ := hstart c rfl
      simp [Quoting.wrap, hdouble, hsingle]
  | double => simp [Quoting.wrap, hany]
  | single => simp [Quoting.wrap, hany]

theorem mem_wrap {c : Char} (hc : c ∈ quoting.wrap text) : c ∈ text ∨ c = doubleQuote ∨ c = singleQuote := by
  cases quoting with
  | bare => exact Or.inl hc
  | double =>
    rw [Quoting.wrap, List.mem_cons, List.mem_append, List.mem_singleton] at hc
    obtain hc | hc | hc := hc
    · exact Or.inr (Or.inl hc)
    · exact Or.inl hc
    · exact Or.inr (Or.inl hc)
  | single =>
    rw [Quoting.wrap, List.mem_cons, List.mem_append, List.mem_singleton] at hc
    obtain hc | hc | hc := hc
    · exact Or.inr (Or.inr hc)
    · exact Or.inl hc
    · exact Or.inr (Or.inr hc)

theorem wrap_lines (quoting : Quoting) (hlines : ∀ c ∈ text, isLineTerminator c = false) :
    ∀ c ∈ quoting.wrap text, isLineTerminator c = false := by
  intro c hc
  obtain hc | rfl | rfl := mem_wrap hc
  · exact hlines c hc
  · decide
  · decide

/-- A value that stands on one line by itself. -/
structure Scalar (text : List Char) : Prop where
  trimmed : trimList text = text
  nonempty : text ≠ []
  single : ∀ c ∈ text, isLineTerminator c = false
  unquoted : ∀ c ∈ text.head?, c ≠ doubleQuote ∧ c ≠ singleQuote

theorem wrap_ne_nil (quoting : Quoting) (hne : text ≠ []) : quoting.wrap text ≠ [] := by
  cases quoting with
  | bare => exact hne
  | double => exact List.cons_ne_nil _ _
  | single => exact List.cons_ne_nil _ _

theorem dropWhile_blank (cs : List Char) : (' ' :: cs).dropWhile isSpace = cs.dropWhile isSpace :=
  List.dropWhile_cons_of_pos (by decide)

/-- A scalar is added under its key. -/
theorem readLine_scalar (state : FrontmatterState) (key : RuleKey) (quoting : Quoting) (h : Scalar text)
    (hstart : ∀ c ∈ text.head?, c ≠ '[') (hnew : state.fields.lookup key.text = none) : readLine state (scalarLine key quoting text) =
      .ok ⟨state.fields ++ [(key.text, .scalar text)], some key.text⟩ := by
  have hvalue : (' ' :: quoting.wrap text).dropWhile isSpace = quoting.wrap text := by
    rw [dropWhile_blank, dropWhile_wrap quoting h.trimmed]
  have hbracket : (quoting.wrap text).head? ≠ some '[' := by
    cases quoting with
    | bare => exact fun heq ↦ hstart '[' heq rfl
    | double => exact fun heq ↦ absurd (Option.some.inj heq) (by decide)
    | single => exact fun heq ↦ absurd (Option.some.inj heq) (by decide)
  have hsingle : ∀ c ∈ (' ' :: quoting.wrap text).dropWhile isSpace, isLineTerminator c = false := by
    rw [hvalue]
    exact wrap_lines quoting h.single
  rw [scalarLine, readLine_key hsingle, hvalue, readPair, hnew]
  dsimp only
  rw [if_neg (key_new key), trimList_wrap quoting h.trimmed, if_neg (wrap_ne_nil quoting h.nonempty), if_neg hbracket,
    unquote_wrap h.trimmed h.nonempty h.single h.unquoted]

/-! Items. -/

theorem itemOf_itemLine (indent : ℕ) (h : Scalar text) :
    itemOf (List.replicate indent ' ' ++ '-' :: ' ' :: quoting.wrap text) = some (quoting.wrap text) := by
  have hblanks : ∀ c ∈ List.replicate indent ' ', isSpace c = true := by
    intro c hc
    rw [List.eq_of_mem_replicate hc]
    decide
  have hdash : ('-' :: ' ' :: quoting.wrap text).dropWhile isSpace = '-' :: ' ' :: quoting.wrap text :=
    List.dropWhile_cons_of_neg (by decide)
  have hsingle : (quoting.wrap text).any isLineTerminator = false := by simpa using wrap_lines quoting h.single
  have hblank : isSpace ' ' = true := by decide
  rw [itemOf, List.dropWhile_append_of_pos hblanks, hdash]
  simp [dropWhile_wrap quoting h.trimmed, hsingle, hblank]

/-- An item is added to the list under the current key. -/
theorem readLine_item {items : List (List Char)} {current : List Char} (indent : ℕ) (h : Scalar text)
    (hcurrent : state.currentKey = some current) (hlist : state.fields.lookup current = some (.list items)) :
    readLine state (List.replicate indent ' ' ++ '-' :: ' ' :: quoting.wrap text) =
      .ok { state with fields := setField current (.list (items ++ [text])) state.fields } := by
  have hblank : trimList (List.replicate indent ' ' ++ '-' :: ' ' :: quoting.wrap text) ≠ [] :=
    List.ne_nil_of_mem (mem_trimList (c := '-') (by simp) (by decide))
  rw [readLine, if_neg hblank, itemOf_itemLine indent h]
  dsimp only
  rw [readItem, hcurrent]
  dsimp only
  rw [hlist]
  dsimp only
  rw [unquote_wrap h.trimmed h.nonempty h.single h.unquoted]

theorem setField_concat {fields : Fields} {current : List Char} {value value' : FieldValue}
    (hnew : fields.lookup current = none) :
    setField current value' (fields ++ [(current, value)]) = fields ++ [(current, value')] := by
  have hkeep : ∀ field ∈ fields, (if field.1 = current then (current, value') else field) = field := by
    intro field hfield
    refine if_neg fun heq ↦ ?_
    rw [List.lookup_eq_none_iff] at hnew
    simpa [heq] using hnew field hfield
  rw [setField, List.map_append, List.map_congr_left hkeep, List.map_id']
  simp

theorem lookup_concat {fields : Fields} {current : List Char} {value : FieldValue}
    (hnew : fields.lookup current = none) : (fields ++ [(current, value)]).lookup current = some value := by
  rw [List.lookup_append, hnew]
  simp

/-- The items of a list, one after the other. -/
theorem foldlM_items {fields : Fields} {current : List Char} {items : List (List Char)} {globs : List String}
    {indent : ℕ → ℕ} {quoting : ℕ → Quoting} (hglobs : ∀ glob ∈ globs, Scalar glob.toList)
    (hnew : fields.lookup current = none) :
    (globs.mapIdx fun i glob ↦ itemLine (indent i) (quoting i) glob).foldlM readLine
      ⟨fields ++ [(current, .list items)], some current⟩ =
        .ok ⟨fields ++ [(current, .list (items ++ globs.map String.toList))], some current⟩ := by
  induction globs generalizing items indent quoting with
  | nil => simp [pure, Except.pure]
  | cons glob globs ih =>
    obtain ⟨hglob, hrest⟩ := List.forall_mem_cons.mp hglobs
    rw [List.mapIdx_cons, List.foldlM_cons, itemLine, readLine_item _ hglob rfl (lookup_concat hnew)]
    dsimp only
    rw [setField_concat hnew]
    refine (ih hrest).trans ?_
    rw [List.map_cons, List.append_assoc, List.singleton_append]

/-! Inline lists. -/

theorem foldlM_read_text (items : List (List Char)) (item rest : List Char)
    (htext : ∀ c ∈ text, c ≠ doubleQuote ∧ 0x20 ≤ c.toNat) :
    (text ++ rest).foldlM ListReader.read (.inside items item) =
      rest.foldlM ListReader.read (.inside items (item ++ text)) := by
  induction text generalizing item with
  | nil => rw [List.nil_append, List.append_nil]
  | cons c text ih =>
    obtain ⟨⟨hquote, hcontrol⟩, hrest⟩ := List.forall_mem_cons.mp htext
    have hread : ListReader.read (.inside items item) c = some (.inside items (item ++ [c])) := by
      rw [ListReader.read, if_neg hquote, if_neg (Nat.not_lt.mpr hcontrol)]
    rw [List.cons_append, List.foldlM_cons, hread]
    refine (ih (item ++ [c]) hrest).trans ?_
    rw [List.append_assoc, List.singleton_append]

theorem foldlM_read_wrap (reader : ListReader) (items : List (List Char)) (rest : List Char)
    (hreader : reader.read doubleQuote = some (.inside items []))
    (htext : ∀ c ∈ text, c ≠ doubleQuote ∧ 0x20 ≤ c.toNat) :
    (Quoting.double.wrap text ++ rest).foldlM ListReader.read reader =
      rest.foldlM ListReader.read (.behind (items ++ [text])) := by
  have hclose : ListReader.read (.inside items text) doubleQuote = some (.behind (items ++ [text])) := by
    rw [ListReader.read, if_pos rfl]
  rw [Quoting.wrap, List.cons_append, List.foldlM_cons, hreader, List.append_assoc]
  refine (foldlM_read_text items [] _ htext).trans ?_
  rw [List.nil_append, List.singleton_append, List.foldlM_cons, hclose]
  rfl

theorem foldlM_read_blanks (blanks : ℕ) (items : List (List Char)) (rest : List Char) :
    (List.replicate blanks ' ' ++ rest).foldlM ListReader.read (.next items) =
      rest.foldlM ListReader.read (.next items) := by
  induction blanks with
  | zero => rfl
  | succ blanks ih =>
    have hread : ListReader.read (.next items) ' ' = some (.next items) := by
      rw [ListReader.read, if_pos (by decide)]
    rw [List.replicate_succ, List.cons_append, List.foldlM_cons, hread]
    exact ih

/-- What follows the first item, up to the bracket that closes the list. -/
theorem foldlM_read_rest (blanks : ℕ) (items : List (List Char)) {globs : List String}
    (hglobs : ∀ glob ∈ globs, ∀ c ∈ glob.toList, c ≠ doubleQuote ∧ 0x20 ≤ c.toNat) :
    ((globs.flatMap fun glob ↦ ',' :: (List.replicate blanks ' ' ++ Quoting.double.wrap glob.toList)) ++ [']']).foldlM
      ListReader.read (.behind items) = some (.done (items ++ globs.map String.toList)) := by
  induction globs generalizing items with
  | nil => rw [List.map_nil, List.append_nil]; rfl
  | cons glob globs ih =>
    obtain ⟨hglob, hrest⟩ := List.forall_mem_cons.mp hglobs
    have hcomma : ListReader.read (.behind items) ',' = some (.next items) := by
      rw [ListReader.read, if_neg (by decide), if_neg (by decide), if_pos rfl]
    have hquote : ListReader.read (.next items) doubleQuote = some (.inside items []) := by
      rw [ListReader.read, if_neg (by decide), if_pos rfl]
    rw [List.flatMap_cons, List.append_assoc, List.cons_append, List.foldlM_cons, hcomma, List.append_assoc]
    refine (foldlM_read_blanks blanks items _).trans ?_
    refine (foldlM_read_wrap _ items _ hquote hglob).trans ?_
    refine (ih (items ++ [glob.toList]) hrest).trans ?_
    rw [List.map_cons, List.append_assoc, List.singleton_append]

theorem parseInlineList_inlineList (blanks : ℕ) {globs : List String} (hne : globs ≠ [])
    (hglobs : ∀ glob ∈ globs, ∀ c ∈ glob.toList, c ≠ doubleQuote ∧ 0x20 ≤ c.toNat) :
    parseInlineList (inlineList blanks globs) = some (globs.map String.toList) := by
  obtain ⟨glob, globs, rfl⟩ := List.exists_cons_of_ne_nil hne
  obtain ⟨hglob, hrest⟩ := List.forall_mem_cons.mp hglobs
  have hopen : ListReader.read .start '[' = some .first := rfl
  have hquote : ListReader.read .first doubleQuote = some (.inside [] []) := rfl
  have hread : (inlineList blanks (glob :: globs)).foldlM ListReader.read .start =
      some (.done ((glob :: globs).map String.toList)) := by
    rw [inlineList, List.foldlM_cons, hopen, List.map_cons, Paths.intercalate_cons, List.append_assoc]
    refine (foldlM_read_wrap _ [] _ hquote hglob).trans ?_
    rw [List.flatMap_map]
    exact foldlM_read_rest blanks [glob.toList] hrest
  rw [parseInlineList, hread]
  rfl

/-- A glob is a value that stands on one line by itself. -/
theorem GlobOk.scalar {isAbsolute : String → Bool} {glob : String} (h : GlobOk isAbsolute glob) :
    Scalar glob.toList where
  trimmed := by
    have htrim := congrArg String.toList h.trimmed.1
    rwa [trim, String.toList_ofList] at htrim
  nonempty := fun hnil ↦ h.trimmed.2 (String.toList_eq_nil_iff.mp hnil)
  single := fun c hc ↦ (h.plain c hc).2.2.2.2
  unquoted := fun c hc ↦
    have hplain := h.plain c (List.mem_of_mem_head? hc)
    ⟨hplain.1, hplain.2.1⟩

theorem inlineList_ends (blanks : ℕ) (globs : List String) :
    (inlineList blanks globs).head? = some '[' ∧ (inlineList blanks globs).getLast? = some ']' := by
  refine ⟨rfl, ?_⟩
  rw [inlineList, ← List.cons_append, List.getLast?_concat]

theorem mem_inlineList {blanks : ℕ} {globs : List String} {c : Char} (hc : c ∈ inlineList blanks globs) :
    c ∈ ['[', ']', ',', ' ', doubleQuote, singleQuote] ∨ ∃ glob ∈ globs, c ∈ glob.toList := by
  rw [inlineList, List.mem_cons, List.mem_append, List.mem_singleton] at hc
  obtain rfl | hc | rfl := hc
  · exact Or.inl (by simp)
  · obtain hc | ⟨part, hpart, hc⟩ := Paths.mem_intercalate hc
    · obtain rfl | hc := List.mem_cons.mp hc
      · exact Or.inl (by simp)
      · rw [List.eq_of_mem_replicate hc]
        exact Or.inl (by simp)
    · obtain ⟨glob, hglob, rfl⟩ := List.mem_map.mp hpart
      obtain hc | rfl | rfl := mem_wrap hc
      · exact Or.inr ⟨glob, hglob, hc⟩
      · exact Or.inl (by simp)
      · exact Or.inl (by simp)
  · exact Or.inl (by simp)

theorem inlineList_lines {blanks : ℕ} {globs : List String}
    (hglobs : ∀ glob ∈ globs, ∀ c ∈ glob.toList, isLineTerminator c = false) :
    ∀ c ∈ inlineList blanks globs, isLineTerminator c = false := by
  have hmarks : ['[', ']', ',', ' ', doubleQuote, singleQuote].all (fun c ↦ !isLineTerminator c) = true := by decide
  intro c hc
  obtain hc | ⟨glob, hglob, hc⟩ := mem_inlineList hc
  · simpa using List.all_eq_true.mp hmarks c hc
  · exact hglobs glob hglob c hc

/-- An inline list is added under its key. -/
theorem readLine_inline (state : FrontmatterState) (key : RuleKey) (blanks : ℕ) {globs : List String}
    (hne : globs ≠ [])
    (hglobs : ∀ glob ∈ globs, ∀ c ∈ glob.toList, c ≠ doubleQuote ∧ 0x20 ≤ c.toNat ∧ isLineTerminator c = false)
    (hnew : state.fields.lookup key.text = none) :
    readLine state (key.text ++ ':' :: ' ' :: inlineList blanks globs) =
      .ok ⟨state.fields ++ [(key.text, .list (globs.map String.toList))], some key.text⟩ := by
  obtain ⟨hhead, hlast⟩ := inlineList_ends blanks globs
  have htrim : trimList (inlineList blanks globs) = inlineList blanks globs := by
    refine trimList_eq_self.mpr ⟨fun c hc ↦ ?_, fun c hc ↦ ?_⟩
    · rw [hhead] at hc
      obtain rfl := Option.mem_some_iff.mp hc
      decide
    · rw [hlast] at hc
      obtain rfl := Option.mem_some_iff.mp hc
      decide
  have hvalue : (' ' :: inlineList blanks globs).dropWhile isSpace = inlineList blanks globs := by
    rw [dropWhile_blank, inlineList, List.dropWhile_cons_of_neg (by decide)]
  have hsingle : ∀ c ∈ (' ' :: inlineList blanks globs).dropWhile isSpace, isLineTerminator c = false := by
    rw [hvalue]
    exact inlineList_lines fun glob hglob c hc ↦ (hglobs glob hglob c hc).2.2
  have hread := parseInlineList_inlineList blanks hne fun glob hglob c hc ↦
    ⟨(hglobs glob hglob c hc).1, (hglobs glob hglob c hc).2.1⟩
  have hnil : inlineList blanks globs ≠ [] := List.cons_ne_nil _ _
  rw [readLine_key hsingle, hvalue, readPair, hnew]
  dsimp only
  rw [if_neg (key_new key), htrim, if_neg hnil, if_pos hhead, hread]

/-- A key without a value opens a list. -/
theorem readLine_block (state : FrontmatterState) (key : RuleKey) (hnew : state.fields.lookup key.text = none) :
    readLine state (key.text ++ [':']) = .ok ⟨state.fields ++ [(key.text, .list [])], some key.text⟩ := by
  have hkey : readLine state (key.text ++ [':']) = readPair state key.text [] :=
    readLine_key (fun c hc ↦ absurd hc List.not_mem_nil)
  rw [hkey, readPair, hnew]
  dsimp only
  have hblank : trimList ([] : List Char) = [] := by decide
  rw [if_neg (key_new key), if_pos hblank]

end Lines

end OmpLazy.Context

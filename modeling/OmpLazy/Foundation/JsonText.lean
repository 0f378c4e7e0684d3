import OmpLazy.Foundation.Json
import OmpLazy.Foundation.Paths
import Mathlib.Data.Int.Notation
import Mathlib.Tactic.Common

/-! The text of JSON, which is of one value only. -/

namespace OmpLazy.Foundation.JsonText

def quote : Char := Char.ofNat 0x22

def hexDigit (n : ℕ) : Char := Char.ofNat (if n < 10 then 0x30 + n else 0x57 + n)

def hexValue (c : Char) : ℕ := if c.toNat < 0x40 then c.toNat - 0x30 else c.toNat - 0x57

/-- The escapes of one letter. -/
def shortEscapes : List (Char × Char) :=
  [(quote, quote), ('\\', '\\'), (Char.ofNat 8, 'b'), (Char.ofNat 12, 'f'), ('\n', 'n'), ('\r', 'r'), ('\t', 't')]

def escape (c : Char) : List Char :=
  match shortEscapes.lookup c with
  | some letter => ['\\', letter]
  | none =>
    if c.toNat < 0x20 then ['\\', 'u', '0', '0', hexDigit (c.toNat / 16), hexDigit (c.toNat % 16)]
    else [c]

def writeString (s : String) : List Char := quote :: (s.toList.flatMap escape ++ [quote])

def writeInt (n : ℤ) : List Char :=
  if n < 0 then '-' :: Nat.toDigits 10 n.natAbs else Nat.toDigits 10 n.natAbs

def openBrace : Char := Char.ofNat 0x7b

def closeBrace : Char := Char.ofNat 0x7d

def writeMember (key : String) (text : List Char) : List Char := writeString key ++ ':' :: text

mutual
/-- `JSON.stringify` -/
def stringify : Json → List Char
  | .null => "null".toList
  | .bool true => "true".toList
  | .bool false => "false".toList
  | .number n => writeInt n
  | .string s => writeString s
  | .array items => '[' :: ([','].intercalate (stringifyItems items) ++ [']'])
  | .object fields => openBrace :: ([','].intercalate (stringifyFields fields) ++ [closeBrace])

def stringifyItems : List Json → List (List Char)
  | [] => []
  | item :: items => stringify item :: stringifyItems items

def stringifyFields : List (String × Json) → List (List Char)
  | [] => []
  | (key, value) :: fields => writeMember key (stringify value) :: stringifyFields fields
end

/-! Escapes. -/

section Escapes

variable {c : Char} {cs ds rest rest' : List Char}

/-- What an escape stands for, behind its backslash. -/
def readEscape : List Char → Option (Char × List Char)
  | 'u' :: _ :: _ :: x :: y :: rest => some (Char.ofNat (16 * hexValue x + hexValue y), rest)
  | letter :: rest => (shortEscapes.find? (·.2 = letter)).map fun short ↦ (short.1, rest)
  | [] => none

def unescape : List Char → Option (Char × List Char)
  | [] => none
  | c :: text => if c = '\\' then readEscape text else some (c, text)

theorem hexValue_hexDigit {n : ℕ} (h : n < 16) : hexValue (hexDigit n) = n := by
  revert n
  decide

theorem unescape_plain (h : c ≠ '\\') : unescape (c :: rest) = some (c, rest) := by
  rw [unescape, if_neg h]

theorem unescape_escape (c : Char) (rest : List Char) : unescape (escape c ++ rest) = some (c, rest) := by
  rw [escape]
  cases hshort : shortEscapes.lookup c with
  | some letter =>
    obtain ⟨before, others, hlist, -⟩ := List.lookup_eq_some_iff.mp hshort
    have hmem : (c, letter) ∈ shortEscapes := by
      rw [hlist]
      exact List.mem_append_right before List.mem_cons_self
    simp only [shortEscapes, List.mem_cons, Prod.mk.injEq, List.not_mem_nil, or_false] at hmem
    obtain ⟨rfl, rfl⟩ | ⟨rfl, rfl⟩ | ⟨rfl, rfl⟩ | ⟨rfl, rfl⟩ | ⟨rfl, rfl⟩ | ⟨rfl, rfl⟩ | ⟨rfl, rfl⟩ := hmem <;> rfl
  | none =>
    have hback : c ≠ '\\' := by
      rintro rfl
      cases hshort
    by_cases hcontrol : c.toNat < 0x20
    · have hhigh : c.toNat / 16 < 16 := by omega
      have hlow : c.toNat % 16 < 16 := by omega
      have hread : unescape ('\\' :: 'u' :: '0' :: '0' :: hexDigit (c.toNat / 16) :: hexDigit (c.toNat % 16) :: rest) =
          some (Char.ofNat (16 * hexValue (hexDigit (c.toNat / 16)) + hexValue (hexDigit (c.toNat % 16))), rest) := rfl
      dsimp only
      rw [if_pos hcontrol]
      refine hread.trans ?_
      rw [hexValue_hexDigit hhigh, hexValue_hexDigit hlow, Nat.div_add_mod, Char.ofNat_toNat]
    · dsimp only
      rw [if_neg hcontrol]
      exact unescape_plain hback

/-- What is escaped does not begin as what ends a string does. -/
theorem escape_head (c : Char) : ∃ first others, escape c = first :: others ∧ first ≠ quote := by
  rw [escape]
  cases hshort : shortEscapes.lookup c with
  | some letter => exact ⟨_, _, rfl, by decide⟩
  | none =>
    dsimp only
    split
    · exact ⟨_, _, rfl, by decide⟩
    · refine ⟨c, [], rfl, ?_⟩
      rintro rfl
      cases hshort

theorem escaped_unambiguous (h : cs.flatMap escape ++ quote :: rest = ds.flatMap escape ++ quote :: rest') :
    cs = ds ∧ rest = rest' := by
  induction cs generalizing ds with
  | nil =>
    cases ds with
    | nil => exact ⟨rfl, (List.cons.inj h).2⟩
    | cons d ds =>
      obtain ⟨first, others, hescape, hne⟩ := escape_head d
      rw [List.flatMap_nil, List.flatMap_cons, hescape] at h
      exact absurd (List.cons.inj h).1.symm hne
  | cons c cs ih =>
    cases ds with
    | nil =>
      obtain ⟨first, others, hescape, hne⟩ := escape_head c
      rw [List.flatMap_nil, List.flatMap_cons, hescape] at h
      exact absurd (List.cons.inj h).1 hne
    | cons d ds =>
      have hread := congrArg unescape h
      rw [List.flatMap_cons, List.flatMap_cons, List.append_assoc, List.append_assoc, unescape_escape, unescape_escape,
        Option.some.injEq, Prod.mk.injEq] at hread
      obtain ⟨hcs, hrest⟩ := ih hread.2
      exact ⟨by rw [hread.1, hcs], hrest⟩

theorem writeString_unambiguous {s t : String} (h : writeString s ++ rest = writeString t ++ rest') :
    s = t ∧ rest = rest' := by
  rw [writeString, writeString, List.cons_append, List.cons_append, List.append_assoc, List.append_assoc] at h
  obtain ⟨hchars, hrest⟩ := escaped_unambiguous (List.cons.inj h).2
  exact ⟨String.toList_inj.mp hchars, hrest⟩

end Escapes

/-! Numbers. A number ends where no digit follows. -/

section Numbers

variable {rest rest' : List Char}

def Delimited (rest : List Char) : Prop := ∀ c ∈ rest.head?, c.isDigit = false

theorem takeWhile_digits {digits : List Char} (h : ∀ c ∈ digits, c.isDigit = true) (hrest : Delimited rest) :
    (digits ++ rest).takeWhile Char.isDigit = digits := by
  rw [List.takeWhile_append_of_pos h]
  cases rest with
  | nil => exact List.append_nil _
  | cons c rest => rw [List.takeWhile_cons_of_neg (by simp [hrest c rfl]), List.append_nil]

theorem digits_unambiguous {m n : ℕ} (hrest : Delimited rest) (hrest' : Delimited rest')
    (h : Nat.toDigits 10 m ++ rest = Nat.toDigits 10 n ++ rest') : m = n ∧ rest = rest' := by
  have hdigits : ∀ n : ℕ, ∀ c ∈ Nat.toDigits 10 n, c.isDigit = true := fun n c hc ↦
    Nat.isDigit_of_mem_toDigits (by omega) (by omega) hc
  have hsame : Nat.toDigits 10 m = Nat.toDigits 10 n := by
    rw [← takeWhile_digits (hdigits m) hrest, h, takeWhile_digits (hdigits n) hrest']
  have hvalue : ∀ n : ℕ, Nat.ofDigitChars 10 (Nat.toDigits 10 n) 0 = n := fun n ↦
    Nat.ofDigitChars_toDigits (by omega) (by omega)
  refine ⟨?_, ?_⟩
  · rw [← hvalue m, hsame, hvalue n]
  · rw [hsame] at h
    exact List.append_cancel_left h

theorem repr_injective : Function.Injective Nat.repr := by
  intro m n h
  rw [Nat.repr, Nat.repr, String.ofList_inj] at h
  have hnil : Delimited [] := fun c hc ↦ by cases hc
  exact (digits_unambiguous hnil hnil (congrArg (· ++ []) h)).1

theorem toDigits_head (n : ℕ) : ∃ c others, Nat.toDigits 10 n = c :: others ∧ c.isDigit = true := by
  obtain ⟨c, others, hdigits⟩ := List.exists_cons_of_ne_nil (Nat.toDigits_ne_nil (n := n) (b := 10))
  refine ⟨c, others, hdigits, Nat.isDigit_of_mem_toDigits (n := n) (b := 10) (by omega) (by omega) ?_⟩
  rw [hdigits]
  exact List.mem_cons_self

theorem digits_ne_minus (n : ℕ) (text text' : List Char) : Nat.toDigits 10 n ++ text ≠ '-' :: text' := by
  obtain ⟨c, others, hdigits, hdigit⟩ := toDigits_head n
  rw [hdigits, List.cons_append]
  intro h
  rw [(List.cons.inj h).1] at hdigit
  exact absurd hdigit (by decide)

theorem writeInt_unambiguous {m n : ℤ} (hrest : Delimited rest) (hrest' : Delimited rest')
    (h : writeInt m ++ rest = writeInt n ++ rest') : m = n ∧ rest = rest' := by
  rw [writeInt, writeInt] at h
  by_cases hm : m < 0
  · by_cases hn : n < 0
    · rw [if_pos hm, if_pos hn, List.cons_append, List.cons_append] at h
      obtain ⟨habs, htail⟩ := digits_unambiguous hrest hrest' (List.cons.inj h).2
      exact ⟨by omega, htail⟩
    · rw [if_pos hm, if_neg hn, List.cons_append] at h
      exact absurd h.symm (digits_ne_minus _ _ _)
  · by_cases hn : n < 0
    · rw [if_neg hm, if_pos hn, List.cons_append] at h
      exact absurd h (digits_ne_minus _ _ _)
    · rw [if_neg hm, if_neg hn] at h
      obtain ⟨habs, htail⟩ := digits_unambiguous hrest hrest' h
      exact ⟨by omega, htail⟩

theorem writeInt_head (n : ℤ) : ∃ c others, writeInt n = c :: others ∧ (c = '-' ∨ c.isDigit = true) := by
  rw [writeInt]
  split
  · exact ⟨_, _, rfl, Or.inl rfl⟩
  · obtain ⟨c, others, hdigits, hdigit⟩ := toDigits_head n.natAbs
    exact ⟨c, others, hdigits, Or.inr hdigit⟩

end Numbers

/-! Lists of texts. -/

section Lists

variable {α : Type*} {write : α → List Char} {xs ys : List α} {close : Char} {rest rest' : List Char}

/-- A text says what was written, and where it ends. -/
def Unambiguous (write : α → List Char) (x : α) : Prop :=
  ∀ y rest rest', Delimited rest → Delimited rest' → write x ++ rest = write y ++ rest' → x = y ∧ rest = rest'

theorem delimited_cons {c : Char} (h : c.isDigit = false) : Delimited (c :: rest) := by
  intro d hd
  obtain rfl := Option.some.inj hd
  exact h

theorem delimited_tail (hclose : close.isDigit = false) (texts : List (List Char)) :
    Delimited ((texts.flatMap fun text ↦ ',' :: text) ++ close :: rest) := by
  cases texts with
  | nil => exact delimited_cons hclose
  | cons text texts => exact delimited_cons (by decide)

theorem tail_unambiguous (hxs : ∀ x ∈ xs, Unambiguous write x) (hcomma : close ≠ ',') (hclose : close.isDigit = false)
    (h : ((xs.map write).flatMap fun text ↦ ',' :: text) ++ close :: rest =
      ((ys.map write).flatMap fun text ↦ ',' :: text) ++ close :: rest') : xs = ys ∧ rest = rest' := by
  induction xs generalizing ys with
  | nil =>
    cases ys with
    | nil => exact ⟨rfl, (List.cons.inj h).2⟩
    | cons y ys => exact absurd (List.cons.inj h).1 hcomma
  | cons x xs ih =>
    obtain ⟨hx, hxs⟩ := List.forall_mem_cons.mp hxs
    cases ys with
    | nil => exact absurd (List.cons.inj h).1.symm hcomma
    | cons y ys =>
      simp only [List.map_cons, List.flatMap_cons, List.cons_append, List.append_assoc, List.cons.injEq, true_and] at h
      obtain ⟨rfl, htail⟩ := hx y _ _ (delimited_tail hclose _) (delimited_tail hclose _) h
      obtain ⟨rfl, hrest⟩ := ih hxs htail
      exact ⟨rfl, hrest⟩

/-- A list is read back from its texts, joined by commas and closed. -/
theorem joined_unambiguous (hxs : ∀ x ∈ xs, Unambiguous write x) (hcomma : close ≠ ',') (hclose : close.isDigit = false)
    (hwrite : ∀ x rest rest', write x ++ rest ≠ close :: rest')
    (h : [','].intercalate (xs.map write) ++ close :: rest = [','].intercalate (ys.map write) ++ close :: rest') :
    xs = ys ∧ rest = rest' := by
  cases xs with
  | nil =>
    cases ys with
    | nil => exact ⟨rfl, (List.cons.inj h).2⟩
    | cons y ys =>
      rw [List.map_cons, Paths.intercalate_cons, List.append_assoc] at h
      exact absurd h.symm (hwrite y _ _)
  | cons x xs =>
    obtain ⟨hx, hxs⟩ := List.forall_mem_cons.mp hxs
    cases ys with
    | nil =>
      rw [List.map_cons, Paths.intercalate_cons, List.append_assoc] at h
      exact absurd h (hwrite x _ _)
    | cons y ys =>
      rw [List.map_cons, List.map_cons, Paths.intercalate_cons, Paths.intercalate_cons, List.append_assoc, List.append_assoc] at h
      obtain ⟨rfl, htail⟩ := hx y _ _ (delimited_tail hclose _) (delimited_tail hclose _) h
      obtain ⟨rfl, hrest⟩ := tail_unambiguous hxs hcomma hclose htail
      exact ⟨rfl, hrest⟩

end Lists

/-! Values. -/

section Values

variable {P : Json → Prop}

/-- Induction over a value, with what holds of all items and of the values of all members. -/
theorem induction (hnull : P .null) (hbool : ∀ value, P (.bool value)) (hnumber : ∀ value, P (.number value))
    (hstring : ∀ value, P (.string value)) (harray : ∀ items, (∀ item ∈ items, P item) → P (.array items))
    (hobject : ∀ fields : List (String × Json), (∀ field ∈ fields, P field.2) → P (.object fields)) (j : Json) : P j :=
  @Json.rec P (fun items ↦ ∀ item ∈ items, P item) (fun fields ↦ ∀ field ∈ fields, P field.2) (fun field ↦ P field.2)
    hnull hbool hnumber hstring harray hobject (fun _ h ↦ absurd h List.not_mem_nil)
    (fun _ _ hitem hitems ↦ List.forall_mem_cons.mpr ⟨hitem, hitems⟩) (fun _ h ↦ absurd h List.not_mem_nil)
    (fun _ _ hfield hfields ↦ List.forall_mem_cons.mpr ⟨hfield, hfields⟩) (fun _ _ hvalue ↦ hvalue) j

def writeField (field : String × Json) : List Char := writeMember field.1 (stringify field.2)

theorem stringifyItems_eq (items : List Json) : stringifyItems items = items.map stringify := by
  induction items with
  | nil => rw [stringifyItems, List.map_nil]
  | cons item items ih => rw [stringifyItems, ih, List.map_cons]

theorem stringifyFields_eq (fields : List (String × Json)) : stringifyFields fields = fields.map writeField := by
  induction fields with
  | nil => rw [stringifyFields, List.map_nil]
  | cons field fields ih => rw [stringifyFields, ih, List.map_cons, writeField]

/-- The kind of a value, and of the value that a text with this first character is of. -/
def kind : Json → ℕ
  | .null => 0
  | .bool _ => 1
  | .number _ => 2
  | .string _ => 3
  | .array _ => 4
  | .object _ => 5

def kindOf (c : Char) : ℕ :=
  if c = 'n' then 0 else if c = 't' ∨ c = 'f' then 1 else if c = '-' ∨ c.isDigit = true then 2
  else if c = quote then 3 else if c = '[' then 4 else if c = openBrace then 5 else 6

theorem kindOf_number {c : Char} (h : c = '-' ∨ c.isDigit = true) : kindOf c = 2 := by
  obtain rfl | hdigit := h
  · decide
  · have hne : ∀ d : Char, d.isDigit = false → c ≠ d := by
      rintro d hd rfl
      rw [hdigit] at hd
      cases hd
    rw [kindOf, if_neg (hne 'n' (by decide)), if_neg (not_or.mpr ⟨hne 't' (by decide), hne 'f' (by decide)⟩),
      if_pos (Or.inr hdigit)]

theorem stringify_head (j : Json) : ∃ c others, stringify j = c :: others ∧ kindOf c = kind j := by
  cases j with
  | null => exact ⟨'n', "ull".toList, by rw [stringify]; rfl, by decide⟩
  | bool value =>
    cases value
    · exact ⟨'f', "alse".toList, by rw [stringify]; rfl, by decide⟩
    · exact ⟨'t', "rue".toList, by rw [stringify]; rfl, by decide⟩
  | number value =>
    obtain ⟨c, others, hwrite, hc⟩ := writeInt_head value
    exact ⟨c, others, by rw [stringify, hwrite], kindOf_number hc⟩
  | string value => exact ⟨quote, _, by rw [stringify, writeString], rfl⟩
  | array items => exact ⟨'[', _, by rw [stringify], rfl⟩
  | object fields => exact ⟨openBrace, _, by rw [stringify], rfl⟩

theorem kind_eq {j j' : Json} {rest rest' : List Char} (h : stringify j ++ rest = stringify j' ++ rest') :
    kind j = kind j' := by
  obtain ⟨c, others, hwrite, hkind⟩ := stringify_head j
  obtain ⟨c', others', hwrite', hkind'⟩ := stringify_head j'
  rw [hwrite, hwrite'] at h
  rw [← hkind, (List.cons.inj h).1, hkind']

theorem stringify_ne_close {c : Char} (hc : kindOf c = 6) (j : Json) (rest rest' : List Char) :
    stringify j ++ rest ≠ c :: rest' := by
  obtain ⟨d, others, hwrite, hkind⟩ := stringify_head j
  rw [hwrite]
  intro h
  rw [(List.cons.inj h).1, hc] at hkind
  cases j <;> cases hkind

theorem writeField_ne_close (field : String × Json) (rest rest' : List Char) :
    writeField field ++ rest ≠ closeBrace :: rest' := by
  intro h
  exact absurd (List.cons.inj h).1 (by decide)

theorem writeField_unambiguous {field : String × Json} (h : Unambiguous stringify field.2) :
    Unambiguous writeField field := by
  intro field' rest rest' hrest hrest' heq
  rw [writeField, writeField, writeMember, writeMember, List.append_assoc, List.append_assoc] at heq
  obtain ⟨hkey, htail⟩ := writeString_unambiguous heq
  obtain ⟨hvalue, htail⟩ := h _ _ _ hrest hrest' (List.cons.inj htail).2
  exact ⟨Prod.ext hkey hvalue, htail⟩

/-- The text of a value is of no other value. -/
theorem stringify_unambiguous (j : Json) : Unambiguous stringify j := by
  induction j using induction with
  | hnull =>
    intro j' rest rest' _ _ h
    have hkind := kind_eq h
    cases j' with
    | null => exact ⟨rfl, List.append_cancel_left h⟩
    | bool | number | string | array | object => cases hkind
  | hbool value =>
    intro j' rest rest' _ _ h
    have hkind := kind_eq h
    cases j' with
    | bool value' =>
      cases value <;> cases value'
      · exact ⟨rfl, List.append_cancel_left h⟩
      · rw [stringify, stringify] at h
        exact absurd (List.cons.inj h).1 (by decide)
      · rw [stringify, stringify] at h
        exact absurd (List.cons.inj h).1 (by decide)
      · exact ⟨rfl, List.append_cancel_left h⟩
    | null | number | string | array | object => cases hkind
  | hnumber value =>
    intro j' rest rest' hrest hrest' h
    have hkind := kind_eq h
    cases j' with
    | number value' =>
      rw [stringify, stringify] at h
      obtain ⟨rfl, htail⟩ := writeInt_unambiguous hrest hrest' h
      exact ⟨rfl, htail⟩
    | null | bool | string | array | object => cases hkind
  | hstring value =>
    intro j' rest rest' _ _ h
    have hkind := kind_eq h
    cases j' with
    | string value' =>
      rw [stringify, stringify] at h
      obtain ⟨rfl, htail⟩ := writeString_unambiguous h
      exact ⟨rfl, htail⟩
    | null | bool | number | array | object => cases hkind
  | harray items ih =>
    intro j' rest rest' _ _ h
    have hkind := kind_eq h
    cases j' with
    | array items' =>
      rw [stringify, stringify, stringifyItems_eq, stringifyItems_eq] at h
      simp only [List.cons_append, List.append_assoc, List.nil_append, List.cons.injEq, true_and] at h
      obtain ⟨rfl, htail⟩ := joined_unambiguous ih (by decide) (by decide) (stringify_ne_close (by decide)) h
      exact ⟨rfl, htail⟩
    | null | bool | number | string | object => cases hkind
  | hobject fields ih =>
    intro j' rest rest' _ _ h
    have hkind := kind_eq h
    cases j' with
    | object fields' =>
      rw [stringify, stringify, stringifyFields_eq, stringifyFields_eq] at h
      simp only [List.cons_append, List.append_assoc, List.nil_append, List.cons.injEq, true_and] at h
      obtain ⟨rfl, htail⟩ := joined_unambiguous (fun field hfield ↦ writeField_unambiguous (ih field hfield)) (by decide)
        (by decide) writeField_ne_close h
      exact ⟨rfl, htail⟩
    | null | bool | number | string | array => cases hkind

theorem stringify_injective : Function.Injective stringify := by
  intro j j' h
  have hend : Delimited [] := fun _ hc ↦ absurd hc (by simp)
  exact (stringify_unambiguous j j' [] [] hend hend (by rw [h])).1

end Values

end OmpLazy.Foundation.JsonText

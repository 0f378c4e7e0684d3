import Mathlib.Algebra.GroupWithZero.Nat
import Mathlib.Data.List.DropRight
import Mathlib.Data.List.Basic

namespace OmpLazy.Foundation.Text

/-- The white space and line terminators that `String.prototype.trim` removes. -/
def isSpace (c : Char) : Bool :=
  c.toNat ∈ [0x9, 0xA, 0xB, 0xC, 0xD, 0x20, 0xA0, 0x1680, 0x2028, 0x2029, 0x202F, 0x205F, 0x3000,
    0xFEFF] || (0x2000 ≤ c.toNat && c.toNat ≤ 0x200A)

def trimList (cs : List Char) : List Char := (cs.dropWhile isSpace).rdropWhile isSpace

/-- `String.prototype.trim`. -/
def trim (s : String) : String := String.ofList (trimList s.toList)

theorem trimList_trimList (cs : List Char) : trimList (trimList cs) = trimList cs := by
  have hhead : (trimList cs).dropWhile isSpace = trimList cs := by
    rw [List.dropWhile_eq_self_iff]
    intro hlen
    have hpre : trimList cs <+: cs.dropWhile isSpace := List.rdropWhile_prefix isSpace _
    have hlen' : 0 < (cs.dropWhile isSpace).length := hlen.trans_le hpre.length_le
    have hget : (trimList cs)[0] = (cs.dropWhile isSpace)[0] := hpre.getElem hlen
    rw [hget]
    exact List.dropWhile_get_zero_not isSpace cs hlen'
  rw [trimList, hhead, trimList]
  exact List.rdropWhile_idempotent isSpace _

@[simp] theorem trim_trim (s : String) : trim (trim s) = trim s := by
  simp [trim, trimList_trimList]

/-- A string as the schema library's `trim().min(1)` leaves it. -/
def Trimmed (s : String) : Prop := trim s = s ∧ s ≠ ""

instance (s : String) : Decidable (Trimmed s) := inferInstanceAs (Decidable (_ ∧ _))

theorem trimList_eq_self {cs : List Char} : trimList cs = cs ↔
    (∀ c ∈ cs.head?, isSpace c = false) ∧ ∀ c ∈ cs.getLast?, isSpace c = false := by
  have hhead : cs.dropWhile isSpace = cs ↔ ∀ c ∈ cs.head?, isSpace c = false := by
    cases cs <;> simp [List.dropWhile_eq_self_iff]
  have hlast : cs.rdropWhile isSpace = cs ↔ ∀ c ∈ cs.getLast?, isSpace c = false := by
    rw [List.rdropWhile_eq_self_iff]
    cases h : cs.getLast? with
    | none => simp [List.getLast?_eq_none_iff.mp h]
    | some c =>
      obtain ⟨hne, rfl⟩ := List.mem_getLast?_eq_getLast h
      simp [hne]
  rw [← hhead, ← hlast]
  constructor
  · intro h
    have hprefix : trimList cs <+: cs.dropWhile isSpace := List.rdropWhile_prefix isSpace _
    have hsuffix : cs.dropWhile isSpace <:+ cs := List.dropWhile_suffix isSpace
    have hdrop : cs.dropWhile isSpace = cs := by
      refine hsuffix.eq_of_length (le_antisymm hsuffix.length_le ?_)
      exact (congrArg List.length h).symm.le.trans hprefix.length_le
    rw [trimList, hdrop] at h
    exact ⟨hdrop, h⟩
  · rintro ⟨hdrop, hrdrop⟩
    rw [trimList, hdrop, hrdrop]

/-- A trimmed string followed by one that ends without white space. -/
theorem Trimmed.append {s t : String} (hs : Trimmed s) (ht : ∃ c ∈ t.toList.getLast?, isSpace c = false) :
    Trimmed (s ++ t) := by
  obtain ⟨c, hlast, hspace⟩ := ht
  have hne : s.toList ≠ [] := fun h ↦ hs.2 (String.toList_eq_nil_iff.mp h)
  have htrim : trimList s.toList = s.toList := by
    have h := congrArg String.toList hs.1
    rwa [trim, String.toList_ofList] at h
  constructor
  · rw [trim, trimList_eq_self.mpr, String.ofList_toList]
    rw [String.toList_append]
    constructor
    · rw [List.head?_append_of_ne_nil _ hne]
      exact (trimList_eq_self.mp htrim).1
    · rw [List.getLast?_append_of_ne_nil _ (by rintro h; simp [h] at hlast), hlast]
      simpa using hspace
  · intro h
    have hnil := congrArg String.toList h
    simp [String.toList_append, hne] at hnil

/-- A number ends with a digit. -/
theorem toString_last (n : ℕ) : ∃ c ∈ (toString n).toList.getLast?, isSpace c = false := by
  have hne : Nat.toDigits 10 n ≠ [] := Nat.toDigits_ne_nil
  rw [Nat.toString_eq_ofList_toDigits, String.toList_ofList]
  refine ⟨(Nat.toDigits 10 n).getLast hne, List.getLast?_eq_some_getLast hne, ?_⟩
  have hdigit := Nat.isDigit_of_mem_toDigits (by decide) (by decide) (List.getLast_mem hne)
  generalize (Nat.toDigits 10 n).getLast hne = c at hdigit
  simp only [Char.isDigit, Bool.and_eq_true, decide_eq_true_eq] at hdigit
  have hlo : 48 ≤ c.toNat := hdigit.1
  have hhi : c.toNat ≤ 57 := hdigit.2
  simp only [isSpace, List.mem_cons, List.not_mem_nil, or_false, Bool.or_eq_false_iff,
    decide_eq_false_iff_not, Bool.and_eq_false_iff]
  omega

/-- The length of a string in UTF-16 code units. -/
def utf16Length (s : String) : ℕ := (s.toList.map fun c ↦ if 0x10000 ≤ c.toNat then 2 else 1).sum

def isDigit (c : Char) : Bool := '0' ≤ c && c ≤ '9'

def isLowerHex (c : Char) : Bool := isDigit c || ('a' ≤ c && c ≤ 'f')

def isHex (c : Char) : Bool := isLowerHex c || ('A' ≤ c && c ≤ 'F')

/-- A regular expression that is a fixed sequence of character classes. -/
def matchesClasses : List (Char → Bool) → List Char → Bool
  | [], [] => true
  | p :: ps, c :: cs => p c && matchesClasses ps cs
  | _, _ => false

theorem matchesClasses_append {ps qs : List (Char → Bool)} {cs ds : List Char}
    (h : matchesClasses ps cs = true) : matchesClasses (ps ++ qs) (cs ++ ds) = matchesClasses qs ds := by
  induction ps generalizing cs with
  | nil => cases cs <;> simp_all [matchesClasses]
  | cons p ps ih =>
    cases cs with
    | nil => simp [matchesClasses] at h
    | cons c cs =>
      simp only [matchesClasses, Bool.and_eq_true] at h
      simp [matchesClasses, h.1, ih h.2]

theorem matchesClasses_replicate {p : Char → Bool} {n : ℕ} {cs : List Char} :
    matchesClasses (List.replicate n p) cs = true ↔ cs.length = n ∧ ∀ c ∈ cs, p c = true := by
  induction n generalizing cs with
  | zero => cases cs <;> simp [matchesClasses]
  | succ n ih => cases cs <;> simp [matchesClasses, List.replicate_succ, ih]; tauto

theorem matchesClasses_length {ps : List (Char → Bool)} {cs : List Char} (h : matchesClasses ps cs = true) :
    cs.length = ps.length := by
  induction ps generalizing cs with
  | nil => cases cs <;> simp_all [matchesClasses]
  | cons p ps ih => cases cs <;> simp_all [matchesClasses]

/-- What stands in a string between a prefix and a suffix. -/
def between (start finish s : String) : Option (List Char) :=
  let rest := s.toList.drop start.length
  let stem := rest.take (rest.length - finish.length)
  if s.toList = start.toList ++ stem ++ finish.toList then some stem else none

def startsWith (start s : String) : Bool := start.toList.isPrefixOf s.toList

/-- What follows a prefix. -/
def after (start s : String) : Option String :=
  if startsWith start s then some (String.ofList (s.toList.drop start.length)) else none

theorem after_append (start s : String) : after start (start ++ s) = some s := by
  have hstart : startsWith start (start ++ s) = true := by simp [startsWith, String.toList_append]
  rw [after, if_pos hstart, String.toList_append, List.drop_left' String.length_toList,
    String.ofList_toList]

theorem after_eq_none {start s : String} (h : startsWith start s = false) : after start s = none := by
  simp [after, h]

def endsWith (finish s : String) : Bool := finish.toList.isSuffixOf s.toList

/-- `/^[0-9a-f]{n}$/`. -/
def isLowerHexOf (n : ℕ) (s : String) : Bool := matchesClasses (List.replicate n isLowerHex) s.toList

theorem isLowerHexOf_replicate {c : Char} (h : isLowerHex c = true) (n : ℕ) :
    isLowerHexOf n (String.ofList (List.replicate n c)) = true := by
  rw [isLowerHexOf, String.toList_ofList, matchesClasses_replicate]
  exact ⟨List.length_replicate, fun _ hc ↦ List.eq_of_mem_replicate hc ▸ h⟩

def uuidClasses : List (Char → Bool) :=
  List.replicate 8 isHex ++ (· == '-') :: (List.replicate 4 isHex ++ (· == '-') ::
    (fun c ↦ '1' ≤ c && c ≤ '8') :: (List.replicate 3 isHex ++ (· == '-') ::
      (fun c ↦ ['8', '9', 'a', 'b', 'A', 'B'].contains c) :: (List.replicate 3 isHex ++ (· == '-') ::
        List.replicate 12 isHex)))

/-- The schema library's `uuid()`: version 1 to 8 and the RFC variant, or the nil or max UUID. -/
def isUuid (s : String) : Bool :=
  matchesClasses uuidClasses s.toList || s == "00000000-0000-0000-0000-000000000000" ||
    s == "ffffffff-ffff-ffff-ffff-ffffffffffff"

theorem isUuid_length {id : String} (h : isUuid id = true) : id.toList.length = 36 := by
  simp only [isUuid, Bool.or_eq_true, beq_iff_eq] at h
  obtain (hclasses | rfl) | rfl := h
  · exact matchesClasses_length hclasses
  · decide
  · decide

/-- Exactly `n` decimal digits, and what follows them. -/
def digits : ℕ → List Char → Option (ℕ × List Char)
  | 0, cs => some (0, cs)
  | n + 1, c :: cs =>
    if isDigit c then (digits n cs).map fun (v, rest) ↦ ((c.toNat - 48) * 10 ^ n + v, rest) else none
  | _ + 1, [] => none

/-- A `value` of `n` digits up to `hi`, from `lo` on. -/
def digitsIn (n lo hi : ℕ) (cs : List Char) : Option (ℕ × List Char) :=
  (digits n cs).filter fun (v, _) ↦ lo ≤ v && v ≤ hi

def daysInMonth (year month : ℕ) : ℕ :=
  if month = 2 then if year % 4 = 0 ∧ (year % 100 ≠ 0 ∨ year % 400 = 0) then 29 else 28
  else if month ∈ [4, 6, 9, 11] then 30 else 31

def char (c : Char) : List Char → Option (List Char)
  | d :: cs => if c = d then some cs else none
  | [] => none

/-- `HH:MM`. -/
def hourMinute (cs : List Char) : Option (List Char) := do
  let (_, cs) ← digitsIn 2 0 23 cs
  let cs ← char ':' cs
  let (_, cs) ← digitsIn 2 0 59 cs
  return cs

/-- `:SS` with any number of fractional digits, all of it optional. -/
def seconds (cs : List Char) : Option (List Char) :=
  match char ':' cs with
  | none => some cs
  | some cs => do
    let (_, cs) ← digitsIn 2 0 59 cs
    match char '.' cs with
    | none => some cs
    | some cs => if (cs.takeWhile isDigit).isEmpty then none else some (cs.dropWhile isDigit)

/-- `Z` or a signed `HH:MM`, and nothing after it. -/
def isOffset (cs : List Char) : Bool :=
  cs = ['Z'] ||
    match cs with
    | c :: cs => (c = '+' || c = '-') && hourMinute cs = some []
    | [] => false

/-- The schema library's `iso.datetime({ offset: true })`. -/
def isIsoDatetime (s : String) : Bool :=
  ((do
    let (year, cs) ← digits 4 s.toList
    let cs ← char '-' cs
    let (month, cs) ← digitsIn 2 1 12 cs
    let cs ← char '-' cs
    let (_, cs) ← digitsIn 2 1 (daysInMonth year month) cs
    let cs ← char 'T' cs
    let cs ← hourMinute cs
    seconds cs).map isOffset).getD false

example : isIsoDatetime "2026-07-22T00:00:00.000Z" = true := by decide

example : isUuid "77777777-7777-4777-8777-777777777777" = true := by decide

end OmpLazy.Foundation.Text

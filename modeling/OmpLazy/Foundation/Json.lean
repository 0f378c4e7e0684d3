import Mathlib.Data.List.Basic

namespace OmpLazy.Foundation

/-- The values of JSON text. The members of an object keep their order, which is the order in
which `JSON.stringify` writes them; a number is an integer. -/
inductive Json where
  | null
  | bool (value : Bool)
  | number (value : Int)
  | string (value : String)
  | array (items : List Json)
  | object (fields : List (String × Json))
  deriving Repr, Inhabited

namespace Json

mutual
def decEq : (a b : Json) → Decidable (a = b)
  | .null, .null => isTrue rfl
  | .bool a, .bool b => decidable_of_iff (a = b) (by simp)
  | .number a, .number b => decidable_of_iff (a = b) (by simp)
  | .string a, .string b => decidable_of_iff (a = b) (by simp)
  | .array xs, .array ys =>
    match itemsDecEq xs ys with
    | isTrue h => isTrue (congrArg Json.array h)
    | isFalse h => isFalse fun heq ↦ h (Json.array.inj heq)
  | .object xs, .object ys =>
    match fieldsDecEq xs ys with
    | isTrue h => isTrue (congrArg Json.object h)
    | isFalse h => isFalse fun heq ↦ h (Json.object.inj heq)
  | .null, .bool _ | .null, .number _ | .null, .string _ | .null, .array _ | .null, .object _
  | .bool _, .null | .bool _, .number _ | .bool _, .string _ | .bool _, .array _
  | .bool _, .object _ | .number _, .null | .number _, .bool _ | .number _, .string _
  | .number _, .array _ | .number _, .object _ | .string _, .null | .string _, .bool _
  | .string _, .number _ | .string _, .array _ | .string _, .object _ | .array _, .null
  | .array _, .bool _ | .array _, .number _ | .array _, .string _ | .array _, .object _
  | .object _, .null | .object _, .bool _ | .object _, .number _ | .object _, .string _
  | .object _, .array _ => isFalse (by simp)

def itemsDecEq : (xs ys : List Json) → Decidable (xs = ys)
  | [], [] => isTrue rfl
  | [], _ :: _ | _ :: _, [] => isFalse (by simp)
  | x :: xs, y :: ys =>
    match decEq x y, itemsDecEq xs ys with
    | isTrue h, isTrue hs => isTrue (congrArg₂ List.cons h hs)
    | isFalse h, _ => isFalse fun heq ↦ h (List.cons.inj heq).1
    | _, isFalse hs => isFalse fun heq ↦ hs (List.cons.inj heq).2

def fieldsDecEq : (xs ys : List (String × Json)) → Decidable (xs = ys)
  | [], [] => isTrue rfl
  | [], _ :: _ | _ :: _, [] => isFalse (by simp)
  | (k, x) :: xs, (l, y) :: ys =>
    if hk : k = l then
      match decEq x y, fieldsDecEq xs ys with
      | isTrue h, isTrue hs => isTrue (by rw [hk, h, hs])
      | isFalse h, _ => isFalse fun heq ↦ h (Prod.mk.inj (List.cons.inj heq).1).2
      | _, isFalse hs => isFalse fun heq ↦ hs (List.cons.inj heq).2
    else isFalse fun heq ↦ hk (Prod.mk.inj (List.cons.inj heq).1).1
end

instance : DecidableEq Json := decEq

/-- A natural number as JSON. -/
def nat (n : ℕ) : Json := .number n

theorem nat_injective : Function.Injective nat := fun m n h ↦ by
  have hcast : (m : Int) = n := Json.number.inj h
  omega

/-- `undefined` members are left out of the text, so an optional member is a list of at most one. -/
def optional (key : String) : Option Json → List (String × Json)
  | none => []
  | some value => [(key, value)]

/-- `value ?? null`. -/
def nullable : Option Json → Json
  | none => .null
  | some value => value

/-- The value of a member, `undefined` being `none`. -/
def member (fields : List (String × Json)) (key : String) : Option Json :=
  (fields.find? (·.1 == key)).map (·.2)

@[simp] theorem member_nil (key : String) : member [] key = none := rfl

@[simp] theorem member_cons (k : String) (v : Json) (fields : List (String × Json)) (key : String) :
    member ((k, v) :: fields) key = if k = key then some v else member fields key := by
  by_cases h : k = key <;> simp [member, h]

@[simp] theorem member_append (fields fields' : List (String × Json)) (key : String) :
    member (fields ++ fields') key = (member fields key).or (member fields' key) := by
  simp only [member, List.find?_append]
  cases fields.find? (·.1 == key) <;> simp

@[simp] theorem member_optional (k : String) (v : Option Json) (key : String) :
    member (optional k v) key = if k = key then v else none := by
  cases v <;> simp [optional]

/-- `value[key]`. -/
def get? : Json → String → Option Json
  | .object fields, key => member fields key
  | _, _ => none

/-- Overwriting a member keeps its place, a new one goes last: `{ ...fields, [key]: value }`. -/
def setField (key : String) (value : Json) : List (String × Json) → List (String × Json)
  | [] => [(key, value)]
  | (k, v) :: fields => if k = key then (k, value) :: fields else (k, v) :: setField key value fields

theorem member_setField (key : String) (value : Json) (fields : List (String × Json)) (key' : String) :
    member (setField key value fields) key' = if key = key' then some value else member fields key' := by
  induction fields with
  | nil => simp [setField]
  | cons f fields ih =>
    obtain ⟨k, v⟩ := f
    by_cases h : k = key
    · subst h
      by_cases h' : k = key' <;> simp [setField, h']
    · by_cases h' : k = key'
      · subst h'
        simp [setField, h, Ne.symm h]
      · simp only [setField, if_neg h, member_cons, if_neg h', ih]

/-- `{ ...value, [key]: entry }`. -/
def set (value : Json) (key : String) (entry : Json) : Json :=
  match value with
  | .object fields => .object (setField key entry fields)
  | _ => value

/-- `const { [key]: _, ...rest } = value` for every listed key. -/
def without (keys : List String) : Json → Json
  | .object fields => .object (fields.filter (·.1 ∉ keys))
  | value => value

theorem member_filter {keys : List String} {key : String} (h : key ∉ keys)
    (fields : List (String × Json)) :
    member (fields.filter (·.1 ∉ keys)) key = member fields key := by
  induction fields with
  | nil => rfl
  | cons f fields ih =>
    obtain ⟨k, v⟩ := f
    by_cases hk : k ∈ keys
    · have hne : k ≠ key := fun e ↦ h (e ▸ hk)
      simp only [List.filter_cons, hk, not_true_eq_false, decide_false, Bool.false_eq_true,
        if_false, member_cons, if_neg hne, ih]
    · simp only [List.filter_cons, hk, not_false_eq_true, decide_true, if_true, member_cons, ih]

theorem get?_without {keys : List String} {key : String} (h : key ∉ keys) (value : Json) :
    (value.without keys).get? key = value.get? key := by
  cases value with
  | object fields => exact member_filter h fields
  | null | bool | number | string | array => rfl

end Json

end OmpLazy.Foundation

import OmpLazy.Foundation.Json
import OmpLazy.Foundation.Text
import Mathlib.Data.List.Forall2

namespace OmpLazy.Foundation

/-- A schema reads a JSON value; `none` is a failed `safeParse`. -/
abbrev Schema (α : Type) := Json → Option α

namespace Schema

open Text

variable {α β : Type}

/-- `Number.MAX_SAFE_INTEGER`, the largest integer that `int()` accepts. -/
def maxSafeInteger : ℕ := 2 ^ 53 - 1

def string : Schema String
  | .string s => some s
  | _ => none

def boolean : Schema Bool
  | .bool b => some b
  | _ => none

/-- `string().trim().min(1)`: the value it returns is trimmed. -/
def nonempty : Schema String
  | .string s => if trim s = "" then none else some (trim s)
  | _ => none

/-- `number().int().nonnegative()`. -/
def counter : Schema ℕ
  | .number n => if 0 ≤ n ∧ n ≤ maxSafeInteger then some n.toNat else none
  | _ => none

def literal (value : Json) : Schema Unit := fun j ↦ if j = value then some () else none

/-- `schema.refine(check)`: the check sees the value the schema returns. -/
def refine (schema : Schema α) (check : α → Bool) : Schema α := fun j ↦ (schema j).filter check

def nullable (schema : Schema α) : Schema (Option α)
  | .null => some none
  | j => (schema j).map some

def items (schema : Schema α) : List Json → Option (List α)
  | [] => some []
  | j :: js => (schema j).bind fun x ↦ (items schema js).map (x :: ·)

def array (schema : Schema α) : Schema (List α)
  | .array js => items schema js
  | _ => none

/-- `enum([...])`, each choice under its name. -/
def oneOf (choices : List α) (name : α → String) : Schema α
  | .string s => choices.find? fun x ↦ name x == s
  | _ => none

/-- `object({...}).strict()`: a member that is not listed is an error. -/
def strictObject (keys : List String) (body : List (String × Json) → Option α) : Schema α
  | .object fields => if ∀ f ∈ fields, f.1 ∈ keys then body fields else none
  | _ => none

/-- `object({...})`: a member that is not listed is dropped. -/
def looseObject (body : List (String × Json) → Option α) : Schema α
  | .object fields => body fields
  | _ => none

def required (fields : List (String × Json)) (key : String) (schema : Schema α) : Option α :=
  (Json.member fields key).bind schema

/-- `schema.optional()` on a member that may be `undefined`. -/
def ifPresent (schema : Schema α) : Option Json → Option (Option α)
  | none => some none
  | some j => (schema j).map some

def optional (fields : List (String × Json)) (key : String) (schema : Schema α) : Option (Option α) :=
  ifPresent schema (Json.member fields key)

/-- `union([first, second])`. -/
def union (first second : Schema α) : Schema α := fun j ↦ (first j).or (second j)

theorem exists_of_forall₂ {R : α → β → Prop} {xs : List α} {ys : List β} (h : List.Forall₂ R xs ys) {y : β}
    (hy : y ∈ ys) : ∃ x ∈ xs, R x y := by
  induction h with
  | nil => cases hy
  | cons hxy _ ih =>
    obtain rfl | hmem := List.mem_cons.mp hy
    · exact ⟨_, List.mem_cons_self, hxy⟩
    · obtain ⟨x, hx, hR⟩ := ih hmem
      exact ⟨x, List.mem_cons_of_mem _ hx, hR⟩

/-- What holds of any two elements holds of what they are related to. -/
theorem pairwise_of_forall₂ {R : α → β → Prop} {S : α → α → Prop} {T : β → β → Prop} {xs : List α} {ys : List β}
    (h : List.Forall₂ R xs ys) (hstep : ∀ x y x' y', R x y → R x' y' → S x x' → T y y') (hxs : xs.Pairwise S) :
    ys.Pairwise T := by
  induction h with
  | nil => exact .nil
  | cons hxy hrest ih =>
    obtain ⟨hfirst, hxs⟩ := List.pairwise_cons.mp hxs
    refine .cons ?_ (ih hxs)
    intro y' hy'
    obtain ⟨x', hx', hR⟩ := exists_of_forall₂ hrest hy'
    exact hstep _ _ x' y' hxy hR (hfirst x' hx')

theorem map_eq_of_forall₂ {γ : Type*} {f : α → γ} {g : β → γ} {xs : List α} {ys : List β}
    (h : List.Forall₂ (fun x y ↦ g y = f x) xs ys) : ys.map g = xs.map f := by
  induction h with
  | nil => rfl
  | cons hxy _ ih => rw [List.map_cons, List.map_cons, hxy, ih]

/-- A list is mapped where every element is. -/
theorem mapM_eq_some {f : α → Option β} {xs : List α} {ys : List β} :
    xs.mapM f = some ys ↔ List.Forall₂ (fun x y ↦ f x = some y) xs ys := by
  induction xs generalizing ys with
  | nil => rw [List.forall₂_nil_left_iff, List.mapM_nil, Option.pure_def, Option.some.injEq, eq_comm]
  | cons x xs ih =>
    simp only [List.mapM_cons, Option.bind_eq_bind, Option.bind_eq_some_iff, Option.pure_def,
      Option.some.injEq, ih]
    constructor
    · rintro ⟨y, hy, ys, hys, rfl⟩
      exact .cons hy hys
    · rintro (_ | ⟨hy, hys⟩)
      exact ⟨_, hy, _, hys, rfl⟩

theorem mapM_eq_ok {ε : Type*} {f : α → Except ε β} {xs : List α} {ys : List β} :
    xs.mapM f = .ok ys ↔ List.Forall₂ (fun x y ↦ f x = .ok y) xs ys := by
  induction xs generalizing ys with
  | nil =>
    rw [List.forall₂_nil_left_iff, List.mapM_nil]
    exact ⟨fun h ↦ (Except.ok.inj h).symm, fun h ↦ congrArg Except.ok h.symm⟩
  | cons x xs ih =>
    rw [List.mapM_cons]
    constructor
    · intro h
      cases hx : f x with
      | error code =>
        rw [hx] at h
        cases h
      | ok y =>
        cases hxs : xs.mapM f with
        | error code =>
          rw [hx, hxs] at h
          cases h
        | ok rest =>
          rw [hx, hxs] at h
          obtain rfl := Except.ok.inj h
          exact .cons hx (ih.mp hxs)
    · rintro (_ | ⟨hx, hrest⟩)
      rw [hx, ih.mpr hrest]
      rfl

theorem items_eq_some {schema : Schema α} {js : List Json} {xs : List α} :
    items schema js = some xs ↔ List.Forall₂ (fun j x ↦ schema j = some x) js xs := by
  induction js generalizing xs with
  | nil => rw [List.forall₂_nil_left_iff, items, Option.some.injEq, eq_comm]
  | cons j js ih =>
    simp only [items, Option.bind_eq_some_iff, Option.map_eq_some_iff, ih]
    constructor
    · rintro ⟨x, hx, xs, hxs, rfl⟩
      exact .cons hx hxs
    · rintro (_ | ⟨hx, hxs⟩)
      exact ⟨_, hx, _, hxs, rfl⟩

theorem items_append {schema : Schema α} {js js' : List Json} :
    items schema (js ++ js') =
      (items schema js).bind fun xs ↦ (items schema js').map (xs ++ ·) := by
  induction js with
  | nil => simp [items]
  | cons j js ih =>
    rw [List.cons_append, items, items, ih]
    cases schema j <;> cases items schema js <;> simp [Function.comp_def]

theorem array_reread {schema : Schema α} {encode : α → Json} {xs : List α}
    (h : ∀ x ∈ xs, schema (encode x) = some x) : schema.array (.array (xs.map encode)) = some xs := by
  refine items_eq_some.mpr ?_
  rw [List.forall₂_map_left_iff]
  exact List.forall₂_same.mpr h

theorem array_eq_some {schema : Schema α} {j : Json} {xs : List α} (h : schema.array j = some xs) :
    ∃ js, j = .array js ∧ List.Forall₂ (fun j x ↦ schema j = some x) js xs := by
  cases j with
  | array js => exact ⟨js, rfl, items_eq_some.mp h⟩
  | null | bool | number | string | object => simp [array] at h

/-- What a schema does to the JSON of a typed value: it accepts the values that are `ok` and
returns them tidied up, and what it returns is `ok` and tidy already. -/
structure Reads (schema : Schema α) (encode : α → Json) (ok : α → Prop) (tidy : α → α) : Prop where
  encoded : ∀ x y, schema (encode x) = some y ↔ ok x ∧ tidy x = y
  settled : ∀ j y, schema j = some y → ok y ∧ tidy y = y

namespace Reads

variable {schema : Schema α} {encode : α → Json} {ok : α → Prop} {tidy : α → α}

theorem isSome_iff (h : Reads schema encode ok tidy) (x : α) :
    (schema (encode x)).isSome = true ↔ ok x := by
  rw [Option.isSome_iff_exists]
  constructor
  · rintro ⟨y, hy⟩
    exact ((h.encoded x y).mp hy).1
  · exact fun hx ↦ ⟨tidy x, (h.encoded x _).mpr ⟨hx, rfl⟩⟩

theorem fixed_iff (h : Reads schema encode ok tidy) (x : α) :
    schema (encode x) = some x ↔ ok x ∧ tidy x = x := h.encoded x x

/-- A value that was read is read back from its own text unchanged. -/
theorem reread (h : Reads schema encode ok tidy) {j : Json} {x : α} (hx : schema j = some x) :
    schema (encode x) = some x := (h.fixed_iff x).mpr (h.settled j x hx)

theorem inj (h : Reads schema encode ok id) {x y : α} (hx : ok x) (hy : ok y)
    (heq : encode x = encode y) : x = y := by
  have hread := (h.encoded x x).mpr ⟨hx, rfl⟩
  rw [heq, (h.encoded y y).mpr ⟨hy, rfl⟩] at hread
  exact (Option.some.inj hread).symm

theorem refine (h : Reads schema encode ok tidy) (check : α → Bool) :
    Reads (schema.refine check) encode (fun x ↦ ok x ∧ check (tidy x) = true) tidy where
  encoded x y := by
    simp only [Schema.refine, Option.filter_eq_some_iff, h.encoded]
    constructor
    · rintro ⟨⟨hx, rfl⟩, hc⟩
      exact ⟨⟨hx, hc⟩, rfl⟩
    · rintro ⟨⟨hx, hc⟩, rfl⟩
      exact ⟨⟨hx, rfl⟩, hc⟩
  settled j y hy := by
    obtain ⟨hy, hc⟩ := Option.filter_eq_some_iff.mp hy
    obtain ⟨hok, htidy⟩ := h.settled j y hy
    exact ⟨⟨hok, htidy.symm ▸ hc⟩, htidy⟩

theorem nullable (h : Reads schema encode ok tidy) (hnull : ∀ x, encode x ≠ .null) :
    Reads schema.nullable (fun o ↦ Json.nullable (o.map encode)) (fun o ↦ ∀ x ∈ o, ok x)
      (Option.map tidy) where
  encoded o y := by
    cases o with
    | none => simp [Schema.nullable, Json.nullable, eq_comm]
    | some x =>
      have hx : Schema.nullable schema (encode x) = (schema (encode x)).map some := by
        cases he : encode x <;> first | rfl | exact absurd he (hnull x)
      simp only [Option.map_some, Json.nullable, hx, Option.map_eq_some_iff, h.encoded,
        Option.mem_some_iff, forall_eq']
      constructor
      · rintro ⟨z, ⟨hx, rfl⟩, rfl⟩
        exact ⟨hx, rfl⟩
      · rintro ⟨hx, rfl⟩
        exact ⟨_, ⟨hx, rfl⟩, rfl⟩
  settled j y hy := by
    by_cases hj : j = .null
    · subst hj
      obtain rfl : none = y := by simpa [Schema.nullable] using hy
      simp
    · have hm : (schema j).map some = some y := by
        cases j <;> first | exact hy | exact absurd rfl hj
      obtain ⟨x, hx, rfl⟩ := Option.map_eq_some_iff.mp hm
      obtain ⟨hok, htidy⟩ := h.settled j x hx
      simp [hok, htidy]

theorem items_encoded (h : Reads schema encode ok tidy) (xs ys : List α) :
    items schema (xs.map encode) = some ys ↔ (∀ x ∈ xs, ok x) ∧ xs.map tidy = ys := by
  induction xs generalizing ys with
  | nil => simp [items]
  | cons x xs ih =>
    simp only [List.map_cons, items, Option.bind_eq_some_iff, Option.map_eq_some_iff, h.encoded, ih,
      List.forall_mem_cons]
    constructor
    · rintro ⟨_, ⟨hx, rfl⟩, _, ⟨hxs, rfl⟩, rfl⟩
      exact ⟨⟨hx, hxs⟩, rfl⟩
    · rintro ⟨⟨hx, hxs⟩, rfl⟩
      exact ⟨_, ⟨hx, rfl⟩, _, ⟨hxs, rfl⟩, rfl⟩

theorem items_settled (h : Reads schema encode ok tidy) (js : List Json) (ys : List α)
    (hy : items schema js = some ys) : (∀ y ∈ ys, ok y) ∧ ys.map tidy = ys := by
  induction js generalizing ys with
  | nil => simp_all [items]
  | cons j js ih =>
    simp only [items, Option.bind_eq_some_iff, Option.map_eq_some_iff] at hy
    obtain ⟨x, hx, xs, hxs, rfl⟩ := hy
    obtain ⟨hok, htidy⟩ := h.settled j x hx
    obtain ⟨hoks, htidys⟩ := ih xs hxs
    exact ⟨List.forall_mem_cons.mpr ⟨hok, hoks⟩, by simp [htidy, htidys]⟩

theorem array (h : Reads schema encode ok tidy) :
    Reads schema.array (fun xs ↦ .array (xs.map encode)) (fun xs ↦ ∀ x ∈ xs, ok x)
      (List.map tidy) where
  encoded xs ys := h.items_encoded xs ys
  settled j ys hy := by
    cases j with
    | array js => exact h.items_settled js ys hy
    | null | bool | number | string | object => simp [Schema.array] at hy

theorem required_iff (h : Reads schema encode ok tidy) {fields : List (String × Json)} {key : String}
    {x y : α} (hx : Json.member fields key = some (encode x)) :
    required fields key schema = some y ↔ ok x ∧ tidy x = y := by
  rw [required, hx, Option.bind_some, h.encoded]

theorem ifPresent_iff (h : Reads schema encode ok tidy) {o p : Option α} :
    ifPresent schema (o.map encode) = some p ↔ (∀ x ∈ o, ok x) ∧ o.map tidy = p := by
  cases o with
  | none => simp [ifPresent]
  | some x =>
    simp only [Option.map_some, ifPresent, Option.map_eq_some_iff, h.encoded, Option.mem_some_iff,
      forall_eq']
    constructor
    · rintro ⟨z, ⟨hx, rfl⟩, rfl⟩
      exact ⟨hx, rfl⟩
    · rintro ⟨hx, rfl⟩
      exact ⟨_, ⟨hx, rfl⟩, rfl⟩

/-- A reader goes on with the value that was written. -/
theorem required_bind (h : Reads schema encode ok tidy) {fields : List (String × Json)} {key : String}
    {x : α} {rest : α → Option β} (hx : Json.member fields key = some (encode x)) (hok : ok x) :
    (required fields key schema).bind rest = rest (tidy x) := by
  rw [(h.required_iff hx).mpr ⟨hok, rfl⟩, Option.bind_some]

theorem optional_bind (h : Reads schema encode ok tidy) {fields : List (String × Json)} {key : String}
    {o : Option α} {rest : Option α → Option β} (hx : Json.member fields key = o.map encode)
    (hok : ∀ x ∈ o, ok x) : (Schema.optional fields key schema).bind rest = rest (o.map tidy) := by
  rw [Schema.optional, hx, h.ifPresent_iff.mpr ⟨hok, rfl⟩, Option.bind_some]

theorem required_settled (h : Reads schema encode ok tidy) {fields : List (String × Json)}
    {key : String} {y : α} (hy : required fields key schema = some y) : ok y ∧ tidy y = y := by
  obtain ⟨j, -, hj⟩ := Option.bind_eq_some_iff.mp hy
  exact h.settled j y hj

theorem optional_settled (h : Reads schema encode ok tidy) {fields : List (String × Json)}
    {key : String} {p : Option α} (hp : Schema.optional fields key schema = some p) :
    (∀ y ∈ p, ok y) ∧ p.map tidy = p := by
  rw [Schema.optional] at hp
  cases hm : Json.member fields key with
  | none =>
    obtain rfl : none = p := by simpa [ifPresent, hm] using hp
    simp
  | some j =>
    obtain ⟨y, hj, rfl⟩ : ∃ y, schema j = some y ∧ some y = p := by simpa [ifPresent, hm] using hp
    obtain ⟨hy, ht⟩ := h.settled j y hj
    simp [hy, ht]

/-- A reader goes on with a settled value. -/
theorem bind_settled (h : Reads schema encode ok tidy) {fields : List (String × Json)} {key : String}
    {rest : α → Option β} {y : β} (hy : (required fields key schema).bind rest = some y) :
    ∃ x, (ok x ∧ tidy x = x) ∧ rest x = some y := by
  obtain ⟨x, hx, hrest⟩ := Option.bind_eq_some_iff.mp hy
  exact ⟨x, h.required_settled hx, hrest⟩

theorem bindOptional_settled (h : Reads schema encode ok tidy) {fields : List (String × Json)}
    {key : String} {rest : Option α → Option β} {y : β}
    (hy : (Schema.optional fields key schema).bind rest = some y) :
    ∃ p, ((∀ x ∈ p, ok x) ∧ p.map tidy = p) ∧ rest p = some y := by
  obtain ⟨p, hp, hrest⟩ := Option.bind_eq_some_iff.mp hy
  exact ⟨p, h.optional_settled hp, hrest⟩

theorem of_iff {ok' : α → Prop} (h : Reads schema encode ok tidy) (hok : ∀ x, ok x ↔ ok' x) :
    Reads schema encode ok' tidy where
  encoded x y := by rw [h.encoded, hok]
  settled j y hy := by rw [← hok]; exact h.settled j y hy

end Reads

theorem string_reads : Reads string Json.string (fun _ ↦ True) id where
  encoded s t := by simp [string]
  settled j s hs := by simp

theorem boolean_reads : Reads boolean Json.bool (fun _ ↦ True) id where
  encoded s t := by simp [boolean]
  settled j s hs := by simp

theorem nonempty_reads : Reads nonempty Json.string (fun s ↦ trim s ≠ "") trim where
  encoded s t := by simp [nonempty]
  settled j s hs := by
    cases j with
    | string t =>
      obtain ⟨ht, rfl⟩ : trim t ≠ "" ∧ trim t = s := by simpa [nonempty] using hs
      exact ⟨by simpa using ht, trim_trim t⟩
    | null | bool | number | array | object => simp [nonempty] at hs

theorem nonempty_trimmed {json : Json} {s : String} (h : nonempty json = some s) : Trimmed s := by
  obtain ⟨hne, htrim⟩ := nonempty_reads.settled json s h
  exact ⟨htrim, htrim ▸ hne⟩

theorem counter_reads : Reads counter Json.nat (fun n ↦ n ≤ maxSafeInteger) id where
  encoded n m := by simp [counter, Json.nat]
  settled j n hn := by
    cases j with
    | number i =>
      obtain ⟨⟨h0, hi⟩, rfl⟩ : (0 ≤ i ∧ i ≤ maxSafeInteger) ∧ i.toNat = n := by
        simpa [counter] using hn
      exact ⟨by omega, rfl⟩
    | null | bool | string | array | object => simp [counter] at hn

theorem oneOf_reads {choices : List α} {name : α → String}
    (hfind : ∀ x, choices.find? (fun y ↦ name y == name x) = some x) :
    Reads (oneOf choices name) (fun x ↦ .string (name x)) (fun _ ↦ True) id where
  encoded x y := by simp [oneOf, hfind]
  settled j y hy := by simp

/-- `string().regex(...)` and the library's own formats. -/
theorem checked_reads (check : String → Bool) :
    Reads (string.refine check) Json.string (fun s ↦ check s = true) id :=
  (string_reads.refine check).of_iff (by simp)

theorem literal_eq_some {value j : Json} {u : Unit} : literal value j = some u ↔ j = value := by
  simp [literal]

theorem keys_optional {keys : List String} {key : String} {value : Option Json} :
    (∀ f ∈ Json.optional key value, f.1 ∈ keys) ↔ (value.isSome → key ∈ keys) := by
  cases value <;> simp [Json.optional]

theorem strictObject_object {keys : List String} {body : List (String × Json) → Option α}
    {fields : List (String × Json)} {x : α} :
    strictObject keys body (.object fields) = some x ↔ (∀ f ∈ fields, f.1 ∈ keys) ∧ body fields = some x := by
  simp [strictObject]

theorem strictObject_eq_some {keys : List String} {body : List (String × Json) → Option α}
    {j : Json} {x : α} (h : strictObject keys body j = some x) :
    ∃ fields, j = .object fields ∧ body fields = some x := by
  cases j with
  | object fields => exact ⟨fields, rfl, (strictObject_object.mp h).2⟩
  | null | bool | number | string | array => simp [strictObject] at h

theorem looseObject_eq_some {body : List (String × Json) → Option α} {j : Json} {x : α}
    (h : looseObject body j = some x) : ∃ fields, j = .object fields ∧ body fields = some x := by
  cases j with
  | object fields => exact ⟨fields, rfl, h⟩
  | null | bool | number | string | array => simp [looseObject] at h

theorem required_eq_some {fields : List (String × Json)} {key : String} {schema : Schema α} {x : α} :
    required fields key schema = some x ↔ ∃ j, Json.member fields key = some j ∧ schema j = some x :=
  Option.bind_eq_some_iff

end Schema

end OmpLazy.Foundation

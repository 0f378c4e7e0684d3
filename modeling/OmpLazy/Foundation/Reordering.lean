import OmpLazy.Foundation.Keys
import OmpLazy.Foundation.Schema

/-! The order of the members of objects, which no schema sees. -/

namespace OmpLazy.Foundation

/-- One value with the members of its objects, at any depth, in another order. -/
inductive Reordered : Json → Json → Prop
  | refl (j : Json) : Reordered j j
  | trans {j j' j'' : Json} (h : Reordered j j') (h' : Reordered j' j'') : Reordered j j''
  | members {fields fields' : List (String × Json)} (hkeys : (fields.map Prod.fst).Nodup) (h : fields.Perm fields') :
      Reordered (.object fields) (.object fields')
  | member (before after : List (String × Json)) (key : String) {j j' : Json} (h : Reordered j j') :
      Reordered (.object (before ++ (key, j) :: after)) (.object (before ++ (key, j') :: after))
  | item (before after : List Json) {j j' : Json} (h : Reordered j j') :
      Reordered (.array (before ++ j :: after)) (.array (before ++ j' :: after))

namespace Schema

variable {α β : Type} {schema : Schema α} {fields fields' : List (String × Json)} {key : String}

def Stable (schema : Schema α) : Prop := ∀ j j', Reordered j j' → schema j = schema j'

/-- A schema that takes neither arrays nor objects. -/
theorem stable_scalar (harray : ∀ items, schema (.array items) = none) (hobject : ∀ fields, schema (.object fields) = none) :
    schema.Stable := by
  intro j j' h
  induction h with
  | refl j => rfl
  | trans _ _ ih ih' => exact ih.trans ih'
  | members => rw [hobject, hobject]
  | member => rw [hobject, hobject]
  | item => rw [harray, harray]

theorem string_stable : Stable string := stable_scalar (fun _ ↦ rfl) fun _ ↦ rfl

theorem boolean_stable : Stable boolean := stable_scalar (fun _ ↦ rfl) fun _ ↦ rfl

theorem counter_stable : Stable counter := stable_scalar (fun _ ↦ rfl) fun _ ↦ rfl

theorem oneOf_stable (choices : List α) (name : α → String) : Stable (oneOf choices name) :=
  stable_scalar (fun _ ↦ rfl) fun _ ↦ rfl

theorem array_stable (hschema : schema.Stable) : schema.array.Stable := by
  intro j j' h
  induction h with
  | refl j => rfl
  | trans _ _ ih ih' => exact ih.trans ih'
  | members | member => rfl
  | item before after h _ =>
    rw [array, array, items_append, items_append, items, items, hschema _ _ h]

/-- The values of a member in two objects, where one is the other in another order. -/
def SameMember (o o' : Option Json) : Prop := Option.Rel Reordered o o'

theorem sameMember_refl (o : Option Json) : SameMember o o := by
  cases o with
  | none => exact .none
  | some j => exact .some (.refl j)

theorem member_eq_some (hkeys : (fields.map Prod.fst).Nodup) {j : Json} :
    Json.member fields key = some j ↔ (key, j) ∈ fields := by
  rw [Json.member, Option.map_eq_some_iff]
  constructor
  · rintro ⟨field, hfield, rfl⟩
    have hkey : field.1 = key := by simpa using List.find?_some hfield
    rw [← hkey]
    exact List.mem_of_find?_eq_some hfield
  · intro hmem
    have hfind := find?_key hkeys hmem
    exact ⟨(key, j), by simpa [beq_eq_decide] using hfind, rfl⟩

/-- In another order the same members are found. -/
theorem member_perm (hkeys : (fields.map Prod.fst).Nodup) (h : fields.Perm fields') (key : String) :
    Json.member fields key = Json.member fields' key := by
  have hkeys' : (fields'.map Prod.fst).Nodup := (h.map Prod.fst).nodup_iff.mp hkeys
  ext j
  rw [member_eq_some hkeys, member_eq_some hkeys', h.mem_iff]

theorem sameMember_replaced (before after : List (String × Json)) (key : String) {j j' : Json} (h : Reordered j j')
    (sought : String) : SameMember (Json.member (before ++ (key, j) :: after) sought)
      (Json.member (before ++ (key, j') :: after) sought) := by
  rw [Json.member_append, Json.member_append, Json.member_cons, Json.member_cons]
  cases Json.member before sought with
  | some found => exact sameMember_refl (some found)
  | none =>
    rw [Option.none_or, Option.none_or]
    by_cases hkey : key = sought
    · rw [if_pos hkey, if_pos hkey]
      exact .some h
    · rw [if_neg hkey, if_neg hkey]
      exact sameMember_refl _

theorem strictObject_congr {keys : List String} {body : List (String × Json) → Option α}
    (hkeys : ∀ key, key ∈ fields.map Prod.fst ↔ key ∈ fields'.map Prod.fst) (hbody : body fields = body fields') :
    strictObject keys body (.object fields) = strictObject keys body (.object fields') := by
  have hlisted : (∀ field ∈ fields, field.1 ∈ keys) ↔ ∀ field ∈ fields', field.1 ∈ keys := by
    rw [← List.forall_mem_map (f := Prod.fst), ← List.forall_mem_map (f := Prod.fst)]
    exact ⟨fun h key hkey ↦ h key ((hkeys key).mpr hkey), fun h key hkey ↦ h key ((hkeys key).mp hkey)⟩
  rw [strictObject, strictObject, if_congr hlisted hbody rfl]

/-- A strict object whose members are looked up. -/
theorem strictObject_stable {keys : List String} {body : List (String × Json) → Option α}
    (hbody : ∀ fields fields', (∀ key, SameMember (Json.member fields key) (Json.member fields' key)) →
      body fields = body fields') : (strictObject keys body).Stable := by
  intro j j' h
  induction h with
  | refl j => rfl
  | trans _ _ ih ih' => exact ih.trans ih'
  | item => rfl
  | members hkeys h =>
    refine strictObject_congr (fun key ↦ (h.map Prod.fst).mem_iff) (hbody _ _ fun key ↦ ?_)
    rw [member_perm hkeys h]
    exact sameMember_refl _
  | member before after key h _ =>
    exact strictObject_congr (fun sought ↦ by simp) (hbody _ _ (sameMember_replaced before after key h))

theorem required_stable (hschema : schema.Stable) (h : ∀ key, SameMember (Json.member fields key) (Json.member fields' key))
    (key : String) : required fields key schema = required fields' key schema := by
  have hmember := h key
  rw [required, required]
  generalize Json.member fields key = o at hmember
  generalize Json.member fields' key = o' at hmember
  cases hmember with
  | none => rfl
  | some hvalue => exact hschema _ _ hvalue

end Schema

end OmpLazy.Foundation

import OmpLazy.Foundation.Schema

/-! What a schema makes of an object once some of its members are overwritten, added or left out. -/

namespace OmpLazy.Foundation

open Schema

variable {α : Type} {keys : List String} {key : String} {fields fields' : List (String × Json)}

/-- The members of an object are among these. -/
def Listed (keys : List String) (fields : List (String × Json)) : Prop := ∀ f ∈ fields, f.1 ∈ keys

namespace Listed

theorem mono {more : List String} (h : Listed keys fields) (hkeys : keys ⊆ more) : Listed more fields :=
  fun f hf ↦ hkeys (h f hf)

theorem setField_iff {value : Json} :
    Listed keys (Json.setField key value fields) ↔ key ∈ keys ∧ Listed keys fields := by
  induction fields with
  | nil => simp [Listed, Json.setField]
  | cons f fields ih =>
    obtain ⟨k, v⟩ := f
    simp only [Listed, Json.setField, List.forall_mem_cons] at ih ⊢
    split
    · rename_i h
      subst h
      simp
    · rw [List.forall_mem_cons, ih]
      exact and_left_comm

theorem filter {left : List String} (h : Listed keys fields) :
    Listed keys (fields.filter (·.1 ∉ left)) := fun f hf ↦ h f (List.mem_of_mem_filter hf)

/-- What is left without some members is listed without them. -/
theorem of_filter {left : List String} (h : Listed (keys ++ left) fields) :
    Listed keys (fields.filter (·.1 ∉ left)) := fun f hf ↦ by
  obtain ⟨hmem, hnot⟩ := List.mem_filter.mp hf
  exact (List.mem_append.mp (h f hmem)).resolve_right (of_decide_eq_true hnot)

theorem member_eq_none (h : Listed keys fields) (hkey : key ∉ keys) : Json.member fields key = none := by
  have hnot : ∀ f ∈ fields, ¬ (f.1 == key) = true := fun f hf heq ↦
    hkey (beq_iff_eq.mp heq ▸ h f hf)
  rw [Json.member, List.find?_eq_none.mpr hnot, Option.map_none]

end Listed

/-- Two objects have the same members under these keys. -/
def SameOn (keys : List String) (fields fields' : List (String × Json)) : Prop :=
  ∀ key ∈ keys, Json.member fields key = Json.member fields' key

namespace SameOn

theorem refl : SameOn keys fields fields := fun _ _ ↦ rfl

theorem trans {fields'' : List (String × Json)} (h : SameOn keys fields fields')
    (h' : SameOn keys fields' fields'') : SameOn keys fields fields'' :=
  fun key hkey ↦ (h key hkey).trans (h' key hkey)

theorem required (h : SameOn keys fields fields') (hkey : key ∈ keys) (schema : Schema α) :
    required fields key schema = Schema.required fields' key schema := by
  rw [Schema.required, h key hkey, Schema.required]

theorem optional (h : SameOn keys fields fields') (hkey : key ∈ keys) (schema : Schema α) :
    Schema.optional fields key schema = Schema.optional fields' key schema := by
  rw [Schema.optional, h key hkey, Schema.optional]

theorem setField {value : Json} (h : key ∉ keys) :
    SameOn keys (Json.setField key value fields) fields := fun key' hkey' ↦ by
  have hne : key ≠ key' := fun heq ↦ h (heq ▸ hkey')
  rw [Json.member_setField, if_neg hne]

theorem filter {left : List String} (h : ∀ key ∈ keys, key ∉ left) :
    SameOn keys (fields.filter (·.1 ∉ left)) fields := fun key hkey ↦
  Json.member_filter (h key hkey) fields

theorem append_left {others : List String} (h : Listed others fields') (hkeys : ∀ key ∈ keys, key ∉ others) :
    SameOn keys (fields ++ fields') fields := fun key hkey ↦ by
  rw [Json.member_append, h.member_eq_none (hkeys key hkey), Option.or_none]

theorem append_right {others : List String} (h : Listed others fields) (hkeys : ∀ key ∈ keys, key ∉ others) :
    SameOn keys (fields ++ fields') fields' := fun key hkey ↦ by
  rw [Json.member_append, h.member_eq_none (hkeys key hkey), Option.none_or]

/-- Overwriting a member twice, the second time with what it was. -/
theorem restore {value value' : Json} (h : Json.member fields key = some value') :
    SameOn keys (Json.setField key value' (Json.setField key value fields)) fields := fun key' _ ↦ by
  rw [Json.member_setField, Json.member_setField]
  split
  · rename_i heq
    rw [← heq, h]
  · rfl

end SameOn

theorem required_setField {value : Json} {schema : Schema α} :
    required (Json.setField key value fields) key schema = schema value := by
  rw [required, Json.member_setField, if_pos rfl, Option.bind_some]

theorem required_setField_ne {key' : String} {value : Json} {schema : Schema α} (h : key ≠ key') :
    required (Json.setField key value fields) key' schema = required fields key' schema := by
  rw [required, Json.member_setField, if_neg h, required]

end OmpLazy.Foundation

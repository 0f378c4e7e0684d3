import OmpLazy.Contracts.CanonicalPacket
import Mathlib.Data.Bool.AllAny

/-! The spellings of one tag. -/

namespace OmpLazy.Contracts

open OmpLazy.Foundation OmpLazy.Foundation.Text

section Lists

variable {α : Type*} {R : α → α → Prop} {xs ys : List α} {p : α → Bool}

theorem forall₂_dropWhile (hp : ∀ x y, R x y → p x = p y) (h : List.Forall₂ R xs ys) :
    List.Forall₂ R (xs.dropWhile p) (ys.dropWhile p) := by
  induction h with
  | nil => exact .nil
  | cons hxy hrest ih =>
    rw [List.dropWhile_cons, List.dropWhile_cons, hp _ _ hxy]
    split
    · exact ih
    · exact .cons hxy hrest

theorem forall₂_rdropWhile (hp : ∀ x y, R x y → p x = p y) (h : List.Forall₂ R xs ys) :
    List.Forall₂ R (xs.rdropWhile p) (ys.rdropWhile p) := by
  rw [List.rdropWhile, List.rdropWhile, List.forall₂_reverse_iff]
  exact forall₂_dropWhile hp (List.forall₂_reverse_iff.mpr h)

/-- What is related to one list is related to another that is like it. -/
theorem forall₂_transport {β : Type*} {S T : α → β → Prop} {zs : List β} (hstep : ∀ x y z, R x y → S x z → T y z)
    (h : List.Forall₂ R xs ys) (h' : List.Forall₂ S xs zs) : List.Forall₂ T ys zs := by
  induction h generalizing zs with
  | nil =>
    cases h'
    exact .nil
  | cons hxy _ ih =>
    cases h' with
    | cons hxz hrest => exact .cons (hstep _ _ _ hxy hxz) (ih hrest)

theorem flatMap_eq_of_forall₂ {β : Type*} {f : α → List β} (h : List.Forall₂ (fun x y ↦ f x = f y) xs ys) :
    xs.flatMap f = ys.flatMap f := by
  induction h with
  | nil => rfl
  | cons hxy _ ih => rw [List.flatMap_cons, List.flatMap_cons, hxy, ih]

theorem length_le_flatMap {β : Type*} {f : α → List β} (hf : ∀ x, f x ≠ []) (xs : List α) :
    xs.length ≤ (xs.flatMap f).length := by
  induction xs with
  | nil => exact Nat.zero_le _
  | cons x xs ih =>
    have hx := List.length_pos_iff.mpr (hf x)
    rw [List.length_cons, List.flatMap_cons, List.length_append]
    omega

end Lists

/-- `toLowerCase` goes character by character, but for the capital sigma, which looks at what stands around it. -/
structure LowersBy (platform : Platform) (lowerChar : Char → List Char) : Prop where
  plain : ∀ s, 'Σ' ∉ s.toList → (platform.toLowerCase s).toList = s.toList.flatMap lowerChar
  sigma : ∀ s, 'Σ' ∈ s.toList → 'σ' ∈ (platform.toLowerCase s).toList ∨ 'ς' ∈ (platform.toLowerCase s).toList
  sigmaChar : lowerChar 'Σ' = ['σ']
  ascii : ∀ c : Char, c.toNat < 128 → lowerChar c = [c.toLower]
  nonempty : ∀ c, lowerChar c ≠ []

/-- One character is the other in another case, or both are dashes. -/
def SameLetter (lowerChar : Char → List Char) (c d : Char) : Prop :=
  c = d ∨ (c ∈ ['-', '_'] ∧ d ∈ ['-', '_']) ∨ (isSpace c = false ∧ isSpace d = false ∧ lowerChar c = lowerChar d)

instance (lowerChar : Char → List Char) (c d : Char) : Decidable (SameLetter lowerChar c d) :=
  inferInstanceAs (Decidable (_ ∨ _))

/-- A tag with some letters in another case and some dashes as the other dash. -/
def Respelled (lowerChar : Char → List Char) (tag tag' : String) : Prop :=
  List.Forall₂ (SameLetter lowerChar) tag.toList tag'.toList

section Spellings

variable {platform : Platform} {lowerChar : Char → List Char} {value value' : String} {tag : BoundaryTag} {c d : Char}

def underscored (c : Char) : Char := if c = '-' then '_' else c

theorem SameLetter.isSpace_eq (h : SameLetter lowerChar c d) : isSpace c = isSpace d := by
  obtain rfl | ⟨hc, hd⟩ | ⟨hc, hd, -⟩ := h
  · rfl
  · have hdash : ∀ e ∈ ['-', '_'], isSpace e = false := List.all_iff_forall_prop.mp (by decide)
    rw [hdash c hc, hdash d hd]
  · rw [hc, hd]

theorem Respelled.trim (h : Respelled lowerChar value value') : Respelled lowerChar (trim value) (trim value') := by
  have hspace : ∀ c d, SameLetter lowerChar c d → isSpace c = isSpace d := fun _ _ ↦ SameLetter.isSpace_eq
  rw [Respelled, Text.trim, Text.trim, String.toList_ofList, String.toList_ofList]
  exact forall₂_rdropWhile hspace (forall₂_dropWhile hspace h)

theorem SameLetter.underscored_eq (hlower : LowersBy platform lowerChar) (h : SameLetter lowerChar c d) :
    (lowerChar c).map underscored = (lowerChar d).map underscored := by
  obtain rfl | ⟨hc, hd⟩ | ⟨-, -, heq⟩ := h
  · rfl
  · have hdash : ∀ e ∈ ['-', '_'], (lowerChar e).map underscored = ['_'] := by
      intro e he
      obtain rfl | rfl := List.mem_pair.mp he <;> rw [hlower.ascii _ (by decide)] <;> rfl
    rw [hdash c hc, hdash d hd]
  · rw [heq]

theorem normalizeTag_eq_some : normalizeTag platform value = some tag ↔
    (platform.toLowerCase (Text.trim value)).toList.map underscored = tag.name.toList := by
  rw [normalizeTag]
  change BoundaryTag.all.find? (fun tag ↦ tag.name = String.ofList ((platform.toLowerCase (Text.trim value)).toList.map underscored)) =
    some tag ↔ _
  generalize (platform.toLowerCase (Text.trim value)).toList.map underscored = cs
  constructor
  · intro h
    have hname : tag.name = String.ofList cs := by simpa using List.find?_some h
    rw [hname, String.toList_ofList]
  · rintro rfl
    rw [String.ofList_toList]
    cases tag <;> rfl

theorem name_ascii (tag : BoundaryTag) : ∀ c ∈ tag.name.toList, c.toNat < 128 :=
  List.all_iff_forall_prop.mp (by cases tag <;> decide)

theorem name_length (tag : BoundaryTag) : tag.name.toList.length ≤ 14 ∧ tag.name.toList ≠ [] := by
  cases tag <;> decide

theorem lower_ascii (h : normalizeTag platform value = some tag) :
    ∀ c ∈ (platform.toLowerCase (Text.trim value)).toList, c.toNat < 128 := by
  intro c hc
  by_cases hdash : c = '-'
  · rw [hdash]
    decide
  · have hmem := List.mem_map_of_mem (f := underscored) hc
    rw [underscored, if_neg hdash, normalizeTag_eq_some.mp h] at hmem
    exact name_ascii tag c hmem

/-- What is read as a tag has no sigma. -/
theorem sigma_not_mem (hlower : LowersBy platform lowerChar) (h : normalizeTag platform value = some tag) :
    'Σ' ∉ (Text.trim value).toList := by
  intro hmem
  obtain hsigma | hsigma := hlower.sigma _ hmem
  · exact absurd (lower_ascii h _ hsigma) (by decide)
  · exact absurd (lower_ascii h _ hsigma) (by decide)

theorem respelled_sigma_not_mem (hlower : LowersBy platform lowerChar) (h : normalizeTag platform value = some tag)
    (hspelled : Respelled lowerChar (Text.trim value) (Text.trim value')) : 'Σ' ∉ (Text.trim value').toList := by
  intro hmem
  obtain ⟨c, hc, hsame⟩ := Schema.exists_of_forall₂ hspelled hmem
  have hlowered := hlower.plain _ (sigma_not_mem hlower h)
  obtain rfl | ⟨-, hdash⟩ | ⟨-, -, heq⟩ := hsame
  · exact sigma_not_mem hlower h hc
  · exact absurd hdash (by decide)
  · have hsigma : 'σ' ∈ (platform.toLowerCase (Text.trim value)).toList := by
      rw [hlowered, List.mem_flatMap]
      exact ⟨c, hc, by rw [heq, hlower.sigmaChar]; exact List.mem_singleton.mpr rfl⟩
    exact absurd (lower_ascii h _ hsigma) (by decide)

/-- A tag in another spelling is read as the same tag. -/
theorem normalizeTag_respelled (hlower : LowersBy platform lowerChar) (h : normalizeTag platform value = some tag)
    (hspelled : Respelled lowerChar value value') : normalizeTag platform value' = some tag := by
  have htrimmed := hspelled.trim
  have hname := normalizeTag_eq_some.mp h
  rw [hlower.plain _ (sigma_not_mem hlower h), List.map_flatMap] at hname
  rw [normalizeTag_eq_some, hlower.plain _ (respelled_sigma_not_mem hlower h htrimmed), List.map_flatMap, ← hname]
  exact (flatMap_eq_of_forall₂ (htrimmed.imp fun _ _ hsame ↦ hsame.underscored_eq hlower)).symm

theorem utf16Length_le (s : String) : utf16Length s ≤ 2 * s.toList.length := by
  rw [utf16Length]
  induction s.toList with
  | nil => exact Nat.le_refl _
  | cons c cs ih =>
    rw [List.map_cons, List.sum_cons, List.length_cons]
    split <;> omega

/-- What is read as a tag is short, and the schema of texts lets it through. -/
theorem nonemptyText_tag (hlower : LowersBy platform lowerChar) (h : normalizeTag platform value = some tag) :
    nonemptyText value = some (Text.trim value) := by
  have hname := normalizeTag_eq_some.mp h
  have hlowered := hlower.plain _ (sigma_not_mem hlower h)
  obtain ⟨hshort, hne⟩ := name_length tag
  have hlength : (Text.trim value).toList.length ≤ 14 := by
    have hle := length_le_flatMap hlower.nonempty (Text.trim value).toList
    rw [← hname, List.length_map, hlowered] at hshort
    exact Nat.le_trans hle hshort
  have hbound := utf16Length_le (Text.trim value)
  have hnonempty : Text.trim value ≠ "" := by
    intro hempty
    rw [hlowered, hempty] at hname
    exact hne hname.symm
  rw [nonemptyText, boundedText, if_neg]
  rintro (hempty | hlong)
  · exact hnonempty hempty
  · omega

/-- A tag is read from its name. -/
theorem normalizeTag_name (hlower : LowersBy platform lowerChar) (tag : BoundaryTag) :
    normalizeTag platform tag.name = some tag := by
  have htrim : Text.trim tag.name = tag.name := by cases tag <;> decide
  have hsigma : 'Σ' ∉ tag.name.toList := fun hmem ↦ absurd (name_ascii tag _ hmem) (by decide)
  have hletters : tag.name.toList.flatMap lowerChar = tag.name.toList.flatMap fun c ↦ [c.toLower] :=
    List.flatMap_congr fun c hc ↦ hlower.ascii c (name_ascii tag c hc)
  rw [normalizeTag_eq_some, htrim, hlower.plain _ hsigma, hletters]
  cases tag <;> decide

end Spellings

end OmpLazy.Contracts

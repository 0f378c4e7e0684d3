import OmpLazy.Context.CatalogOrder
import OmpLazy.Foundation.Spans
import Mathlib.Data.Bool.AllAny
import Mathlib.Data.List.Chain

/-! A description that is sanitized once more. -/

namespace OmpLazy.Context

open OmpLazy.Foundation.Spans OmpLazy.Foundation.Text

/-! The text before the cap. -/

def cleanDescription (description : String) : List Char := trimList (collapseBlanks (oneLine description.toList))

theorem sanitizeDescription_toList (description : String) :
    (sanitizeDescription description).toList = capDescription (cleanDescription description) := String.toList_ofList

def controls : List Char := [Char.ofNat 0, escape, '\r', '\n']

/-- No control is left, and no blank beside another. -/
structure Collapsed (cs : List Char) : Prop where
  plain : ∀ c ∈ cs, c ∉ controls
  single : cs.IsChain fun a b ↦ ¬ (a = ' ' ∧ b = ' ')

section Cleaning

variable {cs cs' : List Char} {c : Char}

theorem Collapsed.within (h : Collapsed cs) (hwithin : cs' <:+: cs) : Collapsed cs' where
  plain c hc := h.plain c (hwithin.subset hc)
  single := h.single.infix hwithin

theorem head?_collapseBlanks (cs : List Char) : (collapseBlanks cs).head? = cs.head? := by
  induction cs with
  | nil => rfl
  | cons c cs ih =>
    rw [collapseBlanks]
    split
    · rename_i hblank
      rw [ih, hblank.2, hblank.1, List.head?_cons]
    · rfl

theorem collapseBlanks_single (cs : List Char) : (collapseBlanks cs).IsChain fun a b ↦ ¬ (a = ' ' ∧ b = ' ') := by
  induction cs with
  | nil => exact List.isChain_nil
  | cons c cs ih =>
    rw [collapseBlanks]
    split
    · exact ih
    · rename_i hblank
      refine ih.cons fun d hd hboth ↦ hblank ⟨hboth.1, ?_⟩
      rwa [head?_collapseBlanks, hboth.2] at hd

theorem collapseBlanks_of_single (h : cs.IsChain fun a b ↦ ¬ (a = ' ' ∧ b = ' ')) : collapseBlanks cs = cs := by
  induction cs with
  | nil => rfl
  | cons c cs ih =>
    obtain ⟨hhead, hrest⟩ := List.isChain_cons.mp h
    rw [collapseBlanks, if_neg fun hblank ↦ hhead ' ' hblank.2 ⟨hblank.1, rfl⟩, ih hrest]

theorem mem_joinLineEnds (h : c ∈ joinLineEnds cs) : c ∈ cs ∨ c = ' ' := by
  induction cs using joinLineEnds.induct with
  | case1 cs ih =>
    rw [joinLineEnds] at h
    obtain rfl | h := List.mem_cons.mp h
    · exact .inr rfl
    · exact (ih h).imp_left fun hmem ↦ List.mem_cons_of_mem _ (List.mem_cons_of_mem _ hmem)
  | case2 d cs hne ih =>
    rw [joinLineEnds.eq_2 _ _ hne] at h
    obtain rfl | h := List.mem_cons.mp h
    · exact .inl List.mem_cons_self
    · exact (ih h).imp_left (List.mem_cons_of_mem _)
  | case3 => cases h

theorem joinLineEnds_plain (h : '\r' ∉ cs) : joinLineEnds cs = cs := by
  induction cs using joinLineEnds.induct with
  | case1 cs ih => exact absurd List.mem_cons_self h
  | case2 d cs hne ih => rw [joinLineEnds.eq_2 _ _ hne, ih fun hmem ↦ h (List.mem_cons_of_mem _ hmem)]
  | case3 => rfl

theorem stripSequence_sublist (part : List Char) : (stripSequence part).Sublist part := by
  unfold stripSequence
  split
  · split
    · rename_i rest _ c others hafter
      split
      · have hsuffix := List.dropWhile_suffix (fun c ↦ isDigit c || c = ';') (l := rest)
        rw [hafter] at hsuffix
        exact ((List.sublist_cons_self c others).trans hsuffix.sublist).cons _
      · exact List.Sublist.refl _
    · exact List.Sublist.refl _
  · exact List.Sublist.refl _

theorem mem_stripSequences (h : c ∈ stripSequences cs) : c ∈ cs ∧ c ≠ escape := by
  have hparts : ∀ part ∈ cs.splitOn escape, ∀ d ∈ part, d ∈ cs ∧ d ≠ escape := by
    intro part hpart d hd
    obtain ⟨pre, post, rfl, hrun, -, -⟩ := mem_splitOnP.mp hpart
    exact ⟨List.mem_append_left _ (List.mem_append_right _ hd), beq_eq_false_iff_ne.mp (hrun d hd)⟩
  rw [stripSequences] at h
  cases hsplit : cs.splitOn escape with
  | nil =>
    rw [hsplit] at h
    cases h
  | cons first parts =>
    rw [hsplit] at h hparts
    obtain h | h := List.mem_append.mp h
    · exact hparts first List.mem_cons_self c h
    · obtain ⟨part, hpart, hmem⟩ := List.mem_flatMap.mp h
      exact hparts part (List.mem_cons_of_mem _ hpart) c ((stripSequence_sublist part).subset hmem)

theorem stripSequences_plain (h : escape ∉ cs) : stripSequences cs = cs := by
  have hwhole : cs.splitOn escape = [cs] := by
    refine List.splitOnP_eq_singleton fun c hc ↦ beq_eq_false_iff_ne.mpr ?_
    rintro rfl
    exact h hc
  rw [stripSequences, hwhole]
  exact List.append_nil cs

theorem oneLine_plain (cs : List Char) : ∀ c ∈ oneLine cs, c ∉ controls := by
  intro c hc
  obtain ⟨d, hd, rfl⟩ := List.mem_map.mp hc
  have hd' : (d ≠ Char.ofNat 0 ∧ d ≠ escape) ∨ d = ' ' := by
    refine (mem_joinLineEnds hd).imp_left fun hmem ↦ ?_
    obtain ⟨hmem, hescape⟩ := mem_stripSequences hmem
    exact ⟨of_decide_eq_true (List.mem_filter.mp hmem).2, hescape⟩
  split
  · decide
  · rename_i hends
    obtain ⟨hnul, hescape⟩ | rfl := hd'
    · simp only [controls, List.mem_cons, List.not_mem_nil, or_false, not_or]
      exact ⟨hnul, hescape, fun h ↦ hends (.inl h), fun h ↦ hends (.inr h)⟩
    · decide

theorem oneLine_of_plain (h : ∀ c ∈ cs, c ∉ controls) : oneLine cs = cs := by
  have hlacks : ∀ d ∈ controls, d ∉ cs := fun d hd hmem ↦ h d hmem hd
  have hfilter : cs.filter (· ≠ Char.ofNat 0) = cs := by
    refine List.filter_eq_self.mpr fun c hc ↦ decide_eq_true ?_
    rintro rfl
    exact hlacks _ (by decide) hc
  rw [oneLine, hfilter, stripSequences_plain (hlacks _ (by decide)), joinLineEnds_plain (hlacks _ (by decide))]
  refine (List.map_congr_left fun c hc ↦ if_neg ?_).trans (List.map_id cs)
  rintro (rfl | rfl)
  · exact hlacks _ (by decide) hc
  · exact hlacks _ (by decide) hc

theorem cleanDescription_collapsed (description : String) : Collapsed (cleanDescription description) := by
  have hcollapsed : Collapsed (collapseBlanks (oneLine description.toList)) :=
    ⟨fun c hc ↦ oneLine_plain _ c ((collapseBlanks_sublist _).subset hc), collapseBlanks_single _⟩
  refine hcollapsed.within ?_
  exact (List.rdropWhile_prefix isSpace _).isInfix.trans (List.dropWhile_suffix isSpace).isInfix

/-- Nothing of what was cleaned is cleaned again, except at its ends. -/
theorem cleanDescription_of_collapsed (h : Collapsed cs) : cleanDescription (String.ofList cs) = trimList cs := by
  rw [cleanDescription, String.toList_ofList, oneLine_of_plain h.plain, collapseBlanks_of_single h.single]

end Cleaning

/-! The cap. -/

section Capping

variable {cs kept : List Char} {most : ℕ}

theorem byteSize_append (cs cs' : List Char) : byteSize (cs ++ cs') = byteSize cs + byteSize cs' := by
  rw [byteSize, List.map_append, List.sum_append, byteSize, byteSize]

theorem byteSize_cons (c : Char) (cs : List Char) : byteSize (c :: cs) = c.utf8Size + byteSize cs := List.sum_cons

theorem byteSize_sublist {cs' : List Char} (h : cs'.Sublist cs) : byteSize cs' ≤ byteSize cs := by
  induction h with
  | slnil => exact Nat.le_refl _
  | cons c _ ih =>
    rw [byteSize_cons]
    omega
  | cons_cons c _ ih =>
    rw [byteSize_cons, byteSize_cons]
    omega

theorem utf8ByteSize_ofList (cs : List Char) : (String.ofList cs).utf8ByteSize = byteSize cs := by
  induction cs with
  | nil => decide
  | cons c cs ih =>
    rw [← List.singleton_append, String.ofList_append, String.utf8ByteSize_append, ih,
      ← String.singleton_eq_ofList, String.utf8ByteSize_singleton, List.singleton_append, byteSize_cons]

/-- What fits of a text that does not fit as a whole. -/
def Fits (most : ℕ) (cs kept : List Char) : Prop :=
  ∃ c rest, cs = kept ++ c :: rest ∧ byteSize kept ≤ most ∧ most < byteSize kept + c.utf8Size

theorem fits_takeBytes (h : most < byteSize cs) : Fits most cs (takeBytes most cs) := by
  induction cs generalizing most with
  | nil => exact absurd h (Nat.not_lt_zero _)
  | cons c cs ih =>
    rw [byteSize_cons] at h
    rw [takeBytes]
    split
    · obtain ⟨d, rest, hcs, hle, hlt⟩ := @ih (most - c.utf8Size) (by omega)
      refine ⟨d, rest, congrArg (List.cons c) hcs, ?_, ?_⟩ <;> rw [byteSize_cons] <;> omega
    · refine ⟨c, cs, rfl, Nat.zero_le _, ?_⟩
      simp only [byteSize, List.map_nil, List.sum_nil]
      omega

theorem Fits.takeBytes (h : Fits most cs kept) : takeBytes most cs = kept := by
  obtain ⟨c, rest, rfl, hle, hlt⟩ := h
  induction kept generalizing most with
  | nil =>
    simp only [byteSize, List.map_nil, List.sum_nil] at hlt
    rw [List.nil_append, Context.takeBytes, if_neg (by omega)]
  | cons d kept ih =>
    rw [byteSize_cons] at hle hlt
    rw [List.cons_append, Context.takeBytes, if_pos (by omega), ih (by omega) (by omega)]

theorem Fits.lt (h : Fits most cs kept) : most < byteSize cs := by
  obtain ⟨c, rest, rfl, -, hlt⟩ := h
  rw [byteSize_append, byteSize_cons]
  omega

theorem capDescription_short (h : byteSize cs ≤ descriptionCapBytes) : capDescription cs = cs := if_pos h

theorem capDescription_fits (h : Fits descriptionCapBytes cs kept) : capDescription cs =
    if byteSize kept = descriptionCapBytes ∧ kept.getLast? = some replacement then kept.dropLast else kept := by
  rw [capDescription, if_neg (Nat.not_le_of_lt h.lt), h.takeBytes]

theorem capDescription_leads (cs : List Char) : capDescription cs <+: cs := by
  unfold capDescription
  split
  · exact List.prefix_rfl
  · dsimp only
    split
    · exact (List.dropLast_prefix _).trans (takeBytes_leads _ cs)
    · exact takeBytes_leads _ cs

theorem capDescription_capped (cs : List Char) : byteSize (capDescription cs) ≤ descriptionCapBytes := by
  by_cases hshort : byteSize cs ≤ descriptionCapBytes
  · rwa [capDescription_short hshort]
  · have hfits := fits_takeBytes (Nat.lt_of_not_le hshort)
    rw [capDescription_fits hfits]
    obtain ⟨-, -, -, hle, -⟩ := hfits
    split
    · exact Nat.le_trans (byteSize_sublist (List.dropLast_sublist _)) hle
    · exact hle

end Capping

/-! A normal form. -/

def EndsInSpace (cs : List Char) : Prop := ∃ c ∈ cs.getLast?, isSpace c = true

/-- The cap falls right after white space. A replacement character that ends at the cap does not stay, so there it is
the text before that one which counts. -/
def CutAfterSpace (cs : List Char) : Prop :=
  ∃ kept, Fits descriptionCapBytes cs kept ∧ (EndsInSpace kept ∨
    byteSize kept = descriptionCapBytes ∧ ∃ front, kept = front ++ [replacement] ∧ EndsInSpace front)

def entryLine (name location description : String) : String :=
  let head := "- name: " ++ name ++ " | location: " ++ location
  if description = "" then head else head ++ " | " ++ description

/-- What is said of a sanitized description. -/
structure NormalForm (description : String) : Prop where
  capped : (sanitizeDescription description).utf8ByteSize ≤ descriptionCapBytes
  leads : (sanitizeDescription description).toList <+: cleanDescription description
  plain : ∀ c ∈ (sanitizeDescription description).toList, c ∉ controls
  settled : sanitizeDescription (sanitizeDescription description) = sanitizeDescription description
  rendered : ∀ name location, renderEntry ⟨name, location, sanitizeDescription description⟩ =
    entryLine name location (sanitizeDescription description)

section Settling

variable {cs : List Char}

theorem sanitizeDescription_of_collapsed (h : Collapsed cs) (hcapped : byteSize cs ≤ descriptionCapBytes) :
    sanitizeDescription (String.ofList cs) = String.ofList (trimList cs) := by
  have hshort := Nat.le_trans (byteSize_sublist (trimList_sublist cs)) hcapped
  rw [← String.ofList_toList (s := sanitizeDescription (String.ofList cs)), sanitizeDescription_toList,
    cleanDescription_of_collapsed h, capDescription_short hshort]

theorem capDescription_head (htrim : trimList cs = cs) : ∀ c ∈ (capDescription cs).head?, isSpace c = false := by
  obtain ⟨rest, hrest⟩ := capDescription_leads cs
  intro c hc
  refine (trimList_eq_self.mp htrim).1 c ?_
  rw [← hrest, List.head?_append, Option.mem_def.mp hc]
  rfl

theorem endsInSpace_concat (front : List Char) (c : Char) : EndsInSpace (front ++ [c]) ↔ isSpace c = true := by
  rw [EndsInSpace, List.getLast?_concat]
  simp

/-- The cap leaves white space at the end where it falls after white space, and only there. -/
theorem endsInSpace_iff (htrim : trimList cs = cs) : EndsInSpace (capDescription cs) ↔ CutAfterSpace cs := by
  by_cases hshort : byteSize cs ≤ descriptionCapBytes
  · rw [capDescription_short hshort]
    constructor
    · rintro ⟨c, hc, hspace⟩
      rw [(trimList_eq_self.mp htrim).2 c hc] at hspace
      cases hspace
    · rintro ⟨kept, hfits, -⟩
      exact absurd hshort (Nat.not_le_of_lt hfits.lt)
  · have hfits := fits_takeBytes (Nat.lt_of_not_le hshort)
    generalize takeBytes descriptionCapBytes cs = kept at hfits
    have hunique : ∀ kept', Fits descriptionCapBytes cs kept' → kept' = kept := fun kept' h ↦
      h.takeBytes.symm.trans hfits.takeBytes
    have hreplacement : isSpace replacement = false := by decide
    rw [capDescription_fits hfits]
    split
    · rename_i hdrops
      obtain ⟨front, rfl⟩ := List.getLast?_eq_some_iff.mp hdrops.2
      rw [List.dropLast_concat]
      constructor
      · exact fun hspace ↦ ⟨_, hfits, .inr ⟨hdrops.1, front, rfl, hspace⟩⟩
      · rintro ⟨kept', hfits', hspace | ⟨-, front', heq, hspace⟩⟩
        · rw [hunique kept' hfits', endsInSpace_concat, hreplacement] at hspace
          cases hspace
        · obtain rfl := List.append_cancel_right ((hunique kept' hfits').symm.trans heq)
          exact hspace
    · rename_i hstays
      constructor
      · exact fun hspace ↦ ⟨kept, hfits, .inl hspace⟩
      · rintro ⟨kept', hfits', hspace | ⟨hfull, front, heq, -⟩⟩
        · rwa [hunique kept' hfits'] at hspace
        · obtain rfl := hunique kept' hfits'
          exact absurd ⟨hfull, heq ▸ List.getLast?_concat⟩ hstays

theorem sanitized_twice (description : String) :
    sanitizeDescription (sanitizeDescription description) = sanitizeDescription description ↔
      ¬ CutAfterSpace (cleanDescription description) := by
  have htrim : trimList (cleanDescription description) = cleanDescription description := trimList_trimList _
  have hcollapsed := (cleanDescription_collapsed description).within (capDescription_leads _).isInfix
  have htext : sanitizeDescription description = String.ofList (capDescription (cleanDescription description)) := rfl
  rw [htext, sanitizeDescription_of_collapsed hcollapsed (capDescription_capped _), String.ofList_inj, trimList_eq_self,
    and_iff_right (capDescription_head htrim), ← endsInSpace_iff htrim, EndsInSpace]
  simp

/-- A sanitized description is a normal form where the cap does not fall after white space. -/
theorem normalForm_iff_cut (description : String) :
    NormalForm description ↔ ¬ CutAfterSpace (cleanDescription description) := by
  constructor
  · exact fun h ↦ (sanitized_twice description).mp h.settled
  · intro hcut
    have hsettled := (sanitized_twice description).mpr hcut
    refine ⟨?_, ?_, ?_, hsettled, ?_⟩
    · rw [sanitizeDescription, utf8ByteSize_ofList]
      exact capDescription_capped _
    · rw [sanitizeDescription_toList]
      exact capDescription_leads _
    · intro c hc
      rw [sanitizeDescription_toList] at hc
      exact (cleanDescription_collapsed description).plain c ((capDescription_leads _).subset hc)
    · intro name location
      unfold renderEntry entryLine
      rw [hsettled]

/-- A word that ends one byte below the cap, a blank and another word. -/
theorem blank_at_cap_lost : ¬ NormalForm (String.ofList (List.replicate 299 'a' ++ [' ', 'b'])) := by
  have hsize : byteSize (List.replicate 299 'a') = 299 := by
    rw [byteSize, List.map_replicate, List.sum_replicate_nat]
    rfl
  have hplain : ∀ c ∈ List.replicate 299 'a' ++ [' ', 'b'], c ∉ controls := by
    refine List.forall_mem_append.mpr ⟨fun c hc ↦ ?_, List.all_iff_forall_prop.mp (by decide)⟩
    obtain rfl := List.eq_of_mem_replicate hc
    decide
  have hsingle : (List.replicate 299 'a' ++ [' ', 'b']).IsChain fun a b ↦ ¬ (a = ' ' ∧ b = ' ') := by
    refine (List.isChain_replicate_of_rel 299 (by decide)).append (List.isChain_pair.mpr (by decide)) ?_
    intro c hc d _ hboth
    obtain rfl := List.eq_of_mem_replicate (List.mem_of_mem_getLast? hc)
    exact absurd hboth.1 (by decide)
  have htrim : trimList (List.replicate 299 'a' ++ [' ', 'b']) = List.replicate 299 'a' ++ [' ', 'b'] := by
    refine trimList_eq_self.mpr ⟨fun c hc ↦ ?_, fun c hc ↦ ?_⟩
    · obtain rfl : 'a' = c := Option.some.inj hc
      decide
    · rw [List.getLast?_append_of_ne_nil _ (List.cons_ne_nil _ _)] at hc
      obtain rfl : 'b' = c := Option.some.inj hc
      decide
  have hclean := cleanDescription_of_collapsed ⟨hplain, hsingle⟩
  refine fun h ↦ (sanitized_twice _).mp h.settled ?_
  rw [hclean, htrim]
  refine ⟨List.replicate 299 'a' ++ [' '], ⟨'b', [], by rw [List.append_assoc]; rfl, ?_, ?_⟩,
    .inl ((endsInSpace_concat _ _).mpr (by decide))⟩ <;>
  · rw [byteSize_append, hsize]
    decide

end Settling

end OmpLazy.Context

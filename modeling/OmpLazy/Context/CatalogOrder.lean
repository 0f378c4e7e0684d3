import OmpLazy.Context.CatalogCompaction
import OmpLazy.Contracts.OrdinalStrings
import OmpLazy.Foundation.FirstFit
import OmpLazy.Foundation.Paths

/-! A catalog in whatever order its entries come. -/

namespace OmpLazy.Context

open OmpLazy.Foundation OmpLazy.Foundation.FirstFit OmpLazy.Foundation.Text OmpLazy.Contracts

/-! A description has no line of its own. -/

section Descriptions

theorem collapseBlanks_sublist (cs : List Char) : (collapseBlanks cs).Sublist cs := by
  induction cs with
  | nil => exact List.Sublist.slnil
  | cons c cs ih =>
    rw [collapseBlanks]
    split
    · exact ih.cons c
    · exact ih.cons_cons c

theorem takeBytes_leads (most : ℕ) (cs : List Char) : takeBytes most cs <+: cs := by
  induction cs generalizing most with
  | nil => exact List.prefix_rfl
  | cons c cs ih =>
    rw [takeBytes]
    split
    · exact List.cons_prefix_cons.mpr ⟨rfl, ih _⟩
    · exact List.nil_prefix

theorem capDescription_sublist (cs : List Char) : (capDescription cs).Sublist cs := by
  unfold capDescription
  split
  · exact List.Sublist.refl cs
  · dsimp only
    split
    · exact (List.dropLast_sublist _).trans (takeBytes_leads _ cs).sublist
    · exact (takeBytes_leads _ cs).sublist

theorem trimList_sublist (cs : List Char) : (trimList cs).Sublist cs :=
  (List.rdropWhile_prefix isSpace _).sublist.trans (List.dropWhile_suffix isSpace).sublist

theorem newline_notMem_sanitized (description : String) : '\n' ∉ (sanitizeDescription description).toList := by
  intro h
  rw [sanitizeDescription, String.toList_ofList] at h
  have hmem := (((capDescription_sublist _).trans (trimList_sublist _)).trans (collapseBlanks_sublist _)).subset h
  obtain ⟨c, -, hc⟩ := List.mem_map.mp hmem
  split at hc
  · cases hc
  · rename_i hne
    exact hne (.inr hc)

/-- An entry has a line of its own if its name and its location are within one. -/
theorem newline_mem_renderEntry (entry : CatalogEntry) : '\n' ∈ (renderEntry entry).toList ↔
    '\n' ∈ entry.name.toList ∨ '\n' ∈ entry.location.toList := by
  have hdescription := newline_notMem_sanitized entry.description
  have hfixed : '\n' ∉ "- name: ".toList ∧ '\n' ∉ " | location: ".toList ∧ '\n' ∉ " | ".toList := by decide
  unfold renderEntry
  dsimp only
  split <;> simp only [String.toList_append, List.mem_append, hfixed, hdescription, false_or, or_false]

theorem renderEntry_pos (entry : CatalogEntry) : 0 < (renderEntry entry).utf8ByteSize := by
  have hdash : "- name: ".utf8ByteSize = 8 := by decide
  unfold renderEntry
  dsimp only
  split <;> simp only [String.utf8ByteSize_append] <;> omega

end Descriptions

/-! The pass over the sorted entries. -/

section Pass

variable {budget : ℤ} {pass : CompactionPass} {kept dropped : List CatalogEntry} {entry : CatalogEntry}

def lineSize (entry : CatalogEntry) : ℕ := (renderEntry entry).utf8ByteSize

/-- An entry goes in as long as the text stays within the budget. -/
def entryFits (budget : ℤ) (kept : List CatalogEntry) (entry : CatalogEntry) : Bool :=
  (load lineSize 1 (kept ++ [entry]) : ℤ) ≤ budget

structure CompactionPass.Holds (pass : CompactionPass) (kept dropped : List CatalogEntry) : Prop where
  retained : pass.retained = kept
  dropped : pass.dropped = dropped.map (·.name)
  usedBytes : pass.usedBytes = (load lineSize 1 kept : ℤ)

theorem CompactionPass.Holds.needed (h : pass.Holds kept dropped) (entry : CatalogEntry) :
    pass.usedBytes + ((renderEntry entry).utf8ByteSize + (if pass.retained.isEmpty then 0 else 1 : ℤ)) =
      (load lineSize 1 (kept ++ [entry]) : ℤ) := by
  rw [load_concat, h.usedBytes, h.retained, lineSize]
  generalize (renderEntry entry).utf8ByteSize = size
  split <;> omega

theorem CompactionPass.Holds.placeAll (h : pass.Holds kept dropped) (sorted : List CatalogEntry) :
    (sorted.foldl (CompactionPass.place budget) pass).Holds (firstFit (entryFits budget) kept sorted).1
      (dropped ++ (firstFit (entryFits budget) kept sorted).2) := by
  induction sorted generalizing pass kept dropped with
  | nil => simpa [firstFit] using h
  | cons entry sorted ih =>
    have hneeded := h.needed entry
    rw [List.foldl_cons]
    by_cases hfits : entryFits budget kept entry = true
    · rw [firstFit_cons_pos hfits]
      refine ih ?_
      rw [CompactionPass.place, hneeded, if_pos (of_decide_eq_true hfits)]
      exact ⟨congrArg (· ++ [entry]) h.retained, h.dropped, rfl⟩
    · rw [firstFit_cons_neg hfits, List.append_cons]
      refine ih ?_
      rw [CompactionPass.place, hneeded, if_neg (mt decide_eq_true hfits)]
      exact ⟨h.retained, by rw [List.map_append, h.dropped]; rfl, h.usedBytes⟩

def validEntries (entries : List CatalogEntry) : List CatalogEntry :=
  (entries.filter fun entry ↦ validateEntry entry = none).map sanitizeEntry

def compacted (entries : List CatalogEntry) (budget : ℤ) : List CatalogEntry × List CatalogEntry :=
  firstFit (entryFits budget) [] (sortEntries (validEntries entries))

theorem compactCatalog_holds (entries : List CatalogEntry) (budget : ℤ) :
    (compactCatalog entries budget).entries = (compacted entries budget).1 ∧
      (compactCatalog entries budget).dropped = (compacted entries budget).2.map (·.name) := by
  have hstart : CompactionPass.Holds ⟨[], [], 0⟩ [] [] := ⟨rfl, rfl, rfl⟩
  have hpass := @CompactionPass.Holds.placeAll budget _ _ _ hstart (sortEntries (validEntries entries))
  obtain ⟨hretained, hdropped, -⟩ := hpass
  exact ⟨hretained, hdropped⟩

theorem compactCatalog_rendered (entries : List CatalogEntry) (budget : ℤ) :
    (compactCatalog entries budget).rendered =
      "\n".intercalate ((compactCatalog entries budget).entries.map renderEntry) := rfl

theorem byteSize_rendered (kept : List CatalogEntry) :
    ("\n".intercalate (kept.map renderEntry)).utf8ByteSize = load lineSize 1 kept := by
  have hseparator : "\n".utf8ByteSize = 1 := by decide
  induction kept with
  | nil => simp
  | cons entry kept ih =>
    cases kept with
    | nil => simp [load, lineSize]
    | cons next kept =>
      rw [List.map_cons] at ih
      rw [List.map_cons, List.map_cons, String.intercalate_cons_cons, String.utf8ByteSize_append,
        String.utf8ByteSize_append, ih, hseparator]
      simp only [load, lineSize, List.map_cons, List.sum_cons, List.length_cons, Nat.add_sub_cancel]
      omega

theorem compacted_within (entries : List CatalogEntry) (hbudget : 0 ≤ budget) :
    (load lineSize 1 (compacted entries budget).1 : ℤ) ≤ budget :=
  firstFit_invariant (P := fun kept ↦ (load lineSize 1 kept : ℤ) ≤ budget) (fun _ _ _ h ↦ of_decide_eq_true h)
    (by simpa using hbudget)

theorem entryFits_natCast (capacity : ℕ) : entryFits capacity = within lineSize 1 capacity := by
  funext kept entry
  simp only [entryFits, within, Int.ofNat_le]

end Pass

/-! The order of the entries. -/

section Order

variable {entries entries' : List CatalogEntry} {budget : ℤ} {a b : CatalogEntry}

theorem sortEntries_trans (a b c : CatalogEntry) (h : ordinalLe a.name b.name = true)
    (h' : ordinalLe b.name c.name = true) : ordinalLe a.name c.name = true := ordinalLe_trans h h'

theorem sortEntries_total (a b : CatalogEntry) : (ordinalLe a.name b.name || ordinalLe b.name a.name) = true :=
  ordinalLe_total a.name b.name

theorem sortEntries_pairwise (entries : List CatalogEntry) :
    (sortEntries entries).Pairwise fun a b ↦ ordinalLe a.name b.name = true :=
  List.pairwise_mergeSort sortEntries_trans sortEntries_total entries

theorem sortEntries_perm (entries : List CatalogEntry) : (sortEntries entries).Perm entries :=
  List.mergeSort_perm _ _

theorem validEntries_perm (h : entries.Perm entries') : (validEntries entries).Perm (validEntries entries') :=
  (h.filter _).map _

/-- Entries that share a name are the same entry, once they are sanitized. -/
def Unambiguous (entries : List CatalogEntry) : Prop :=
  ∀ a ∈ validEntries entries, ∀ b ∈ validEntries entries, a.name = b.name → a = b

theorem sorted_of_unambiguous (h : Unambiguous entries) (hperm : entries.Perm entries') :
    sortEntries (validEntries entries) = sortEntries (validEntries entries') := by
  have hvalid := validEntries_perm hperm
  refine List.Perm.eq_of_pairwise (fun a b ha hb hle hle' ↦ ?_) (sortEntries_pairwise _) (sortEntries_pairwise _)
    (((sortEntries_perm _).trans hvalid).trans (sortEntries_perm _).symm)
  have ha' := (sortEntries_perm _).mem_iff.mp ha
  have hb' := hvalid.mem_iff.mpr ((sortEntries_perm _).mem_iff.mp hb)
  exact h a ha' b hb' (ordinalLe_antisymm hle hle')

/-- The sorted entries with one of them moved to the front of those that share its name. -/
theorem exists_front (ha : a ∈ validEntries entries) : ∃ entries', entries.Perm entries' ∧
    ∃ front back, sortEntries (validEntries entries') = front ++ a :: back ∧
      ∀ x ∈ front, ¬ ordinalLe a.name x.name = true := by
  obtain ⟨entry, hentry, rfl⟩ := List.mem_map.mp ha
  obtain ⟨hmem, hvalid⟩ := List.mem_filter.mp hentry
  refine ⟨entry :: entries.erase entry, List.perm_cons_erase hmem, ?_⟩
  have hfirst : validEntries (entry :: entries.erase entry) =
      sanitizeEntry entry :: validEntries (entries.erase entry) := by
    simp only [validEntries, List.filter_cons, hvalid, if_true, List.map_cons]
  obtain ⟨front, back, hsorted, -, hfront⟩ :=
    List.mergeSort_cons sortEntries_trans sortEntries_total (sanitizeEntry entry) (validEntries (entries.erase entry))
  refine ⟨front, back, by rw [hfirst, sortEntries, hsorted], fun x hx ↦ ?_⟩
  simpa using hfront x hx

theorem front_eq_filter {front back : List CatalogEntry} {valid : List CatalogEntry}
    (hsorted : sortEntries valid = front ++ a :: back) (hfront : ∀ x ∈ front, ¬ ordinalLe a.name x.name = true) :
    (sortEntries valid).filter (fun x ↦ !ordinalLe a.name x.name) = front := by
  have hpairwise := sortEntries_pairwise valid
  rw [hsorted] at hpairwise ⊢
  have hback := (List.pairwise_cons.mp (List.pairwise_append.mp hpairwise).2.1).1
  have hself : ordinalLe a.name a.name = true := by simpa using sortEntries_total a a
  rw [List.filter_append, List.filter_eq_self.mpr fun x hx ↦ by simpa using hfront x hx,
    List.filter_eq_nil_iff.mpr ?_, List.append_nil]
  intro x hx
  obtain rfl | hx := List.mem_cons.mp hx
  · simp [hself]
  · simp [hback x hx]

/-- Of two entries with one name each comes first in some order, behind the same others. -/
theorem exists_rivals (ha : a ∈ validEntries entries) (hb : b ∈ validEntries entries) (hname : a.name = b.name) :
    ∃ first second, entries.Perm first ∧ entries.Perm second ∧ ∃ front front' back back', front.Perm front' ∧
      sortEntries (validEntries first) = front ++ a :: back ∧
      sortEntries (validEntries second) = front' ++ b :: back' ∧ b ∉ front := by
  obtain ⟨first, hfirst, front, back, hsorted, hfront⟩ := exists_front ha
  obtain ⟨second, hsecond, front', back', hsorted', hfront'⟩ := exists_front hb
  refine ⟨first, second, hfirst, hsecond, front, front', back, back', ?_, hsorted, hsorted', fun h ↦ ?_⟩
  · rw [← front_eq_filter hsorted hfront, ← front_eq_filter hsorted' hfront', hname]
    refine List.Perm.filter _ ?_
    exact (sortEntries_perm _).trans ((validEntries_perm (hfirst.symm.trans hsecond)).trans (sortEntries_perm _).symm)
  · have hself : ordinalLe a.name b.name = true := by simpa [hname] using sortEntries_total b b
    exact hfront b h hself

theorem fitsAll_start {front : List CatalogEntry} {capacity : ℕ} (h : load lineSize 1 front ≤ capacity) :
    FitsAll (within lineSize 1 capacity) [] front := fitsAll_within h

/-- A budget that ends with an entry keeps all up to it and no more. -/
theorem compacted_front {front back : List CatalogEntry}
    (hsorted : sortEntries (validEntries entries) = front ++ back) :
    (compacted entries (load lineSize 1 front : ℕ)).1 = front := by
  rw [compacted, hsorted, entryFits_natCast, firstFit_append (fitsAll_start (Nat.le_refl _)), List.nil_append,
    firstFit_none]
  intro x _ hfits
  have hload := of_decide_eq_true hfits
  have hpos := renderEntry_pos x
  rw [load_concat, lineSize] at hload
  omega

theorem mem_compacted {front back : List CatalogEntry} {capacity : ℕ}
    (hsorted : sortEntries (validEntries entries) = front ++ a :: back)
    (hload : load lineSize 1 (front ++ [a]) ≤ capacity) : a ∈ (compacted entries capacity).1 := by
  obtain ⟨ys, -, hkept⟩ := firstFit_sublist (within lineSize 1 capacity) (front ++ [a]) back
  rw [compacted, hsorted, entryFits_natCast, List.append_cons, firstFit_append (fitsAll_start hload), List.nil_append,
    hkept]
  simp

/-- The smaller of two rivals takes the place of the other. -/
theorem exists_disagreement (ha : a ∈ validEntries entries) (hb : b ∈ validEntries entries) (hname : a.name = b.name)
    (hne : a ≠ b) (hle : lineSize b ≤ lineSize a) : ∃ capacity : ℕ, ∃ first second, entries.Perm first ∧
      entries.Perm second ∧ ¬ (b ∈ (compacted first capacity).1 ↔ b ∈ (compacted second capacity).1) := by
  obtain ⟨first, second, hfirst, hsecond, front, front', back, back', hperm, hsorted, hsorted', hfront⟩ :=
    exists_rivals ha hb hname
  refine ⟨load lineSize 1 (front ++ [a]), first, second, hfirst, hsecond, fun hsame ↦ ?_⟩
  rw [List.append_cons] at hsorted
  have hload : load lineSize 1 (front' ++ [b]) ≤ load lineSize 1 (front ++ [a]) := by
    rw [load_concat, load_concat, load_perm hperm, hperm.isEmpty_eq]
    omega
  have hkept := hsame.mpr (mem_compacted hsorted' hload)
  rw [compacted_front hsorted, List.mem_append, List.mem_singleton] at hkept
  obtain hkept | hkept := hkept
  · exact hfront hkept
  · exact hne hkept.symm

end Order

/-! What a caller relies on. -/

def lines (rendered : String) : List String :=
  if rendered = "" then [] else (rendered.toList.splitOn '\n').map String.ofList

/-- One catalog, within its budget, a line an entry, whatever order the entries come in. -/
structure Compacts (entries : List CatalogEntry) (budget : ℤ) : Prop where
  rendered : ∀ entries', entries.Perm entries' →
    (compactCatalog entries' budget).rendered = (compactCatalog entries budget).rendered
  retained : ∀ entries', entries.Perm entries' → ∀ entry,
    entry ∈ (compactCatalog entries' budget).entries ↔ entry ∈ (compactCatalog entries budget).entries
  bytes : ((compactCatalog entries budget).rendered.utf8ByteSize : ℤ) ≤ budget
  lines : lines (compactCatalog entries budget).rendered = (compactCatalog entries budget).entries.map renderEntry
  carried : ∀ entry ∈ (compactCatalog entries budget).entries, ∃ rest,
    renderEntry entry = "- name: " ++ entry.name ++ " | location: " ++ entry.location ++ rest
  partition : ∃ retained dropped rejected : List CatalogEntry, (retained ++ dropped ++ rejected).Perm entries ∧
    (compactCatalog entries budget).entries = retained.map sanitizeEntry ∧
    (compactCatalog entries budget).dropped = dropped.map (·.name) ∧
    (compactCatalog entries budget).rejected.map (·.name) = rejected.map (·.name)

section Compacts

variable {entries entries' kept : List CatalogEntry} {budget : ℤ} {a b : CatalogEntry}

theorem rendered_eq_empty : "\n".intercalate (kept.map renderEntry) = "" ↔ kept = [] := by
  rw [← String.utf8ByteSize_eq_zero_iff, byteSize_rendered]
  cases kept with
  | nil => simp
  | cons entry kept =>
    have hpos := renderEntry_pos entry
    simp only [load, lineSize, List.map_cons, List.sum_cons, reduceCtorEq, iff_false]
    omega

theorem lines_rendered : lines ("\n".intercalate (kept.map renderEntry)) = kept.map renderEntry ↔
    ∀ entry ∈ kept, '\n' ∉ (renderEntry entry).toList := by
  by_cases hempty : kept = []
  · simp [hempty, lines]
  have hseparator : "\n".toList = ['\n'] := by decide
  rw [lines, if_neg (mt rendered_eq_empty.mp hempty), String.toList_intercalate, hseparator]
  constructor
  · intro h entry hentry hnewline
    have hpart := List.mem_map_of_mem (f := String.toList) (List.mem_map_of_mem (f := renderEntry) hentry)
    rw [← h, List.map_map] at hpart
    obtain ⟨part, hpart, heq⟩ := List.mem_map.mp hpart
    rw [Function.comp_apply, String.toList_ofList] at heq
    exact Paths.separator_notMem hpart (heq ▸ hnewline)
  · intro h
    rw [List.splitOn_intercalate]
    · simp
    · intro line hline
      obtain ⟨_, hrendered, rfl⟩ := List.mem_map.mp hline
      obtain ⟨entry, hentry, rfl⟩ := List.mem_map.mp hrendered
      exact h entry hentry
    · simpa using hempty

@[simp] theorem sanitizeEntry_name (entry : CatalogEntry) : (sanitizeEntry entry).name = entry.name := by
  simp only [sanitizeEntry]

theorem rejected_names (entries : List CatalogEntry) (budget : ℤ) :
    (compactCatalog entries budget).rejected.map (·.name) =
      (entries.filter fun entry ↦ !decide (validateEntry entry = none)).map (·.name) := by
  rw [compactCatalog]
  dsimp only
  induction entries with
  | nil => rfl
  | cons entry entries ih =>
    cases hvalid : validateEntry entry with
    | none => simpa [hvalid] using ih
    | some reason => simpa [hvalid] using ih

/-- Every entry is kept, dropped or rejected, and only one of these. -/
theorem exists_partition (entries : List CatalogEntry) (budget : ℤ) :
    ∃ retained dropped rejected : List CatalogEntry, (retained ++ dropped ++ rejected).Perm entries ∧
      (compactCatalog entries budget).entries = retained.map sanitizeEntry ∧
      (compactCatalog entries budget).dropped = dropped.map (·.name) ∧
      (compactCatalog entries budget).rejected.map (·.name) = rejected.map (·.name) := by
  obtain ⟨hretained, hdropped⟩ := compactCatalog_holds entries budget
  have hpass : ((compacted entries budget).1 ++ (compacted entries budget).2).Perm (validEntries entries) :=
    (firstFit_perm _ _ _).trans (sortEntries_perm _)
  obtain ⟨valid, heq, hvalid⟩ := (congrFun₂ (List.eq_map_comp_perm sanitizeEntry) _ _).mpr hpass
  obtain ⟨retained, dropped, rfl, hretained', hdropped'⟩ := List.map_eq_append_iff.mp heq.symm
  refine ⟨retained, dropped, _, ?_, by rw [hretained, hretained'], ?_, rejected_names entries budget⟩
  · exact (hvalid.append_right _).trans (List.filter_append_perm _ entries)
  · rw [hdropped, ← hdropped', List.map_map]
    exact List.map_congr_left fun entry _ ↦ sanitizeEntry_name entry

/-- What holds of every catalog. -/
theorem renderEntry_carries (entry : CatalogEntry) : ∃ rest,
    renderEntry entry = "- name: " ++ entry.name ++ " | location: " ++ entry.location ++ rest := by
  unfold renderEntry
  dsimp only
  split
  · exact ⟨"", by rw [String.append_empty]⟩
  · exact ⟨_, by rw [String.append_assoc]⟩

def OneLine (entries : List CatalogEntry) : Prop :=
  ∀ entry ∈ validEntries entries, '\n' ∉ entry.name.toList ∧ '\n' ∉ entry.location.toList

theorem oneLine_iff : OneLine entries ↔ ∀ entry ∈ validEntries entries, '\n' ∉ (renderEntry entry).toList := by
  refine forall₂_congr fun entry _ ↦ ?_
  rw [newline_mem_renderEntry, not_or]

theorem compacted_subset (entries : List CatalogEntry) (budget : ℤ) :
    (compacted entries budget).1 ⊆ validEntries entries := by
  obtain ⟨ys, hys, hkept⟩ := firstFit_sublist (entryFits budget) [] (sortEntries (validEntries entries))
  rw [compacted, hkept, List.nil_append]
  exact List.Subset.trans hys.subset (sortEntries_perm _).subset

theorem compacts_of_unambiguous (hsame : Unambiguous entries) (hline : OneLine entries) (hbudget : 0 ≤ budget) :
    Compacts entries budget := by
  have horder : ∀ entries', entries.Perm entries' → compacted entries' budget = compacted entries budget := by
    intro entries' hperm
    rw [compacted, compacted, sorted_of_unambiguous hsame hperm]
  have hretained := fun entries ↦ (compactCatalog_holds entries budget).1
  exact {
    rendered := fun entries' hperm ↦ by
      rw [compactCatalog_rendered, compactCatalog_rendered, hretained, hretained, horder entries' hperm]
    retained := fun entries' hperm entry ↦ by rw [hretained, hretained, horder entries' hperm]
    bytes := by
      rw [compactCatalog_rendered, byteSize_rendered, hretained]
      exact compacted_within entries hbudget
    lines := by
      rw [compactCatalog_rendered, lines_rendered, hretained]
      exact fun entry hentry ↦ oneLine_iff.mp hline entry (compacted_subset entries budget hentry)
    carried := fun entry _ ↦ renderEntry_carries entry
    partition := exists_partition entries budget }

theorem unambiguous_of_compacts (h : ∀ budget, 0 ≤ budget → Compacts entries budget) : Unambiguous entries := by
  intro a ha b hb hname
  by_contra hne
  have hagree : ∀ capacity : ℕ, ∀ first second, entries.Perm first → entries.Perm second → ∀ entry,
      entry ∈ (compacted first capacity).1 ↔ entry ∈ (compacted second capacity).1 := by
    intro capacity first second hfirst hsecond entry
    have hcompacts := h capacity (Int.natCast_nonneg capacity)
    rw [← (compactCatalog_holds first _).1, ← (compactCatalog_holds second _).1,
      hcompacts.retained first hfirst, hcompacts.retained second hsecond]
  rcases Nat.le_total (lineSize b) (lineSize a) with hle | hle
  · obtain ⟨capacity, first, second, hfirst, hsecond, hdiffer⟩ := exists_disagreement ha hb hname hne hle
    exact hdiffer (hagree capacity first second hfirst hsecond b)
  · obtain ⟨capacity, first, second, hfirst, hsecond, hdiffer⟩ :=
      exists_disagreement hb ha hname.symm (Ne.symm hne) hle
    exact hdiffer (hagree capacity first second hfirst hsecond a)

theorem oneLine_of_compacts (h : ∀ budget, 0 ≤ budget → Compacts entries budget) : OneLine entries := by
  rw [oneLine_iff]
  intro entry hentry
  have hall := compacted_front (List.append_nil (sortEntries (validEntries entries))).symm
  have hlines := (h _ (Int.natCast_nonneg (load lineSize 1 (sortEntries (validEntries entries))))).lines
  rw [compactCatalog_rendered, lines_rendered, (compactCatalog_holds entries _).1, hall] at hlines
  exact hlines entry ((sortEntries_perm _).mem_iff.mpr hentry)

/-- A catalog compacts well under every budget when its entries differ in their names and take a line each; a
negative budget is passed even by the empty text. -/
theorem compactCatalog_iff (entries : List CatalogEntry) :
    ((∀ budget, 0 ≤ budget → Compacts entries budget) ↔ Unambiguous entries ∧ OneLine entries) ∧
      ∀ budget, budget < 0 → ¬ Compacts entries budget := by
  refine ⟨⟨fun h ↦ ⟨unambiguous_of_compacts h, oneLine_of_compacts h⟩, fun h _ hbudget ↦ ?_⟩, ?_⟩
  · exact compacts_of_unambiguous h.1 h.2 hbudget
  · intro budget hbudget h
    have hbytes := h.bytes
    omega

theorem sortEntries_same (h : a.name = b.name) : sortEntries [a, b] = [a, b] := by
  refine List.mergeSort_of_pairwise ?_
  simpa [h] using sortEntries_total b b

/-- Two locations of one skill: the first that comes is kept. -/
theorem first_location_kept : ¬ Compacts [⟨"a", "x", ""⟩, ⟨"a", "y", ""⟩] 24 := by
  intro h
  have hswap := h.rendered [⟨"a", "y", ""⟩, ⟨"a", "x", ""⟩] (List.Perm.swap _ _ _)
  rw [compactCatalog_rendered, compactCatalog_rendered, (compactCatalog_holds _ _).1, (compactCatalog_holds _ _).1,
    compacted, compacted] at hswap
  have hvalid : validEntries [⟨"a", "x", ""⟩, ⟨"a", "y", ""⟩] = [⟨"a", "x", ""⟩, ⟨"a", "y", ""⟩] := by
    decide
  have hvalid' : validEntries [⟨"a", "y", ""⟩, ⟨"a", "x", ""⟩] = [⟨"a", "y", ""⟩, ⟨"a", "x", ""⟩] := by
    decide
  have hsorted : ∀ s t, sortEntries [⟨"a", s, ""⟩, ⟨"a", t, ""⟩] = [⟨"a", s, ""⟩, ⟨"a", t, ""⟩] :=
    fun _ _ ↦ sortEntries_same rfl
  rw [hvalid, hvalid', hsorted, hsorted] at hswap
  revert hswap
  decide

end Compacts

end OmpLazy.Context

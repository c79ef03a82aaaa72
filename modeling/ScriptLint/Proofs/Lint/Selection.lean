import Mathlib.Data.List.Pairwise
import ScriptLint.Proofs.Lint.FixRun
import ScriptLint.Proofs.Lint.Pass
import ScriptLint.Proofs.StableSort

/-!
Which fixes a pass applies. The first fixes of the diagnostics are gone through in order of place; a
fix is taken whole or left out whole, and it is left out only for one taken before that it overlaps
(`exists_greedy`). So the first of them is always taken, and taken fixes which are accepted one by one
are accepted together (`select_greedy`).
-/
namespace ScriptLint.Fix

/-- The first fix of every diagnostic that offers one. -/
def firstFixes (diagnostics : List Diagnostic) : List Fix := diagnostics.filterMap (·.fixes.head?)

/-- A greedy choice among fixes, by their places in the list: no edit of a chosen one overlaps an edit
of another, and every fix that is not chosen overlaps a chosen one before it. -/
structure Greedy (fixes : List Fix) (chosen : List (Fin fixes.length)) : Prop where
  increasing : chosen.Pairwise (· < ·)
  apart : ∀ i ∈ chosen, ∀ j ∈ chosen, i ≠ j →
    ∀ a ∈ fixes[i].edits, ∀ b ∈ fixes[j].edits, a.overlaps b = false
  left_out : ∀ i, i ∉ chosen → ∃ j ∈ chosen, j < i ∧ fixes[j].overlaps fixes[i] = true

/-- Nothing comes before the first fix that could keep it out. -/
theorem Greedy.first_mem {fixes : List Fix} {chosen : List (Fin fixes.length)}
    (h : Greedy fixes chosen) (hpos : 0 < fixes.length) : ⟨0, hpos⟩ ∈ chosen := by
  by_contra hout
  obtain ⟨j, _, hlt, _⟩ := h.left_out ⟨0, hpos⟩ hout
  exact Nat.not_lt_zero j hlt

theorem overlaps_symm (f g : Fix) : f.overlaps g = g.overlaps f := by
  apply Bool.eq_iff_iff.mpr
  simp only [overlaps, List.any_eq_true]
  constructor
  · rintro ⟨a, ha, b, hb, hab⟩
    exact ⟨b, hb, a, ha, by rwa [Edit.overlaps_symm]⟩
  · rintro ⟨b, hb, a, ha, hba⟩
    exact ⟨a, ha, b, hb, by rwa [Edit.overlaps_symm]⟩

/-- Where the fixes stand that are kept beside some kept before: whatever is not among them overlaps
one of those, or one of them that stands before it. -/
theorem exists_places (kept fixes : List Fix) :
    ∃ chosen : List (Fin fixes.length), chosen.Pairwise (· < ·) ∧
      keepDisjoint kept fixes = chosen.map (fun i => fixes[i]) ∧
      ∀ i, i ∉ chosen → (∃ k ∈ kept, k.overlaps fixes[i] = true) ∨
        ∃ j ∈ chosen, j < i ∧ fixes[j].overlaps fixes[i] = true := by
  induction fixes generalizing kept with
  | nil => exact ⟨[], .nil, rfl, fun i => i.elim0⟩
  | cons fix rest ih =>
    by_cases hmeets : kept.any (·.overlaps fix) = true
    · obtain ⟨chosen, hsorted, hkept, hout⟩ := ih kept
      refine ⟨chosen.map Fin.succ, ?_, ?_, ?_⟩
      · simpa [List.pairwise_map] using hsorted
      · simp [keepDisjoint, hmeets, hkept]
      · intro i hi
        cases i using Fin.cases with
        | zero => exact .inl (by simpa using hmeets)
        | succ i =>
          rcases hout i (by simpa using hi) with hbefore | ⟨j, hj, hlt, hoverlap⟩
          · exact .inl hbefore
          · exact .inr ⟨j.succ, by simpa using hj, by simpa using hlt, hoverlap⟩
    · obtain ⟨chosen, hsorted, hkept, hout⟩ := ih (kept ++ [fix])
      refine ⟨0 :: chosen.map Fin.succ, ?_, ?_, ?_⟩
      · simpa [List.pairwise_map] using hsorted
      · simp [keepDisjoint, hmeets, hkept]
      · intro i hi
        cases i using Fin.cases with
        | zero => simp at hi
        | succ i =>
          have hi' : i ∉ chosen := fun h => hi (List.mem_cons_of_mem _ (List.mem_map_of_mem h))
          rcases hout i hi' with ⟨k, hk, hoverlap⟩ | ⟨j, hj, hlt, hoverlap⟩
          · rcases List.mem_append.mp hk with hk | hk
            · exact .inl ⟨k, hk, hoverlap⟩
            · obtain rfl := List.mem_singleton.mp hk
              exact .inr ⟨0, List.mem_cons_self, Fin.succ_pos i, hoverlap⟩
          · have hj' := List.mem_cons_of_mem 0 (List.mem_map_of_mem (f := Fin.succ) hj)
            exact .inr ⟨j.succ, hj', by simpa using hlt, hoverlap⟩

theorem exists_greedy (fixes : List Fix) :
    ∃ chosen, Greedy fixes chosen ∧ keepDisjoint [] fixes = chosen.map (fun i => fixes[i]) := by
  obtain ⟨chosen, hsorted, hkept, hout⟩ := exists_places [] fixes
  refine ⟨chosen, ⟨hsorted, ?_, ?_⟩, hkept⟩
  · have hpairs := keepDisjoint_pairwise [] fixes
    rw [hkept, List.pairwise_map] at hpairs
    have hsymm : Std.Symm fun i j : Fin fixes.length => fixes[i].overlaps fixes[j] = false :=
      ⟨fun i j h => by rwa [overlaps_symm]⟩
    intro i hi j hj hne
    exact edits_clear (hpairs.forall hi hj hne)
  · intro i hi
    rcases hout i hi with ⟨k, hk, _⟩ | hbefore
    · cases hk
    · exact hbefore

theorem orderBy_start : OrderBy (fun fix : Fix => fix.span.start)
    (fun a b => a.span.start ≤ b.span.start) where
  total a b := by simpa using Nat.le_total a.span.start b.span.start
  trans a b c hab hbc := by
    simp only [decide_eq_true_eq] at *
    omega
  tie a b hab hba := by
    simp only [decide_eq_true_eq] at hab hba
    omega
  of_key_eq a b h := by simpa using Nat.le_of_eq h

theorem firstFixes_ne_nil_iff (diagnostics : List Diagnostic) :
    firstFixes diagnostics ≠ [] ↔ ∃ d ∈ diagnostics, d.fixes ≠ [] := by
  simp [firstFixes, List.filterMap_eq_nil_iff]

/-- In order of their starts, and as given where these are equal, the first fixes are chosen greedily,
and what is selected are all the edits of the chosen ones. The first fix in order is chosen if there
is any; then edits are selected if every fix has some, and the loop goes on with the text that they
make. If every first fix is accepted alone, what is selected is accepted. -/
theorem select_greedy {diagnostics : List Diagnostic} {ordered : List Fix}
    (h : Orders (fun fix : Fix => fix.span.start) (fun a b => a.span.start ≤ b.span.start)
      (firstFixes diagnostics) ordered) :
    (∃ chosen, Greedy ordered chosen ∧
      selectEdits diagnostics = chosen.flatMap (fun i => ordered[i].edits) ∧
      ((∃ d ∈ diagnostics, d.fixes ≠ []) → ∃ first ∈ chosen, first.val = 0)) ∧
    ((∃ d ∈ diagnostics, d.fixes ≠ []) → (∀ fix ∈ firstFixes diagnostics, fix.edits ≠ []) →
      selectEdits diagnostics ≠ [] ∧
      ∀ (session next : Session) (parser : Parser) (text changed : Text) (remaining passes : Nat),
        session.lint parser text = (.ok ⟨diagnostics⟩, next) →
        Edit.applyAll text (selectEdits diagnostics) = .ok changed →
        session.fixLoop parser (remaining + 1) passes text =
          next.fixLoop parser remaining (passes + 1) changed) ∧
    ∀ source, (∀ fix ∈ firstFixes diagnostics, ∃ out, Edit.applyAll source fix.edits = .ok out) →
      ∃ out, Edit.applyAll source (selectEdits diagnostics) = .ok out := by
  obtain rfl : ordered = candidates diagnostics := orderBy_start.eq_sortBy h
  obtain ⟨chosen, hgreedy, hkept⟩ := exists_greedy (candidates diagnostics)
  have hedits : selectEdits diagnostics =
      chosen.flatMap (fun i => (candidates diagnostics)[i].edits) := by
    rw [selectEdits, select, hkept, List.flatMap_map]
  have hfirst : (∃ d ∈ diagnostics, d.fixes ≠ []) → ∃ first ∈ chosen, first.val = 0 := by
    intro hsome
    have hpos : 0 < (candidates diagnostics).length := by
      rw [candidates, length_sortBy]
      exact List.length_pos_iff.mpr ((firstFixes_ne_nil_iff diagnostics).mpr hsome)
    exact ⟨_, hgreedy.first_mem hpos, rfl⟩
  refine ⟨⟨chosen, hgreedy, hedits, hfirst⟩, ?_, ?_⟩
  · intro hsome hfull
    have hoffered : selectEdits diagnostics ≠ [] := by
      obtain ⟨first, hmem, _⟩ := hfirst hsome
      have hfix := hfull _ (h.perm.mem_iff.mp (List.getElem_mem first.isLt))
      intro hnone
      rw [hedits, List.flatMap_eq_nil_iff] at hnone
      exact hfix (hnone first hmem)
    exact ⟨hoffered, fun session next parser text changed remaining passes linted applied =>
      Session.fixLoop_of_applied linted hoffered applied⟩
  · intro source haccepted
    apply Edit.exists_applyAll_eq_ok_iff.mpr
    apply selectEdits_acceptable_of_each
    intro fix hfix
    have hmem := (keepDisjoint_sublist [] (candidates diagnostics)).mem hfix
    exact Edit.exists_applyAll_eq_ok_iff.mp (haccepted fix (h.perm.mem_iff.mp hmem))

/-- Three fixes of two edits each. The second starts between the edits of the first without touching
them; the third overlaps the second. -/
def interleavedFixes : List Diagnostic :=
  [(Diagnostic.plain "c" ⟨6, 12⟩ "").withFix (.ofEdits [.delete ⟨7, 9⟩, .insert 12 ['z']]),
   (Diagnostic.plain "a" ⟨0, 11⟩ "").withFix (.ofEdits [.delete ⟨10, 11⟩, .delete ⟨0, 2⟩]),
   (Diagnostic.plain "b" ⟨2, 8⟩ "").withFix (.ofEdits [.insert 2 ['y'], .delete ⟨5, 8⟩])]

def interleavedText : Text := "0123456789ab".toList

theorem select_greedy_interleavedFixes :
    Orders (fun fix : Fix => fix.span.start) (fun a b => a.span.start ≤ b.span.start)
        (firstFixes interleavedFixes) (candidates interleavedFixes) ∧
      (∀ fix ∈ firstFixes interleavedFixes, ∃ out,
        Edit.applyAll interleavedText fix.edits = .ok out) ∧
      selectEdits interleavedFixes =
        [.delete ⟨10, 11⟩, .delete ⟨0, 2⟩, .insert 2 ['y'], .delete ⟨5, 8⟩] ∧
      ∃ out, Edit.applyAll interleavedText (selectEdits interleavedFixes) = .ok out := by
  have hordered := orderBy_start.orders_sortBy (firstFixes interleavedFixes)
  have haccepted : ∀ fix ∈ firstFixes interleavedFixes, ∃ out,
      Edit.applyAll interleavedText fix.edits = .ok out := by
    intro fix hfix
    simp only [firstFixes, interleavedFixes, Diagnostic.withFix, Diagnostic.plain,
      List.nil_append, List.filterMap_cons, List.head?_cons, List.filterMap_nil, List.mem_cons,
      List.not_mem_nil, or_false] at hfix
    rcases hfix with rfl | rfl | rfl
    · exact ⟨"01234569abz".toList, by rfl⟩
    · exact ⟨"23456789b".toList, by rfl⟩
    · exact ⟨"01y23489ab".toList, by rfl⟩
  exact ⟨hordered, haccepted, by decide, (select_greedy hordered).2.2 _ haccepted⟩

end ScriptLint.Fix

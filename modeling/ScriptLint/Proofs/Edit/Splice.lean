import ScriptLint.Proofs.Edit.Acceptance
import ScriptLint.Proofs.Text.Cut

/-!
What an accepted list of edits does to the characters of a text. All that lies outside the spans is
copied once, so the outcome together with what the spans held has the characters of the source
together with the replacements (`applyAll_perm`).
-/
namespace ScriptLint.Edit

variable {source : Text} {edits : List Edit}

/-- What stands in the spans of the edits. -/
def removed (source : Text) (edits : List Edit) : Text :=
  edits.flatMap fun e => Text.slice source e.span

/-- What the edits put in. -/
def inserted (edits : List Edit) : Text := edits.flatMap (·.replacement)

@[simp] theorem removed_nil (source : Text) : removed source [] = [] := rfl
@[simp] theorem inserted_nil : inserted [] = [] := rfl
@[simp] theorem removed_cons (source : Text) (e : Edit) (rest : List Edit) :
    removed source (e :: rest) = Text.slice source e.span ++ removed source rest := rfl
@[simp] theorem inserted_cons (e : Edit) (rest : List Edit) :
    inserted (e :: rest) = e.replacement ++ inserted rest := rfl
@[simp] theorem removed_append (source : Text) (as bs : List Edit) :
    removed source (as ++ bs) = removed source as ++ removed source bs := List.flatMap_append
@[simp] theorem inserted_append (as bs : List Edit) :
    inserted (as ++ bs) = inserted as ++ inserted bs := List.flatMap_append

/-- From the cursor on, nothing but the spans of the edits is lost and nothing but their
replacements is new. -/
theorem splice_perm {cursor : Nat} (hcursor : Text.isBoundary source cursor = true)
    (hstart : ∀ e ∈ edits, cursor ≤ e.span.start) (fits : ∀ e ∈ edits, Fits source e)
    (apart : edits.Pairwise fun a b => a.span.stop ≤ b.span.start) :
    (splice source cursor edits ++ removed source edits).Perm
      (Text.drop cursor source ++ inserted edits) := by
  induction edits generalizing cursor with
  | nil => exact .refl _
  | cons e rest ih =>
    obtain ⟨he, hrest⟩ := List.pairwise_cons.mp apart
    have fit := fits e List.mem_cons_self
    have hperm := ih fit.stop_exact he (fun f hf => fits f (List.mem_cons_of_mem e hf)) hrest
    have hgap := Text.slice_append_drop hcursor (hstart e List.mem_cons_self)
    have hspan : Text.slice source e.span ++ Text.drop e.span.stop source =
        Text.drop e.span.start source := Text.slice_append_drop fit.start_exact fit.ordered
    rw [splice, ← hgap, ← hspan, removed_cons, inserted_cons]
    rw [List.perm_iff_count] at hperm ⊢
    intro c
    have hc := hperm c
    simp only [List.count_append] at hc ⊢
    omega

theorem applyAll_eq_ok {out : Text} (h : applyAll source edits = .ok out) :
    out = splice source 0 (sortBy le edits) := by
  rw [applyAll] at h
  split at h
  · cases h
  · dsimp only at h
    split at h
    · cases h
    · cases h
      rfl

/-- The outcome of an accepted list with what it removed has the characters of the source with what
was put in. -/
theorem applyAll_perm {out : Text} (h : applyAll source edits = .ok out) :
    (out ++ removed source edits).Perm (source ++ inserted edits) := by
  obtain ⟨fits, hpairs⟩ := exists_applyAll_eq_ok_iff.mp ⟨out, h⟩
  have hsorted := sortBy_perm le edits
  have hfits : ∀ e ∈ sortBy le edits, Fits source e := by simpa using fits
  have hsplice := splice_perm (Text.isBoundary_zero source) (fun e _ => Nat.zero_le _) hfits
    ((apart_iff_no_overlap fits).mpr hpairs)
  rw [← applyAll_eq_ok h, Text.drop_zero] at hsplice
  have hremoved : (removed source (sortBy le edits)).Perm (removed source edits) :=
    hsorted.flatMap_right _
  have hinserted : (inserted (sortBy le edits)).Perm (inserted edits) := hsorted.flatMap_right _
  exact ((hremoved.append_left out).symm.trans hsplice).trans (hinserted.append_left source)

end ScriptLint.Edit

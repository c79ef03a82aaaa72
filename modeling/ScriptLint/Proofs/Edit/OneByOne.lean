import ScriptLint.Proofs.Edit.Splice
import ScriptLint.Proofs.StableSort

/-!
Edits one at a time. A list of edits is applied in one pass over the source, but it could as well be
applied edit by edit from the last to the first: what is changed later in the text does not move
what stands before it, so that every edit finds its span where it was (`applyEach?_eq_splice`). The
order in which the list is given matters only between edits with equal spans
(`applyAll_eq_of_reorders`).
-/
namespace ScriptLint

namespace Span

theorem le_refl (s : Span) : s.le s = true := by
  simp [le]

theorem le_antisymm {s t : Span} (hst : s.le t = true) (hts : t.le s = true) : s = t := by
  simp only [le, Bool.or_eq_true, Bool.and_eq_true, beq_iff_eq, decide_eq_true_eq] at hst hts
  rw [Span.mk.injEq]
  omega

end Span

namespace Edit

variable {source : Text} {edits other ordered : List Edit}

/-- Put the replacement where the span of the edit is. The span has to be in order and cut no
character of the text. -/
def applyOne? (text : Text) (e : Edit) : Option Text :=
  if e.span.start ≤ e.span.stop ∧ Text.isBoundary text e.span.start = true ∧
      Text.isBoundary text e.span.stop = true then
    some (Text.take e.span.start text ++ e.replacement ++ Text.drop e.span.stop text)
  else none

/-- The edits one at a time from the last to the first, each in the text that those after it have
left. -/
def applyEach? (source : Text) : List Edit → Option Text
  | [] => some source
  | e :: rest => (applyEach? source rest).bind fun text => applyOne? text e

theorem applyOne?_append (front middle back : Text) (replacement : Text) :
    applyOne? (front ++ (middle ++ back))
        ⟨⟨Text.width front, Text.width front + Text.width middle⟩, replacement⟩ =
      some (front ++ replacement ++ back) := by
  have hstart : Text.isBoundary (front ++ (middle ++ back)) (Text.width front) = true :=
    (Text.isBoundary_iff _ _).mpr ⟨front, middle ++ back, rfl, rfl⟩
  have hstop := Text.isBoundary_add hstart (Text.drop_width_append front (middle ++ back))
  simp only [applyOne?, hstart, hstop, Nat.le_add_right, and_self, if_true,
    Text.take_width_append, Text.drop_width_add, Text.drop_width_append]

/-- The invariant of the two ways to apply edits in order: up to the cursor the source is as it was,
and from there on it is what the pass over the source makes of it. -/
theorem applyEach?_eq_splice {cursor : Nat} (hcursor : Text.isBoundary source cursor = true)
    (hstart : ∀ e ∈ edits, cursor ≤ e.span.start) (fits : ∀ e ∈ edits, Fits source e)
    (apart : edits.Pairwise fun a b => a.span.stop ≤ b.span.start) :
    applyEach? source edits = some (Text.take cursor source ++ splice source cursor edits) := by
  induction edits generalizing cursor with
  | nil => simp [applyEach?, splice, Text.take_append_drop]
  | cons e rest ih =>
    obtain ⟨he, hrest⟩ := List.pairwise_cons.mp apart
    have fit := fits e List.mem_cons_self
    have hlater := ih fit.stop_exact he (fun f hf => fits f (List.mem_cons_of_mem e hf)) hrest
    have hspan : e = ⟨⟨Text.width (Text.take e.span.start source),
        Text.width (Text.take e.span.start source) + Text.width (Text.slice source e.span)⟩,
        e.replacement⟩ := by
      have hwidth : Text.width (Text.slice source e.span) = e.span.stop - e.span.start :=
        Text.width_slice fit.start_exact fit.stop_exact fit.ordered
      rw [hwidth, Text.width_take fit.start_exact, Nat.add_sub_cancel' fit.ordered]
    have hcut : Text.take e.span.stop source =
        Text.take e.span.start source ++ Text.slice source e.span :=
      (Text.take_append_slice fit.start_exact fit.ordered).symm
    have hone := applyOne?_append (Text.take e.span.start source) (Text.slice source e.span)
      (splice source e.span.stop rest) e.replacement
    rw [← hspan] at hone
    rw [applyEach?, hlater, Option.bind_some, hcut, List.append_assoc, hone, splice,
      ← Text.take_append_slice hcursor (hstart e List.mem_cons_self)]
    simp

theorem orderBy_span : OrderBy (fun e : Edit => e.span) le where
  total a b := Span.le_total a.span b.span
  trans a b c := Span.le_trans a.span b.span c.span
  tie _ _ hab hba := Span.le_antisymm hab hba
  of_key_eq a b h := by
    change a.span.le b.span = true
    rw [show a.span = b.span from h]
    exact Span.le_refl b.span

/-- Edits that all fit have one outcome, also where it is an error, in all orders in which those with
equal spans stand alike. -/
theorem applyAll_eq_of_reorders (h : Reorders (fun e : Edit => e.span) edits other)
    (fits : ∀ e ∈ edits, Fits source e) : applyAll source other = applyAll source edits := by
  have hother : ∀ e ∈ other, Fits source e := by
    intro e he
    exact fits e (h.perm.mem_iff.mp he)
  rw [applyAll, applyAll, findSome?_fault?_eq_none_iff.mpr fits,
    findSome?_fault?_eq_none_iff.mpr hother, orderBy_span.sortBy_eq h]

theorem applyEach?_of_applyAll {out : Text} (h : applyAll source edits = .ok out) :
    applyEach? source (sortBy le edits) = some out := by
  obtain ⟨fits, hpairs⟩ := exists_applyAll_eq_ok_iff.mp ⟨out, h⟩
  have heach := applyEach?_eq_splice (Text.isBoundary_zero source) (fun e _ => Nat.zero_le _)
    (by simpa using fits) ((apart_iff_no_overlap fits).mpr hpairs)
  rw [heach, ← applyAll_eq_ok h, Text.take_zero, List.nil_append]

/-- What an accepted list makes of the source, its edits make one at a time from the last to the
first, put in order by their spans and as given where these are equal. Any other order of the list
that keeps edits with equal spans as they stand is accepted with the same outcome or refused too, and
with the same error if all edits fit the source. -/
theorem applyAll_one_at_a_time (source : Text) (edits : List Edit) :
    (∀ ordered, Orders (fun e : Edit => e.span) le edits ordered →
      ∀ out, applyAll source edits = .ok out → applyEach? source ordered = some out) ∧
    ∀ other, Reorders (fun e : Edit => e.span) edits other →
      (∀ out, applyAll source other = .ok out ↔ applyAll source edits = .ok out) ∧
      ((∀ e ∈ edits, Fits source e) → applyAll source other = applyAll source edits) := by
  constructor
  · intro ordered hordered out h
    rw [orderBy_span.eq_sortBy hordered]
    exact applyEach?_of_applyAll h
  · intro other hother
    refine ⟨fun out => ⟨fun h => ?_, fun h => ?_⟩, applyAll_eq_of_reorders hother⟩
    · have fits := (exists_applyAll_eq_ok_iff.mp ⟨out, h⟩).1
      rwa [← applyAll_eq_of_reorders hother fun e he => fits e (hother.perm.mem_iff.mpr he)]
    · have fits := (exists_applyAll_eq_ok_iff.mp ⟨out, h⟩).1
      rwa [applyAll_eq_of_reorders hother fits]

/-- Two insertions where a deletion starts, one where it ends, and a replacement before them. -/
def touchingEdits : List Edit :=
  [.insert 7 ['!'], .delete ⟨3, 7⟩, .insert 3 ['1'], ⟨⟨0, 1⟩, ['x', 'y']⟩, .insert 3 ['2']]

theorem applyAll_one_at_a_time_touchingEdits :
    Orders (fun e : Edit => e.span) le touchingEdits (sortBy le touchingEdits) ∧
      applyAll "aé😀b".toList touchingEdits = .ok "xyé12!b".toList ∧
      applyEach? "aé😀b".toList (sortBy le touchingEdits) = some "xyé12!b".toList ∧
      applyAll "aé😀b".toList (sortBy le touchingEdits) = .ok "xyé12!b".toList := by
  have hordered := orderBy_span.orders_sortBy touchingEdits
  have hout : applyAll "aé😀b".toList touchingEdits = .ok "xyé12!b".toList := by rfl
  obtain ⟨heach, hother⟩ := applyAll_one_at_a_time "aé😀b".toList touchingEdits
  exact ⟨hordered, hout, heach _ hordered _ hout, ((hother _ hordered.toReorders).1 _).mpr hout⟩

end Edit

end ScriptLint

import ScriptLint.Proofs.Edit.Splice
import ScriptLint.Proofs.Text.Lines

/-!
What edits do to the lengths of lines. An edit fits a limit if the line that it makes, taken for
itself, is no longer than the limit. Several edits can come to stand on one line of the outcome; each
of them adds at most the limit, so the lines are bounded by the limit times the number of edits that
share one (`linesWithin_splice`).
-/
namespace ScriptLint.Edit

variable {source : Text} {edits : List Edit} {limit : Nat}

/-- The edit puts no line feed in, and with what stands before and after its span on the lines of
the source it makes no more than `limit` characters. -/
structure FitsLine (limit : Nat) (source : Text) (e : Edit) : Prop where
  flat : '\n' ∉ e.replacement
  short : (Text.lastLine (Text.take e.span.start source)).length + e.replacement.length
    + (Text.firstLine (Text.drop e.span.stop source)).length ≤ limit

/-- How many of the edits, in order of place, are reached from the cursor before a line feed of the
source is. -/
def onLine (source : Text) (cursor : Nat) : List Edit → Nat
  | [] => 0
  | e :: rest =>
    if '\n' ∈ Text.slice source ⟨cursor, e.span.start⟩ then 0
    else onLine source e.span.stop rest + 1

/-- The most edits, in order of place, of which each stands on the line where the one before it
ends. -/
def crowding (source : Text) : List Edit → Nat
  | [] => 0
  | e :: rest => max (onLine source e.span.stop rest + 1) (crowding source rest)

/-- A gap before an edit adds no more to its line than the source has there. -/
theorem length_lastLine_gap_le {m n : Nat} (hm : Text.isBoundary source m = true) (h : m ≤ n) :
    (Text.lastLine (Text.slice source ⟨m, n⟩)).length ≤
      (Text.lastLine (Text.take n source)).length := by
  rw [← Text.take_append_slice hm h]
  exact Text.length_lastLine_le_append _ _

/-- What stands in the source before the first line feed after the cursor leaves room for `before`
more characters. Then so many edits make a line of at most so many times the limit. -/
theorem firstLine_splice_le {cursor : Nat} (hcursor : Text.isBoundary source cursor = true)
    (hstart : ∀ e ∈ edits, cursor ≤ e.span.start) (fits : ∀ e ∈ edits, Fits source e)
    (apart : edits.Pairwise fun a b => a.span.stop ≤ b.span.start)
    (hlines : ∀ e ∈ edits, e.FitsLine limit source) (before : Nat)
    (hbefore : before + (Text.firstLine (Text.drop cursor source)).length ≤ limit) :
    before + (Text.firstLine (splice source cursor edits)).length ≤
      limit * (onLine source cursor edits + 1) := by
  induction edits generalizing cursor before with
  | nil => simpa [splice, onLine] using hbefore
  | cons e rest ih =>
    obtain ⟨he, hrest⟩ := List.pairwise_cons.mp apart
    have fit := fits e List.mem_cons_self
    have hline := hlines e List.mem_cons_self
    have hgap := hstart e List.mem_cons_self
    rw [splice, onLine, List.append_assoc]
    by_cases hfeed : '\n' ∈ Text.slice source ⟨cursor, e.span.start⟩
    · rw [Text.firstLine_append_of_mem hfeed, if_pos hfeed]
      rw [← Text.slice_append_drop hcursor hgap, Text.firstLine_append_of_mem hfeed] at hbefore
      simpa using hbefore
    · -- the line goes on through the gap and the replacement
      have hlast := length_lastLine_gap_le hcursor hgap
      rw [Text.lastLine_of_not_mem hfeed] at hlast
      have hnext := ih fit.stop_exact he (fun f hf => fits f (List.mem_cons_of_mem e hf)) hrest
        (fun f hf => hlines f (List.mem_cons_of_mem e hf))
        ((Text.slice source ⟨cursor, e.span.start⟩).length + e.replacement.length)
        (by have := hline.short; omega)
      rw [Text.firstLine_append_of_not_mem hfeed, Text.firstLine_append_of_not_mem hline.flat,
        if_neg hfeed, List.length_append, List.length_append]
      have hmul : limit * (onLine source e.span.stop rest + 1 + 1) =
          limit * (onLine source e.span.stop rest + 1) + limit := Nat.mul_succ _ _
      omega

/-- Lines get no longer than they are, or than the limit for each edit that shares them. -/
theorem linesWithin_splice {n cursor : Nat} (hcursor : Text.isBoundary source cursor = true)
    (hstart : ∀ e ∈ edits, cursor ≤ e.span.start) (fits : ∀ e ∈ edits, Fits source e)
    (apart : edits.Pairwise fun a b => a.span.stop ≤ b.span.start)
    (hlines : ∀ e ∈ edits, e.FitsLine limit source) (hsource : Text.LinesWithin n source)
    (hn : limit * crowding source edits ≤ n) :
    Text.LinesWithin n (splice source cursor edits) := by
  induction edits generalizing cursor with
  | nil =>
    rw [splice]
    rw [← Text.take_append_drop cursor source, Text.linesWithin_append_iff] at hsource
    exact hsource.2.1
  | cons e rest ih =>
    obtain ⟨he, hrest⟩ := List.pairwise_cons.mp apart
    have fit := fits e List.mem_cons_self
    have hline := hlines e List.mem_cons_self
    have hgap := hstart e List.mem_cons_self
    have hfits : ∀ f ∈ rest, Fits source f := fun f hf => fits f (List.mem_cons_of_mem e hf)
    have hshort : ∀ f ∈ rest, f.FitsLine limit source :=
      fun f hf => hlines f (List.mem_cons_of_mem e hf)
    rw [crowding] at hn
    have hshared : limit * (onLine source e.span.stop rest + 1) ≤ n :=
      Nat.le_trans (Nat.mul_le_mul_left _ (Nat.le_max_left _ _)) hn
    have hlater : Text.LinesWithin n (splice source e.span.stop rest) :=
      ih fit.stop_exact he hfits hrest hshort
        (Nat.le_trans (Nat.mul_le_mul_left _ (Nat.le_max_right _ _)) hn)
    -- what the gap leaves on its last line goes on with the replacement and what follows it
    have hlast := length_lastLine_gap_le hcursor hgap
    have hjoin := firstLine_splice_le fit.stop_exact he hfits hrest hshort
      ((Text.lastLine (Text.slice source ⟨cursor, e.span.start⟩)).length + e.replacement.length)
      (by have := hline.short; omega)
    have hparts : Text.take cursor source ++ (Text.slice source ⟨cursor, e.span.start⟩
        ++ Text.drop e.span.start source) = source := by
      rw [Text.slice_append_drop hcursor hgap, Text.take_append_drop]
    rw [← hparts, Text.linesWithin_append_iff, Text.linesWithin_append_iff] at hsource
    rw [splice, List.append_assoc, Text.linesWithin_append_iff, Text.linesWithin_append_iff,
      Text.lastLine_of_not_mem hline.flat, Text.firstLine_append_of_not_mem hline.flat,
      List.length_append]
    refine ⟨hsource.2.1.1, ⟨Text.linesWithin_of_not_mem hline.flat ?_, hlater, ?_⟩, ?_⟩
    all_goals omega

/-- An accepted list of edits that fit the limit. -/
theorem linesWithin_applyAll {n : Nat} {changed : Text} (h : applyAll source edits = .ok changed)
    (hlines : ∀ e ∈ edits, e.FitsLine limit source) (hsource : Text.LinesWithin n source)
    (hn : limit * crowding source (sortBy le edits) ≤ n) : Text.LinesWithin n changed := by
  obtain ⟨fits, hpairs⟩ := exists_applyAll_eq_ok_iff.mp ⟨changed, h⟩
  rw [applyAll_eq_ok h]
  exact linesWithin_splice (Text.isBoundary_zero source) (fun e _ => Nat.zero_le _)
    (by simpa using fits) ((apart_iff_no_overlap fits).mpr hpairs) (by simpa using hlines) hsource hn

end ScriptLint.Edit

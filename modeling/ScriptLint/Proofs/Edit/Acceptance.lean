import ScriptLint.Edit

/-!
Which lists of edits are accepted. The edits are put in order and then only neighbours are compared;
the law is about all pairs of the list as it was given. Among edits that fit the source, standing
apart in the order of application is the same as overlapping nowhere (`Span.overlaps_eq_false_iff`),
and what holds of neighbours carries over to all pairs (`conflict?_eq_none_iff`).
-/
namespace ScriptLint

namespace Span

theorem le_total (s t : Span) : s.le t = true ∨ t.le s = true := by
  simp only [le, Bool.or_eq_true, Bool.and_eq_true, beq_iff_eq, decide_eq_true_eq]
  omega

theorem le_trans (r s t : Span) (hrs : r.le s = true) (hst : s.le t = true) : r.le t = true := by
  simp only [le, Bool.or_eq_true, Bool.and_eq_true, beq_iff_eq, decide_eq_true_eq] at *
  omega

theorem not_overlaps_iff (s t : Span) :
    s.overlaps t = false ↔ ¬(s.start < t.stop ∧ t.start < s.stop) := by
  simp only [overlaps, Bool.and_eq_false_iff, decide_eq_false_iff_not]
  omega

/-- The earlier of two spans that share no byte ends before the later one starts. An empty span at
the start of another one comes before it. -/
theorem overlaps_eq_false_iff {s t : Span} (hle : s.le t = true) (ht : t.start ≤ t.stop) :
    s.overlaps t = false ↔ s.stop ≤ t.start := by
  simp only [le, Bool.or_eq_true, Bool.and_eq_true, beq_iff_eq, decide_eq_true_eq] at hle
  rw [not_overlaps_iff]
  omega

end Span

namespace Edit

variable {source : Text} {edits : List Edit}

/-- The span of the edit is in order, lies in the source and cuts no character. -/
structure Fits (source : Text) (e : Edit) : Prop where
  ordered : e.span.start ≤ e.span.stop
  inBounds : e.span.stop ≤ Text.width source
  start_exact : Text.isBoundary source e.span.start = true
  stop_exact : Text.isBoundary source e.span.stop = true

/-- The first thing that is wrong with an edit which does not fit. -/
inductive Fault (source : Text) (e : Edit) : EditError → Prop
  | inverted (h : e.span.stop < e.span.start) : Fault source e (.inverted e.span)
  | outOfBounds (ordered : e.span.start ≤ e.span.stop) (h : Text.width source < e.span.stop) :
      Fault source e (.outOfBounds e.span (Text.width source))
  | splitsCharacter (ordered : e.span.start ≤ e.span.stop)
      (inBounds : e.span.stop ≤ Text.width source)
      (h : Text.isBoundary source e.span.start = false ∨
        Text.isBoundary source e.span.stop = false) :
      Fault source e (.splitsCharacter e.span)

theorem fault?_eq_none_iff (source : Text) (e : Edit) : fault? source e = none ↔ Fits source e := by
  rw [fault?]
  constructor
  · intro h
    split at h
    · cases h
    · split at h
      · cases h
      · split at h
        · cases h
        · rename_i ordered inBounds exact
          simp only [Bool.not_eq_true', Bool.not_eq_false, Bool.and_eq_true] at exact
          exact ⟨by omega, by omega, exact.1, exact.2⟩
  · rintro ⟨ordered, inBounds, hstart, hstop⟩
    rw [if_neg (by omega), if_neg (by omega), if_neg (by simp [hstart, hstop])]

theorem fault?_eq_some {e : Edit} {error : EditError} (h : fault? source e = some error) :
    Fault source e error := by
  rw [fault?] at h
  split at h
  · cases h
    exact .inverted (by assumption)
  · split at h
    · cases h
      exact .outOfBounds (by omega) (by assumption)
    · split at h
      · rename_i ordered inBounds exact
        cases h
        refine .splitsCharacter (by omega) (by omega) ?_
        simpa [Bool.and_eq_false_iff] using exact
      · cases h

theorem sortBy_le_pairwise (edits : List Edit) :
    (sortBy le edits).Pairwise fun a b => a.le b = true :=
  sortBy_pairwise (fun a b => Span.le_total a.span b.span)
    (fun a b c => Span.le_trans a.span b.span c.span) edits

/-- In the order of application it is enough to look at neighbours: where the first of two ends
before the second starts, it ends before everything that comes later. -/
theorem conflict?_eq_none_iff (fits : ∀ e ∈ edits, Fits source e) :
    conflict? edits = none ↔ edits.Pairwise fun a b => a.span.stop ≤ b.span.start := by
  induction edits with
  | nil => simp [conflict?]
  | cons a rest ih =>
    cases rest with
    | nil => simp [conflict?]
    | cons b rest =>
      have hrest : ∀ e ∈ b :: rest, Fits source e := fun e he => fits e (List.mem_cons_of_mem a he)
      rw [conflict?, List.pairwise_cons]
      by_cases hab : b.span.start < a.span.stop
      · simp only [hab, if_true, reduceCtorEq, false_iff, not_and]
        intro h
        have := h b List.mem_cons_self
        omega
      · rw [if_neg hab, ih hrest]
        refine ⟨fun hp => ⟨?_, hp⟩, fun hp => hp.2⟩
        intro e he
        rcases List.mem_cons.mp he with rfl | he
        · omega
        · have hbe := (List.pairwise_cons.mp hp).1 e he
          have := (hrest b List.mem_cons_self).ordered
          omega

theorem conflict?_eq_some {error : EditError} (h : conflict? edits = some error) :
    ∃ before a b after, edits = before ++ a :: b :: after ∧ b.span.start < a.span.stop ∧
      error = .overlapping a.span b.span := by
  fun_induction conflict? edits with
  | case1 a b rest hab =>
    cases h
    exact ⟨[], a, b, rest, rfl, hab, rfl⟩
  | case2 a b rest hab ih =>
    obtain ⟨before, c, d, after, he, hcd, herror⟩ := ih h
    exact ⟨a :: before, c, d, after, by rw [he]; rfl, hcd, herror⟩
  | case3 => cases h

theorem apart_iff_of_sorted (fits : ∀ e ∈ edits, Fits source e)
    (sorted : edits.Pairwise fun a b => a.le b = true) :
    (edits.Pairwise fun a b => a.span.stop ≤ b.span.start) ↔
      edits.Pairwise fun a b => a.overlaps b = false := by
  induction edits with
  | nil => simp
  | cons a rest ih =>
    obtain ⟨ha, hrest⟩ := List.pairwise_cons.mp sorted
    rw [List.pairwise_cons, List.pairwise_cons,
      ih (fun e he => fits e (List.mem_cons_of_mem a he)) hrest]
    refine and_congr (forall_congr' fun b => forall_congr' fun hb => ?_) Iff.rfl
    have hordered := (fits b (List.mem_cons_of_mem a hb)).ordered
    exact (Span.overlaps_eq_false_iff (ha b hb) hordered).symm

/-- Standing apart in the order of application is overlapping nowhere in the list as given. -/
theorem apart_iff_no_overlap (fits : ∀ e ∈ edits, Fits source e) :
    ((sortBy le edits).Pairwise fun a b => a.span.stop ≤ b.span.start) ↔
      edits.Pairwise fun a b => a.overlaps b = false := by
  have hfits : ∀ e ∈ sortBy le edits, Fits source e := by simpa using fits
  rw [apart_iff_of_sorted hfits (sortBy_le_pairwise edits)]
  refine (sortBy_perm le edits).pairwise_iff (R := fun a b => a.overlaps b = false) ?_
  intro a b h
  rw [overlaps_symm, h]

/-- Two places of a list are still two different places after it is put in another order. -/
theorem exists_positions_of_perm {α : Type} {before after ys : List α} {a b : α}
    (h : (before ++ a :: b :: after).Perm ys) :
    ∃ (i j : Nat) (hi : i < ys.length) (hj : j < ys.length), i ≠ j ∧ ys[i] = a ∧ ys[j] = b := by
  refine Classical.byContradiction fun hno => ?_
  -- "not these two, either way round" is symmetric, so it does not depend on the order
  have hys : ys.Pairwise fun x y => ¬(x = a ∧ y = b) ∧ ¬(x = b ∧ y = a) := by
    refine List.pairwise_iff_getElem.mpr fun i j hi hj hij => ⟨?_, ?_⟩
    · rintro ⟨ha, hb⟩
      exact hno ⟨i, j, hi, hj, by omega, ha, hb⟩
    · rintro ⟨hb, ha⟩
      exact hno ⟨j, i, hj, hi, by omega, ha, hb⟩
  have hxs := (h.pairwise_iff fun h => ⟨fun e => h.2 ⟨e.2, e.1⟩, fun e => h.1 ⟨e.2, e.1⟩⟩).mpr hys
  obtain ⟨_, hab, _⟩ := List.pairwise_append.mp hxs
  exact ((List.pairwise_cons.mp hab).1 b List.mem_cons_self).1 ⟨rfl, rfl⟩

theorem findSome?_fault?_eq_none_iff :
    edits.findSome? (fault? source) = none ↔ ∀ e ∈ edits, Fits source e := by
  simp only [List.findSome?_eq_none_iff, fault?_eq_none_iff]

theorem exists_applyAll_eq_ok_iff :
    (∃ out, applyAll source edits = .ok out) ↔
      (∀ e ∈ edits, Fits source e) ∧ edits.Pairwise fun a b => a.overlaps b = false := by
  rw [applyAll]
  constructor
  · rintro ⟨out, h⟩
    split at h
    · cases h
    · rename_i hfault
      have fits := findSome?_fault?_eq_none_iff.mp hfault
      dsimp only at h
      split at h
      · cases h
      · rename_i hconflict
        have hfits : ∀ e ∈ sortBy le edits, Fits source e := by simpa using fits
        exact ⟨fits, (apart_iff_no_overlap fits).mp ((conflict?_eq_none_iff hfits).mp hconflict)⟩
  · rintro ⟨fits, hpairs⟩
    have hfits : ∀ e ∈ sortBy le edits, Fits source e := by simpa using fits
    have hconflict := (conflict?_eq_none_iff hfits).mpr ((apart_iff_no_overlap fits).mpr hpairs)
    rw [findSome?_fault?_eq_none_iff.mpr fits]
    simp only [hconflict]
    exact ⟨_, rfl⟩

theorem no_overlap_iff_positions :
    (edits.Pairwise fun a b => a.overlaps b = false) ↔
      ∀ (i j : Nat) (hi : i < edits.length) (hj : j < edits.length), i ≠ j →
        edits[i].overlaps edits[j] = false := by
  rw [List.pairwise_iff_getElem]
  constructor
  · intro h i j hi hj hne
    rcases Nat.lt_or_gt_of_ne hne with hlt | hgt
    · exact h i j hi hj hlt
    · rw [overlaps_symm]
      exact h j i hj hi hgt
  · intro h i j hi hj hlt
    exact h i j hi hj (by omega)

/-- The error is that of the first edit which does not fit, whatever comes after it. -/
theorem applyAll_of_first_fault {before after : List Edit} {e : Edit}
    (hbefore : ∀ f ∈ before, Fits source f) (he : ¬ Fits source e) :
    ∃ error, Fault source e error ∧ applyAll source (before ++ e :: after) = .error error := by
  cases hfault : fault? source e with
  | none => exact absurd ((fault?_eq_none_iff source e).mp hfault) he
  | some error =>
    have hfirst : (before ++ e :: after).findSome? (fault? source) = some error := by
      rw [List.findSome?_append, findSome?_fault?_eq_none_iff.mpr hbefore]
      simp [hfault]
    refine ⟨error, fault?_eq_some hfault, ?_⟩
    rw [applyAll, hfirst]

/-- Edits that fit are refused only for two of them that overlap. -/
theorem overlap_of_applyAll_eq_error {error : EditError} (fits : ∀ e ∈ edits, Fits source e)
    (h : applyAll source edits = .error error) :
    ∃ (i j : Nat) (hi : i < edits.length) (hj : j < edits.length), i ≠ j ∧
      edits[i].overlaps edits[j] = true ∧ error = .overlapping edits[i].span edits[j].span := by
  rw [applyAll, findSome?_fault?_eq_none_iff.mpr fits] at h
  dsimp only at h
  split at h
  · rename_i conflict hconflict
    cases h
    obtain ⟨before, a, b, after, hsorted, hmeet, rfl⟩ := conflict?_eq_some hconflict
    have hperm := sortBy_perm le edits
    have hpairs := sortBy_le_pairwise edits
    rw [hsorted] at hperm hpairs
    obtain ⟨_, hab, _⟩ := List.pairwise_append.mp hpairs
    have hle : a.span.le b.span = true := (List.pairwise_cons.mp hab).1 b List.mem_cons_self
    have hb : b ∈ edits := hperm.mem_iff.mp (by simp)
    have hoverlap : a.overlaps b = true := by
      cases ho : a.overlaps b with
      | true => rfl
      | false =>
        have := (Span.overlaps_eq_false_iff hle (fits b hb).ordered).mp ho
        omega
    obtain ⟨i, j, hi, hj, hne, rfl, rfl⟩ := exists_positions_of_perm hperm
    exact ⟨i, j, hi, hj, hne, hoverlap, rfl⟩
  · cases h

/-- Exactly the lists whose edits all fit and overlap nowhere are accepted. Otherwise the error is
that of the first edit which does not fit or, where all fit, names two that overlap. -/
theorem applyAll_accepts_exactly (source : Text) (edits : List Edit) :
    ((∃ out, applyAll source edits = .ok out) ↔
      (∀ e ∈ edits, Fits source e) ∧
        ∀ (i j : Nat) (hi : i < edits.length) (hj : j < edits.length), i ≠ j →
          edits[i].overlaps edits[j] = false) ∧
    (∀ before e after, edits = before ++ e :: after → (∀ f ∈ before, Fits source f) →
      ¬ Fits source e →
      ∃ error, Fault source e error ∧ applyAll source edits = .error error) ∧
    (∀ error, (∀ e ∈ edits, Fits source e) → applyAll source edits = .error error →
      ∃ (i j : Nat) (hi : i < edits.length) (hj : j < edits.length), i ≠ j ∧
        edits[i].overlaps edits[j] = true ∧
        error = .overlapping edits[i].span edits[j].span) := by
  refine ⟨?_, ?_, fun error fits h => overlap_of_applyAll_eq_error fits h⟩
  · rw [exists_applyAll_eq_ok_iff, no_overlap_iff_positions]
  · rintro before e after rfl hbefore he
    exact applyAll_of_first_fault hbefore he

end Edit

end ScriptLint

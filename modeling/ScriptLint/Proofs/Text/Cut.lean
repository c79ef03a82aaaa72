import ScriptLint.Text.Line

/-!
Cuts of a text at byte offsets. A cut at a boundary is exact, so the spans between boundaries can be
put together again: `slice_append_slice` joins two neighbouring spans and `slice_append_drop` joins
a span with all that follows it. The starts and ends of lines are boundaries, and the byte before
the first or after the second is a line feed unless the text begins or ends there. So are the ends of
the indentation that opens a line.
-/
namespace ScriptLint.Text

theorem drop_width_add (as bs : Text) (n : Nat) :
    drop (width as + n) (as ++ bs) = drop n bs := by
  induction as with
  | nil => simp
  | cons c cs ih =>
    have hc : c.utf8Size ≤ c.utf8Size + width cs + n := by omega
    have he : c.utf8Size + width cs + n - c.utf8Size = width cs + n := by omega
    simp [drop, hc, he, ih]

@[simp] theorem take_zero (s : Text) : take 0 s = [] := take_width_append [] s

@[simp] theorem drop_zero (s : Text) : drop 0 s = s := drop_width_append [] s

theorem drop_width (s : Text) : drop (width s) s = [] := by
  simpa using drop_width_append s []

@[simp] theorem isBoundary_zero (s : Text) : isBoundary s 0 = true :=
  (isBoundary_iff s 0).mpr ⟨[], s, rfl, rfl⟩

@[simp] theorem isBoundary_width (s : Text) : isBoundary s (width s) = true :=
  (isBoundary_iff s _).mpr ⟨s, [], by simp, rfl⟩

theorem le_width_of_isBoundary {s : Text} {n : Nat} (h : isBoundary s n = true) :
    n ≤ width s := by
  obtain ⟨as, bs, rfl, rfl⟩ := (isBoundary_iff s n).mp h
  simp

/-- A boundary moves on over characters that follow it. -/
theorem isBoundary_add {s : Text} {n : Nat} {cs ds : Text} (h : isBoundary s n = true)
    (hs : drop n s = cs ++ ds) : isBoundary s (n + width cs) = true := by
  obtain ⟨as, bs, rfl, rfl⟩ := (isBoundary_iff s n).mp h
  rw [drop_width_append] at hs
  exact (isBoundary_iff _ _).mpr ⟨as ++ cs, ds, by simp [hs], by simp⟩

theorem drop_add {s : Text} {n : Nat} {cs ds : Text} (h : isBoundary s n = true)
    (hs : drop n s = cs ++ ds) : drop (n + width cs) s = ds := by
  obtain ⟨as, bs, rfl, rfl⟩ := (isBoundary_iff s n).mp h
  rw [drop_width_append] at hs
  rw [drop_width_add, hs, drop_width_append]

@[simp] theorem slice_self (s : Text) (n : Nat) : slice s ⟨n, n⟩ = [] := by
  simp [slice]

theorem slice_zero (s : Text) (n : Nat) : slice s ⟨0, n⟩ = take n s := by
  simp [slice]

/-- What follows a boundary is any span from there on and what follows the span. -/
theorem slice_append_drop {s : Text} {m n : Nat} (hm : isBoundary s m = true) (h : m ≤ n) :
    slice s ⟨m, n⟩ ++ drop n s = drop m s := by
  obtain ⟨as, bs, rfl, rfl⟩ := (isBoundary_iff s m).mp hm
  obtain ⟨k, rfl⟩ := Nat.exists_eq_add_of_le h
  simp only [slice, drop_width_append, drop_width_add, Nat.add_sub_cancel_left]
  exact take_append_drop k bs

theorem slice_append_slice {s : Text} {l m n : Nat} (hl : isBoundary s l = true)
    (hm : isBoundary s m = true) (hlm : l ≤ m) (hmn : m ≤ n) :
    slice s ⟨l, m⟩ ++ slice s ⟨m, n⟩ = slice s ⟨l, n⟩ := by
  have h : (slice s ⟨l, m⟩ ++ slice s ⟨m, n⟩) ++ drop n s = slice s ⟨l, n⟩ ++ drop n s := by
    rw [List.append_assoc, slice_append_drop hm hmn, slice_append_drop hl hlm,
      slice_append_drop hl (by omega)]
  exact List.append_cancel_right h

/-- What precedes a boundary and any span from there on are what precedes the end of the span. -/
theorem take_append_slice {s : Text} {m n : Nat} (hm : isBoundary s m = true) (h : m ≤ n) :
    take m s ++ slice s ⟨m, n⟩ = take n s := by
  rw [← slice_zero, ← slice_zero]
  exact slice_append_slice (isBoundary_zero s) hm (Nat.zero_le m) h

theorem width_take {s : Text} {n : Nat} (h : isBoundary s n = true) : width (take n s) = n := by
  simpa [isBoundary] using h

theorem width_slice {s : Text} {m n : Nat} (hm : isBoundary s m = true)
    (hn : isBoundary s n = true) (h : m ≤ n) : width (slice s ⟨m, n⟩) = n - m := by
  have hw := congrArg width (take_append_slice hm h)
  rw [width_append, width_take hm, width_take hn] at hw
  omega

/-- The characters that follow an offset are the span of their bytes. -/
theorem slice_of_drop {s : Text} {n : Nat} {cs ds : Text} (hs : drop n s = cs ++ ds) :
    slice s ⟨n, n + width cs⟩ = cs := by
  simp only [slice, Nat.add_sub_cancel_left, hs]
  exact take_width_append cs ds

/-- A text is its last line after what stands before it, which ends in a line feed unless it is
empty. -/
theorem exists_append_lastLine (cs : Text) :
    ∃ as, cs = as ++ lastLine cs ∧ (as = [] ∨ ∃ bs, as = bs ++ ['\n']) := by
  refine ⟨(cs.reverse.dropWhile (· != '\n')).reverse, ?_, ?_⟩
  · rw [lastLine, ← List.reverse_append, List.takeWhile_append_dropWhile, List.reverse_reverse]
  · cases hd : cs.reverse.dropWhile (· != '\n') with
    | nil => exact .inl rfl
    | cons c rest =>
      have hc := List.head?_dropWhile_not (· != '\n') cs.reverse
      simp only [hd, List.head?_cons, bne_eq_false_iff_eq] at hc
      exact .inr ⟨rest.reverse, by simp [hc]⟩

theorem exists_firstLine_append (cs : Text) :
    ∃ rest, cs = firstLine cs ++ rest ∧ (rest = [] ∨ ∃ bs, rest = '\n' :: bs) := by
  refine ⟨cs.dropWhile (· != '\n'), List.takeWhile_append_dropWhile.symm, ?_⟩
  cases hd : cs.dropWhile (· != '\n') with
  | nil => exact .inl rfl
  | cons c rest =>
    have hc := List.head?_dropWhile_not (· != '\n') cs
    simp only [hd, List.head?_cons, bne_eq_false_iff_eq] at hc
    exact .inr ⟨rest, by rw [hc]⟩

/-- The text cut where the line of an offset starts. -/
theorem exists_append_lineStart (s : Text) (offset : Nat) :
    ∃ as bs, s = as ++ bs ∧ width as = lineStart s offset ∧
      (as = [] ∨ ∃ cs, as = cs ++ ['\n']) := by
  obtain ⟨as, hs, has⟩ := exists_append_lastLine (take offset s)
  refine ⟨as, lastLine (take offset s) ++ drop offset s, ?_, ?_, has⟩
  · rw [← List.append_assoc, ← hs, take_append_drop]
  · have hw := congrArg width hs
    rw [width_append] at hw
    simp only [lineStart]
    omega

theorem isBoundary_lineStart (s : Text) (offset : Nat) :
    isBoundary s (lineStart s offset) = true := by
  obtain ⟨as, bs, hs, hw, _⟩ := exists_append_lineStart s offset
  exact (isBoundary_iff _ _).mpr ⟨as, bs, hs, hw⟩

theorem lineStart_le (s : Text) (offset : Nat) : lineStart s offset ≤ offset := by
  have h := width_take_le offset s
  simp only [lineStart]
  omega

/-- From the start of its line to an offset stands the last line of what precedes the offset. -/
theorem slice_lineStart {s : Text} {offset : Nat} (h : isBoundary s offset = true) :
    slice s ⟨lineStart s offset, offset⟩ = lastLine (take offset s) := by
  obtain ⟨as, hs, _⟩ := exists_append_lastLine (take offset s)
  have hw := congrArg width hs
  rw [width_append] at hw
  have hstart : lineStart s offset = width as := by
    simp only [lineStart]
    omega
  have hparts : as ++ (lastLine (take offset s) ++ drop offset s) = s := by
    rw [← List.append_assoc, ← hs, take_append_drop]
  have hdrop : drop (width as) s = lastLine (take offset s) ++ drop offset s := by
    have hcut := drop_width_append as (lastLine (take offset s) ++ drop offset s)
    rwa [hparts] at hcut
  simp only [isBoundary, beq_iff_eq] at h
  have hstop : offset = width as + width (lastLine (take offset s)) := by omega
  rw [hstart]
  exact (congrArg (fun stop => slice s ⟨width as, stop⟩) hstop).trans (slice_of_drop hdrop)

/-- The byte before a line that is not the first is a line feed. -/
theorem lineStart_pred {s : Text} {offset : Nat} (h : 0 < lineStart s offset) :
    isBoundary s (lineStart s offset - 1) = true ∧
      slice s ⟨lineStart s offset - 1, lineStart s offset⟩ = ['\n'] := by
  obtain ⟨as, bs, hs, hw, has⟩ := exists_append_lineStart s offset
  rcases has with rfl | ⟨cs, rfl⟩
  · rw [width_nil] at hw
    omega
  · have hc : '\n'.utf8Size = 1 := rfl
    have hcs : width cs = lineStart s offset - 1 := by
      simp only [width_append, width_cons, width_nil, hc] at hw
      omega
    have hb : isBoundary s (lineStart s offset - 1) = true :=
      (isBoundary_iff _ _).mpr ⟨cs, ['\n'] ++ bs, by simp [hs], hcs⟩
    refine ⟨hb, ?_⟩
    have hd : drop (lineStart s offset - 1) s = ['\n'] ++ bs := by
      rw [← hcs, hs, List.append_assoc]
      exact drop_width_append cs _
    have hsl := slice_of_drop hd
    rwa [show lineStart s offset - 1 + width ['\n'] = lineStart s offset by
      simp only [width_cons, width_nil, hc]; omega] at hsl

theorem feed_not_mem_lastLine (cs : Text) : '\n' ∉ lastLine cs := by
  intro h
  rw [lastLine, List.mem_reverse] at h
  simpa using List.all_eq_true.mp List.all_takeWhile _ h

/-- An offset lies on an earlier line than another one if a line feed stands between them. -/
theorem le_lineStart_iff {s : Text} {m n : Nat} (hm : isBoundary s m = true)
    (hn : isBoundary s n = true) :
    m ≤ lineStart s n ↔ m = lineStart s n ∨ '\n' ∈ slice s ⟨m, n⟩ := by
  have hline := isBoundary_lineStart s n
  have hle := lineStart_le s n
  constructor
  · intro h
    rcases Nat.lt_or_eq_of_le h with hlt | heq
    · have hpos : 0 < lineStart s n := by omega
      obtain ⟨hpred, hfeed⟩ := lineStart_pred hpos
      rw [← slice_append_slice hm hpred (by omega) (by omega),
        ← slice_append_slice hpred hline (by omega) hle, hfeed]
      simp
    · exact .inl heq
  · rintro (heq | hfeed)
    · exact Nat.le_of_eq heq
    · -- were the offset further on, the feed would stand on the line itself
      apply Nat.le_of_not_lt
      intro hlt
      have hmn : m ≤ n := by
        apply Nat.le_of_not_lt
        intro hnm
        simp [slice, Nat.sub_eq_zero_of_le (Nat.le_of_lt hnm)] at hfeed
      apply feed_not_mem_lastLine (take n s)
      rw [← slice_lineStart hn, ← slice_append_slice hline hm (by omega) hmn]
      exact List.mem_append_right _ hfeed

section LineEnd

variable {s : Text} {offset : Nat}

theorem lineEnd_eq (h : isBoundary s offset = true) :
    lineEnd s offset = offset + width (firstLine (drop offset s)) := by
  simp only [isBoundary, beq_iff_eq] at h
  simp only [lineEnd, h]

theorem le_lineEnd (h : isBoundary s offset = true) : offset ≤ lineEnd s offset := by
  rw [lineEnd_eq h]
  omega

theorem isBoundary_lineEnd (h : isBoundary s offset = true) :
    isBoundary s (lineEnd s offset) = true := by
  obtain ⟨rest, hs, _⟩ := exists_firstLine_append (drop offset s)
  rw [lineEnd_eq h]
  exact isBoundary_add h hs

theorem slice_lineEnd (h : isBoundary s offset = true) :
    slice s ⟨offset, lineEnd s offset⟩ = firstLine (drop offset s) := by
  obtain ⟨rest, hs, _⟩ := exists_firstLine_append (drop offset s)
  rw [lineEnd_eq h]
  exact slice_of_drop hs

/-- A line that does not end with the text ends at a line feed. -/
theorem drop_lineEnd (h : isBoundary s offset = true) (hlt : lineEnd s offset < width s) :
    ∃ rest, drop (lineEnd s offset) s = '\n' :: rest := by
  obtain ⟨rest, hs, hrest⟩ := exists_firstLine_append (drop offset s)
  have hd : drop (lineEnd s offset) s = rest := by
    rw [lineEnd_eq h]
    exact drop_add h hs
  rcases hrest with rfl | ⟨more, rfl⟩
  · have hw := slice_append_drop (isBoundary_lineEnd h) (Nat.le_of_lt hlt)
    rw [hd, drop_width, List.append_nil] at hw
    have := width_slice (isBoundary_lineEnd h) (isBoundary_width s) (Nat.le_of_lt hlt)
    rw [hw, width_nil] at this
    omega
  · exact ⟨more, hd⟩

end LineEnd

section Indent

variable {s : Text} {offset : Nat}

/-- From the start of its line to an offset stand the indentation and what follows it. -/
theorem drop_lineStart (s : Text) (offset : Nat) :
    drop (lineStart s offset) s = indentAt s offset ++
      ((slice s ⟨lineStart s offset, offset⟩).dropWhile isIndent ++ drop offset s) := by
  rw [← List.append_assoc, indentAt, List.takeWhile_append_dropWhile]
  exact (slice_append_drop (isBoundary_lineStart s offset) (lineStart_le s offset)).symm

theorem isBoundary_indent (s : Text) (offset : Nat) :
    isBoundary s (lineStart s offset + width (indentAt s offset)) = true :=
  isBoundary_add (isBoundary_lineStart s offset) (drop_lineStart s offset)

theorem indent_le (h : isBoundary s offset = true) :
    lineStart s offset + width (indentAt s offset) ≤ offset := by
  have hline := lineStart_le s offset
  have hparts := congrArg width
    (List.takeWhile_append_dropWhile (p := isIndent) (l := slice s ⟨lineStart s offset, offset⟩))
  rw [width_append, width_slice (isBoundary_lineStart s offset) h hline] at hparts
  rw [indentAt]
  omega

/-- The indentation and what stands between it and an offset are all of the line up to the offset. -/
theorem indentAt_append_slice (h : isBoundary s offset = true) :
    indentAt s offset ++ slice s ⟨lineStart s offset + width (indentAt s offset), offset⟩ =
      slice s ⟨lineStart s offset, offset⟩ := by
  have hindent : slice s ⟨lineStart s offset, lineStart s offset + width (indentAt s offset)⟩ =
      indentAt s offset := slice_of_drop (drop_lineStart s offset)
  rw [← slice_append_slice (isBoundary_lineStart s offset) (isBoundary_indent s offset) (by omega)
    (indent_le h), hindent]

theorem isBoundary_skipIndent (h : isBoundary s offset = true) :
    isBoundary s (skipIndent s offset) = true :=
  isBoundary_add h List.takeWhile_append_dropWhile.symm

end Indent

end ScriptLint.Text

import ScriptLint.Proofs.Text.Cut

/-!
The lines of a text and their lengths. When two texts are put together, the last line of the first and
the first line of the second become one line and all other lines stay (`splitOn_append`). The line of an
offset is the last line of what precedes it with the first line of what follows (`lineAt_eq`).
-/
namespace ScriptLint.Text

/-- No line of the text has more than `n` characters. -/
def LinesWithin (n : Nat) (s : Text) : Prop := ∀ line ∈ s.splitOn '\n', line.length ≤ n

instance (n : Nat) (s : Text) : Decidable (LinesWithin n s) :=
  inferInstanceAs (Decidable (∀ line ∈ s.splitOn '\n', line.length ≤ n))

/-! First and last lines of texts that are put together. -/

theorem firstLine_append_of_not_mem {a : Text} (h : '\n' ∉ a) (b : Text) :
    firstLine (a ++ b) = a ++ firstLine b := by
  refine List.takeWhile_append_of_pos fun c hc => ?_
  simp only [bne_iff_ne]
  rintro rfl
  exact h hc

theorem firstLine_append_of_mem {a : Text} (h : '\n' ∈ a) (b : Text) :
    firstLine (a ++ b) = firstLine a := by
  obtain ⟨front, back, rfl, hfront⟩ := List.eq_append_cons_of_mem h
  rw [List.append_assoc, firstLine_append_of_not_mem hfront, firstLine_append_of_not_mem hfront]
  rfl

theorem lastLine_append_of_not_mem (a : Text) {b : Text} (h : '\n' ∉ b) :
    lastLine (a ++ b) = lastLine a ++ b := by
  have hreverse := firstLine_append_of_not_mem (a := b.reverse) (by simpa using h) a.reverse
  simp only [firstLine] at hreverse
  rw [lastLine, lastLine, List.reverse_append, hreverse, List.reverse_append, List.reverse_reverse]

theorem lastLine_append_of_mem (a : Text) {b : Text} (h : '\n' ∈ b) :
    lastLine (a ++ b) = lastLine b := by
  have hreverse := firstLine_append_of_mem (a := b.reverse) (by simpa using h) a.reverse
  simp only [firstLine] at hreverse
  rw [lastLine, lastLine, List.reverse_append, hreverse]

theorem lastLine_of_not_mem {s : Text} (h : '\n' ∉ s) : lastLine s = s := by
  simpa [lastLine] using lastLine_append_of_not_mem [] h

/-- A text that ends another one adds nothing to its last line but what stands before it. -/
theorem length_lastLine_le_append (a b : Text) :
    (lastLine b).length ≤ (lastLine (a ++ b)).length := by
  by_cases h : '\n' ∈ b
  · exact Nat.le_of_eq (by rw [lastLine_append_of_mem a h])
  · rw [lastLine_append_of_not_mem a h, lastLine_of_not_mem h, List.length_append]
    omega

theorem lastLine_append_feed (a b : Text) : lastLine (a ++ '\n' :: b) = lastLine b := by
  by_cases h : '\n' ∈ b
  · rw [← List.singleton_append, ← List.append_assoc, lastLine_append_of_mem _ h]
  · rw [← List.singleton_append, ← List.append_assoc, lastLine_append_of_not_mem _ h,
      lastLine_of_not_mem h, lastLine_append_of_mem a List.mem_cons_self]
    rfl

/-! All lines. -/

theorem splitOn_feed (s : Text) : ('\n' :: s).splitOn '\n' = [] :: s.splitOn '\n' := by
  simp [List.splitOn, List.splitOnP_cons_eq_if_modifyHead]

theorem splitOn_cons {c : Char} (hc : c ≠ '\n') (s : Text) :
    (c :: s).splitOn '\n' = (s.splitOn '\n').modifyHead (c :: ·) := by
  simp [List.splitOn, List.splitOnP_cons_eq_if_modifyHead, hc]

theorem splitOn_eq_firstLine_cons (s : Text) :
    s.splitOn '\n' = firstLine s :: (s.splitOn '\n').tail := by
  induction s with
  | nil => rfl
  | cons c s ih =>
    by_cases hc : c = '\n'
    · simp [hc, splitOn_feed, firstLine]
    · rw [splitOn_cons hc, ih]
      simp [hc, firstLine]

theorem splitOn_ne_nil (s : Text) : s.splitOn '\n' ≠ [] := by
  rw [splitOn_eq_firstLine_cons]
  simp

/-- A text without a line feed only makes the first line longer. -/
theorem splitOn_append_of_not_mem {a : Text} (h : '\n' ∉ a) (b : Text) :
    (a ++ b).splitOn '\n' = (a ++ firstLine b) :: (b.splitOn '\n').tail := by
  induction a with
  | nil => exact splitOn_eq_firstLine_cons b
  | cons c a ih =>
    obtain ⟨hc, ha⟩ := List.ne_and_not_mem_of_not_mem_cons h
    rw [List.cons_append, splitOn_cons hc.symm, ih ha]
    rfl

theorem splitOn_of_not_mem {s : Text} (h : '\n' ∉ s) : s.splitOn '\n' = [s] := by
  simpa [firstLine] using splitOn_append_of_not_mem h []

theorem splitOn_append_feed {a : Text} (h : '\n' ∉ a) (b : Text) :
    (a ++ '\n' :: b).splitOn '\n' = a :: b.splitOn '\n' := by
  rw [splitOn_append_of_not_mem h, splitOn_feed]
  simp [firstLine]

/-- Two texts together have the lines of both, but for the one in which they meet. -/
theorem splitOn_append (a b : Text) :
    (a ++ b).splitOn '\n' =
      (a.splitOn '\n').dropLast ++ (lastLine a ++ firstLine b) :: (b.splitOn '\n').tail := by
  by_cases h : '\n' ∈ a
  · -- cut the first line off and go on with the rest
    obtain ⟨front, back, ha, hfront⟩ := List.eq_append_cons_of_mem h
    have hback := splitOn_append back b
    rw [ha, List.append_assoc, List.cons_append, splitOn_append_feed hfront,
      splitOn_append_feed hfront, lastLine_append_feed,
      List.dropLast_cons_of_ne_nil (splitOn_ne_nil back), hback, List.cons_append]
  · rw [splitOn_append_of_not_mem h, splitOn_of_not_mem h, lastLine_of_not_mem h]
    rfl
termination_by a.length
decreasing_by
  rw [ha]
  simp only [List.length_append, List.length_cons]
  omega

theorem splitOn_eq_append_lastLine (s : Text) :
    s.splitOn '\n' = (s.splitOn '\n').dropLast ++ [lastLine s] := by
  simpa [firstLine] using splitOn_append s []

/-- The line that holds an offset. -/
def lineAt (s : Text) (offset : Nat) : Text := slice s ⟨lineStart s offset, lineEnd s offset⟩

theorem lineAt_eq {s : Text} {offset : Nat} (h : isBoundary s offset = true) :
    lineAt s offset = lastLine (take offset s) ++ firstLine (drop offset s) := by
  rw [lineAt, ← slice_append_slice (isBoundary_lineStart s offset) h (lineStart_le s offset)
    (le_lineEnd h), slice_lineStart h, slice_lineEnd h]

variable {n : Nat}

theorem LinesWithin.mono {m : Nat} {s : Text} (h : LinesWithin m s) (hmn : m ≤ n) :
    LinesWithin n s :=
  fun line hline => Nat.le_trans (h line hline) hmn

theorem linesWithin_append_iff (a b : Text) :
    LinesWithin n (a ++ b) ↔ LinesWithin n a ∧ LinesWithin n b ∧
      (lastLine a).length + (firstLine b).length ≤ n := by
  have hfront : LinesWithin n a ↔
      (∀ line ∈ (a.splitOn '\n').dropLast, line.length ≤ n) ∧ (lastLine a).length ≤ n := by
    conv => lhs; rw [LinesWithin, splitOn_eq_append_lastLine]
    simp [or_imp, forall_and]
  have hback : LinesWithin n b ↔
      (firstLine b).length ≤ n ∧ ∀ line ∈ (b.splitOn '\n').tail, line.length ≤ n := by
    conv => lhs; rw [LinesWithin, splitOn_eq_firstLine_cons]
    exact List.forall_mem_cons
  rw [hfront, hback, LinesWithin, splitOn_append, List.forall_mem_append, List.forall_mem_cons,
    List.length_append]
  constructor
  · rintro ⟨hbefore, hmeet, hafter⟩
    exact ⟨⟨hbefore, by omega⟩, ⟨by omega, hafter⟩, hmeet⟩
  · rintro ⟨⟨hbefore, _⟩, ⟨_, hafter⟩, hmeet⟩
    exact ⟨hbefore, hmeet, hafter⟩

theorem linesWithin_of_not_mem {s : Text} (h : '\n' ∉ s) (hlength : s.length ≤ n) :
    LinesWithin n s := by
  intro line hline
  rw [splitOn_of_not_mem h, List.mem_singleton] at hline
  rwa [hline]

end ScriptLint.Text

import ScriptLint.Revision.Collapse

/-!
The code of a text: what is left of it without blanks and delimiters. Trimming and joining with
blanks and delimiters do not change it. With its delimiters the text is `visible`.
-/
namespace ScriptLint.Text

/-- The characters that are not blank. -/
def visible (s : Text) : Text := s.filter fun c => !isBlank c

@[simp] theorem visible_append (as bs : Text) : visible (as ++ bs) = visible as ++ visible bs :=
  List.filter_append ..

theorem visible_of_allBlank {s : Text} (h : allBlank s = true) : visible s = [] := by
  simpa [visible, allBlank] using h

/-- The characters that are neither blanks nor commas nor semicolons. -/
def code (s : Text) : Text := s.filter fun c => !(isBlank c || (c == ',' || c == ';'))

@[simp] theorem code_append (as bs : Text) : code (as ++ bs) = code as ++ code bs :=
  List.filter_append ..

theorem code_perm {as bs : Text} (h : as.Perm bs) : (code as).Perm (code bs) := h.filter _

theorem code_eq_nil_iff {s : Text} :
    code s = [] ↔ (s.all fun c => isBlank c || MemberStyle.isDelimiter c) = true := by
  simp only [code, MemberStyle.isDelimiter, List.filter_eq_nil_iff, List.all_eq_true,
    Bool.not_eq_true', Bool.not_eq_false]

theorem code_of_allBlank {s : Text} (h : allBlank s = true) : code s = [] := by
  simp only [allBlank, List.all_eq_true] at h
  rw [code_eq_nil_iff, List.all_eq_true]
  intro c hc
  rw [h c hc, Bool.true_or]

/-- What is dropped at the end of a text is no code if no character that passes is. -/
theorem exists_dropEndWhile_append {p : Char → Bool}
    (hp : ∀ c, p c = true → (isBlank c || MemberStyle.isDelimiter c) = true) (s : Text) :
    ∃ tail, s = dropEndWhile p s ++ tail ∧ code tail = [] := by
  refine ⟨(s.reverse.takeWhile p).reverse, ?_, ?_⟩
  · rw [dropEndWhile, ← List.reverse_append, List.takeWhile_append_dropWhile, List.reverse_reverse]
  · rw [code_eq_nil_iff, List.all_reverse, List.all_eq_true]
    intro c hc
    exact hp c (List.all_eq_true.mp List.all_takeWhile c hc)

theorem code_intercalate {separator : Text} (h : code separator = []) (parts : List Text) :
    code (separator.intercalate parts) = parts.flatMap code := by
  induction parts with
  | nil => rfl
  | cons part rest ih =>
    cases rest with
    | nil => simp [List.intercalate]
    | cons next more =>
      rw [List.intercalate_cons_cons, code_append, code_append, h, List.append_nil, ih]
      rfl

end ScriptLint.Text

import ScriptLint.Proofs.Token.Scan

/-!
Tokens and gaps make up a text. Along a scan it is shown that every byte lies in a token or is a gap
character (`Scan.covers`), that tokens start and end at boundaries of the text (`Scan.exact`), and
that a token is marked by the line feeds in the gap before it (`Scan.newlineBefore_iff`). All that is
asked of the parser is that its reserved spans are not empty and end at boundaries: everything the
lexer reads by itself, unfinished strings and templates included, ends at one.
-/
namespace ScriptLint

/-- The reserved spans are not empty and end at boundaries of the text, or past its end. -/
def Reserved.Clean (source : Text) (reserved : Reserved) : Prop :=
  ∀ start stop kind, reserved start = some (stop, kind) →
    start < stop ∧ (Text.isBoundary source stop = true ∨ Text.width source ≤ stop)

namespace Token

open Text (Cell CleanCut)

variable {source : Text} {reserved : Reserved} {cells : List Cell} {pos stop since : Nat}
  {kind : TokenKind} {newline : Bool} {tokens : List Token}

theorem cleanCut_lexeme {c : Cell} (hcell : cells[pos]? = some c) :
    CleanCut cells (pos + (lexeme c (cells.drop (pos + 1))).2) := by
  obtain ⟨hpos, hget⟩ := List.getElem?_eq_some_iff.mp hcell
  apply CleanCut.of_drop (Nat.le_of_lt hpos)
  rw [List.drop_eq_getElem_cons hpos, hget]
  exact lexeme_cleanCut c _

theorem TokenAt.isBoundary_stop (h : Reserved.Clean source reserved)
    (read : TokenAt reserved (Text.cells source) pos kind stop) :
    Text.isBoundary source stop = true := by
  cases read with
  | @reserved last _ taken hpos =>
    rw [Text.length_cells] at hpos ⊢
    obtain ⟨hlt, hlast⟩ := h pos last kind taken
    rcases hlast with hlast | hlast
    · have hle := Text.le_width_of_isBoundary hlast
      rwa [show min (max last (pos + 1)) (Text.width source) = last by omega]
    · rw [show min (max last (pos + 1)) (Text.width source) = Text.width source by omega]
      exact Text.isBoundary_width source
  | lexeme _ hcell => exact (cleanCut_lexeme hcell).isBoundary

/-- From a boundary on, tokens start and end at boundaries. -/
theorem Scan.exact (h : Reserved.Clean source reserved)
    (scan : Scan reserved (Text.cells source) pos newline tokens)
    (hpos : Text.isBoundary source pos = true) :
    ∀ t ∈ tokens, Text.isBoundary source t.span.start = true ∧
      Text.isBoundary source t.span.stop = true := by
  induction scan with
  | done => exact fun t ht => absurd ht List.not_mem_nil
  | gap _ hcell _ _ ih => exact ih (CleanCut.after hcell).isBoundary
  | token read _ ih =>
    have hstop := read.isBoundary_stop h
    intro t ht
    rcases List.mem_cons.mp ht with rfl | ht
    · exact ⟨hpos, hstop⟩
    · exact ih hstop t ht

/-- Every cell from the position on lies in a token or shows a gap character. -/
theorem Scan.covers (scan : Scan reserved cells pos newline tokens) {i : Nat} (hpos : pos ≤ i)
    (hi : i < cells.length) :
    (∃ t ∈ tokens, t.span.contains i = true) ∨ ∃ c ∈ gapChars, cells[i]? = some (some c) := by
  induction scan with
  | done => omega
  | @gap pos _ _ c _ hcell hc _ ih =>
    rcases Nat.lt_or_eq_of_le hpos with hlt | rfl
    · exact ih hlt
    · exact .inr ⟨c, hc, hcell⟩
  | @token pos stop _ _ _ _ _ ih =>
    rcases Nat.lt_or_ge i stop with hlt | hge
    · refine .inl ⟨_, List.mem_cons_self, ?_⟩
      simp only [Span.contains, Bool.and_eq_true, decide_eq_true_eq]
      exact ⟨hpos, hlt⟩
    · rcases ih hge with ⟨t, ht, hcontains⟩ | hgap
      · exact .inl ⟨t, List.mem_cons_of_mem _ ht, hcontains⟩
      · exact .inr hgap

/-- A line feed stands in the cells from one position to another. -/
def FeedBetween (cells : List Cell) (since pos : Nat) : Prop :=
  ∃ i, since ≤ i ∧ i < pos ∧ cells[i]? = some (some '\n')

theorem not_feedBetween_self (cells : List Cell) (pos : Nat) : ¬ FeedBetween cells pos pos := by
  rintro ⟨i, hle, hlt, _⟩
  omega

theorem feedBetween_succ_iff (hsince : since ≤ pos) :
    FeedBetween cells since (pos + 1) ↔
      FeedBetween cells since pos ∨ cells[pos]? = some (some '\n') := by
  constructor
  · rintro ⟨i, hle, hlt, hcell⟩
    rcases Nat.lt_or_eq_of_le (Nat.le_of_lt_succ hlt) with hi | rfl
    · exact .inl ⟨i, hle, hi, hcell⟩
    · exact .inr hcell
  · rintro (⟨i, hle, hlt, hcell⟩ | hcell)
    · exact ⟨i, hle, Nat.lt_succ_of_lt hlt, hcell⟩
    · exact ⟨pos, hsince, Nat.lt_succ_self pos, hcell⟩

/-- Where the last of the tokens ends, or the given offset if there are none. -/
def lastStop (since : Nat) : List Token → Nat
  | [] => since
  | t :: ts => lastStop t.span.stop ts

/-- A token is marked if there is a line feed between the token before it and itself. The flag of the
scan stands for the line feeds between the last token and the position. -/
theorem Scan.newlineBefore_iff (scan : Scan reserved cells pos newline tokens)
    (hsince : since ≤ pos) (hnewline : newline = true ↔ FeedBetween cells since pos)
    {before after : List Token} {t : Token} (htokens : tokens = before ++ t :: after) :
    t.newlineBefore = true ↔ FeedBetween cells (lastStop since before) t.span.start := by
  induction scan generalizing since before with
  | done => simp at htokens
  | @gap pos newline _ c _ hcell _ _ ih =>
    refine ih (Nat.le_succ_of_le hsince) ?_ htokens
    rw [feedBetween_succ_iff hsince, ← hnewline, hcell, Bool.or_eq_true, beq_iff_eq]
    simp
  | @token pos stop _ _ tokens _ _ ih =>
    cases before with
    | nil =>
      cases htokens
      exact hnewline
    | cons first before =>
      obtain ⟨rfl, hrest⟩ := List.cons_eq_cons.mp htokens
      refine ih (Nat.le_refl stop) ?_ hrest
      simp [not_feedBetween_self]

theorem feedBetween_cells_iff {since pos : Nat} :
    FeedBetween (Text.cells source) since pos ↔
      ∃ i, since ≤ i ∧ i < pos ∧ Text.StandsAt source i '\n' := by
  have hsize : ('\n' : Char).utf8Size = 1 := by decide
  simp only [FeedBetween, Text.cells_getElem?_eq_some_iff, hsize, and_true]

/-- Tokens are not empty, lie in the text, start and end at boundaries and follow on one another
without overlap. A byte that is in no token is a line feed, a space or one of the other gap
characters. A token says that a line feed comes before it exactly if one stands after the token
before it, or after the start of the text, and before the token itself. -/
theorem tokenize_partitions (source : Text) (reserved : Reserved)
    (h : Reserved.Clean source reserved) :
    (∀ t ∈ tokenize source reserved, t.span.start < t.span.stop ∧
      t.span.stop ≤ Text.width source ∧ Text.isBoundary source t.span.start = true ∧
      Text.isBoundary source t.span.stop = true) ∧
    (tokenize source reserved).Pairwise (fun t u => t.span.stop ≤ u.span.start) ∧
    (∀ i, i < Text.width source → (∃ t ∈ tokenize source reserved, t.span.contains i = true) ∨
      ∃ c ∈ ['\n', ' ', '\t', '\r', '\x0b', '\x0c'], Text.StandsAt source i c) ∧
    ∀ before t after, tokenize source reserved = before ++ t :: after →
      (t.newlineBefore = true ↔
        ∃ i, lastStop 0 before ≤ i ∧ i < t.span.start ∧ Text.StandsAt source i '\n') := by
  have scan := tokenize_scan source reserved
  have apart := tokenize_apart source reserved
  refine ⟨?_, apart.pairwise, ?_, ?_⟩
  · intro t ht
    obtain ⟨hstart, hstop⟩ := scan.exact h (Text.isBoundary_zero source) t ht
    exact ⟨(apart.start_lt_stop ht).2, Text.le_width_of_isBoundary hstop, hstart, hstop⟩
  · intro i hi
    rw [← Text.length_cells] at hi
    rcases scan.covers (Nat.zero_le i) hi with htoken | ⟨c, hc, hcell⟩
    · exact .inl htoken
    · exact .inr ⟨c, hc, (Text.cells_getElem?_eq_some_iff.mp hcell).1⟩
  · intro before t after htokens
    rw [← feedBetween_cells_iff]
    refine scan.newlineBefore_iff (Nat.le_refl 0) ?_ htokens
    simp [not_feedBetween_self]

/-- A comment between wide characters, and an unfinished string whose last backslash stands before
one. -/
def wideSample : Text := "é // ü\n '\\ü".toList

def wideReserved : Reserved := fun offset => if offset = 3 then some (8, .lineComment) else none

theorem tokenize_partitions_wideSample :
    Reserved.Clean wideSample wideReserved ∧
      tokenize wideSample wideReserved =
        [⟨.word, ⟨0, 2⟩, false⟩, ⟨.lineComment, ⟨3, 8⟩, false⟩, ⟨.literal, ⟨10, 14⟩, true⟩] ∧
      (∃ i, 8 ≤ i ∧ i < 10 ∧ Text.StandsAt wideSample i '\n') ∧
      Text.isBoundary wideSample 14 = true := by
  have hclean : Reserved.Clean wideSample wideReserved := by
    intro start stop kind hreserved
    simp only [wideReserved] at hreserved
    split at hreserved
    · cases hreserved
      subst_vars
      decide +kernel
    · cases hreserved
  have htokens : tokenize wideSample wideReserved =
      [⟨.word, ⟨0, 2⟩, false⟩, ⟨.lineComment, ⟨3, 8⟩, false⟩, ⟨.literal, ⟨10, 14⟩, true⟩] := by
    decide +kernel
  obtain ⟨hexact, _, _, hnewline⟩ := tokenize_partitions wideSample wideReserved hclean
  rw [htokens] at hexact hnewline
  refine ⟨hclean, htokens, ?_, ?_⟩
  · exact (hnewline [⟨.word, ⟨0, 2⟩, false⟩, ⟨.lineComment, ⟨3, 8⟩, false⟩] _ [] rfl).mp rfl
  · exact (hexact ⟨.literal, ⟨10, 14⟩, true⟩ (by decide)).2.2.2

end Token

end ScriptLint

import ScriptLint.Tree.TokenRange

/-!
Tokens stand one after another. `lex_step` says all that one cell can lead to; from it follows that
the tokens are not empty and do not overlap (`tokenize_apart`) and that a comment starts where the
parser said that one starts (`reserved_of_isComment`). Where a test holds up to some token and of none
after it, bisection finds that place (`partitionPoint_divides`).
-/
namespace ScriptLint

namespace Token

open Text (Cell)

variable {reserved : Reserved} {offset skip : Nat} {newline : Bool} {c : Cell} {rest : List Cell}

/-- A token that starts at an offset, before the tokens of the cells after its first. -/
def emitted (reserved : Reserved) (offset : Nat) (newline : Bool) (rest : List Cell)
    (kind : TokenKind) (length : Nat) : List Token :=
  ⟨kind, ⟨offset, offset + length⟩, newline⟩ :: lex reserved (offset + 1) (length - 1) false rest

/-- What the lexer does at one cell: it is still inside a token, passes over a blank, or puts out a
token, reserved or read off the cells. -/
inductive Step (reserved : Reserved) (offset : Nat) (newline : Bool) (c : Cell)
    (rest : List Cell) : Nat → List Token → Prop
  | inside (skip : Nat) :
      Step reserved offset newline c rest (skip + 1) (lex reserved (offset + 1) skip newline rest)
  | lineFeed (free : reserved offset = none) (hc : c = some '\n') :
      Step reserved offset newline c rest 0 (lex reserved (offset + 1) 0 true rest)
  | blank (free : reserved offset = none) (hne : c ≠ some '\n') (hc : isBlankCell c = true) :
      Step reserved offset newline c rest 0 (lex reserved (offset + 1) 0 newline rest)
  | reserved {stop : Nat} {kind : TokenKind} (taken : reserved offset = some (stop, kind)) :
      Step reserved offset newline c rest 0
        (emitted reserved offset newline rest kind
          (min (max (stop - offset) 1) (rest.length + 1)))
  | lexeme (free : reserved offset = none) (hne : c ≠ some '\n') (hc : isBlankCell c = false) :
      Step reserved offset newline c rest 0
        (emitted reserved offset newline rest (lexeme c rest).1 (lexeme c rest).2)

theorem lex_step (reserved : Reserved) (offset skip : Nat) (newline : Bool) (c : Cell)
    (rest : List Cell) :
    Step reserved offset newline c rest skip (lex reserved offset skip newline (c :: rest)) := by
  cases skip with
  | succ skip => exact .inside skip
  | zero =>
    rw [lex]
    cases hr : reserved offset with
    | some taken => exact .reserved hr
    | none =>
      dsimp only
      split
      · exact .lineFeed hr (by assumption)
      · rename_i hne
        cases hc : isBlankCell c with
        | true => exact .blank hr hne hc
        | false => exact .lexeme hr hne hc

theorem length_pos_of_mem_punctuators : ∀ p ∈ punctuators, 0 < p.length := by decide

theorem lexeme_pos (c : Cell) (rest : List Cell) : 0 < (lexeme c rest).2 := by
  rw [lexeme]
  split
  · simp only
    omega
  · split
    · simp only
      omega
    · split
      · simp only
        omega
      · split
        · rename_i p hp
          exact length_pos_of_mem_punctuators p (List.mem_of_find?_eq_some hp)
        · exact Nat.one_pos

theorem lexeme_kind_ne_comment (c : Cell) (rest : List Cell) :
    (lexeme c rest).1 ≠ .lineComment ∧ (lexeme c rest).1 ≠ .blockComment := by
  rw [lexeme]
  repeat' split
  all_goals simp

/-- From an offset on, tokens that are not empty and of which each starts after the one before it
has ended. -/
def Apart (start : Nat) : List Token → Prop
  | [] => True
  | t :: ts => start ≤ t.span.start ∧ t.span.start < t.span.stop ∧ Apart t.span.stop ts

theorem Apart.mono {ts : List Token} {m n : Nat} (h : Apart n ts) (hmn : m ≤ n) : Apart m ts := by
  cases ts with
  | nil => trivial
  | cons t ts => exact ⟨Nat.le_trans hmn h.1, h.2⟩

theorem Apart.start_lt_stop {ts : List Token} {n : Nat} (h : Apart n ts) {t : Token} (ht : t ∈ ts) :
    n ≤ t.span.start ∧ t.span.start < t.span.stop := by
  induction ts generalizing n with
  | nil => cases ht
  | cons u us ih =>
    obtain ⟨hn, hu, hus⟩ := h
    rcases List.mem_cons.mp ht with rfl | ht
    · exact ⟨hn, hu⟩
    · have := ih hus ht
      omega

theorem Apart.pairwise {ts : List Token} {n : Nat} (h : Apart n ts) :
    ts.Pairwise fun a b => a.span.stop ≤ b.span.start := by
  induction ts generalizing n with
  | nil => exact .nil
  | cons u us ih => exact List.pairwise_cons.mpr ⟨fun t ht => (h.2.2.start_lt_stop ht).1, ih h.2.2⟩

theorem apart_emitted {kind : TokenKind} {length : Nat} (hlength : 0 < length)
    (ih : Apart (offset + 1 + (length - 1)) (lex reserved (offset + 1) (length - 1) false rest)) :
    Apart offset (emitted reserved offset newline rest kind length) := by
  refine ⟨Nat.le_refl _, by simp only; omega, ?_⟩
  have he : offset + 1 + (length - 1) = offset + length := by omega
  rwa [he] at ih

theorem lex_apart (reserved : Reserved) (cells : List Cell) (offset skip : Nat) (newline : Bool) :
    Apart (offset + skip) (lex reserved offset skip newline cells) := by
  induction cells generalizing offset skip newline with
  | nil => rw [lex]; trivial
  | cons c rest ih =>
    have hstep := lex_step reserved offset skip newline c rest
    revert hstep
    generalize lex reserved offset skip newline (c :: rest) = ts
    intro hstep
    cases hstep with
    | inside skip => exact (ih (offset + 1) skip newline).mono (by omega)
    | lineFeed => exact (ih (offset + 1) 0 true).mono (by omega)
    | blank => exact (ih (offset + 1) 0 newline).mono (by omega)
    | reserved => exact apart_emitted (by omega) (ih ..)
    | lexeme => exact apart_emitted (lexeme_pos c rest) (ih ..)

theorem tokenize_apart (source : Text) (reserved : Reserved) :
    Apart 0 (tokenize source reserved) :=
  lex_apart reserved (Text.cells source) 0 0 false

theorem reserved_of_mem_lex {cells : List Cell} {finish : Nat} {t : Token}
    (hfinish : offset + cells.length = finish) (ht : t ∈ lex reserved offset skip newline cells)
    (hc : t.isComment = true) :
    ∃ stop, reserved t.span.start = some (stop, t.kind) ∧
      t.span.stop = min (max stop (t.span.start + 1)) finish := by
  induction cells generalizing offset skip newline with
  | nil => simp [lex] at ht
  | cons c rest ih =>
    rw [List.length_cons] at hfinish
    have hrest : offset + 1 + rest.length = finish := by omega
    have hstep := lex_step reserved offset skip newline c rest
    revert hstep ht
    generalize lex reserved offset skip newline (c :: rest) = ts
    intro ht hstep
    cases hstep with
    | inside => exact ih hrest ht
    | lineFeed => exact ih hrest ht
    | blank => exact ih hrest ht
    | @reserved stop kind taken =>
      rcases List.mem_cons.mp ht with rfl | ht
      · refine ⟨stop, taken, ?_⟩
        simp only
        omega
      · exact ih hrest ht
    | lexeme =>
      rcases List.mem_cons.mp ht with rfl | ht
      · have hkind := lexeme_kind_ne_comment c rest
        simp only [isComment, Bool.or_eq_true, beq_iff_eq] at hc
        rcases hc with hc | hc
        · exact absurd hc hkind.1
        · exact absurd hc hkind.2
      · exact ih hrest ht

/-- Only the parser makes comments. They stop where it says, but take a byte at least and do not go
past the end. -/
theorem reserved_of_isComment {source : Text} {t : Token} (ht : t ∈ tokenize source reserved)
    (hc : t.isComment = true) :
    ∃ stop, reserved t.span.start = some (stop, t.kind) ∧
      t.span.stop = min (max stop (t.span.start + 1)) (Text.width source) :=
  reserved_of_mem_lex (by rw [Nat.zero_add, Text.length_cells]) ht hc

end Token

section Bisection

variable {tokens : Array Token} {test : Token → Bool}

/-- Between a stretch that passes and one that does not, bisection stops where the one ends and the
other begins. -/
theorem bisect_spec
    (mono : ∀ i j : Nat, i ≤ j → tokens[j]?.any test = true → tokens[i]?.any test = true)
    {fuel low high : Nat} (hfuel : high - low ≤ fuel)
    (hlow : ∀ i : Nat, i < low → tokens[i]?.any test = true)
    (hhigh : ∀ i : Nat, high ≤ i → tokens[i]?.any test = false) :
    (∀ i : Nat, i < bisect tokens test fuel low high → tokens[i]?.any test = true) ∧
      ∀ i : Nat, bisect tokens test fuel low high ≤ i → tokens[i]?.any test = false := by
  induction fuel generalizing low high with
  | zero => exact ⟨hlow, fun i hi => hhigh i (by simp only [bisect] at hi; omega)⟩
  | succ fuel ih =>
    rw [bisect]
    by_cases hlt : low < high
    · rw [if_pos hlt]
      dsimp only
      cases hmiddle : tokens[(low + high) / 2]?.any test with
      | true =>
        rw [if_pos rfl]
        exact ih (by omega) (fun i hi => mono i _ (by omega) hmiddle) hhigh
      | false =>
        rw [if_neg Bool.false_ne_true]
        refine ih (by omega) hlow fun i hi => ?_
        cases hpass : tokens[i]?.any test with
        | false => rfl
        | true => rw [mono _ i hi hpass] at hmiddle; cases hmiddle
    · rw [if_neg hlt]
      exact ⟨hlow, fun i hi => hhigh i (by omega)⟩

/-- The test holds of the first `n` and of none after them. -/
structure Divides {α : Type} (test : α → Bool) (n : Nat) (xs : List α) : Prop where
  front : ∀ x ∈ xs.take n, test x = true
  back : ∀ x ∈ xs.drop n, test x = false

/-- Where a test holds of every token before one that passes, its partition point divides the tokens
that pass from the others. -/
theorem partitionPoint_divides
    (h : tokens.toList.Pairwise fun a b => test b = true → test a = true) :
    Divides test (partitionPoint tokens test) tokens.toList := by
  have hat : ∀ (i : Nat) (hi : i < tokens.toList.length),
      tokens[i]?.any test = test tokens.toList[i] := by
    intro i hi
    rw [← Array.getElem?_toList, List.getElem?_eq_getElem hi, Option.any_some]
  have hpast : ∀ i : Nat, tokens.size ≤ i → tokens[i]?.any test = false := by
    intro i hi
    rw [Array.getElem?_eq_none hi, Option.any_none]
  have mono : ∀ i j : Nat, i ≤ j → tokens[j]?.any test = true → tokens[i]?.any test = true := by
    intro i j hij hj
    rcases Nat.lt_or_ge j tokens.size with hsize | hsize
    · rcases Nat.lt_or_eq_of_le hij with hlt | rfl
      · rw [hat j hsize] at hj
        rw [hat i (Nat.lt_trans hlt hsize)]
        exact List.pairwise_iff_getElem.mp h i j (Nat.lt_trans hlt hsize) hsize hlt hj
      · exact hj
    · rw [hpast j hsize] at hj
      cases hj
  have hspec : (∀ i, i < partitionPoint tokens test → tokens[i]?.any test = true) ∧
      ∀ i, partitionPoint tokens test ≤ i → tokens[i]?.any test = false :=
    bisect_spec mono (Nat.sub_le _ _) (by simp) hpast
  constructor
  · intro t ht
    obtain ⟨i, hi, rfl⟩ := List.mem_take_iff_getElem.mp ht
    rw [← hat i (by omega)]
    exact hspec.1 i (by omega)
  · intro t ht
    obtain ⟨i, hi, rfl⟩ := List.mem_drop_iff_getElem.mp ht
    rw [← hat _ (by omega)]
    exact hspec.2 _ (by omega)

end Bisection

end ScriptLint

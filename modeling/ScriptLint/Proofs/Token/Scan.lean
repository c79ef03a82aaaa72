import ScriptLint.Proofs.Text.Cells
import ScriptLint.Proofs.Token.Order

/-!
The lexer token by token. `lex` goes from cell to cell and counts down through a token that is
already out; `Scan` goes from position to position, over one blank or one token at a time, and so
says what the lexer does in the terms in which its results are described. `tokenize_scan` has every
run of the lexer as a scan; what is to be shown of all tokens is then shown by induction on it.
-/
namespace ScriptLint.Token

open Text (Cell CleanCut)

/-! What a single lexeme can be, and where it may end. -/

/-- The ways to read a token off the cells. -/
inductive Lexeme (c : Cell) (rest : List Cell) : TokenKind × Nat → Prop
  | string {quote : Char} (hc : c = some quote) (hquote : quote = '"' ∨ quote = '\'') :
      Lexeme c rest (.literal, 1 + stringLength quote rest)
  | template (hc : c = some '\x60') : Lexeme c rest (.literal, 1 + templateLength [.template 0] rest)
  | word (hc : isWordCell c = true) :
      Lexeme c rest (.word, 1 + (rest.takeWhile isWordCell).length)
  | punctuator {p : String} (known : p ∈ punctuators) (fits : p.toList.map some <+: c :: rest) :
      Lexeme c rest (.punctuator, p.length)
  | single {x : Char} (hc : c = some x) : Lexeme c rest (.punctuator, 1)

theorem lexeme_cases (c : Cell) (rest : List Cell) : Lexeme c rest (lexeme c rest) := by
  rw [lexeme]
  split
  · rename_i hquote
    rcases hquote with rfl | rfl
    · exact .string rfl (.inl rfl)
    · exact .string rfl (.inr rfl)
  · split
    · exact .template (by assumption)
    · split
      · exact .word (by assumption)
      · rename_i hword
        split
        · rename_i p hp
          have hfits := List.find?_some hp
          exact .punctuator (List.mem_of_find?_eq_some hp) (List.isPrefixOf_iff_prefix.mp hfits)
        · cases c with
          | none => exact absurd rfl hword
          | some x => exact .single rfl

/-- A string ends before a line feed, after a quote or with the last cell; a backslash may lead into
a wider character, but the string does not end there. -/
theorem stringLength_cleanCut (quote : Char) (cells : List Cell) :
    CleanCut cells (stringLength quote cells) := by
  fun_induction stringLength quote cells with
  | case1 => exact .finish
  | case2 => exact .before rfl
  | case3 => exact .finish
  | case4 d rest ih =>
    rw [Nat.add_comm]
    exact (ih.cons d).cons _
  | case5 => exact .before rfl
  | case6 => exact .after rfl
  | case7 c d rest _ _ _ ih =>
    rw [Nat.add_comm]
    exact ih.cons c

/-- Only an ASCII character closes the last frame. -/
theorem Frame.step_eq_nil {c : Cell} {frame : Frame} {below : List Frame}
    (h : Frame.step c (frame :: below) = []) : ∃ x, c = some x := by
  cases c with
  | some x => exact ⟨x, rfl⟩
  | none =>
    cases frame with
    | quoted quote => simp [Frame.step] at h
    | template depth => cases depth <;> simp [Frame.step] at h

theorem templateLength_nil (cells : List Cell) : templateLength [] cells = 0 := by
  simp [templateLength]

theorem templateLength_cleanCut {frames : List Frame} (h : frames ≠ []) (cells : List Cell) :
    CleanCut cells (templateLength frames cells) := by
  fun_induction templateLength frames cells with
  | case1 => exact absurd rfl h
  | case2 => exact .finish
  | case3 => exact .finish
  | case4 frame below d rest ih =>
    rw [Nat.add_comm]
    exact ((ih h).cons d).cons _
  | case5 frame below c d rest _ _ ih =>
    rw [Nat.add_comm]
    exact ((ih (List.cons_ne_nil _ _)).cons d).cons c
  | case6 frame below c d rest _ _ ih =>
    rw [Nat.add_comm]
    by_cases hstep : Frame.step c (frame :: below) = []
    · obtain ⟨x, rfl⟩ := Frame.step_eq_nil hstep
      rw [hstep, templateLength_nil]
      exact .after rfl
    · exact (ih hstep).cons c

theorem takeWhile_isWordCell_cleanCut (cells : List Cell) :
    CleanCut cells (cells.takeWhile isWordCell).length := by
  induction cells with
  | nil => exact .finish
  | cons c rest ih =>
    cases hc : isWordCell c with
    | true =>
      rw [List.takeWhile_cons_of_pos hc]
      exact ih.cons c
    | false =>
      rw [List.takeWhile_cons_of_neg (by rw [hc]; exact Bool.false_ne_true)]
      cases c with
      | none => cases hc
      | some x => exact .before rfl

theorem lexeme_cleanCut (c : Cell) (rest : List Cell) : CleanCut (c :: rest) (lexeme c rest).2 := by
  have h := lexeme_cases c rest
  generalize lexeme c rest = read at h
  cases h with
  | string =>
    rw [Nat.add_comm]
    exact (stringLength_cleanCut _ rest).cons c
  | template =>
    rw [Nat.add_comm]
    exact (templateLength_cleanCut (List.cons_ne_nil _ _) rest).cons c
  | word =>
    rw [Nat.add_comm]
    exact (takeWhile_isWordCell_cleanCut rest).cons c
  | @punctuator p known fits =>
    obtain ⟨n, hn⟩ := Nat.exists_eq_succ_of_ne_zero
      (Nat.ne_of_gt (length_pos_of_mem_punctuators p known))
    obtain ⟨after, hcells⟩ := fits
    have hlast : n < p.toList.length := by rw [String.length_toList]; omega
    have hcell : (c :: rest)[n]? = some (some p.toList[n]) := by
      rw [← hcells, List.getElem?_append_left (by rwa [List.length_map]), List.getElem?_map,
        List.getElem?_eq_getElem hlast]
      rfl
    rw [hn]
    exact .after hcell
  | single hc =>
    rw [hc]
    exact .after rfl

/-- The characters that separate tokens and belong to none. -/
def gapChars : List Char := ['\n', ' ', '\t', '\r', '\x0b', '\x0c']

/-- A token of a kind starts at a position and ends at another: it is reserved, and cut off at the
end of the text, or read off the cells. -/
inductive TokenAt (reserved : Reserved) (cells : List Cell) (pos : Nat) : TokenKind → Nat → Prop
  | reserved {stop : Nat} {kind : TokenKind} (taken : reserved pos = some (stop, kind))
      (hpos : pos < cells.length) :
      TokenAt reserved cells pos kind (min (max stop (pos + 1)) cells.length)
  | lexeme {c : Cell} (free : reserved pos = none) (hcell : cells[pos]? = some c) :
      TokenAt reserved cells pos (lexeme c (cells.drop (pos + 1))).1
        (pos + (lexeme c (cells.drop (pos + 1))).2)

/-- What is read from a position on; `newline` says whether a line feed has passed since the last
token. -/
inductive Scan (reserved : Reserved) (cells : List Cell) : Nat → Bool → List Token → Prop
  | done (newline : Bool) : Scan reserved cells cells.length newline []
  | gap {pos : Nat} {newline : Bool} {tokens : List Token} {c : Char} (free : reserved pos = none)
      (hcell : cells[pos]? = some (some c)) (hc : c ∈ gapChars)
      (next : Scan reserved cells (pos + 1) (newline || c == '\n') tokens) :
      Scan reserved cells pos newline tokens
  | token {pos stop : Nat} {kind : TokenKind} {newline : Bool} {tokens : List Token}
      (read : TokenAt reserved cells pos kind stop) (next : Scan reserved cells stop false tokens) :
      Scan reserved cells pos newline (⟨kind, ⟨pos, stop⟩, newline⟩ :: tokens)

theorem mem_gapChars_of_isBlankCell {c : Char} (h : isBlankCell (some c) = true) :
    c ≠ '\n' ∧ c ∈ gapChars := by
  simp only [isBlankCell, Bool.or_eq_true, beq_iff_eq] at h
  rcases h with (((rfl | rfl) | rfl) | rfl) | rfl
  all_goals decide

/-- A run of the lexer, from a cell inside a token that is already out, is a scan from the end of that
token. -/
theorem lex_scan (reserved : Reserved) {cells rest : List Cell} {offset skip pos : Nat}
    (hrest : cells.drop offset = rest) (hpos : offset + skip = pos) (hle : pos ≤ cells.length)
    (newline : Bool) : Scan reserved cells pos newline (lex reserved offset skip newline rest) := by
  induction rest generalizing offset skip pos newline with
  | nil =>
    have hend : pos = cells.length := by
      have := List.drop_eq_nil_iff.mp hrest
      omega
    rw [hend, lex]
    exact .done newline
  | cons c rest ih =>
    have hcell : cells[offset]? = some c := by
      rw [← List.head?_drop, hrest, List.head?_cons]
    have hnext : cells.drop (offset + 1) = rest := by
      rw [← List.tail_drop, hrest, List.tail_cons]
    have hlength : cells.length = offset + 1 + rest.length := by
      have hoffset := (List.getElem?_eq_some_iff.mp hcell).1
      have := congrArg List.length hnext
      rw [List.length_drop] at this
      omega
    have hstep := lex_step reserved offset skip newline c rest
    revert hstep
    generalize lex reserved offset skip newline (c :: rest) = tokens
    intro hstep
    cases hstep with
    | inside skip => exact ih hnext (by omega) hle newline
    | lineFeed free hc =>
      obtain rfl : offset = pos := hpos
      subst hc
      refine .gap free hcell (by decide) ?_
      rw [beq_self_eq_true, Bool.or_true]
      exact ih hnext (Nat.add_zero _) (by omega) true
    | blank free hne hc =>
      obtain rfl : offset = pos := hpos
      cases c with
      | none => cases hc
      | some x =>
        obtain ⟨hx, hgap⟩ := mem_gapChars_of_isBlankCell hc
        refine .gap free hcell hgap ?_
        rw [beq_eq_false_iff_ne.mpr hx, Bool.or_false]
        exact ih hnext (Nat.add_zero _) (by omega) newline
    | @reserved stop kind taken =>
      obtain rfl : offset = pos := hpos
      have hstop : offset + min (max (stop - offset) 1) (rest.length + 1) =
          min (max stop (offset + 1)) cells.length := by omega
      rw [emitted, hstop]
      exact .token (.reserved taken (by omega)) (ih hnext (by omega) (by omega) false)
    | lexeme free =>
      obtain rfl : offset = pos := hpos
      have hlower := lexeme_pos c rest
      have hupper := (lexeme_cleanCut c rest).le_length
      rw [List.length_cons] at hupper
      subst hnext
      exact .token (.lexeme free hcell) (ih rfl (by omega) (by omega) false)

/-- The tokens of a text are those of a scan from its start. -/
theorem tokenize_scan (source : Text) (reserved : Reserved) :
    Scan reserved (Text.cells source) 0 false (tokenize source reserved) :=
  lex_scan reserved List.drop_zero (Nat.add_zero 0) (Nat.zero_le _) false

end ScriptLint.Token

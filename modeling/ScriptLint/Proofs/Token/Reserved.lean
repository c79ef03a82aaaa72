import ScriptLint.Proofs.Token.Partition

/-!
Reserved spans are taken whole, unless a punctuator runs into one of them. The lexer asks for
reserved spans only where a token may start, so a span is found if the token before it ends at its
start or earlier. Words and strings cannot run into a span of a parsed program, but a punctuator of
several characters can: `?.` before the number of `a?.5:1`, or `>=` before a text in markup that
begins with `=`. Where this happens to no span up to the one in question, that span is a token
(`Scan.mem_of_reserved`); where it does, it may not be (`punctuator_splits_number`).
-/
namespace ScriptLint

namespace Reserved

/-- The byte lies in a reserved span. -/
def Covers (reserved : Reserved) (i : Nat) : Prop :=
  ∃ start stop kind, reserved start = some (stop, kind) ∧ start ≤ i ∧ i < stop

/-- What holds of the comments and literals of a parsed program. Their spans are not empty, lie in
the text, start and end at boundaries and do not overlap; quotes stand only inside them, and none of
them begins right after a byte of a word. -/
structure Parsed (source : Text) (reserved : Reserved) : Prop where
  nonempty : ∀ start stop kind, reserved start = some (stop, kind) → start < stop
  exact : ∀ start stop kind, reserved start = some (stop, kind) →
    Text.isBoundary source start = true ∧ Text.isBoundary source stop = true
  disjoint : ∀ start stop kind next stop' kind', reserved start = some (stop, kind) →
    reserved next = some (stop', kind') → start < next → stop ≤ next
  quotes : ∀ i c, (Text.cells source)[i]? = some (some c) → c ∈ ['"', '\'', '\x60'] →
    reserved.Covers i
  words : ∀ i cell, (reserved (i + 1)).isSome = true → (Text.cells source)[i]? = some cell →
    Token.isWordCell cell = true → reserved.Covers i

/-- A punctuator of several characters stands across the start of a span: it begins before the span,
on bytes that are not reserved, and ends inside. -/
def Straddled (source : Text) (reserved : Reserved) (start : Nat) : Prop :=
  ∃ p ∈ Token.punctuators, ∃ first, first < start ∧ start < first + p.length ∧
    p.toList.map some <+: (Text.cells source).drop first ∧
    ∀ i, first ≤ i → i < start → ¬ reserved.Covers i

/-- No reserved span reaches over the position. -/
def Outside (reserved : Reserved) (pos : Nat) : Prop :=
  ∀ start stop kind, reserved start = some (stop, kind) → start < pos → stop ≤ pos

variable {source : Text} {reserved : Reserved} {pos next i : Nat}

/-- Going on over bytes where no span starts leads into none. -/
theorem Outside.after_free (h : reserved.Outside pos) (hle : pos ≤ next)
    (free : ∀ s, pos ≤ s → s < next → reserved s = none) : reserved.Outside next := by
  intro start stop kind hspan hstart
  rcases Nat.lt_or_ge start pos with hlt | hge
  · exact Nat.le_trans (h start stop kind hspan hlt) hle
  · rw [free start hge hstart] at hspan
    cases hspan

theorem Outside.not_covers (h : reserved.Outside pos) (hi : pos ≤ i)
    (free : ∀ s, pos ≤ s → s ≤ i → reserved s = none) : ¬ reserved.Covers i := by
  rintro ⟨start, stop, kind, hspan, hstart, hstop⟩
  rcases Nat.lt_or_eq_of_le hstart with hlt | rfl
  · have hafter := h.after_free hi (fun s hs his => free s hs (Nat.le_of_lt his))
    have := hafter start stop kind hspan hlt
    omega
  · rw [free start hi (Nat.le_refl start)] at hspan
    cases hspan

/-- Going on over a span leads into none. -/
theorem Parsed.outside_stop {stop : Nat} {kind : TokenKind} (h : reserved.Parsed source)
    (outside : reserved.Outside pos) (taken : reserved pos = some (stop, kind)) :
    reserved.Outside stop := by
  have hpos := h.nonempty pos stop kind taken
  intro start last kind' hspan hstart
  rcases Nat.lt_trichotomy start pos with hlt | rfl | hgt
  · exact Nat.le_trans (outside start last kind' hspan hlt) (Nat.le_of_lt hpos)
  · rw [taken] at hspan
    cases hspan
    exact Nat.le_refl stop
  · have := h.disjoint _ _ _ _ _ _ taken hspan hgt
    omega

theorem Parsed.le_length {start stop : Nat} {kind : TokenKind} (h : reserved.Parsed source)
    (hspan : reserved start = some (stop, kind)) : stop ≤ (Text.cells source).length := by
  rw [Text.length_cells]
  exact Text.le_width_of_isBoundary (h.exact start stop kind hspan).2

end Reserved

namespace Token

open Text (Cell)

variable {source : Text} {reserved : Reserved} {pos start stop : Nat} {kind : TokenKind}
  {newline : Bool} {tokens : List Token}

theorem isWordCell_of_lt_takeWhile {cells : List Cell} {i : Nat}
    (hi : i < (cells.takeWhile isWordCell).length) :
    ∃ cell, cells[i]? = some cell ∧ isWordCell cell = true := by
  have hfits := List.prefix_iff_getElem?.mp (List.takeWhile_prefix (l := cells) isWordCell)
  exact ⟨_, hfits i hi, List.all_eq_true.mp List.all_takeWhile _ (List.getElem_mem hi)⟩

/-- Up to a span before which no span is straddled, what the lexer reads by itself runs into no
reserved span. -/
theorem lexeme_runs_into_none (h : reserved.Parsed source)
    (clear : ∀ s, s ≤ start → (reserved s).isSome = true → ¬ reserved.Straddled source s)
    (outside : reserved.Outside pos) (free : reserved pos = none) {c : Cell}
    (hcell : (Text.cells source)[pos]? = some c) (s : Nat) (hpos : pos ≤ s)
    (hs : s < pos + (lexeme c ((Text.cells source).drop (pos + 1))).2) (hle : s ≤ start) :
    reserved s = none := by
  induction s using Nat.strongRecOn with
  | ind s ih =>
    rcases Nat.eq_or_lt_of_le hpos with rfl | hlt
    · exact free
    -- Between the position and the first span that is run into, no byte is reserved.
    have hfree : ∀ i, pos ≤ i → i < s → ¬ reserved.Covers i := by
      intro i hi his
      refine outside.not_covers hi (fun r hr hri => ?_)
      exact ih r (by omega) hr (by omega) (by omega)
    rw [← Option.not_isSome_iff_eq_none]
    intro hsome
    have hread := lexeme_cases c ((Text.cells source).drop (pos + 1))
    revert hs
    generalize lexeme c ((Text.cells source).drop (pos + 1)) = read at hread
    intro hs
    cases hread with
    | @string quote hc hquote =>
      subst hc
      have hmem : quote ∈ ['"', '\'', '\x60'] := by rcases hquote with rfl | rfl <;> decide
      exact hfree pos (Nat.le_refl pos) hlt (h.quotes pos quote hcell hmem)
    | template hc =>
      subst hc
      exact hfree pos (Nat.le_refl pos) hlt (h.quotes pos _ hcell (by decide))
    | word hc =>
      obtain ⟨i, rfl⟩ := Nat.exists_eq_add_of_lt hlt
      have hword : ∃ cell, (Text.cells source)[pos + i]? = some cell ∧ isWordCell cell = true := by
        cases i with
        | zero => exact ⟨c, hcell, hc⟩
        | succ i =>
          have hi : i < (((Text.cells source).drop (pos + 1)).takeWhile isWordCell).length := by
            simp only at hs
            omega
          obtain ⟨cell, hget, hword⟩ := isWordCell_of_lt_takeWhile hi
          rw [List.getElem?_drop, show pos + 1 + i = pos + (i + 1) by omega] at hget
          exact ⟨cell, hget, hword⟩
      obtain ⟨cell, hget, hword⟩ := hword
      exact hfree (pos + i) (by omega) (by omega) (h.words (pos + i) cell hsome hget hword)
    | @punctuator p known fits =>
      obtain ⟨hlength, hget⟩ := List.getElem?_eq_some_iff.mp hcell
      rw [← hget, ← List.drop_eq_getElem_cons hlength] at fits
      exact clear s hle hsome ⟨p, known, pos, hlt, hs, fits, hfree⟩
    | single hc =>
      simp only at hs
      omega

/-- The scan comes to every span up to which none is straddled, and takes it whole. -/
theorem Scan.mem_of_reserved (h : reserved.Parsed source)
    (clear : ∀ s, s ≤ start → (reserved s).isSome = true → ¬ reserved.Straddled source s)
    (hspan : reserved start = some (stop, kind))
    (scan : Scan reserved (Text.cells source) pos newline tokens) (outside : reserved.Outside pos)
    (hpos : pos ≤ start) : ∃ newline, ⟨kind, ⟨start, stop⟩, newline⟩ ∈ tokens := by
  induction scan with
  | done =>
    have hstart := h.nonempty start stop kind hspan
    have hstop := h.le_length hspan
    omega
  | @gap pos _ _ _ free _ _ _ ih =>
    have hne : pos ≠ start := by
      rintro rfl
      rw [free] at hspan
      cases hspan
    refine ih (outside.after_free (Nat.le_succ pos) fun s hs hlt => ?_) (by omega)
    rwa [show s = pos by omega]
  | @token pos _ _ newline _ read _ ih =>
    cases read with
    | @reserved last _ taken hlength =>
      have hfirst := h.nonempty pos last _ taken
      have hlast := h.le_length taken
      rw [show min (max last (pos + 1)) (Text.cells source).length = last by omega] at ih ⊢
      rcases Nat.lt_or_eq_of_le hpos with hlt | rfl
      · have hnext := h.disjoint _ _ _ _ _ _ taken hspan hlt
        obtain ⟨newline, hmem⟩ := ih (h.outside_stop outside taken) hnext
        exact ⟨newline, List.mem_cons_of_mem _ hmem⟩
      · rw [taken] at hspan
        cases hspan
        exact ⟨newline, List.mem_cons_self⟩
    | @lexeme c free hcell =>
      have hnone := lexeme_runs_into_none h clear outside free hcell
      have hnext : pos + (lexeme c ((Text.cells source).drop (pos + 1))).2 ≤ start := by
        refine Nat.le_of_not_lt fun hlt => ?_
        rw [hnone start hpos hlt (Nat.le_refl start)] at hspan
        cases hspan
      have hafter := outside.after_free (Nat.le_add_right pos _)
        (fun s hs hlt => hnone s hs hlt (by omega))
      obtain ⟨newline, hmem⟩ := ih hafter hnext
      exact ⟨newline, List.mem_cons_of_mem _ hmem⟩

/-- Among tokens that stand apart, one of them is the only one to overlap its span. -/
theorem Apart.filter_overlaps {t : Token} (h : Apart pos tokens) (ht : t ∈ tokens) :
    tokens.filter (fun u => u.span.overlaps t.span) = [t] := by
  obtain ⟨before, after, rfl⟩ := List.append_of_mem ht
  obtain ⟨_, hafter, hbefore⟩ := List.pairwise_append.mp h.pairwise
  have hself : t.span.overlaps t.span = true := by
    simp [Span.overlaps, (h.start_lt_stop ht).2]
  have hleft : before.filter (fun u => u.span.overlaps t.span) = [] := by
    refine List.filter_eq_nil_iff.mpr fun u hu => ?_
    have := hbefore u hu t List.mem_cons_self
    simp [Span.overlaps]
    omega
  have hright : after.filter (fun u => u.span.overlaps t.span) = [] := by
    refine List.filter_eq_nil_iff.mpr fun u hu => ?_
    have := (List.pairwise_cons.mp hafter).1 u hu
    simp [Span.overlaps]
    omega
  rw [List.filter_append, List.filter_cons, if_pos hself, hleft, hright, List.nil_append]

/-- The characters with which a punctuator goes on after its first. -/
def innerChars : List Char := ['.', '=', '*', '<', '&', '|', '?', '>', '+', '-']

theorem mem_innerChars_of_punctuator {p : String} (hp : p ∈ punctuators) {i : Nat}
    (hi : i + 1 < p.toList.length) : p.toList[i + 1] ∈ innerChars := by
  have hall : punctuators.all (fun p => p.toList.tail.all (innerChars.contains ·)) = true := by
    decide
  have hlength : i < p.toList.tail.length := by
    rw [List.length_tail]
    omega
  have hinner := List.all_eq_true.mp (List.all_eq_true.mp hall p hp) _ (List.getElem_mem hlength)
  rw [List.getElem_tail] at hinner
  exact List.contains_iff_mem.mp hinner

/-- A straddled span begins with one of these. -/
theorem exists_innerChar_of_straddled (h : reserved.Straddled source start) :
    ∃ c ∈ innerChars, Text.StandsAt source start c := by
  obtain ⟨p, hp, first, hfirst, hlast, fits, _⟩ := h
  obtain ⟨i, rfl⟩ := Nat.exists_eq_add_of_lt hfirst
  have hi : i + 1 < p.toList.length := by
    rw [String.length_toList]
    omega
  refine ⟨p.toList[i + 1], mem_innerChars_of_punctuator hp hi, ?_⟩
  have hcell := List.prefix_iff_getElem?.mp fits (i + 1) (by rwa [List.length_map])
  rw [List.getElem?_drop, List.getElem_map] at hcell
  exact (Text.cells_getElem?_eq_some_iff.mp hcell).1

/-- A reserved span is one token of the text, the only one there, if no punctuator stands across the
start of it or of an earlier one. That can only be where the span begins with a character that some
punctuator goes on with: comments, strings, templates and regular expressions never do, and numbers
only if they begin with a point. -/
theorem reserved_span_is_token (h : reserved.Parsed source) :
    (∀ start stop kind, reserved start = some (stop, kind) →
      (∀ s, s ≤ start → (reserved s).isSome = true → ¬ reserved.Straddled source s) →
      ∃ newline, (tokenize source reserved).filter (fun t => t.span.overlaps ⟨start, stop⟩) =
        [⟨kind, ⟨start, stop⟩, newline⟩]) ∧
    ∀ start, reserved.Straddled source start →
      ∃ c ∈ ['.', '=', '*', '<', '&', '|', '?', '>', '+', '-'], Text.StandsAt source start c := by
  refine ⟨?_, fun start hstart => exists_innerChar_of_straddled hstart⟩
  intro start stop kind hspan clear
  have outside : reserved.Outside 0 := fun _ _ _ _ hlt => absurd hlt (Nat.not_lt_zero _)
  obtain ⟨newline, hmem⟩ :=
    (tokenize_scan source reserved).mem_of_reserved h clear hspan outside (Nat.zero_le start)
  exact ⟨newline, (tokenize_apart source reserved).filter_overlaps hmem⟩

/-! Reserved spans given one by one, for which all this can be tried out. -/

/-- The spans of a list, with the kinds of their tokens. -/
def reservedAt (spans : List (Nat × Nat × TokenKind)) : Reserved := fun start => spans.lookup start

theorem mem_of_reservedAt {spans : List (Nat × Nat × TokenKind)}
    (h : reservedAt spans start = some (stop, kind)) : (start, stop, kind) ∈ spans := by
  obtain ⟨before, after, rfl, _⟩ := List.lookup_eq_some_iff.mp h
  exact List.mem_append_right before List.mem_cons_self

theorem parsed_reservedAt {spans : List (Nat × Nat × TokenKind)}
    (hspans : ∀ s ∈ spans, s.1 < s.2.1 ∧ Text.isBoundary source s.1 = true ∧
      Text.isBoundary source s.2.1 = true ∧ ∀ t ∈ spans, s.1 < t.1 → s.2.1 ≤ t.1)
    (hcells : ∀ i, i < (Text.cells source).length →
      (∃ s ∈ spans, spans.lookup s.1 = some s.2 ∧ s.1 ≤ i ∧ i < s.2.1) ∨
      (Text.cells source)[i]? ∉ ['"', '\'', '\x60'].map (some ∘ some) ∧
        ((Text.cells source)[i]?.any isWordCell = false ∨ spans.lookup (i + 1) = none)) :
    (reservedAt spans).Parsed source := by
  have hcovers : ∀ i, (∃ s ∈ spans, spans.lookup s.1 = some s.2 ∧ s.1 ≤ i ∧ i < s.2.1) →
      (reservedAt spans).Covers i := by
    rintro i ⟨s, _, hspan, hstart, hstop⟩
    exact ⟨s.1, s.2.1, s.2.2, hspan, hstart, hstop⟩
  constructor
  · intro start stop kind hspan
    exact (hspans _ (mem_of_reservedAt hspan)).1
  · intro start stop kind hspan
    obtain ⟨_, hstart, hstop, _⟩ := hspans _ (mem_of_reservedAt hspan)
    exact ⟨hstart, hstop⟩
  · intro start stop kind next stop' kind' hspan hnext
    exact (hspans _ (mem_of_reservedAt hspan)).2.2.2 _ (mem_of_reservedAt hnext)
  · intro i c hcell hc
    rcases hcells i (List.getElem?_eq_some_iff.mp hcell).1 with hin | ⟨hquote, _⟩
    · exact hcovers i hin
    · exact absurd (by rw [hcell]; exact List.mem_map_of_mem (f := some ∘ some) hc) hquote
  · intro i cell hnext hcell hword
    rcases hcells i (List.getElem?_eq_some_iff.mp hcell).1 with hin | ⟨_, hfree | hfree⟩
    · exact hcovers i hin
    · rw [hcell, Option.any_some, hword] at hfree
      cases hfree
    · rw [show reservedAt spans (i + 1) = none from hfree] at hnext
      cases hnext

/-- A regular expression with a quote in it, a number and a comment, with nothing in between but
punctuators. -/
def tightSample : Text := "x=/'/+.5//'".toList

def tightReserved : Reserved :=
  reservedAt [(2, 5, .literal), (6, 8, .literal), (8, 11, .lineComment)]

theorem reserved_span_is_token_tightSample :
    tightReserved.Parsed tightSample ∧ tightReserved 8 = some (11, .lineComment) ∧
      (∀ s, s ≤ 8 → (tightReserved s).isSome = true → ¬ tightReserved.Straddled tightSample s) ∧
      ∃ newline,
        (tokenize tightSample tightReserved).filter (fun t => t.span.overlaps ⟨8, 11⟩) =
          [⟨.lineComment, ⟨8, 11⟩, newline⟩] := by
  have hparsed : tightReserved.Parsed tightSample :=
    parsed_reservedAt (by decide +kernel) (by decide +kernel)
  have hspan : tightReserved 8 = some (11, .lineComment) := rfl
  have hclear : ∀ s, s ≤ 8 → (tightReserved s).isSome = true →
      ¬ tightReserved.Straddled tightSample s := by
    have hnone : ∀ s, s < 9 → (tightReserved s).isSome = true → ∀ p ∈ punctuators,
        ∀ first, first < s → s < first + p.length →
          (p.toList.map some).isPrefixOf ((Text.cells tightSample).drop first) = false := by
      decide +kernel
    rintro s hs hsome ⟨p, hp, first, hfirst, hlast, fits, _⟩
    have hfits := List.isPrefixOf_iff_prefix.mpr fits
    rw [hnone s (Nat.lt_succ_of_le hs) hsome p hp first hfirst hlast] at hfits
    cases hfits
  exact ⟨hparsed, hspan, hclear,
    (reserved_span_is_token hparsed).1 8 11 .lineComment hspan hclear⟩

/-- A choice between two numbers, with the point of the first right after the question mark. -/
def pointSample : Text := "a?.5:1".toList

def pointReserved : Reserved := reservedAt [(2, 4, .literal), (5, 6, .literal)]

/-- The punctuator `?.` takes the point away from the number, and the digit after it is read as a
word. -/
theorem punctuator_splits_number :
    pointReserved.Parsed pointSample ∧ pointReserved 2 = some (4, .literal) ∧
      (tokenize pointSample pointReserved).filter (fun t => t.span.overlaps ⟨2, 4⟩) =
        [⟨.punctuator, ⟨1, 3⟩, false⟩, ⟨.word, ⟨3, 4⟩, false⟩] :=
  ⟨parsed_reservedAt (by decide +kernel) (by decide +kernel), rfl, by decide +kernel⟩

end Token

end ScriptLint

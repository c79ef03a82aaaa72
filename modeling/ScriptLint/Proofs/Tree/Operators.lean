import ScriptLint.Proofs.Token.Ranges
import ScriptLint.Proofs.Token.Spread
import ScriptLint.Tree.Attribute

/-!
The operator of an expression with two operands. It is cut out of the text between them: blanks and
parentheses go from both ends (`Text.strips_operatorText`), and the rest stays as it is written. So the
operator is what the tokens between the operands spell exactly if no comment is among them and they
follow one another directly; how much blank space is around them does not matter.
-/
namespace ScriptLint

namespace Text

/-- A blank or a parenthesis, as they are taken off the ends of an operator. -/
def isEdge (c : Char) : Bool := isBlank c || c == '(' || c == ')'

/-- The text begins and ends with a character that stays. -/
def isBare (s : Text) : Bool := s.head?.any (!isEdge ·) && s.getLast?.any (!isEdge ·)

/-- The second text is the first without some blanks and parentheses at its ends. -/
def Strips (s t : Text) : Prop :=
  ∃ before after, s = before ++ t ++ after ∧ (∀ c ∈ before, isEdge c = true) ∧
    ∀ c ∈ after, isEdge c = true

/-- What is left of the text between two operands. -/
def operatorText (between : Text) : Text :=
  trim (dropEndWhile (· == '(') ((trim between).dropWhile (· == ')')))

section Strips

variable {p : Char → Bool} (hp : ∀ c, p c = true → isEdge c = true) {s t u : Text}

theorem Strips.trans (hst : Strips s t) (htu : Strips t u) : Strips s u := by
  obtain ⟨a, b, rfl, ha, hb⟩ := hst
  obtain ⟨c, d, rfl, hc, hd⟩ := htu
  refine ⟨a ++ c, d ++ b, by simp, ?_, ?_⟩
  · simpa [or_imp, forall_and] using ⟨ha, hc⟩
  · simpa [or_imp, forall_and] using ⟨hd, hb⟩

/-- Characters that never stand at an edge are the same in both texts. -/
theorem Strips.filter_eq (h : Strips s t) : s.filter (!isEdge ·) = t.filter (!isEdge ·) := by
  obtain ⟨before, after, rfl, hbefore, hafter⟩ := h
  have hnone : ∀ {piece : Text}, (∀ c ∈ piece, isEdge c = true) → piece.filter (!isEdge ·) = [] := by
    intro piece hpiece
    simpa [List.filter_eq_nil_iff] using hpiece
  simp [hnone hbefore, hnone hafter]

include hp

theorem strips_dropWhile (s : Text) : Strips s (s.dropWhile p) := by
  refine ⟨s.takeWhile p, [], by simp, ?_, by simp⟩
  intro c hc
  exact hp c (List.all_eq_true.mp List.all_takeWhile c hc)

theorem strips_dropEndWhile (s : Text) : Strips s (dropEndWhile p s) := by
  refine ⟨[], (s.reverse.takeWhile p).reverse, ?_, by simp, ?_⟩
  · rw [dropEndWhile, List.nil_append, ← List.reverse_append, List.takeWhile_append_dropWhile,
      List.reverse_reverse]
  · intro c hc
    exact hp c (List.all_eq_true.mp List.all_takeWhile c (List.mem_reverse.mp hc))

theorem dropWhile_append_of_isBare {pre : Text} (hpre : ∀ c ∈ pre, p c = true)
    (hs : isBare s = true) (post : Text) : (pre ++ (s ++ post)).dropWhile p = s ++ post := by
  rw [List.dropWhile_append_of_pos hpre]
  cases s with
  | nil => cases hs
  | cons c rest =>
    have hc : isEdge c = false := by
      simp only [isBare, List.head?_cons, Option.any_some, Bool.and_eq_true] at hs
      simpa using hs.1
    have hno : ¬ p c = true := fun hpc => by simp [hp c hpc] at hc
    rw [List.cons_append, List.dropWhile_cons_of_neg hno]

theorem dropEndWhile_append_of_isBare {post : Text} (hpost : ∀ c ∈ post, p c = true)
    (hs : isBare s = true) : dropEndWhile p (s ++ post) = s := by
  have hreverse : isBare s.reverse = true := by
    simpa [isBare, Bool.and_comm] using hs
  have hpre : ∀ c ∈ post.reverse, p c = true := by
    simpa using hpost
  have hdrop := dropWhile_append_of_isBare hp hpre hreverse []
  rw [List.append_nil] at hdrop
  rw [dropEndWhile, List.reverse_append, hdrop, List.reverse_reverse]

end Strips

variable {s : Text}

theorem isEdge_of_isBlank (c : Char) (h : isBlank c = true) : isEdge c = true := by
  simp [isEdge, h]

theorem isEdge_of_opening (c : Char) (h : (c == '(') = true) : isEdge c = true := by
  simp [isEdge, h]

theorem isEdge_of_closing (c : Char) (h : (c == ')') = true) : isEdge c = true := by
  simp [isEdge, h]

theorem strips_trim (s : Text) : Strips s (trim s) :=
  (strips_dropWhile isEdge_of_isBlank s).trans (strips_dropEndWhile isEdge_of_isBlank _)

theorem strips_operatorText (between : Text) : Strips between (operatorText between) :=
  ((strips_trim between).trans (strips_dropWhile isEdge_of_closing _)).trans
    ((strips_dropEndWhile isEdge_of_opening _).trans (strips_trim _))

theorem trim_of_isBare {before after : Text} (hbefore : allBlank before = true)
    (hs : isBare s = true) (hafter : allBlank after = true) : trim (before ++ (s ++ after)) = s := by
  rw [allBlank, List.all_eq_true] at hbefore hafter
  rw [trim, trimStart, dropWhile_append_of_isBare isEdge_of_isBlank hbefore hs, trimEnd,
    dropEndWhile_append_of_isBare isEdge_of_isBlank hafter hs]

/-- Blanks around an operator do not change it. -/
theorem operatorText_of_isBare {before after : Text} (hbefore : allBlank before = true)
    (hs : isBare s = true) (hafter : allBlank after = true) :
    operatorText (before ++ (s ++ after)) = s := by
  have hnone : ∀ {p : Char → Bool}, ∀ c ∈ ([] : Text), p c = true := by simp
  have hclosing := dropWhile_append_of_isBare isEdge_of_closing hnone hs []
  have hopening := dropEndWhile_append_of_isBare isEdge_of_opening hnone hs
  have hempty : allBlank [] = true := rfl
  have htrim := trim_of_isBare hempty hs hempty
  simp only [List.nil_append, List.append_nil] at hclosing hopening htrim
  rw [operatorText, trim_of_isBare hbefore hs hafter, hclosing, hopening, htrim]

theorem isBare_append {first last : Text} (hfirst : isBare first = true) (middle : Text)
    (hlast : isBare last = true) : isBare (first ++ (middle ++ last)) = true := by
  simp only [isBare, Bool.and_eq_true, Option.any_eq_true] at hfirst hlast ⊢
  obtain ⟨⟨c, hc, hstart⟩, _⟩ := hfirst
  obtain ⟨_, d, hd, hend⟩ := hlast
  exact ⟨⟨c, by simp [List.head?_append, hc], hstart⟩, d, by simp [List.getLast?_append, hd], hend⟩

end Text

namespace Token

variable {source : Text} {t : Token} {ts : List Token} {stop : Nat}

/-- From the first token to the last, the text begins and ends as they do. -/
theorem isBare_spread (h : ∀ u ∈ t :: ts, Text.isBare (u.text source) = true) :
    Text.isBare (t.text source ++ spread source t.span.stop ts) = true := by
  induction ts generalizing t with
  | nil => simpa [spread] using h
  | cons u ts ih =>
    have hfirst := h t List.mem_cons_self
    have hrest := ih fun v hv => h v (.tail t hv)
    rw [spread, List.append_assoc]
    exact Text.isBare_append hfirst _ hrest

end Token

/-- What the filter keeps and what it does not make up all of it. -/
theorem length_flatMap_filter {α β : Type} (p : α → Bool) (f : α → List β) (xs : List α) :
    ((xs.filter p).flatMap f).length + ((xs.filter (!p ·)).flatMap f).length =
      (xs.flatMap f).length := by
  have hsplit := (List.filter_append_perm p xs).flatMap_right f
  rw [← List.length_append, ← List.flatMap_append, hsplit.length_eq]

namespace Token.Spaced

open Text (operatorText slice isEdge)

variable {source : Text} {pos stop : Nat} {ts : List Token} (h : Spaced source pos ts stop)
  (hpos : Text.isBoundary source pos = true)

include h hpos

theorem filter_operatorText :
    (operatorText (slice source ⟨pos, stop⟩)).filter (!isEdge ·) =
      ts.flatMap fun t => (t.text source).filter (!isEdge ·) := by
  have hedge : ∀ c, Text.isBlank c = true → (!isEdge c) = false := by
    intro c hc
    rw [Text.isEdge_of_isBlank c hc]
    rfl
  obtain ⟨blanks, hblanks, hslice⟩ := h.slice_eq hpos
  rw [← (Text.strips_operatorText _).filter_eq, hslice, List.filter_append, h.filter_spread hedge,
    filter_eq_nil_of_allBlank hedge hblanks, List.append_nil]

theorem operatorText_ne_nil {t : Token} (ht : t ∈ ts) (hbare : Text.isBare (t.text source) = true) :
    operatorText (slice source ⟨pos, stop⟩) ≠ [] := by
  intro hnil
  have hfilter := h.filter_operatorText hpos
  rw [hnil, List.filter_nil, eq_comm, List.flatMap_eq_nil_iff] at hfilter
  simp only [Text.isBare, Bool.and_eq_true, Option.any_eq_true] at hbare
  obtain ⟨⟨c, hc, hstays⟩, _⟩ := hbare
  have hnone := List.filter_eq_nil_iff.mp (hfilter t ht) c (List.mem_of_head? hc)
  exact hnone hstays

/-- A comment leaves a trace in the operator that no code accounts for. -/
theorem isComment_eq_false (hcomment : ∀ t ∈ ts, t.isComment = true → '/' ∈ t.text source)
    (hspelled : operatorText (slice source ⟨pos, stop⟩) =
      (ts.filter (!·.isComment)).flatMap (·.text source)) :
    ∀ t ∈ ts, t.isComment = false := by
  intro t ht
  have hfilter := h.filter_operatorText hpos
  -- the code alone has as many characters that stay as code and comments together
  rw [hspelled, List.filter_flatMap] at hfilter
  have hlength := congrArg List.length hfilter
  have hsplit := length_flatMap_filter (!·.isComment)
    (fun t => (t.text source).filter (!isEdge ·)) ts
  have hnone : ((ts.filter (!!·.isComment)).flatMap fun t =>
      (t.text source).filter (!isEdge ·)) = [] := by
    apply List.length_eq_zero_iff.mp
    omega
  rw [Bool.eq_false_iff]
  intro hc
  have hslash := hcomment t ht hc
  have hmem : t ∈ ts.filter (!!·.isComment) := by
    simp [ht, hc]
  have hempty := List.flatMap_eq_nil_iff.mp hnone t hmem
  exact List.filter_eq_nil_iff.mp hempty '/' hslash (by decide)

/-- Without comments the operator is the text from the first token to the last. -/
theorem operatorText_eq_flatMap_iff (hne : ts ≠ [])
    (hbare : ∀ t ∈ ts, Text.isBare (t.text source) = true) :
    operatorText (slice source ⟨pos, stop⟩) = ts.flatMap (·.text source) ↔
      ts.IsChain fun t u => t.span.stop = u.span.start := by
  obtain ⟨blanks, hblanks, hslice⟩ := h.slice_eq hpos
  cases h with
  | nil => exact absurd rfl hne
  | cons hle blank exact hlt next =>
    rw [hslice, spread, List.append_assoc, List.append_assoc, ← List.append_assoc (text _ _),
      Text.operatorText_of_isBare blank (isBare_spread hbare) hblanks, List.flatMap_cons,
      List.append_cancel_left_eq, spread_eq_flatMap_iff exact.stop next]

end Token.Spaced

namespace Document

/-- The kinds of expressions with an operator between two operands. -/
def operationKinds : List NodeKind :=
  [.binaryExpression, .logicalExpression, .assignmentExpression]

/-- The span lies between the operands of such an expression, the left one of which ends first. -/
structure BetweenOperands (doc : Document) (id : NodeId) (between : Span) : Prop where
  kind : doc.kind id ∈ operationKinds
  left : ∃ left, doc.slotNode? id "left" = some left ∧ (doc.span left).stop = between.start
  right : ∃ right, doc.slotNode? id "right" = some right ∧ (doc.span right).start = between.stop
  ordered : between.start ≤ between.stop

/-- The tokens of a span can be told apart from what is around it: none of them reaches out of it or
cuts a character, those that are code neither begin nor end with a blank or a parenthesis, and
comments have a slash. -/
structure SetApart (doc : Document) (between : Span) : Prop where
  whole : ∀ t ∈ doc.tokens.toList, t.span.overlaps between = true → between.covers t.span = true
  exact : ∀ t ∈ doc.tokensIn between, t.span.Exact doc.source
  code : ∀ t ∈ doc.tokensIn between, t.isComment = false → Text.isBare (t.text doc.source) = true
  comment : ∀ t ∈ doc.tokensIn between, t.isComment = true → '/' ∈ t.text doc.source

instance (doc : Document) (between : Span) : Decidable (doc.SetApart between) :=
  decidable_of_iff
    ((∀ t ∈ doc.tokens.toList, t.span.overlaps between = true → between.covers t.span = true) ∧
      (∀ t ∈ doc.tokensIn between, t.span.Exact doc.source) ∧
      (∀ t ∈ doc.tokensIn between, t.isComment = false → Text.isBare (t.text doc.source) = true) ∧
      ∀ t ∈ doc.tokensIn between, t.isComment = true → '/' ∈ t.text doc.source)
    ⟨fun ⟨hwhole, hexact, hcode, hcomment⟩ => ⟨hwhole, hexact, hcode, hcomment⟩,
      fun h => ⟨h.whole, h.exact, h.code, h.comment⟩⟩

variable {doc : Document} {id : Nat} {between : Span}

theorem BetweenOperands.operator?_eq (h : doc.BetweenOperands id between)
    (hexact : between.Exact doc.source) :
    doc.operator? id = nonempty? (Text.operatorText (Text.slice doc.source between)) := by
  obtain ⟨left, hleft, hstart⟩ := h.left
  obtain ⟨right, hright, hstop⟩ := h.right
  have hslice : Text.slice? doc.source ⟨(doc.span left).stop, (doc.span right).start⟩ =
      some (Text.slice doc.source between) := by
    rw [hstart, hstop, Text.slice?, if_pos ⟨h.ordered, hexact.start, hexact.stop⟩]
  have hkind := h.kind
  simp only [operationKinds, List.mem_cons, List.not_mem_nil, or_false] at hkind
  rw [operator?]
  rcases hkind with hkind | hkind | hkind <;> simp [hkind, hleft, hright, hslice, Text.operatorText]

section Build

variable {source : Text} {file : ParsedFile} {resolved : Bool}
  (h : build source file resolved = .ok doc)

include h

/-- Tokens that are set apart and gap characters are all there is in the span. -/
theorem SetApart.tiling (hapart : doc.SetApart between) (hexact : between.Exact doc.source) :
    Token.Tiling doc.source between.start (doc.tokensIn between) between.stop := by
  have htokens := build_tokens_apart h
  have hin : ∀ {t}, t ∈ doc.tokensIn between ↔ t ∈ doc.tokens.toList ∧
      between.start ≤ t.span.start ∧ t.span.stop ≤ between.stop := by
    simp [tokensIn_eq htokens]
  refine ⟨?_, ?_, hapart.exact, ?_⟩
  · rw [tokensIn_eq htokens]
    exact htokens.pairwise.filter _
  · intro t ht
    obtain ⟨hmem, hstart, hstop⟩ := hin.mp ht
    exact ⟨hstart, (htokens.start_lt_stop hmem).2, hstop⟩
  · intro i hle hlt
    have hi : i < (Text.cells doc.source).length := by
      have := Text.le_width_of_isBoundary hexact.stop
      rw [Text.length_cells]
      omega
    obtain ⟨nodes, _, _, rfl⟩ := build_eq_ok h
    cases (Token.tokenize_scan source _).covers (Nat.zero_le i) hi with
    | inr hgap =>
      obtain ⟨c, hc, hcell⟩ := hgap
      exact .inr ⟨c, hc, (Text.cells_getElem?_eq_some_iff.mp hcell).1⟩
    | inl htoken =>
      obtain ⟨t, ht, hcontains⟩ := htoken
      refine .inl ⟨t, hin.mpr ⟨ht, ?_⟩, hcontains⟩
      have hwhole := hapart.whole t ht
      simp only [Span.contains, Span.overlaps, Span.covers, Bool.and_eq_true,
        decide_eq_true_eq] at hcontains hwhole
      exact hwhole (by omega)

end Build

/-- Where code stands between the operands of an expression, the operator is there: it is the text
between them, up to blanks and parentheses at its ends. It is what the tokens that are code spell
exactly if there is no comment between the operands and the tokens follow one another directly. -/
theorem operator_spelled_by_tokens {source : Text} {file : ParsedFile} {resolved : Bool}
    (hfile : file.Exact source) (h : build source file resolved = .ok doc)
    (hbetween : doc.BetweenOperands id between) (hapart : doc.SetApart between)
    (hcode : ∃ t ∈ doc.tokensIn between, t.isComment = false) :
    ∃ operator, doc.attribute? id "operator" = some (.text operator) ∧
      Text.Strips (Text.slice doc.source between) operator ∧
      (operator = ((doc.tokensIn between).filter (!·.isComment)).flatMap (·.text doc.source) ↔
        doc.commentsIn between = [] ∧
          (doc.tokensIn between).IsChain fun t u => t.span.stop = u.span.start) := by
  obtain ⟨hdoc, _⟩ := build_exact hfile h
  have hexact : between.Exact doc.source := by
    obtain ⟨left, _, hstart⟩ := hbetween.left
    obtain ⟨right, _, hstop⟩ := hbetween.right
    exact ⟨hstart ▸ (hdoc.exact left).stop, hstop ▸ (hdoc.exact right).start⟩
  have hspaced := (hapart.tiling h hexact).spaced hexact.start hbetween.ordered
  obtain ⟨t, ht, hplain⟩ := hcode
  have hne := hspaced.operatorText_ne_nil hexact.start ht (hapart.code t ht hplain)
  have hnone : doc.commentsIn between = [] ↔ ∀ t ∈ doc.tokensIn between, t.isComment = false := by
    simp [commentsIn]
  refine ⟨Text.operatorText (Text.slice doc.source between), ?_, Text.strips_operatorText _, ?_⟩
  · rw [attribute?, builtin?, hbetween.operator?_eq hexact, nonempty?, if_neg hne]
    rfl
  · have hall : (∀ t ∈ doc.tokensIn between, t.isComment = false) →
        (doc.tokensIn between).filter (!·.isComment) = doc.tokensIn between := by
      intro hcomments
      simpa using hcomments
    have hbare : (∀ t ∈ doc.tokensIn between, t.isComment = false) →
        ∀ t ∈ doc.tokensIn between, Text.isBare (t.text doc.source) = true :=
      fun hcomments t ht => hapart.code t ht (hcomments t ht)
    rw [hnone]
    constructor
    · intro hspelled
      have hcomments := hspaced.isComment_eq_false hexact.start hapart.comment hspelled
      rw [hall hcomments] at hspelled
      exact ⟨hcomments, (hspaced.operatorText_eq_flatMap_iff hexact.start (List.ne_nil_of_mem ht)
        (hbare hcomments)).mp hspelled⟩
    · rintro ⟨hcomments, hchain⟩
      rw [hall hcomments]
      exact (hspaced.operatorText_eq_flatMap_iff hexact.start (List.ne_nil_of_mem ht)
        (hbare hcomments)).mpr hchain

/-- An assignment over two lines, whose operator the lexer reads as two tokens. -/
def shiftText : Text := "a\n >>=  b".toList

def shiftFile : ParsedFile where
  tree :=
    .node ⟨"Program", ⟨0, 9⟩, [("body", .parts [⟨0, 9⟩])]⟩
      [.node ⟨"ExpressionStatement", ⟨0, 9⟩, [("expression", .part ⟨0, 9⟩)]⟩
        [.node ⟨"AssignmentExpression", ⟨0, 9⟩, [("left", .part ⟨0, 1⟩), ("right", .part ⟨8, 9⟩)]⟩
          [.node ⟨"IdentifierReference", ⟨0, 1⟩, []⟩ [],
            .node ⟨"IdentifierReference", ⟨8, 9⟩, []⟩ []]]]
  comments := []

theorem operator_spelled_by_tokens_shiftText :
    ∃ doc, shiftFile.Exact shiftText ∧ build shiftText shiftFile true = .ok doc ∧
      doc.BetweenOperands 2 ⟨1, 8⟩ ∧ doc.SetApart ⟨1, 8⟩ ∧
      (doc.tokensIn ⟨1, 8⟩).map (·.text doc.source) = [">".toList, ">=".toList] ∧
      doc.attribute? 2 "operator" = some (.text ">>=".toList) := by
  have hfile : shiftFile.Exact shiftText := ⟨by decide +kernel, by decide⟩
  obtain ⟨doc, hbuild, htest⟩ : ∃ doc, build shiftText shiftFile true = .ok doc ∧
      (doc.source == shiftText && doc.kind 2 == .assignmentExpression &&
        doc.slotNode? 2 "left" == some 3 && doc.slotNode? 2 "right" == some 4 &&
        doc.span 3 == ⟨0, 1⟩ && doc.span 4 == ⟨8, 9⟩ && decide (doc.SetApart ⟨1, 8⟩) &&
        doc.tokensIn ⟨1, 8⟩ ==
          [⟨.punctuator, ⟨3, 4⟩, true⟩, ⟨.punctuator, ⟨4, 6⟩, false⟩]) = true :=
    exists_build_of_any (by decide +kernel)
  simp only [Bool.and_eq_true, beq_iff_eq, decide_eq_true_eq] at htest
  obtain ⟨⟨⟨⟨⟨⟨⟨hsource, hkind⟩, hleft⟩, hright⟩, hfirst⟩, hsecond⟩, hapart⟩, htokens⟩ := htest
  have hbetween : doc.BetweenOperands 2 ⟨1, 8⟩ :=
    ⟨by simp [hkind, operationKinds], ⟨3, hleft, by rw [hfirst]⟩, ⟨4, hright, by rw [hsecond]⟩,
      by decide⟩
  obtain ⟨operator, hattribute, _, hspelled⟩ := operator_spelled_by_tokens hfile hbuild hbetween hapart
    ⟨⟨.punctuator, ⟨3, 4⟩, true⟩, by simp [htokens], rfl⟩
  have htexts : (doc.tokensIn ⟨1, 8⟩).map (·.text doc.source) = [">".toList, ">=".toList] := by
    rw [htokens, hsource]
    decide +kernel
  have hoperator : operator = ">>=".toList := by
    rw [hspelled.mpr ⟨by simp [commentsIn, htokens, Token.isComment], by simp [htokens]⟩, htokens,
      hsource]
    decide +kernel
  exact ⟨doc, hfile, hbuild, hbetween, hapart, htexts, hoperator ▸ hattribute⟩

/-- A sum with a comment before its operator. -/
def remarkedSumText : Text := "a /* c */ + b".toList

def remarkedSumFile : ParsedFile where
  tree :=
    .node ⟨"Program", ⟨0, 13⟩, [("body", .parts [⟨0, 13⟩])]⟩
      [.node ⟨"ExpressionStatement", ⟨0, 13⟩, [("expression", .part ⟨0, 13⟩)]⟩
        [.node ⟨"BinaryExpression", ⟨0, 13⟩, [("left", .part ⟨0, 1⟩), ("right", .part ⟨12, 13⟩)]⟩
          [.node ⟨"IdentifierReference", ⟨0, 1⟩, []⟩ [],
            .node ⟨"IdentifierReference", ⟨12, 13⟩, []⟩ []]]]
  comments := [⟨⟨2, 9⟩, true⟩]

/-- The comment is taken to be part of the operator, though the only code between the operands is the
plus sign. -/
theorem operator_keeps_comment :
    ∃ doc, build remarkedSumText remarkedSumFile true = .ok doc ∧
      doc.BetweenOperands 2 ⟨1, 12⟩ ∧ doc.SetApart ⟨1, 12⟩ ∧
      ((doc.tokensIn ⟨1, 12⟩).filter (!·.isComment)).map (·.text doc.source) = ["+".toList] ∧
      doc.attribute? 2 "operator" = some (.text "/* c */ +".toList) := by
  obtain ⟨doc, hbuild, htest⟩ : ∃ doc, build remarkedSumText remarkedSumFile true = .ok doc ∧
      (doc.kind 2 == .binaryExpression && doc.slotNode? 2 "left" == some 3 &&
        doc.slotNode? 2 "right" == some 4 && doc.span 3 == ⟨0, 1⟩ && doc.span 4 == ⟨12, 13⟩ &&
        decide (doc.SetApart ⟨1, 12⟩) &&
        ((doc.tokensIn ⟨1, 12⟩).filter (!·.isComment)).map (·.text doc.source) == ["+".toList] &&
        doc.attribute? 2 "operator" == some (.text "/* c */ +".toList)) = true :=
    exists_build_of_any (by decide +kernel)
  simp only [Bool.and_eq_true, beq_iff_eq, decide_eq_true_eq] at htest
  obtain ⟨⟨⟨⟨⟨⟨⟨hkind, hleft⟩, hright⟩, hfirst⟩, hsecond⟩, hapart⟩, hcode⟩, hattribute⟩ := htest
  have hbetween : doc.BetweenOperands 2 ⟨1, 12⟩ :=
    ⟨by simp [hkind, operationKinds], ⟨3, hleft, by rw [hfirst]⟩, ⟨4, hright, by rw [hsecond]⟩,
      by decide⟩
  exact ⟨doc, hbuild, hbetween, hapart, hcode, hattribute⟩

end Document

end ScriptLint

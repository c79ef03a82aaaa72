import ScriptLint.Proofs.Selector.Reading
import ScriptLint.Proofs.Tree.Exact
import ScriptLint.Selector.Match

/-!
Words without quotes. A word that could be a name stands for itself, except that `inf`, `infinity` and
`nan`, in any case, are read as numbers, and a number is compared with a text in the one spelling that
numbers have. So a bare word means its `standardWord` in quotes. A literal tells values apart by its
number and its text only (`Literal.equals_congr`); the number of the word is the same in quotes, so the
two differ on texts alone, and only on those that are the word or its standard spelling.
-/
namespace ScriptLint

theorem Number.unsigned?_cons_eq_none (negative : Bool) {c : Char} (hdigit : c.isDigit = false)
    (hpoint : c ≠ '.') (rest : Text) : unsigned? negative (c :: rest) = none := by
  have htake : (c :: rest).takeWhile Char.isDigit = [] := by simp [hdigit]
  have hdrop : (c :: rest).dropWhile Char.isDigit = c :: rest := by simp [hdigit]
  rw [unsigned?, htake, hdrop]
  simp [hpoint]

theorem NodeKind.typeName_eq_identifier_iff (kind : NodeKind) :
    kind.typeName = "Identifier" ↔ kind.isIdentifier = true := by
  cases kind <;> decide

namespace Literal

theorem equals_congr {a b : Literal} (hnumber : a.number? = b.number?) (hscalar : a.scalar = b.scalar)
    (value : AttrValue) : a.equals value = b.equals value := by
  simp only [equals, hnumber, hscalar]

theorem equals_text (literal : Literal) (s : Text) :
    literal.equals (.text s) = true ↔ s = literal.scalar := by
  simp [equals, AttrValue.scalar?]

end Literal

namespace Selector

/-- The words that stand for a flag or for null. -/
def reservedWords : List Text := ["true".toList, "false".toList, "null".toList]

/-- Name characters, of which the first is no digit. -/
def isBareName (w : Text) : Bool :=
  w.head?.any (fun c => c.isAlpha || c == '_' || c == '$') && w.all isNameChar

/-- The spelling in which a word is compared with texts. -/
def standardWord (w : Text) : Text :=
  let lower := String.ofList (w.map Char.toLower)
  if lower = "inf" ∨ lower = "infinity" then "inf".toList
  else if lower = "nan" then "NaN".toList
  else w

variable {w : Text}

theorem isRun_of_isBareName (hname : isBareName w = true) : IsRun isNameChar w := by
  rw [isBareName, Bool.and_eq_true] at hname
  refine ⟨?_, List.all_eq_true.mp hname.2⟩
  rintro rfl
  cases hname.1

theorem exists_cons_of_isBareName (hname : isBareName w = true) :
    ∃ c rest, w = c :: rest ∧ c.isDigit = false ∧ c ∉ ['.', '+', '-'] := by
  cases w with
  | nil => cases hname
  | cons c rest =>
    refine ⟨c, rest, rfl, ?_⟩
    simp only [isBareName, List.head?_cons, Option.any_some, Bool.and_eq_true, Bool.or_eq_true,
      beq_iff_eq] at hname
    rcases hname.1 with (halpha | rfl) | rfl
    · refine ⟨?_, ?_⟩
      · delta Char.isAlpha Char.isUpper Char.isLower at halpha
        delta Char.isDigit
        simp only [Bool.or_eq_true, Bool.and_eq_true, decide_eq_true_eq] at halpha
        simp only [Bool.and_eq_false_iff, decide_eq_false_iff_not]
        grind
      · intro hmem
        simp only [List.mem_cons, List.not_mem_nil, or_false] at hmem
        rcases hmem with rfl | rfl | rfl <;> exact absurd halpha (by decide)
    · decide
    · decide

/-- A word that could be a name is a number only if it is one of the words for a special value, and
these are the words that have another spelling. -/
theorem standardWord_cases (hname : isBareName w = true) :
    (standardWord w = "inf".toList ∧ Number.read? w = some (.infinite false)) ∨
    (standardWord w = "NaN".toList ∧ Number.read? w = some .nan) ∨
    (standardWord w = w ∧ Number.read? w = none) := by
  obtain ⟨c, rest, rfl, hdigit, hmark⟩ := exists_cons_of_isBareName hname
  simp only [List.mem_cons, List.not_mem_nil, or_false, not_or] at hmark
  have hsign : Number.splitSign (c :: rest) = (false, c :: rest) := by
    rw [Number.splitSign.eq_def]
    split
    · rename_i heq
      exact absurd (List.cons.inj heq).1 hmark.2.1
    · rename_i heq
      exact absurd (List.cons.inj heq).1 hmark.2.2
    · rfl
  simp only [Number.read?, hsign, standardWord,
    Number.unsigned?_cons_eq_none false hdigit hmark.1]
  split
  · exact .inl ⟨rfl, rfl⟩
  · split
    · exact .inr (.inl ⟨rfl, rfl⟩)
    · exact .inr (.inr ⟨rfl, rfl⟩)

theorem isBareName_standardWord (hname : isBareName w = true) :
    isBareName (standardWord w) = true := by
  rcases standardWord_cases hname with ⟨h, _⟩ | ⟨h, _⟩ | ⟨h, _⟩
  · rw [h]
    decide
  · rw [h]
    decide
  · rwa [h]

theorem standardWord_not_reserved (hname : isBareName w = true) (hother : w ∉ reservedWords) :
    standardWord w ∉ reservedWords := by
  rcases standardWord_cases hname with ⟨h, _⟩ | ⟨h, _⟩ | ⟨h, _⟩
  · rw [h]
    decide
  · rw [h]
    decide
  · rwa [h]

theorem read?_standardWord (hname : isBareName w = true) :
    Number.read? (standardWord w) = Number.read? w := by
  rcases standardWord_cases hname with ⟨h, hread⟩ | ⟨h, hread⟩ | ⟨h, _⟩
  · rw [h, hread]
    rfl
  · rw [h, hread]
    rfl
  · rw [h]

theorem trim_of_isBareName (hname : isBareName w = true) : Text.trim w = w := by
  have hblank : ∀ c ∈ w, Text.isBlank c = false := fun c hc =>
    isNameChar_not_isBlank ((isRun_of_isBareName hname).2 c hc)
  have hkeep {s : Text} (h : ∀ c ∈ s, Text.isBlank c = false) : s.dropWhile Text.isBlank = s := by
    cases s with
    | nil => rfl
    | cons c s => simp [h c List.mem_cons_self]
  rw [Text.trim, Text.trimStart, Text.trimEnd, Text.dropEndWhile, hkeep hblank,
    hkeep (by simpa using hblank), List.reverse_reverse]

/-! What a word is as a literal. -/

theorem number?_text_of_isBareName (hname : isBareName w = true) :
    (Literal.text w).number? = Number.read? w := by
  rw [Literal.number?, trim_of_isBareName hname]

theorem number?_text_standardWord (hname : isBareName w = true) :
    (Literal.text (standardWord w)).number? = (Literal.text w).number? := by
  rw [number?_text_of_isBareName hname, number?_text_of_isBareName (isBareName_standardWord hname),
    read?_standardWord hname]

theorem number?_ofWord (hname : isBareName w = true) (hother : w ∉ reservedWords) :
    (ofWord w).number? = (Literal.text w).number? := by
  cases hread : Number.read? w with
  | some x =>
    rw [ofWord_eq_iff.mpr (.number hread), number?_text_of_isBareName hname, hread]
    rfl
  | none => rw [ofWord_eq_iff.mpr (.text hread hother)]

theorem scalar_ofWord (hname : isBareName w = true) (hother : w ∉ reservedWords) :
    (ofWord w).scalar = standardWord w := by
  rcases standardWord_cases hname with ⟨h, hread⟩ | ⟨h, hread⟩ | ⟨h, hread⟩
  · rw [h, ofWord_eq_iff.mpr (.number hread)]
    rfl
  · rw [h, ofWord_eq_iff.mpr (.number hread)]
    rfl
  · rw [h, ofWord_eq_iff.mpr (.text hread hother)]
    rfl

/-- A bare word compares as its standard spelling in quotes. -/
theorem equals_ofWord (hname : isBareName w = true) (hother : w ∉ reservedWords)
    (value : AttrValue) :
    (ofWord w).equals value = (Literal.text (standardWord w)).equals value := by
  refine Literal.equals_congr ?_ (scalar_ofWord hname hother) value
  rw [number?_ofWord hname hother, number?_text_standardWord hname]

/-- The texts of flags and of null are reserved, so no other word is equal to them. -/
theorem equals_eq_false_of_reserved (hother : w ∉ reservedWords) {value : AttrValue} {s : Text}
    (hnumber : ∀ x, value ≠ .number x) (hscalar : value.scalar? = some s) (hs : s ∈ reservedWords) :
    (Literal.text w).equals value = false := by
  rw [Literal.equals.eq_def]
  split
  · exact absurd rfl (hnumber _)
  · rw [hscalar, beq_eq_false_iff_ne]
    intro heq
    cases heq
    exact hother hs

/-- In quotes, the two spellings differ on texts only: they are the same number, and neither is the
text of a flag or of null. -/
theorem equals_standardWord_of_not_text (hname : isBareName w = true) (hother : w ∉ reservedWords)
    {value : AttrValue} (hvalue : ∀ s, value ≠ .text s) :
    (Literal.text (standardWord w)).equals value = (Literal.text w).equals value := by
  have hstandard := standardWord_not_reserved hname hother
  have hnumber := number?_text_standardWord hname
  cases value with
  | text s => exact absurd rfl (hvalue s)
  | node id => rfl
  | list ids => rfl
  | number x =>
    -- a word with two spellings is a number, and the same one in both
    rcases standardWord_cases hname with ⟨_, hread⟩ | ⟨_, hread⟩ | ⟨h, _⟩
    · simp only [Literal.equals, hnumber, number?_text_of_isBareName hname, hread]
    · simp only [Literal.equals, hnumber, number?_text_of_isBareName hname, hread]
    · rw [h]
  | flag b =>
    have hs : (if b then "true".toList else "false".toList) ∈ reservedWords := by
      cases b <;> decide
    rw [equals_eq_false_of_reserved hstandard (by simp) rfl hs,
      equals_eq_false_of_reserved hother (by simp) rfl hs]
  | null =>
    rw [equals_eq_false_of_reserved hstandard (by simp) rfl (by decide),
      equals_eq_false_of_reserved hother (by simp) rfl (by decide)]

/-- A bare word and the same word in quotes part on the texts that are one of the two spellings, if
there are two. -/
theorem equals_ofWord_eq_quoted_iff (hname : isBareName w = true) (hother : w ∉ reservedWords)
    (value : AttrValue) :
    (ofWord w).equals value = (Literal.text w).equals value ↔
      standardWord w = w ∨ ∀ s, value = .text s → s ≠ w ∧ s ≠ standardWord w := by
  rw [equals_ofWord hname hother]
  by_cases hvalue : ∃ s, value = .text s
  · obtain ⟨s, rfl⟩ := hvalue
    rw [Bool.eq_iff_iff, Literal.equals_text, Literal.equals_text]
    simp only [Literal.scalar, AttrValue.text.injEq, forall_eq']
    grind
  · have hnot : ∀ s, value ≠ .text s := fun s hs => hvalue ⟨s, hs⟩
    refine iff_of_true (equals_standardWord_of_not_text hname hother hnot) (.inr ?_)
    intro s hs
    exact absurd hs (hnot s)

/-! Patterns of one attribute. -/

/-- A type, if one is asked for, and the attribute `[path operator value]`. -/
def attributePattern (type path : Text) (operator : Operator) (value : Text) : String :=
  .ofList (type ++ '[' :: (path ++ (operator.symbol ++ (value ++ [']']))))

/-- A text in quotes that needs no escapes. -/
def quotedWord (s : Text) : Text := '\'' :: (s ++ ['\''])

theorem literalText_quotedWord (hname : isBareName w = true) :
    LiteralText (.text w) (quotedWord w) := by
  refine .quoted (.inr rfl) ?_
  have hchars := (isRun_of_isBareName hname).2
  clear hname
  induction w with
  | nil => exact .nil
  | cons c w ih =>
    have hc := hchars c List.mem_cons_self
    refine .plain ?_ ?_ (ih fun d hd => hchars d (List.mem_cons_of_mem c hd))
    · rintro rfl
      exact absurd hc (by decide)
    · rintro rfl
      exact absurd hc (by decide)

theorem literalText_bareName (hname : isBareName w = true) : LiteralText (ofWord w) w := by
  obtain ⟨hne, hchars⟩ := isRun_of_isBareName hname
  refine .word ⟨hne, fun c hc => ?_⟩ (ofWord_eq_iff.mp rfl)
  simp [isWordChar, hchars c hc]

theorem compile_attributePattern {kind : Option String} {type text value : Text}
    {path : List String} {literal : Literal} (htype : TypeText kind type) (hpath : PathText path text)
    (operator : Operator) (hliteral : LiteralText literal value) :
    compile (attributePattern type text operator value) =
      .ok ⟨attributePattern type text operator value,
        ⟨kind, [⟨path, some (operator, literal)⟩]⟩, []⟩ := by
  have hcompound := CompoundText.single htype (.compact hpath operator hliteral)
  have htext := PatternText.compact (.intro hcompound .nil)
  refine compile_eq_ok_iff.mpr ⟨rfl, ?_⟩
  simpa [compounds, combinators, attributePattern] using htext

theorem accepts_attribute (pattern : String) (p : Predicate) (doc : Document) (id : NodeId) :
    accepts ⟨pattern, ⟨none, [p]⟩, []⟩ doc id = p.holds (doc.resolvePath? id p.path) := by
  simp [accepts, Compound.accepts, contextAccepts]

/-- A test of equality tells two literals apart if it finds a value that they compare with
differently. -/
theorem holds_eq_iff_equals_eq {operator : Operator} (hoperator : operator = .eq ∨ operator = .ne)
    (path : List String) (a b : Literal) (found : Option AttrValue) :
    Predicate.holds ⟨path, some (operator, a)⟩ found =
        Predicate.holds ⟨path, some (operator, b)⟩ found ↔
      ∀ value, found = some value → a.equals value = b.equals value := by
  cases found with
  | none => simp [Predicate.holds]
  | some value => rcases hoperator with rfl | rfl <;> simp [Predicate.holds]

theorem accepts_named_iff (pattern : String) (literal : Literal) (doc : Document) (id : NodeId) :
    accepts ⟨pattern, ⟨some "Identifier", [⟨["name"], some (.eq, literal)⟩]⟩, []⟩ doc id = true ↔
      (doc.kind id).isIdentifier = true ∧ doc.text id = literal.scalar := by
  simp only [accepts, Compound.accepts, contextAccepts, List.all_cons, List.all_nil, Bool.and_true,
    Bool.and_eq_true, beq_iff_eq, NodeKind.typeName_eq_identifier_iff]
  refine and_congr_right fun hkind => ?_
  have hname : doc.resolvePath? id ["name"] = some (.text (doc.text id)) := by
    simp [Document.resolvePath?, Document.step?, Document.attribute?, Document.builtin?, hkind]
  rw [hname, Predicate.holds, Literal.equals_text]

/-- A test of equality with a bare word accepts what the test with its standard spelling in quotes
accepts. In quotes the word itself is another test only where the path leads to a text that is one of
the two spellings, if they are two; and the identifiers of that name are those with the standard
spelling. -/
theorem bare_word_means_standard_spelling {path : List String} {text : Text}
    (hpath : PathText path text) (hname : isBareName w = true) (hother : w ∉ reservedWords) :
    (∀ operator : Operator, operator = .eq ∨ operator = .ne →
      ∃ bare standard quoted : Selector,
        compile (attributePattern [] text operator w) = .ok bare ∧
        compile (attributePattern [] text operator (quotedWord (standardWord w))) = .ok standard ∧
        compile (attributePattern [] text operator (quotedWord w)) = .ok quoted ∧
        ∀ (doc : Document) (id : NodeId),
          bare.accepts doc id = standard.accepts doc id ∧
          (bare.accepts doc id = quoted.accepts doc id ↔
            standardWord w = w ∨ ∀ s, doc.resolvePath? id path = some (.text s) →
              s ≠ w ∧ s ≠ standardWord w)) ∧
    ∃ named : Selector,
      compile (attributePattern "Identifier".toList "name".toList .eq w) = .ok named ∧
      ∀ (doc : Document) (id : NodeId),
        named.accepts doc id = true ↔
          (doc.kind id).isIdentifier = true ∧ doc.text id = standardWord w := by
  have hbare := literalText_bareName hname
  constructor
  · intro operator hoperator
    refine ⟨_, _, _, compile_attributePattern .omitted hpath operator hbare,
      compile_attributePattern .omitted hpath operator
        (literalText_quotedWord (isBareName_standardWord hname)),
      compile_attributePattern .omitted hpath operator (literalText_quotedWord hname), ?_⟩
    intro doc id
    rw [accepts_attribute, accepts_attribute, accepts_attribute, holds_eq_iff_equals_eq hoperator,
      holds_eq_iff_equals_eq hoperator]
    constructor
    · intro value _
      exact equals_ofWord hname hother value
    · simp only [equals_ofWord_eq_quoted_iff hname hother]
      grind
  · have hknown : NodeKind.identifierReference ≠ .unknown := by decide
    have htype : TypeText (some "Identifier") "Identifier".toList := .name hknown
    have hpath : PathText [.ofList "name".toList] "name".toList := .last (by decide)
    refine ⟨_, compile_attributePattern htype hpath .eq hbare, ?_⟩
    intro doc id
    rw [← scalar_ofWord hname hother]
    exact accepts_named_iff _ _ doc id

theorem bare_word_means_standard_spelling_infinity :
    (∃ bare standard : Selector,
      compile "[callee.name!=Infinity]" = .ok bare ∧
      compile "[callee.name!='inf']" = .ok standard ∧
      ∀ (doc : Document) (id : NodeId), bare.accepts doc id = standard.accepts doc id) ∧
    ∃ named : Selector,
      compile "Identifier[name=Infinity]" = .ok named ∧
      ∀ (doc : Document) (id : NodeId),
        named.accepts doc id = true ↔
          (doc.kind id).isIdentifier = true ∧ doc.text id = "inf".toList := by
  have hpath : PathText [.ofList "callee".toList, .ofList "name".toList]
      ("callee".toList ++ '.' :: "name".toList) := .dot (by decide) (.last (by decide))
  have hname : isBareName "Infinity".toList = true := by decide
  have hother : "Infinity".toList ∉ reservedWords := by decide
  obtain ⟨htests, named, hnamed, hnames⟩ := bare_word_means_standard_spelling hpath hname hother
  obtain ⟨bare, standard, _, hbare, hstandard, _, hsame⟩ := htests .ne (.inr rfl)
  exact ⟨⟨bare, standard, hbare, hstandard, fun doc id => (hsame doc id).1⟩, named, hnamed, hnames⟩

/-- `Infinity` as the only expression of a file. -/
def infinityFile : ParsedFile where
  tree :=
    .node ⟨"Program", ⟨0, 8⟩, [("body", .parts [⟨0, 8⟩])]⟩
      [.node ⟨"ExpressionStatement", ⟨0, 8⟩, [("expression", .part ⟨0, 8⟩)]⟩
        [.node ⟨"IdentifierReference", ⟨0, 8⟩, []⟩ []]]
  comments := []

/-- The identifier `Infinity` is found by its name in quotes and missed by its bare name. -/
theorem bare_infinity_misses_identifier :
    infinityFile.Exact "Infinity".toList ∧
      ∃ doc bare quoted, Document.build "Infinity".toList infinityFile true = .ok doc ∧
        compile "Identifier[name=Infinity]" = .ok bare ∧
        compile "Identifier[name='Infinity']" = .ok quoted ∧
        (doc.kind 2).isIdentifier = true ∧ doc.text 2 = "Infinity".toList ∧
        quoted.matchAll doc Document.root = [2] ∧ bare.matchAll doc Document.root = [] := by
  have hbare : compile "Identifier[name=Infinity]" =
      .ok ⟨_, ⟨some "Identifier", [⟨["name"], some (.eq, .number (.infinite false))⟩]⟩, []⟩ := rfl
  have hquoted : compile "Identifier[name='Infinity']" =
      .ok ⟨_, ⟨some "Identifier", [⟨["name"], some (.eq, .text "Infinity".toList)⟩]⟩, []⟩ := rfl
  obtain ⟨doc, hbuild, htest⟩ : ∃ doc, Document.build "Infinity".toList infinityFile true = .ok doc ∧
      ((doc.kind 2).isIdentifier && doc.text 2 == "Infinity".toList &&
        (compile "Identifier[name='Infinity']").toOption.any (·.matchAll doc Document.root == [2]) &&
        (compile "Identifier[name=Infinity]").toOption.any (·.matchAll doc Document.root == [])) =
        true :=
    Document.exists_build_of_any (by decide +kernel)
  rw [hbare, hquoted] at htest
  simp only [Bool.and_eq_true, beq_iff_eq, Except.toOption, Option.any_some] at htest
  obtain ⟨⟨⟨hkind, htext⟩, hfound⟩, hmissed⟩ := htest
  exact ⟨⟨by decide +kernel, by decide⟩, doc, _, _, hbuild, hbare, hquoted, hkind, htext, hfound,
    hmissed⟩

end Selector

end ScriptLint

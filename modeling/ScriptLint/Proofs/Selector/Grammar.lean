import ScriptLint.Selector.Parser

/-!
The grammar of selector patterns, as relations between what is meant and a text for it:

    selector   := compound (combinator compound)*
    combinator := blank* '>' blank* | blank+
    compound   := (type | '*')? attribute*            not empty
    attribute  := '[' blank* path blank* (operator blank* literal blank*)? ']'
    path       := segment ('.' segment)*
    operator   := '=' | '!=' | '>' | '<' | '>=' | '<='
    literal    := quoted text | word

Nothing here says how a text is cut into such parts. That the readers cut it in the only way there
is comes from what can follow a part: no part is followed by a character with which it could go on
(`Stops`).
-/
namespace ScriptLint

def Operator.symbol : Operator → Text
  | .eq => ['=']
  | .ne => ['!', '=']
  | .gt => ['>']
  | .lt => ['<']
  | .ge => ['>', '=']
  | .le => ['<', '=']

namespace Selector

/-- One or more characters of a class. -/
def IsRun (p : Char → Bool) (run : Text) : Prop := run ≠ [] ∧ ∀ c ∈ run, p c = true

instance (p : Char → Bool) (run : Text) : Decidable (IsRun p run) :=
  decidable_of_iff ((!run.isEmpty && run.all p) = true) (by simp [IsRun])

/-- Segments with a point between each two. -/
inductive PathText : List String → Text → Prop
  | last {segment : Text} (hrun : IsRun isNameChar segment) :
    PathText [.ofList segment] segment
  | dot {segment text : Text} {path : List String} (hrun : IsRun isNameChar segment)
    (hpath : PathText path text) : PathText (.ofList segment :: path) (segment ++ '.' :: text)

/-- What may stand between two quotes for a text: a character for itself, unless it is the quote or a
backslash, or a backslash and any character for that character. -/
inductive QuotedText (quote : Char) : Text → Text → Prop
  | nil : QuotedText quote [] []
  | plain {c : Char} {s text : Text} (hescape : c ≠ '\\') (hquote : c ≠ quote)
    (h : QuotedText quote s text) : QuotedText quote (c :: s) (c :: text)
  | escaped {s text : Text} (c : Char) (h : QuotedText quote s text) :
    QuotedText quote (c :: s) ('\\' :: c :: text)

/-- What a word stands for. -/
inductive WordText : Literal → Text → Prop
  | yes : WordText (.flag true) "true".toList
  | no : WordText (.flag false) "false".toList
  | null : WordText .null "null".toList
  | number {x : Binary64} {word : Text} (h : Number.read? word = some x) : WordText (.number x) word
  | text {word : Text} (hnumber : Number.read? word = none)
    (hother : word ∉ ["true".toList, "false".toList, "null".toList]) : WordText (.text word) word

inductive LiteralText : Literal → Text → Prop
  | quoted {quote : Char} {s text : Text} (hquote : quote = '"' ∨ quote = '\'')
    (h : QuotedText quote s text) : LiteralText (.text s) (quote :: (text ++ [quote]))
  | word {literal : Literal} {word : Text} (hrun : IsRun isWordChar word)
    (h : WordText literal word) : LiteralText literal word

inductive AttributeText : Predicate → Text → Prop
  | present {path : List String} {before text after : Text} (hbefore : Text.allBlank before = true)
    (hpath : PathText path text) (hafter : Text.allBlank after = true) :
    AttributeText ⟨path, none⟩ ('[' :: (before ++ (text ++ (after ++ [']']))))
  | test {path : List String} {operator : Operator} {literal : Literal}
    {before text after between value last : Text} (hbefore : Text.allBlank before = true)
    (hpath : PathText path text) (hafter : Text.allBlank after = true)
    (hbetween : Text.allBlank between = true) (hliteral : LiteralText literal value)
    (hlast : Text.allBlank last = true) :
    AttributeText ⟨path, some (operator, literal)⟩
      ('[' :: (before ++ (text ++ (after ++ (operator.symbol ++ (between ++ (value ++
        (last ++ [']']))))))))

inductive AttributesText : List Predicate → Text → Prop
  | nil : AttributesText [] []
  | cons {p : Predicate} {ps : List Predicate} {text rest : Text} (h : AttributeText p text)
    (hrest : AttributesText ps rest) : AttributesText (p :: ps) (text ++ rest)

/-- A compound that asks for no type has a star or nothing in its place. -/
inductive TypeText : Option String → Text → Prop
  | omitted : TypeText none []
  | star : TypeText none ['*']
  | name {kind : NodeKind} (hknown : kind ≠ .unknown) :
    TypeText (some kind.typeName) kind.typeName.toList

inductive CompoundText : Compound → Text → Prop
  | intro {kind : Option String} {predicates : List Predicate} {type attributes : Text}
    (htype : TypeText kind type) (hattributes : AttributesText predicates attributes)
    (hne : type ++ attributes ≠ []) : CompoundText ⟨kind, predicates⟩ (type ++ attributes)

inductive CombinatorText : Combinator → Text → Prop
  | child {before after : Text} (hbefore : Text.allBlank before = true)
    (hafter : Text.allBlank after = true) : CombinatorText .child (before ++ '>' :: after)
  | descendant {blanks : Text} (hne : blanks ≠ []) (hblanks : Text.allBlank blanks = true) :
    CombinatorText .descendant blanks

/-- Combinators with their compounds. -/
inductive StepsText : List (Combinator × Compound) → Text → Prop
  | nil : StepsText [] []
  | cons {combinator : Combinator} {compound : Compound} {steps : List (Combinator × Compound)}
    {joint text rest : Text} (hjoint : CombinatorText combinator joint)
    (htext : CompoundText compound text) (hrest : StepsText steps rest) :
    StepsText ((combinator, compound) :: steps) (joint ++ (text ++ rest))

/-- The compounds with the combinators between them. -/
inductive SelectorText : List Compound → List Combinator → Text → Prop
  | intro {first : Compound} {steps : List (Combinator × Compound)} {text rest : Text}
    (hfirst : CompoundText first text) (hsteps : StepsText steps rest) :
    SelectorText (first :: steps.map (·.2)) (steps.map (·.1)) (text ++ rest)

/-- A whole pattern, with blanks around it or not. -/
inductive PatternText : List Compound → List Combinator → Text → Prop
  | intro {compounds : List Compound} {combinators : List Combinator} {lead text trail : Text}
    (hlead : Text.allBlank lead = true) (htext : SelectorText compounds combinators text)
    (htrail : Text.allBlank trail = true) :
    PatternText compounds combinators (lead ++ (text ++ trail))

/-! Blanks may be left out. -/

theorem AttributeText.compact {path : List String} {literal : Literal} {text value : Text}
    (hpath : PathText path text) (operator : Operator) (hliteral : LiteralText literal value) :
    AttributeText ⟨path, some (operator, literal)⟩
      ('[' :: (text ++ (operator.symbol ++ (value ++ [']'])))) := by
  change AttributeText _
    ('[' :: ([] ++ (text ++ ([] ++ (operator.symbol ++ ([] ++ (value ++ ([] ++ [']']))))))))
  exact .test rfl hpath rfl rfl hliteral rfl

/-- A compound of one attribute. -/
theorem CompoundText.single {kind : Option String} {p : Predicate} {type text : Text}
    (htype : TypeText kind type) (hattribute : AttributeText p text) :
    CompoundText ⟨kind, [p]⟩ (type ++ text) := by
  have hne : text ≠ [] := by
    cases hattribute with
    | present => exact List.cons_ne_nil _ _
    | test => exact List.cons_ne_nil _ _
  have h : CompoundText ⟨kind, [p]⟩ (type ++ (text ++ [])) :=
    .intro htype (.cons hattribute .nil) (by simp [hne])
  rwa [List.append_nil] at h

theorem PatternText.compact {compounds : List Compound} {combinators : List Combinator}
    {text : Text} (htext : SelectorText compounds combinators text) :
    PatternText compounds combinators text := by
  have h : PatternText compounds combinators ([] ++ (text ++ [])) := .intro rfl htext rfl
  rwa [List.append_nil] at h

/-! Where a part ends. -/

/-- The text does not go on with a character of the class. -/
def Stops (p : Char → Bool) (rest : Text) : Prop := ∀ c ∈ rest.head?, p c = false

@[simp] theorem stops_nil (p : Char → Bool) : Stops p [] := by simp [Stops]
@[simp] theorem stops_cons {p : Char → Bool} {c : Char} {rest : Text} :
    Stops p (c :: rest) ↔ p c = false := by simp [Stops]

theorem Stops.append {p : Char → Bool} {run rest : Text} (hrun : ∀ c ∈ run, p c = false)
    (hrest : Stops p rest) : Stops p (run ++ rest) := by
  cases run with
  | nil => exact hrest
  | cons c run => exact stops_cons.mpr (hrun c List.mem_cons_self)

theorem takeWhile_of_stops {p : Char → Bool} {run rest : Text} (hrun : ∀ c ∈ run, p c = true)
    (hrest : Stops p rest) : (run ++ rest).takeWhile p = run := by
  rw [List.takeWhile_append_of_pos hrun]
  cases rest with
  | nil => simp
  | cons c rest => simp [stops_cons.mp hrest]

theorem dropWhile_of_stops {p : Char → Bool} {run rest : Text} (hrun : ∀ c ∈ run, p c = true)
    (hrest : Stops p rest) : (run ++ rest).dropWhile p = rest := by
  rw [List.dropWhile_append_of_pos hrun]
  cases rest with
  | nil => rfl
  | cons c rest => simp [stops_cons.mp hrest]

theorem skipBlanks_append {blanks rest : Text} (hblanks : Text.allBlank blanks = true)
    (hrest : Stops Text.isBlank rest) : skipBlanks (blanks ++ rest) = rest :=
  dropWhile_of_stops (List.all_eq_true.mp hblanks) hrest

/-- What is skipped are blanks, and all of them that stand first. -/
theorem exists_blanks_skipBlanks (cs : Text) :
    ∃ blanks, cs = blanks ++ skipBlanks cs ∧ Text.allBlank blanks = true :=
  ⟨cs.takeWhile Text.isBlank, List.takeWhile_append_dropWhile.symm, List.all_takeWhile⟩

end Selector

end ScriptLint

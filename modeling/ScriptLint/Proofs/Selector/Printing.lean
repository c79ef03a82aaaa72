import ScriptLint.Number.Shortest
import ScriptLint.Proofs.Selector.Reading

/-!
Selectors in canonical form: a star where no type is asked for, texts in double quotes, one blank or
a `>` between blanks as combinator. What is printed is a form of the selector
(`Selector.selectorText_print`), so it compiles back to the same compounds and combinators.
-/
namespace ScriptLint

namespace Literal

/-- Backslashes and double quotes get a backslash. -/
def escaped : Text → Text
  | [] => []
  | c :: s => if c = '\\' ∨ c = '"' then '\\' :: c :: escaped s else c :: escaped s

def print : Literal → Text
  | .text s => '"' :: (escaped s ++ ['"'])
  | .number x => x.text
  | .flag true => "true".toList
  | .flag false => "false".toList
  | .null => "null".toList

/-- Numbers are left out: what they read back as is up to the reader of numbers. -/
def isPrintable : Literal → Bool
  | .number _ => false
  | _ => true

end Literal

namespace Predicate

def printPath : List String → Text
  | [] => []
  | [segment] => segment.toList
  | segment :: path => segment.toList ++ '.' :: printPath path

def printTest : Option (Operator × Literal) → Text
  | none => []
  | some (operator, literal) => operator.symbol ++ literal.print

def print (p : Predicate) : Text := '[' :: (printPath p.path ++ (printTest p.test ++ [']']))

/-- There are segments, each of them of name characters and none empty. -/
def isPrintable (p : Predicate) : Bool :=
  !p.path.isEmpty &&
  p.path.all (fun segment => Selector.IsRun Selector.isNameChar segment.toList) &&
  p.test.all fun test => test.2.isPrintable

end Predicate

namespace Compound

def print (c : Compound) : Text :=
  (match c.kind with
    | some name => name.toList
    | none => ['*']) ++ c.predicates.flatMap Predicate.print

def isPrintable (c : Compound) : Bool :=
  c.kind.all Selector.isKnownType && c.predicates.all Predicate.isPrintable

end Compound

def Combinator.print : Combinator → Text
  | .child => [' ', '>', ' ']
  | .descendant => [' ']

namespace Selector

/-- The compounds above, from the top down, and then the subject. -/
def printChain (subject : Compound) : List (Combinator × Compound) → Text
  | [] => subject.print
  | (combinator, above) :: context =>
    printChain above context ++ (combinator.print ++ subject.print)

def print (s : Selector) : String := .ofList (printChain s.subject s.context)

def isPrintable (s : Selector) : Bool := s.compounds.all Compound.isPrintable

theorem quotedText_escaped (s : Text) : QuotedText '"' s (Literal.escaped s) := by
  induction s with
  | nil => exact .nil
  | cons c s ih =>
    rw [Literal.escaped]
    split
    · exact .escaped c ih
    · rename_i hc
      exact .plain (fun h => hc (.inl h)) (fun h => hc (.inr h)) ih

theorem literalText_print {literal : Literal} (h : literal.isPrintable = true) :
    LiteralText literal literal.print := by
  cases literal with
  | text s => exact .quoted (.inl rfl) (quotedText_escaped s)
  | number => cases h
  | flag b =>
    cases b with
    | true => exact .word (by decide) .yes
    | false => exact .word (by decide) .no
  | null => exact .word (by decide) .null

theorem pathText_printPath {path : List String} (hne : path ≠ [])
    (hsegments : ∀ segment ∈ path, IsRun isNameChar segment.toList) :
    PathText path (Predicate.printPath path) := by
  fun_induction Predicate.printPath path with
  | case1 => exact absurd rfl hne
  | case2 segment =>
    have hpath := PathText.last (hsegments segment List.mem_cons_self)
    rwa [String.ofList_toList] at hpath
  | case3 segment path hpath ih =>
    have hrest := ih hpath fun s hs => hsegments s (List.mem_cons_of_mem _ hs)
    have hpath := PathText.dot (hsegments segment List.mem_cons_self) hrest
    rwa [String.ofList_toList] at hpath

theorem attributeText_print {p : Predicate} (h : p.isPrintable = true) :
    AttributeText p p.print := by
  obtain ⟨path, test⟩ := p
  simp only [Predicate.isPrintable, Bool.and_eq_true, Bool.not_eq_true', List.isEmpty_eq_false_iff,
    List.all_eq_true, decide_eq_true_eq] at h
  obtain ⟨⟨hne, hsegments⟩, htest⟩ := h
  have hpath := pathText_printPath hne hsegments
  cases test with
  | none =>
    change AttributeText _ ('[' :: ([] ++ (Predicate.printPath path ++ ([] ++ [']']))))
    exact .present rfl hpath rfl
  | some test =>
    obtain ⟨operator, literal⟩ := test
    rw [Predicate.print, Predicate.printTest, List.append_assoc]
    exact .compact hpath operator (literalText_print htest)

theorem attributesText_print {predicates : List Predicate}
    (h : ∀ p ∈ predicates, p.isPrintable = true) :
    AttributesText predicates (predicates.flatMap Predicate.print) := by
  induction predicates with
  | nil => exact .nil
  | cons p predicates ih =>
    rw [List.flatMap_cons]
    exact .cons (attributeText_print (h p List.mem_cons_self))
      (ih fun q hq => h q (List.mem_cons_of_mem _ hq))

theorem compoundText_print {compound : Compound} (h : compound.isPrintable = true) :
    CompoundText compound compound.print := by
  obtain ⟨kind, predicates⟩ := compound
  simp only [Compound.isPrintable, Bool.and_eq_true, List.all_eq_true] at h
  have hattributes := attributesText_print h.2
  cases kind with
  | none => exact .intro .star hattributes (by simp)
  | some name =>
    obtain ⟨kind, hknown, rfl⟩ := isKnownType_iff.mp h.1
    refine .intro (.name hknown) hattributes ?_
    intro hnil
    exact (typeName_isRun kind).1 (List.append_eq_nil_iff.mp hnil).1

theorem combinatorText_print (combinator : Combinator) :
    CombinatorText combinator combinator.print := by
  cases combinator with
  | child =>
    change CombinatorText _ ([' '] ++ '>' :: [' '])
    exact .child (by decide) (by decide)
  | descendant => exact .descendant (by decide) (by decide)

theorem StepsText.snoc {steps : List (Combinator × Compound)} {combinator : Combinator}
    {compound : Compound} {text joint last : Text} (h : StepsText steps text)
    (hjoint : CombinatorText combinator joint) (hlast : CompoundText compound last) :
    StepsText (steps ++ [(combinator, compound)]) (text ++ (joint ++ last)) := by
  induction h with
  | nil =>
    have h := StepsText.cons hjoint hlast .nil
    rwa [List.append_nil] at h
  | cons hjoint' htext _ ih =>
    rw [List.append_assoc, List.append_assoc]
    exact .cons hjoint' htext ih

theorem SelectorText.snoc {compounds : List Compound} {combinators : List Combinator}
    {combinator : Combinator} {compound : Compound} {text joint last : Text}
    (h : SelectorText compounds combinators text) (hjoint : CombinatorText combinator joint)
    (hlast : CompoundText compound last) :
    SelectorText (compounds ++ [compound]) (combinators ++ [combinator])
      (text ++ (joint ++ last)) := by
  cases h with
  | intro hfirst hsteps =>
    have h := SelectorText.intro hfirst (hsteps.snoc hjoint hlast)
    rw [List.map_append, List.map_append] at h
    rw [List.append_assoc]
    exact h

/-- What is printed is a form of what was meant. -/
theorem selectorText_print (s : Selector) (h : s.isPrintable = true) :
    SelectorText s.compounds s.combinators s.print.toList := by
  obtain ⟨pattern, subject, context⟩ := s
  rw [print, String.toList_ofList]
  induction context generalizing subject with
  | nil =>
    have hsubject : subject.isPrintable = true := by simpa [isPrintable, compounds] using h
    have htext := SelectorText.intro (compoundText_print hsubject) .nil
    rwa [List.append_nil] at htext
  | cons step context ih =>
    obtain ⟨combinator, above⟩ := step
    have hparts : isPrintable ⟨pattern, above, context⟩ = true ∧ subject.isPrintable = true := by
      simpa [isPrintable, compounds, and_assoc] using h
    have htext := (ih above hparts.1).snoc (combinatorText_print combinator)
      (compoundText_print hparts.2)
    simpa [compounds, combinators, printChain] using htext

/-- A pattern compiles exactly if it has a form in the grammar, to the compounds and combinators of
that form, one combinator fewer than compounds; and what is printed compiles back to what was
printed. -/
theorem compile_accepts_exactly :
    (∀ (pattern : String) (s : Selector), compile pattern = .ok s ↔
      s.pattern = pattern ∧ PatternText s.compounds s.combinators pattern.toList) ∧
    (∀ (pattern : String) (compounds : List Compound) (combinators : List Combinator),
      PatternText compounds combinators pattern.toList →
      compounds.length = combinators.length + 1 ∧
        ∃ s, compile pattern = .ok s ∧ s.compounds = compounds ∧ s.combinators = combinators) ∧
    ∀ s : Selector, s.isPrintable = true →
      compile s.print = .ok ⟨s.print, s.subject, s.context⟩ := by
  refine ⟨fun _ _ => compile_eq_ok_iff, ?_, ?_⟩
  · intro pattern compounds combinators htext
    obtain ⟨s, hs, rfl, rfl⟩ := compile_complete htext
    exact ⟨s.length_compounds, s, hs, rfl, rfl⟩
  · intro s h
    exact compile_eq_ok_iff.mpr ⟨rfl, .compact (selectorText_print s h)⟩

/-- Brackets, quotes, backslashes and blanks in a text, and all that a selector can ask for. -/
def wrappedCall : Selector where
  pattern := ""
  subject :=
    ⟨none, [⟨["callee", "name"], some (.ne, .text "a\\\"] > 'b".toList)⟩, ⟨["optional"], none⟩]⟩
  context :=
    [(.descendant, ⟨some "BlockStatement", []⟩),
      (.child, ⟨some "ArrowFunctionExpression", [⟨["async"], some (.eq, .flag true)⟩]⟩)]

theorem compile_accepts_exactly_wrappedCall :
    wrappedCall.isPrintable = true ∧
      wrappedCall.print = "ArrowFunctionExpression[async=true] > BlockStatement "
        ++ "*[callee.name!=\"a\\\\\\\"] > 'b\"][optional]" ∧
      compile wrappedCall.print =
        .ok ⟨wrappedCall.print, wrappedCall.subject, wrappedCall.context⟩ := by
  have hprintable : wrappedCall.isPrintable = true := by decide +kernel
  exact ⟨hprintable, by decide +kernel, compile_accepts_exactly.2.2 wrappedCall hprintable⟩

end Selector

end ScriptLint

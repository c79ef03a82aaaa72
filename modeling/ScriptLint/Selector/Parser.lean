import ScriptLint.Number.Reader
import ScriptLint.Selector.Basic
import ScriptLint.Text.Blank
import ScriptLint.Tree.Kind

/-!
Reading selector patterns, after this grammar:

    selector   := compound (combinator compound)*
    combinator := blank* '>' blank* | blank+
    compound   := (type | '*')? attribute*            not empty
    attribute  := '[' blank* path blank* (operator blank* literal blank*)? ']'
    path       := segment ('.' segment)*
    operator   := '=' | '!=' | '>' | '<' | '>=' | '<='
    literal    := quoted text | word

Blanks around the whole are allowed. A word is `true`, `false` or `null`, or else a number if it
reads as one, or else a text. Each reader takes the rest of the pattern and gives what it has read
and the rest after it; where it fails it says where and for want of what.
-/
namespace ScriptLint.Selector

inductive Failure where
  | malformed (rest : Text) (expected : Expected)
  | unknownKind (name : Text)
  deriving DecidableEq, Repr

def isNameChar (c : Char) : Bool := c.isAlphanum || c == '_' || c == '$'

def isWordChar (c : Char) : Bool := isNameChar c || c == '.' || c == '-' || c == '+'

def skipBlanks (cs : Text) : Text := cs.dropWhile Text.isBlank

/-- A path; the characters of the segment read so far come last first. -/
def readPath (segment : Text) : Text → Except Failure (List String × Text)
  | [] =>
    if segment = [] then .error (.malformed [] .attributeName)
    else .ok ([.ofList segment.reverse], [])
  | c :: rest =>
    if isNameChar c then readPath (c :: segment) rest
    else if segment = [] then .error (.malformed (c :: rest) .attributeName)
    else if c = '.' then do
      let (segments, rest) ← readPath [] rest
      .ok (.ofList segment.reverse :: segments, rest)
    else .ok ([.ofList segment.reverse], c :: rest)

/-- An operator; the longer ones are tried first. -/
def readOperator : Text → Except Failure (Operator × Text)
  | '!' :: '=' :: rest => .ok (.ne, rest)
  | '>' :: '=' :: rest => .ok (.ge, rest)
  | '<' :: '=' :: rest => .ok (.le, rest)
  | '=' :: rest => .ok (.eq, rest)
  | '>' :: rest => .ok (.gt, rest)
  | '<' :: rest => .ok (.lt, rest)
  | rest => .error (.malformed rest .operator)

/-- The rest of a quoted text after its opening quote. A backslash stands for the character after
it. -/
def readQuoted (quote : Char) (acc : Text) : Text → Except Failure (Text × Text)
  | [] => .error (.malformed [] .closingQuote)
  | [c] =>
    if c ≠ '\\' ∧ c = quote then .ok (acc.reverse, []) else .error (.malformed [] .closingQuote)
  | c :: d :: rest =>
    if c = '\\' then readQuoted quote (d :: acc) rest
    else if c = quote then .ok (acc.reverse, d :: rest)
    else readQuoted quote (c :: acc) (d :: rest)

/-- What a word stands for. -/
def ofWord (word : Text) : Literal :=
  if word = "true".toList then .flag true
  else if word = "false".toList then .flag false
  else if word = "null".toList then .null
  else
    match Number.read? word with
    | some x => .number x
    | none => .text word

def readLiteral (cs : Text) : Except Failure (Literal × Text) :=
  match cs with
  | '"' :: rest => do
    let (s, rest) ← readQuoted '"' [] rest
    .ok (.text s, rest)
  | '\'' :: rest => do
    let (s, rest) ← readQuoted '\'' [] rest
    .ok (.text s, rest)
  | _ =>
    match cs.takeWhile isWordChar with
    | [] => .error (.malformed cs .value)
    | word => .ok (ofWord word, cs.dropWhile isWordChar)

/-- The rest of an attribute after its opening bracket. -/
def readPredicate (cs : Text) : Except Failure (Predicate × Text) := do
  let (path, rest) ← readPath [] (skipBlanks cs)
  match skipBlanks rest with
  | ']' :: rest => .ok (⟨path, none⟩, rest)
  | rest =>
    let (operator, rest) ← readOperator rest
    let (literal, rest) ← readLiteral (skipBlanks rest)
    match skipBlanks rest with
    | ']' :: rest => .ok (⟨path, some (operator, literal)⟩, rest)
    | rest => .error (.malformed rest .closingBracket)

/-- Attributes one after another, at most `fuel` of them. -/
def readPredicates : (fuel : Nat) → Text → Except Failure (List Predicate × Text)
  | fuel + 1, '[' :: rest => do
    let (predicate, rest) ← readPredicate rest
    let (predicates, rest) ← readPredicates fuel rest
    .ok (predicate :: predicates, rest)
  | _, rest => .ok ([], rest)

/-- The name is one that selectors may ask for. -/
def isKnownType (name : String) : Bool :=
  NodeKind.all.any fun kind => kind != .unknown && kind.typeName == name

/-- The type that a compound asks for. Without a name or a star nothing is read. -/
def readType (cs : Text) : Except Failure (Option String × Text) :=
  match cs with
  | '*' :: rest => .ok (none, rest)
  | _ =>
    match cs.takeWhile isNameChar with
    | [] => .ok (none, cs)
    | name =>
      if isKnownType (.ofList name) then .ok (some (.ofList name), cs.dropWhile isNameChar)
      else .error (.unknownKind name)

def readCompound (cs : Text) : Except Failure (Compound × Text) := do
  let (kind, rest) ← readType cs
  let (predicates, rest) ← readPredicates rest.length rest
  if rest = cs then .error (.malformed cs .compound) else .ok (⟨kind, predicates⟩, rest)

/-- Combinators with their compounds up to the end, at most `fuel` of them. -/
def readSteps : (fuel : Nat) → Text → Except Failure (List (Combinator × Compound))
  | 0, _ => .ok []
  | fuel + 1, cs =>
    match skipBlanks cs with
    | [] => .ok []
    | '>' :: rest => do
      let (compound, rest) ← readCompound (skipBlanks rest)
      let steps ← readSteps fuel rest
      .ok ((.child, compound) :: steps)
    | rest =>
      if rest = cs then .error (.malformed rest .combinator)
      else do
        let (compound, rest) ← readCompound rest
        let steps ← readSteps fuel rest
        .ok ((.descendant, compound) :: steps)

/-- The first compound and the steps from it. -/
def read (cs : Text) : Except Failure (Compound × List (Combinator × Compound)) := do
  let (first, rest) ← readCompound (skipBlanks cs)
  let steps ← readSteps (rest.length + 1) rest
  .ok (first, steps)

/-- Turn the steps round: the last compound is the subject and the others lie above it. -/
def ofSteps (pattern : String) (first : Compound) (steps : List (Combinator × Compound)) :
    Selector :=
  steps.foldl
    (fun s (combinator, compound) => ⟨s.pattern, compound, (combinator, s.subject) :: s.context⟩)
    ⟨pattern, first, []⟩

/-- Compile a pattern. A failure is placed by the bytes read before it. -/
def compile (pattern : String) : Except SelectorError Selector :=
  match read pattern.toList with
  | .ok (first, steps) => .ok (ofSteps pattern first steps)
  | .error (.malformed rest expected) =>
    .error (.malformed pattern (Text.width pattern.toList - Text.width rest) expected)
  | .error (.unknownKind name) => .error (.unknownKind pattern (.ofList name))

end ScriptLint.Selector

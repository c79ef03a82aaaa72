import ScriptLint.Tree.Element
import ScriptLint.Tree.Kind

/-!
How each construct is indexed: its kind, the slots it offers under which names, in the order in
which they are filled, and its flags. A slot is filled with the node that has the span of a member,
with the nodes of a list of spans, or with the first child of a kind. Constructs that are not
listed have the kind `unknown` and neither slots nor flags.
-/
namespace ScriptLint

/-- How a slot is filled. -/
inductive SlotRule where
  | one (member : String)
  | many (member : String)
  | childOf (kind : NodeKind)
  deriving DecidableEq, Repr

/-- Where the value of a flag comes from. -/
inductive FlagRule where
  | member (name : String)
  | fixed (value : Bool)
  deriving DecidableEq, Repr

structure Layout where
  kind : NodeKind
  slots : List (String × SlotRule) := []
  flags : List (String × FlagRule) := []
  deriving DecidableEq, Repr

namespace Layout

/-- A slot named like its member. -/
def one (name : String) : String × SlotRule := (name, .one name)

def many (name : String) : String × SlotRule := (name, .many name)

def flag (name : String) : String × FlagRule := (name, .member name)

/-- A member access; only one of its forms is computed. -/
def access (property : String) (computed : Bool) : Layout :=
  { kind := .memberExpression
    slots := [one "object", ("property", .one property)]
    flags := [("computed", .fixed computed), flag "optional"] }

/-- The constructs with neither slots nor flags. -/
def plain : List (String × NodeKind) := [
  ("IdentifierReference", .identifierReference), ("BindingIdentifier", .bindingIdentifier),
  ("IdentifierName", .identifierName), ("StringLiteral", .stringLiteral),
  ("NumericLiteral", .numericLiteral), ("BooleanLiteral", .booleanLiteral),
  ("NullLiteral", .nullLiteral), ("RegExpLiteral", .regExpLiteral),
  ("PrivateIdentifier", .privateIdentifier), ("TSAnyKeyword", .anyKeyword),
  ("TSUnknownKeyword", .unknownKeyword), ("TSNeverKeyword", .neverKeyword),
  ("TSVoidKeyword", .voidKeyword), ("TSStringKeyword", .stringKeyword),
  ("TSNumberKeyword", .numberKeyword), ("TSBooleanKeyword", .booleanKeyword),
  ("TSNullKeyword", .nullKeyword), ("TSUndefinedKeyword", .undefinedKeyword),
  ("JSXText", .jsxText)]

def expressions : List (String × Layout) := [
  ("TemplateLiteral", { kind := .templateLiteral, slots := [many "expressions"] }),
  ("ArrowFunctionExpression",
    { kind := .arrowFunction
      slots := [many "params", one "body", ("returnType", .one "return_type")]
      flags := [flag "async", flag "expression"] }),
  ("CallExpression",
    { kind := .callExpression
      slots := [one "callee", many "arguments"], flags := [flag "optional"] }),
  ("NewExpression", { kind := .newExpression, slots := [one "callee", many "arguments"] }),
  ("ObjectExpression", { kind := .objectExpression, slots := [many "properties"] }),
  ("ObjectProperty",
    { kind := .objectProperty
      slots := [one "key", one "value"]
      flags := [flag "shorthand", flag "computed", flag "method"] }),
  ("ArrayExpression", { kind := .arrayExpression, slots := [many "elements"] }),
  ("ConditionalExpression",
    { kind := .conditionalExpression
      slots := [one "test", one "consequent", one "alternate"] }),
  ("BinaryExpression", { kind := .binaryExpression, slots := [one "left", one "right"] }),
  ("LogicalExpression", { kind := .logicalExpression, slots := [one "left", one "right"] }),
  ("AssignmentExpression", { kind := .assignmentExpression, slots := [one "left", one "right"] }),
  ("ParenthesizedExpression", { kind := .parenthesizedExpression, slots := [one "expression"] }),
  ("StaticMemberExpression", access "property" false),
  ("ComputedMemberExpression", access "expression" true),
  ("PrivateFieldExpression", access "field" false),
  ("SpreadElement", { kind := .spreadElement, slots := [one "argument"] }),
  ("UnaryExpression", { kind := .unaryExpression, slots := [one "argument"] })]

def statements : List (String × Layout) := [
  ("Program", { kind := .program, slots := [many "body"] }),
  ("BlockStatement", { kind := .blockStatement, slots := [many "body"] }),
  ("ExpressionStatement", { kind := .expressionStatement, slots := [one "expression"] }),
  ("IfStatement",
    { kind := .ifStatement, slots := [one "test", one "consequent", one "alternate"] }),
  ("ReturnStatement", { kind := .returnStatement, slots := [one "argument"] }),
  ("ForStatement", { kind := .forStatement, slots := [one "body"] }),
  ("WhileStatement", { kind := .whileStatement, slots := [one "test", one "body"] }),
  ("VariableDeclaration", { kind := .variableDeclaration, slots := [many "declarations"] }),
  ("VariableDeclarator", { kind := .variableDeclarator, slots := [one "id", one "init"] }),
  ("Function",
    { kind := .declareFunction
      slots := [one "id", many "params", one "body", ("returnType", .one "return_type")]
      flags := [flag "async", flag "generator"] }),
  ("FunctionBody", { kind := .functionBody, slots := [("body", .many "statements")] }),
  ("FormalParameters", { kind := .formalParameters, slots := [many "items"] }),
  ("FormalParameter", { kind := .formalParameter, slots := [one "pattern"] }),
  ("Class", { kind := .classDefinition, slots := [one "id"] })]

def modules : List (String × Layout) := [
  ("ImportDeclaration",
    { kind := .importDeclaration, slots := [many "specifiers", one "source"] }),
  ("ImportSpecifier", { kind := .importSpecifier, slots := [one "imported", one "local"] }),
  ("ImportDefaultSpecifier", { kind := .importDefaultSpecifier, slots := [one "local"] }),
  ("ImportNamespaceSpecifier", { kind := .importNamespaceSpecifier, slots := [one "local"] }),
  ("ExportNamedDeclaration",
    { kind := .exportNamedDeclaration
      slots := [one "declaration", many "specifiers", one "source"] }),
  ("ExportDefaultDeclaration",
    { kind := .exportDefaultDeclaration, slots := [one "declaration"] }),
  ("ExportAllDeclaration",
    { kind := .exportAllDeclaration, slots := [one "exported", one "source"] }),
  ("ExportSpecifier", { kind := .exportSpecifier, slots := [one "local", one "exported"] })]

def types : List (String × Layout) := [
  ("TSTypeAliasDeclaration",
    { kind := .typeAlias, slots := [one "id", ("typeAnnotation", .one "type_annotation")] }),
  ("TSInterfaceDeclaration",
    { kind := .interfaceDeclaration, slots := [one "id", one "body"] }),
  ("TSInterfaceBody", { kind := .interfaceBody, slots := [many "body"] }),
  ("TSPropertySignature",
    { kind := .propertySignature
      slots := [one "key", ("typeAnnotation", .one "type_annotation")]
      flags := [flag "optional", flag "readonly", flag "computed"] }),
  ("TSTypeLiteral", { kind := .typeLiteral, slots := [many "members"] }),
  ("TSTypeReference",
    { kind := .typeReference
      slots := [("typeName", .one "type_name"), ("typeArguments", .childOf .typeArguments)] }),
  ("TSQualifiedName", { kind := .qualifiedName, slots := [one "left", one "right"] }),
  ("TSTypeAnnotation",
    { kind := .annotatedType, slots := [("typeAnnotation", .one "type_annotation")] }),
  ("TSTypeParameterInstantiation", { kind := .typeArguments, slots := [many "params"] }),
  ("TSUnionType", { kind := .unionType, slots := [many "types"] }),
  ("TSAsExpression",
    { kind := .asExpression
      slots := [one "expression", ("typeAnnotation", .one "type_annotation")] }),
  ("TSSatisfiesExpression",
    { kind := .satisfiesExpression
      slots := [one "expression", ("typeAnnotation", .one "type_annotation")] }),
  ("TSNonNullExpression", { kind := .nonNullExpression, slots := [one "expression"] }),
  ("TSEnumDeclaration", { kind := .enumDeclaration, slots := [one "id"] })]

def markup : List (String × Layout) := [
  ("JSXElement",
    { kind := .jsxElement
      slots := [("openingElement", .one "opening_element"), many "children"] }),
  ("JSXFragment", { kind := .jsxFragment, slots := [many "children"] }),
  ("JSXOpeningElement",
    { kind := .jsxOpeningElement, slots := [one "name", many "attributes"] }),
  ("JSXExpressionContainer", { kind := .jsxExpressionContainer, slots := [one "expression"] })]

def table : List (String × Layout) :=
  plain.map (fun (name, kind) => (name, { kind := kind })) ++ expressions ++ statements ++ modules
    ++ types ++ markup

def ofConstruct (construct : String) : Layout :=
  (table.lookup construct).getD { kind := .unknown }

end Layout

/-- A slot that waits for the nodes below its owner. -/
inductive Pending where
  | one (span : Span)
  | many (spans : List Span)
  | childOf (kind : NodeKind)
  deriving DecidableEq, Repr

/-- What indexing takes from a construct. -/
structure Description where
  kind : NodeKind
  pending : List (String × Pending)
  flags : List (String × Bool)
  symbol : Option Nat
  deriving DecidableEq, Repr

namespace Element

/-- A function is told by its form; the body of an arrow function without braces is an
expression. -/
def kind (outer : Option Element) (e : Element) : NodeKind :=
  match e.construct with
  | "Function" =>
    match e.word? "type" with
    | some "FunctionDeclaration" => .functionDeclaration
    | some "FunctionExpression" => .functionExpression
    | _ => .declareFunction
  | "FunctionBody" =>
    match outer with
    | some o =>
      if o.construct = "ArrowFunctionExpression" ∧ o.isSet "expression" then .expressionBody
      else .functionBody
    | none => .functionBody
  | construct => (Layout.ofConstruct construct).kind

/-- A slot is pending when its member is there; a list without a member is empty. -/
def pending? (e : Element) : String × SlotRule → Option (String × Pending)
  | (name, .one member) => (e.part? member).map fun span => (name, .one span)
  | (name, .many member) => some (name, .many (e.parts member))
  | (name, .childOf kind) => some (name, .childOf kind)

def flagValue (e : Element) : FlagRule → Bool
  | .member name => e.isSet name
  | .fixed value => value

/-- The description of a construct below another one. Without name resolution references carry no
symbol, while declared names keep theirs. -/
def describe (resolved : Bool) (outer : Option Element) (e : Element) : Description :=
  let layout := Layout.ofConstruct e.construct
  let kind := e.kind outer
  { kind
    pending := layout.slots.filterMap e.pending?
    flags := layout.flags.map fun (name, rule) => (name, e.flagValue rule)
    symbol :=
      if kind = .bindingIdentifier ∨ (kind = .identifierReference ∧ resolved) then e.symbol?
      else none }

end Element

end ScriptLint

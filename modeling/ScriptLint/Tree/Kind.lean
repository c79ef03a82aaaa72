/-!
The kinds of syntax nodes. A kind has a name of its own and a type name, the one that selectors
use; several kinds share a type name, as all identifiers do. Syntax that is not told apart has the
kind `unknown`, which no selector can name.
-/
namespace ScriptLint

inductive NodeKind where
  | program | identifierReference | bindingIdentifier | identifierName
  | stringLiteral | numericLiteral | booleanLiteral | nullLiteral | regExpLiteral | templateLiteral
  | blockStatement | expressionStatement | ifStatement | returnStatement | forStatement
  | whileStatement
  | variableDeclaration | variableDeclarator
  | functionDeclaration | functionExpression | declareFunction | functionBody | expressionBody
  | formalParameters | formalParameter | classDefinition
  | arrowFunction | callExpression | newExpression | objectExpression | objectProperty
  | arrayExpression | conditionalExpression | binaryExpression | logicalExpression
  | assignmentExpression | parenthesizedExpression | memberExpression | spreadElement
  | unaryExpression | privateIdentifier
  | importDeclaration | importSpecifier | importDefaultSpecifier | importNamespaceSpecifier
  | exportNamedDeclaration | exportDefaultDeclaration | exportAllDeclaration | exportSpecifier
  | typeAlias | interfaceDeclaration | interfaceBody | propertySignature | typeLiteral
  | typeReference | qualifiedName | annotatedType | typeArguments | unionType
  | asExpression | satisfiesExpression | nonNullExpression | enumDeclaration
  | anyKeyword | unknownKeyword | neverKeyword | voidKeyword | stringKeyword | numberKeyword
  | booleanKeyword | nullKeyword | undefinedKeyword
  | jsxElement | jsxFragment | jsxOpeningElement | jsxText | jsxExpressionContainer
  | unknown
  deriving DecidableEq, Repr, Inhabited

namespace NodeKind

/-- Every kind, in order of declaration. -/
def all : List NodeKind := [
  .program, .identifierReference, .bindingIdentifier, .identifierName,
  .stringLiteral, .numericLiteral, .booleanLiteral, .nullLiteral, .regExpLiteral,
  .templateLiteral, .blockStatement, .expressionStatement, .ifStatement, .returnStatement,
  .forStatement, .whileStatement, .variableDeclaration, .variableDeclarator,
  .functionDeclaration, .functionExpression, .declareFunction, .functionBody, .expressionBody,
  .formalParameters, .formalParameter, .classDefinition, .arrowFunction, .callExpression,
  .newExpression, .objectExpression, .objectProperty, .arrayExpression, .conditionalExpression,
  .binaryExpression, .logicalExpression, .assignmentExpression, .parenthesizedExpression,
  .memberExpression, .spreadElement, .unaryExpression, .privateIdentifier,
  .importDeclaration, .importSpecifier, .importDefaultSpecifier, .importNamespaceSpecifier,
  .exportNamedDeclaration, .exportDefaultDeclaration, .exportAllDeclaration, .exportSpecifier,
  .typeAlias, .interfaceDeclaration, .interfaceBody, .propertySignature, .typeLiteral,
  .typeReference, .qualifiedName, .annotatedType, .typeArguments, .unionType, .asExpression,
  .satisfiesExpression, .nonNullExpression, .enumDeclaration, .anyKeyword, .unknownKeyword,
  .neverKeyword, .voidKeyword, .stringKeyword, .numberKeyword, .booleanKeyword, .nullKeyword,
  .undefinedKeyword, .jsxElement, .jsxFragment, .jsxOpeningElement, .jsxText,
  .jsxExpressionContainer, .unknown]

theorem mem_all (k : NodeKind) : k ∈ all := by
  cases k <;> decide

def name : NodeKind → String
  | .program => "Program"
  | .identifierReference => "IdentifierReference"
  | .bindingIdentifier => "BindingIdentifier"
  | .identifierName => "IdentifierName"
  | .stringLiteral => "StringLiteral"
  | .numericLiteral => "NumericLiteral"
  | .booleanLiteral => "BooleanLiteral"
  | .nullLiteral => "NullLiteral"
  | .regExpLiteral => "RegExpLiteral"
  | .templateLiteral => "TemplateLiteral"
  | .blockStatement => "BlockStatement"
  | .expressionStatement => "ExpressionStatement"
  | .ifStatement => "IfStatement"
  | .returnStatement => "ReturnStatement"
  | .forStatement => "ForStatement"
  | .whileStatement => "WhileStatement"
  | .variableDeclaration => "VariableDeclaration"
  | .variableDeclarator => "VariableDeclarator"
  | .functionDeclaration => "FunctionDeclaration"
  | .functionExpression => "FunctionExpression"
  | .declareFunction => "TSDeclareFunction"
  | .functionBody => "FunctionBody"
  | .expressionBody => "ExpressionBody"
  | .formalParameters => "FormalParameters"
  | .formalParameter => "FormalParameter"
  | .classDefinition => "Class"
  | .arrowFunction => "ArrowFunctionExpression"
  | .callExpression => "CallExpression"
  | .newExpression => "NewExpression"
  | .objectExpression => "ObjectExpression"
  | .objectProperty => "ObjectProperty"
  | .arrayExpression => "ArrayExpression"
  | .conditionalExpression => "ConditionalExpression"
  | .binaryExpression => "BinaryExpression"
  | .logicalExpression => "LogicalExpression"
  | .assignmentExpression => "AssignmentExpression"
  | .parenthesizedExpression => "ParenthesizedExpression"
  | .memberExpression => "MemberExpression"
  | .spreadElement => "SpreadElement"
  | .unaryExpression => "UnaryExpression"
  | .privateIdentifier => "PrivateIdentifier"
  | .importDeclaration => "ImportDeclaration"
  | .importSpecifier => "ImportSpecifier"
  | .importDefaultSpecifier => "ImportDefaultSpecifier"
  | .importNamespaceSpecifier => "ImportNamespaceSpecifier"
  | .exportNamedDeclaration => "ExportNamedDeclaration"
  | .exportDefaultDeclaration => "ExportDefaultDeclaration"
  | .exportAllDeclaration => "ExportAllDeclaration"
  | .exportSpecifier => "ExportSpecifier"
  | .typeAlias => "TSTypeAliasDeclaration"
  | .interfaceDeclaration => "TSInterfaceDeclaration"
  | .interfaceBody => "TSInterfaceBody"
  | .propertySignature => "TSPropertySignature"
  | .typeLiteral => "TSTypeLiteral"
  | .typeReference => "TSTypeReference"
  | .qualifiedName => "TSQualifiedName"
  | .annotatedType => "TSTypeAnnotation"
  | .typeArguments => "TSTypeParameterInstantiation"
  | .unionType => "TSUnionType"
  | .asExpression => "TSAsExpression"
  | .satisfiesExpression => "TSSatisfiesExpression"
  | .nonNullExpression => "TSNonNullExpression"
  | .enumDeclaration => "TSEnumDeclaration"
  | .anyKeyword => "TSAnyKeyword"
  | .unknownKeyword => "TSUnknownKeyword"
  | .neverKeyword => "TSNeverKeyword"
  | .voidKeyword => "TSVoidKeyword"
  | .stringKeyword => "TSStringKeyword"
  | .numberKeyword => "TSNumberKeyword"
  | .booleanKeyword => "TSBooleanKeyword"
  | .nullKeyword => "TSNullKeyword"
  | .undefinedKeyword => "TSUndefinedKeyword"
  | .jsxElement => "JSXElement"
  | .jsxFragment => "JSXFragment"
  | .jsxOpeningElement => "JSXOpeningElement"
  | .jsxText => "JSXText"
  | .jsxExpressionContainer => "JSXExpressionContainer"
  | .unknown => "Unknown"

def ofName? (name : String) : Option NodeKind := all.find? (·.name == name)

def isIdentifier : NodeKind → Bool
  | .identifierReference | .bindingIdentifier | .identifierName => true
  | _ => false

def isLiteral : NodeKind → Bool
  | .stringLiteral | .numericLiteral | .booleanLiteral | .nullLiteral | .regExpLiteral => true
  | _ => false

/-- The name by which selectors know the kind. -/
def typeName (k : NodeKind) : String :=
  if k.isIdentifier then "Identifier"
  else if k.isLiteral then "Literal"
  else if k = .functionBody then "BlockStatement"
  else if k = .objectProperty then "Property"
  else k.name

def isTypeName (name : String) : Bool := all.any (·.typeName == name)

/-- Whatever opens a parameter list. -/
def isFunction : NodeKind → Bool
  | .functionDeclaration | .functionExpression | .declareFunction | .arrowFunction => true
  | _ => false

/-- Declarations that introduce a single named binding. -/
def isDeclaration : NodeKind → Bool
  | .variableDeclarator | .functionDeclaration | .declareFunction | .classDefinition
  | .formalParameter | .typeAlias | .interfaceDeclaration | .enumDeclaration
  | .importSpecifier | .importDefaultSpecifier | .importNamespaceSpecifier => true
  | _ => false

/-- Nodes whose children are a list of statements. -/
def isStatementContainer : NodeKind → Bool
  | .program | .blockStatement | .functionBody => true
  | _ => false

def isExport : NodeKind → Bool
  | .exportNamedDeclaration | .exportDefaultDeclaration | .exportAllDeclaration => true
  | _ => false

def isImportSpecifier : NodeKind → Bool
  | .importSpecifier | .importDefaultSpecifier | .importNamespaceSpecifier => true
  | _ => false

/-- Kinds whose text the lexer takes whole. -/
def isReserved : NodeKind → Bool
  | .stringLiteral | .numericLiteral | .regExpLiteral | .templateLiteral | .jsxText => true
  | _ => false

end NodeKind

end ScriptLint

import ScriptLint.Report.Diagnostic
import ScriptLint.Scope.Alias
import ScriptLint.Scope.Reference

/-!
The rule `no-single-use-type`: local type aliases and interfaces that are read just once could be
written where they are read. Types that lead back to themselves cannot, and are let be.
-/
namespace ScriptLint

structure SingleUseType where
  /-- Types whose names end in one of these are never reported. -/
  ignoredSuffixes : List String := []
  deriving DecidableEq, Repr

namespace SingleUseType

def name : String := "no-single-use-type"

def selectors : List String := ["TSTypeAliasDeclaration", "TSInterfaceDeclaration"]

def describe : Role → String
  | .functionParameter => "as a parameter type"
  | .returnType => "as a return type"
  | .exported => "in an export"
  | .typeArgument => "as a type argument"
  | .initializer => "in an initializer"
  | .other => "in another declaration"

/-- The only read of a declaration that could be replaced by the type itself. -/
def onlyUse? (doc : Document) (id : NodeId) (binding : Binding) : Option Reference :=
  match binding.references with
  | [reference] =>
    if doc.isReadOnce id && !(doc.aliasChain id).cycle &&
        !(doc.ancestors reference.identifier).contains id then
      some reference
    else none
  | _ => none

def check (rule : SingleUseType) (doc : Document) (id : NodeId) : Option Diagnostic := do
  let binding ← doc.binding? id
  guard (!hasIgnoredSuffix binding.name rule.ignoredSuffixes)
  let reference ← onlyUse? doc id binding
  let identifier ← doc.slotNode? id "id"
  let diagnostic := Diagnostic.ofTemplate name (doc.span identifier) "singleUse"
    ("Type '\x7b\x7bname\x7d\x7d' is only used once (\x7b\x7brole\x7d\x7d). "
      ++ "Consider inlining it.")
    [("name", .ofList binding.name), ("role", describe reference.role)]
  some (diagnostic.withLabel (doc.span reference.site) "only use")

end SingleUseType

end ScriptLint

import ScriptLint.Scope.Binding

/-!
Chains of type aliases. An alias leads on if it stands for a plain reference, without arguments,
to a declared name.
-/
namespace ScriptLint

structure AliasChain where
  /-- The declarations visited, the one asked about first. -/
  declarations : List NodeId
  /-- The last of them leads back to one of them. -/
  cycle : Bool
  deriving DecidableEq, Repr

def AliasChain.target? (chain : AliasChain) : Option NodeId := chain.declarations.getLast?

namespace Document

/-- The declaration that an alias stands for. -/
def aliased? (doc : Document) (id : NodeId) : Option NodeId := do
  guard (doc.kind id = .typeAlias)
  let type ← doc.slotNode? id "typeAnnotation"
  guard (doc.kind type = .typeReference)
  guard (doc.firstChildOfKind? type .typeArguments).isNone
  let name ← doc.slotNode? type "typeName"
  let symbol ← doc.symbol name
  doc.declarationOf? symbol

/-- Follow aliases from `current`, at most `fuel` times; `before` holds the declarations already
visited, last first. -/
def followAliases (doc : Document) (before : List NodeId) :
    (fuel : Nat) → (current : NodeId) → AliasChain
  | 0, current => ⟨(current :: before).reverse, false⟩
  | fuel + 1, current =>
    match doc.aliased? current with
    | none => ⟨(current :: before).reverse, false⟩
    | some next =>
      if next ∈ current :: before then ⟨(current :: before).reverse, true⟩
      else doc.followAliases (current :: before) fuel next

/-- Follow aliases to the end or to the first repetition, which comes before there are more
declarations than nodes. -/
def aliasChain (doc : Document) (id : NodeId) : AliasChain :=
  doc.followAliases [] (doc.size + 1) id

end Document

end ScriptLint

import ScriptLint.Proofs.Scope.AliasChain
import ScriptLint.Proofs.Scope.References
import ScriptLint.Rule.SingleUseType

/-!
Recursive types and the rule `no-single-use-type`. `Document.Mentions` says that one type needs
another. A type that is read once is reported unless it mentions itself or its aliases lead on
forever, and these are all the recursive types that the rule knows
(`SingleUseType.reported_unless_directly_recursive`). Types that need themselves through others go
unnoticed (`SingleUseType.mutual_interfaces_reported`).
-/
namespace ScriptLint

namespace Document

variable {doc : Document} {id symbol : Nat} {binding : Binding}

/-- A type alias or an interface. -/
def IsType (doc : Document) (id : NodeId) : Prop :=
  doc.kind id = .typeAlias ∨ doc.kind id = .interfaceDeclaration

def Binds (doc : Document) (declaration : NodeId) (symbol : Nat) : Prop :=
  ∃ name, doc.bindingIdentifier? declaration = some name ∧ doc.symbol name = some symbol

/-- Somewhere in the one type stands an identifier that reads the symbol which the other binds. -/
def Mentions (doc : Document) (a b : NodeId) : Prop :=
  doc.IsType a ∧ doc.IsType b ∧
    ∃ symbol, doc.Binds b symbol ∧ ∃ read ∈ doc.reads symbol, doc.Within read a

theorem Binds.unique {s : Nat} (h : doc.Binds id symbol) (h' : doc.Binds id s) : symbol = s := by
  obtain ⟨name, hname, hsymbol⟩ := h
  obtain ⟨name', hname', hsymbol'⟩ := h'
  obtain rfl := Option.some.inj (hname.symm.trans hname')
  exact Option.some.inj (hsymbol.symm.trans hsymbol')

theorem binding?_eq_some (h : doc.binding? id = some binding) :
    doc.Binds id binding.symbol ∧
      binding.references = (doc.reads binding.symbol).map doc.classify := by
  simp only [binding?, Option.bind_eq_bind, Option.bind_eq_some_iff] at h
  obtain ⟨name, hname, symbol, hsymbol, hbinding⟩ := h
  obtain rfl := Option.some.inj hbinding
  exact ⟨⟨name, hname, hsymbol⟩, rfl⟩

/-- What is read once has one reference, made by one identifier. -/
theorem exists_read_of_isReadOnce (hbinding : doc.binding? id = some binding)
    (h : doc.isReadOnce id = true) :
    ∃ read, doc.reads binding.symbol = [read] ∧ binding.references = [doc.classify read] := by
  have hreferences := (binding?_eq_some hbinding).2
  simp only [isReadOnce, references, hbinding] at h
  split at h
  · rename_i reference hone
    rw [hone] at hreferences
    obtain ⟨read, hreads, rfl⟩ := List.map_eq_singleton_iff.mp hreferences.symm
    exact ⟨read, hreads, hone⟩
  · cases h

/-- A type whose symbol has one read mentions itself if it holds this read. -/
theorem mentions_self_iff (hid : doc.IsType id) (hbinds : doc.Binds id symbol) {read : Nat}
    (hreads : doc.reads symbol = [read]) : doc.Mentions id id ↔ doc.Within read id := by
  constructor
  · rintro ⟨_, _, s, hs, other, hother, hwithin⟩
    obtain rfl := hbinds.unique hs
    rw [hreads, List.mem_singleton] at hother
    exact hother ▸ hwithin
  · intro hwithin
    exact ⟨hid, hid, symbol, hbinds, read, by simp [hreads], hwithin⟩

theorem IsType.isDeclaration (h : doc.IsType id) :
    (doc.kind id).isDeclaration = true ∧ (doc.kind id).nameSlot = "id" := by
  rcases h with h | h
  · rw [h]
    exact ⟨rfl, rfl⟩
  · rw [h]
    exact ⟨rfl, rfl⟩

theorem WellFormed.exists_slotNode?_id (hdoc : doc.WellFormed) (hid : doc.IsType id)
    (h : doc.Binds id symbol) : ∃ name, doc.slotNode? id "id" = some name := by
  obtain ⟨name, hname, _⟩ := h
  obtain ⟨hdeclaration, hslot⟩ := hid.isDeclaration
  rw [hdoc.bindingIdentifier?_eq_some_iff hdeclaration, hslot] at hname
  exact ⟨name, hname.1⟩

end Document

namespace SingleUseType

variable {doc : Document} {id : Nat} {binding : Binding} {rule : SingleUseType}

theorem onlyUse?_eq_some_iff {reference : Reference} :
    onlyUse? doc id binding = some reference ↔
      binding.references = [reference] ∧ doc.isReadOnce id = true ∧
        (doc.aliasChain id).cycle = false ∧ id ∉ doc.ancestors reference.identifier := by
  rw [onlyUse?]
  split
  · rename_i only honly
    simp only [Option.ite_none_right_eq_some, Option.some.injEq, List.cons.injEq, and_true, honly]
    constructor
    · rintro ⟨htests, rfl⟩
      simpa [and_assoc] using htests
    · rintro ⟨rfl, htests⟩
      simpa [and_assoc] using htests
  · rename_i hmany
    exact iff_of_false (by simp) fun h => hmany reference h.1

/-- The only read of a type could be replaced, as far as the rule can tell. -/
theorem exists_onlyUse?_iff (hdoc : doc.WellFormed) (hid : doc.IsType id)
    (hbinding : doc.binding? id = some binding) :
    (∃ reference, onlyUse? doc id binding = some reference) ↔
      doc.isReadOnce id = true ∧ ¬ doc.Mentions id id ∧ ¬ doc.Endless id := by
  rw [← hdoc.cycle_iff_endless, Bool.not_eq_true]
  by_cases honce : doc.isReadOnce id = true
  · obtain ⟨read, hreads, hreferences⟩ := Document.exists_read_of_isReadOnce hbinding honce
    have hbinds := (Document.binding?_eq_some hbinding).1
    rw [Document.mentions_self_iff hid hbinds hreads, Document.Within, ← hdoc.mem_ancestors_iff]
    simp [onlyUse?_eq_some_iff, hreferences, honce, Document.identifier_classify, and_comm]
  · simp [onlyUse?_eq_some_iff, honce]

theorem exists_check_iff :
    (∃ d, rule.check doc id = some d) ↔
      ∃ binding, doc.binding? id = some binding ∧
        hasIgnoredSuffix binding.name rule.ignoredSuffixes = false ∧
        (∃ reference, onlyUse? doc id binding = some reference) ∧
        ∃ name, doc.slotNode? id "id" = some name := by
  simp [check, Option.bind_eq_some_iff, guard]

variable {source : Text} {file : ParsedFile} {resolved : Bool}

/-- A type is reported exactly if it is read once, under a name that is not set aside, does not
mention itself, and its aliases come to an end. So a reported type is no alias that leads back to
itself; but it may need itself through other types, one of which then holds its only read. -/
theorem reported_unless_directly_recursive (h : Document.build source file resolved = .ok doc)
    (rule : SingleUseType) (hid : doc.IsType id) :
    ((∃ d, rule.check doc id = some d) ↔
      ∃ binding, doc.binding? id = some binding ∧
        hasIgnoredSuffix binding.name rule.ignoredSuffixes = false ∧
        doc.isReadOnce id = true ∧ ¬ doc.Mentions id id ∧ ¬ doc.Endless id) ∧
    ((∃ d, rule.check doc id = some d) →
      ¬ Relation.TransGen doc.StandsFor id id ∧
        (Relation.TransGen doc.Mentions id id → ∃ other, other ≠ id ∧
          Relation.TransGen doc.Mentions id other ∧ doc.Mentions other id)) := by
  have hdoc := Document.build_wellFormed h
  have hreported : (∃ d, rule.check doc id = some d) ↔
      ∃ binding, doc.binding? id = some binding ∧
        hasIgnoredSuffix binding.name rule.ignoredSuffixes = false ∧
        doc.isReadOnce id = true ∧ ¬ doc.Mentions id id ∧ ¬ doc.Endless id := by
    rw [exists_check_iff]
    refine exists_congr fun binding => and_congr_right fun hbinding => and_congr_right fun _ => ?_
    have hbinds := (Document.binding?_eq_some hbinding).1
    rw [and_iff_left (hdoc.exists_slotNode?_id hid hbinds), exists_onlyUse?_iff hdoc hid hbinding]
  refine ⟨hreported, ?_⟩
  intro hcheck
  obtain ⟨_, _, _, _, hself, hends⟩ := hreported.mp hcheck
  refine ⟨fun hback => hends (Document.endless_of_transGen hback), ?_⟩
  intro hcycle
  obtain ⟨other, hreach, hlast⟩ := Relation.TransGen.tail'_iff.mp hcycle
  have hne : other ≠ id := by
    rintro rfl
    exact hself hlast
  exact ⟨other, hne, (Relation.reflTransGen_iff_eq_or_transGen.mp hreach).resolve_left hne, hlast⟩

/-- An alias of an alias, read by a variable. -/
def aliasedVariableText : Text := "type A = B; type B = 1; let a: A;".toList

def aliasedVariable : ParsedFile where
  tree :=
    .node ⟨"Program", ⟨0, 33⟩, [("body", .parts [⟨0, 11⟩, ⟨12, 23⟩, ⟨24, 33⟩])]⟩
      [Document.plainAlias 0 0 1,
        .node ⟨"TSTypeAliasDeclaration", ⟨12, 23⟩,
            [("id", .part ⟨17, 18⟩), ("type_annotation", .part ⟨21, 22⟩)]⟩
          [.node ⟨"BindingIdentifier", ⟨17, 18⟩, [("symbol", .symbol 1)]⟩ [],
            .node ⟨"TSLiteralType", ⟨21, 22⟩, []⟩ [.node ⟨"NumericLiteral", ⟨21, 22⟩, []⟩ []]],
        .node ⟨"VariableDeclaration", ⟨24, 33⟩, [("declarations", .parts [⟨28, 32⟩])]⟩
          [.node ⟨"VariableDeclarator", ⟨28, 32⟩, [("id", .part ⟨28, 29⟩)]⟩
            [.node ⟨"BindingIdentifier", ⟨28, 29⟩, [("symbol", .symbol 2)]⟩ [],
              .node ⟨"TSTypeAnnotation", ⟨29, 32⟩, [("type_annotation", .part ⟨31, 32⟩)]⟩
                [.node ⟨"TSTypeReference", ⟨31, 32⟩, [("type_name", .part ⟨31, 32⟩)]⟩
                  [.node ⟨"IdentifierReference", ⟨31, 32⟩, [("symbol", .symbol 0)]⟩ []]]]]]
  comments := []

theorem reported_unless_directly_recursive_aliasedVariable :
    ∃ doc, Document.build aliasedVariableText aliasedVariable true = .ok doc ∧ doc.IsType 1 ∧
      (∃ d, ({} : SingleUseType).check doc 1 = some d) ∧ ¬ doc.Mentions 1 1 ∧ ¬ doc.Endless 1 ∧
      ¬ Relation.TransGen doc.StandsFor 1 1 := by
  obtain ⟨doc, hbuild, htest⟩ :
      ∃ doc, Document.build aliasedVariableText aliasedVariable true = .ok doc ∧
        (doc.kind 1 == .typeAlias && (({} : SingleUseType).check doc 1).isSome) = true :=
    Document.exists_build_of_any (by decide +kernel)
  simp only [Bool.and_eq_true, beq_iff_eq, Option.isSome_iff_exists] at htest
  obtain ⟨hkind, hcheck⟩ := htest
  obtain ⟨hreported, hrest⟩ := reported_unless_directly_recursive hbuild {} (.inl hkind)
  obtain ⟨_, _, _, _, hself, hends⟩ := hreported.mp hcheck
  exact ⟨doc, hbuild, .inl hkind, hcheck, hself, hends, (hrest hcheck).1⟩

/-- An interface with a single member, such as `interface A { b: B }`, from the offset on. -/
def memberInterface (start symbol target : Nat) : Tree :=
  .node ⟨"TSInterfaceDeclaration", ⟨start, start + 20⟩,
      [("id", .part ⟨start + 10, start + 11⟩), ("body", .part ⟨start + 12, start + 20⟩)]⟩
    [.node ⟨"BindingIdentifier", ⟨start + 10, start + 11⟩, [("symbol", .symbol symbol)]⟩ [],
      .node ⟨"TSInterfaceBody", ⟨start + 12, start + 20⟩,
          [("body", .parts [⟨start + 14, start + 18⟩])]⟩
        [.node ⟨"TSPropertySignature", ⟨start + 14, start + 18⟩,
            [("key", .part ⟨start + 14, start + 15⟩),
              ("type_annotation", .part ⟨start + 15, start + 18⟩)]⟩
          [.node ⟨"IdentifierName", ⟨start + 14, start + 15⟩, []⟩ [],
            .node ⟨"TSTypeAnnotation", ⟨start + 15, start + 18⟩,
                [("type_annotation", .part ⟨start + 17, start + 18⟩)]⟩
              [.node ⟨"TSTypeReference", ⟨start + 17, start + 18⟩,
                  [("type_name", .part ⟨start + 17, start + 18⟩)]⟩
                [.node ⟨"IdentifierReference", ⟨start + 17, start + 18⟩,
                  [("symbol", .symbol target)]⟩ []]]]]]

/-- Two interfaces that need each other. -/
def mutualInterfacesText : Text := "interface A { b: B } interface B { a: A }".toList

def mutualInterfaces : ParsedFile where
  tree :=
    .node ⟨"Program", ⟨0, 41⟩, [("body", .parts [⟨0, 20⟩, ⟨21, 41⟩])]⟩
      [memberInterface 0 0 1, memberInterface 21 1 0]
  comments := []

/-- An interface that needs itself through another one is reported. -/
theorem mutual_interfaces_reported :
    ∃ doc, Document.build mutualInterfacesText mutualInterfaces true = .ok doc ∧ doc.IsType 1 ∧
      (∃ d, ({} : SingleUseType).check doc 1 = some d) ∧
      Relation.TransGen doc.Mentions 1 1 := by
  obtain ⟨doc, hbuild, htest⟩ :
      ∃ doc, Document.build mutualInterfacesText mutualInterfaces true = .ok doc ∧
        (doc.kind 1 == .interfaceDeclaration && doc.kind 9 == .interfaceDeclaration &&
          doc.bindingIdentifier? 1 == some 2 && doc.symbol 2 == some 0 &&
          doc.bindingIdentifier? 9 == some 10 && doc.symbol 10 == some 1 &&
          doc.reads 1 == [8] && decide (1 ∈ doc.ancestors 8) &&
          doc.reads 0 == [16] && decide (9 ∈ doc.ancestors 16) &&
          (({} : SingleUseType).check doc 1).isSome) = true :=
    Document.exists_build_of_any (by decide +kernel)
  have hdoc := Document.build_wellFormed hbuild
  simp only [Bool.and_eq_true, beq_iff_eq, decide_eq_true_eq, hdoc.mem_ancestors_iff,
    Option.isSome_iff_exists] at htest
  obtain ⟨⟨⟨⟨⟨⟨⟨⟨⟨⟨ha, hb⟩, haname⟩, hasymbol⟩, hbname⟩, hbsymbol⟩, hbread⟩, hina⟩, haread⟩, hinb⟩,
    hcheck⟩ := htest
  have hab : doc.Mentions 1 9 :=
    ⟨.inr ha, .inr hb, 1, ⟨10, hbname, hbsymbol⟩, 8, by simp [hbread], hina⟩
  have hba : doc.Mentions 9 1 :=
    ⟨.inr hb, .inr ha, 0, ⟨2, haname, hasymbol⟩, 16, by simp [haread], hinb⟩
  exact ⟨doc, hbuild, .inr ha, hcheck, .head hab (.single hba)⟩

end SingleUseType

end ScriptLint

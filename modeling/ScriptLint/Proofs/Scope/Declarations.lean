import ScriptLint.Proofs.Tree.Exact
import ScriptLint.Proofs.Tree.Walks
import ScriptLint.Scope.Alias

/-!
The declaration of a symbol and the name that it binds. A declaration is looked for on the way up from
an identifier, its name on the way down through one slot, `NodeKind.nameSlot`. The two agree unless the
identifier is nested in the declaration without being its name, as type parameters and the names of
function expressions are; the declaration found then binds another symbol.
-/
namespace ScriptLint

/-- The slot of a declaration that holds its name. -/
def NodeKind.nameSlot : NodeKind → String
  | .formalParameter => "pattern"
  | .importSpecifier | .importDefaultSpecifier | .importNamespaceSpecifier => "local"
  | _ => "id"

namespace Document

variable {doc : Document} {id d b i symbol : Nat}

theorem lt_size_of_kind {kind : NodeKind} (hkind : kind ≠ .unknown) (h : doc.kind id = kind) :
    id < doc.size := by
  apply Nat.lt_of_not_le
  intro hle
  rw [Document.kind, node_eq_absent hle] at h
  exact hkind h.symm

theorem mem_idsOfKind {kind : NodeKind} (hkind : kind ≠ .unknown) :
    id ∈ doc.idsOfKind kind ↔ doc.kind id = kind := by
  have hlt : doc.kind id = kind → id < doc.size := lt_size_of_kind hkind
  simpa [idsOfKind, ids] using hlt

/-- No symbol is bound by two identifiers. -/
def BoundOnce (doc : Document) : Prop :=
  ∀ a ∈ doc.idsOfKind .bindingIdentifier, ∀ b ∈ doc.idsOfKind .bindingIdentifier,
    (doc.symbol a).isSome → doc.symbol a = doc.symbol b → a = b

instance (doc : Document) : Decidable doc.BoundOnce :=
  inferInstanceAs (Decidable (∀ a ∈ _, ∀ b ∈ _, _ → _ → _))

theorem BoundOnce.eq (honce : doc.BoundOnce) (hi : i ∈ doc.idsOfKind .bindingIdentifier)
    (hb : b ∈ doc.idsOfKind .bindingIdentifier) (hsymbol : doc.symbol i = some symbol) :
    doc.symbol b = some symbol ↔ b = i := by
  constructor
  · intro h
    exact (honce i hi b hb (by simp [hsymbol]) (hsymbol.trans h.symm)).symm
  · rintro rfl
    exact hsymbol

/-- The declaration is the nearest one above the identifier, and in reach. -/
def NearestDeclaration (doc : Document) (identifier declaration : NodeId) : Prop :=
  doc.NearestAbove (fun node => node.kind.isDeclaration) 3 identifier declaration

/-- The identifier is in the declaration nearest to it without being its name. -/
def NestedIn (doc : Document) (identifier declaration : NodeId) : Prop :=
  doc.NearestDeclaration identifier declaration ∧
    doc.slotNode? declaration (doc.kind declaration).nameSlot ≠ some identifier

theorem NearestDeclaration.isDeclaration (h : doc.NearestDeclaration i d) :
    (doc.kind d).isDeclaration = true :=
  NearestAbove.passed h

namespace WellFormed

variable (hdoc : doc.WellFormed)

include hdoc

theorem bindingIdentifier?_of_isDeclaration (h : (doc.kind d).isDeclaration = true) :
    doc.bindingIdentifier? d =
      (doc.slotNode? d (doc.kind d).nameSlot).filter fun name =>
        doc.kind name = .bindingIdentifier := by
  obtain ⟨n, hn⟩ := hdoc.exists_size_eq_succ
  rw [bindingIdentifier?, hn, boundIdentifier?]
  cases hkind : doc.kind d <;> simp_all [NodeKind.isDeclaration, NodeKind.nameSlot]

theorem bindingIdentifier?_eq_some_iff (h : (doc.kind d).isDeclaration = true) :
    doc.bindingIdentifier? d = some b ↔
      doc.slotNode? d (doc.kind d).nameSlot = some b ∧ doc.kind b = .bindingIdentifier := by
  simp [hdoc.bindingIdentifier?_of_isDeclaration h, Option.filter_eq_some_iff]

theorem bindingIdentifier?_self (h : doc.kind id = .bindingIdentifier) :
    doc.bindingIdentifier? id = some id := by
  obtain ⟨n, hn⟩ := hdoc.exists_size_eq_succ
  rw [bindingIdentifier?, hn, boundIdentifier?, h]

theorem enclosingDeclaration_cases (i : Nat) :
    doc.NearestDeclaration i (doc.enclosingDeclaration i) ∨
      doc.enclosingDeclaration i = i ∧ ∀ d, ¬ doc.NearestDeclaration i d := by
  rw [enclosingDeclaration]
  cases hfound : doc.findAncestor? i (some 3) fun node => node.kind.isDeclaration with
  | some d => exact .inl (hdoc.findAncestor?_eq_some_iff.mp hfound)
  | none =>
    refine .inr ⟨rfl, ?_⟩
    intro d hd
    rw [hdoc.findAncestor?_eq_some_iff.mpr hd] at hfound
    cases hfound

end WellFormed

theorem declarationOf?_eq_some (h : doc.declarationOf? symbol = some d) :
    ∃ i ∈ doc.idsOfKind .bindingIdentifier,
      doc.symbol i = some symbol ∧ doc.enclosingDeclaration i = d := by
  obtain ⟨i, hfound, hi⟩ := Option.map_eq_some_iff.mp h
  exact ⟨i, List.mem_of_find?_eq_some hfound, by simpa using List.find?_some hfound, hi⟩

variable {source : Text} {file : ParsedFile} {resolved : Bool}

/-- The declaration of a symbol binds this symbol, unless the identifier that does is nested in the
declaration: then the name of the declaration is another identifier and carries another symbol. -/
theorem declaration_binds_unless_nested (h : build source file resolved = .ok doc)
    (honce : doc.BoundOnce) {symbol d b : Nat} (hd : doc.declarationOf? symbol = some d)
    (hb : doc.bindingIdentifier? d = some b) :
    ∃ i ∈ doc.idsOfKind .bindingIdentifier, doc.symbol i = some symbol ∧
      (doc.symbol b = some symbol ↔ ¬ doc.NestedIn i d) := by
  have hdoc := build_wellFormed h
  obtain ⟨i, hi, hsymbol, rfl⟩ := declarationOf?_eq_some hd
  refine ⟨i, hi, hsymbol, ?_⟩
  cases hdoc.enclosingDeclaration_cases i with
  | inl hnearest =>
    obtain ⟨hslot, hkind⟩ := (hdoc.bindingIdentifier?_eq_some_iff hnearest.isDeclaration).mp hb
    rw [honce.eq hi ((mem_idsOfKind (by decide)).mpr hkind) hsymbol]
    simp [NestedIn, hnearest, hslot]
  | inr hself =>
    have hkind := (mem_idsOfKind (by decide)).mp hi
    rw [hself.1, hdoc.bindingIdentifier?_self hkind] at hb
    obtain rfl := Option.some.inj hb
    simp [NestedIn, hself.2, hsymbol]

/-- A function with a name of its own, in a variable. -/
def namedFunctionText : Text := "const f = function g() {};".toList

def namedFunction : ParsedFile where
  tree :=
    .node ⟨"Program", ⟨0, 26⟩, [("body", .parts [⟨0, 26⟩])]⟩
      [.node ⟨"VariableDeclaration", ⟨0, 26⟩, [("declarations", .parts [⟨6, 25⟩])]⟩
        [.node ⟨"VariableDeclarator", ⟨6, 25⟩,
            [("id", .part ⟨6, 7⟩), ("init", .part ⟨10, 25⟩)]⟩
          [.node ⟨"BindingIdentifier", ⟨6, 7⟩, [("symbol", .symbol 0)]⟩ [],
            .node ⟨"Function", ⟨10, 25⟩,
                [("type", .word "FunctionExpression"), ("id", .part ⟨19, 20⟩), ("params", .parts []),
                  ("body", .part ⟨23, 25⟩)]⟩
              [.node ⟨"BindingIdentifier", ⟨19, 20⟩, [("symbol", .symbol 1)]⟩ [],
                .node ⟨"FormalParameters", ⟨20, 22⟩, [("items", .parts [])]⟩ [],
                .node ⟨"FunctionBody", ⟨23, 25⟩, [("statements", .parts [])]⟩ []]]]]
  comments := []

theorem declaration_binds_unless_nested_namedFunction :
    ∃ doc, build namedFunctionText namedFunction true = .ok doc ∧ doc.BoundOnce ∧
      doc.declarationOf? 0 = some 2 ∧ doc.declarationOf? 1 = some 2 ∧
      doc.bindingIdentifier? 2 = some 3 ∧ doc.symbol 3 = some 0 ∧
      ¬ doc.NestedIn 3 2 ∧ doc.NestedIn 5 2 := by
  obtain ⟨doc, hbuild, htest⟩ : ∃ doc, build namedFunctionText namedFunction true = .ok doc ∧
      (decide doc.BoundOnce && doc.idsOfKind .bindingIdentifier == [3, 5] &&
        doc.declarationOf? 0 == some 2 && doc.declarationOf? 1 == some 2 &&
        doc.bindingIdentifier? 2 == some 3 && doc.symbol 3 == some 0 &&
        doc.symbol 5 == some 1) = true :=
    exists_build_of_any (by decide +kernel)
  simp only [Bool.and_eq_true, beq_iff_eq, decide_eq_true_eq] at htest
  obtain ⟨⟨⟨⟨⟨⟨honce, hids⟩, hf⟩, hg⟩, hname⟩, hfirst⟩, hsecond⟩ := htest
  refine ⟨doc, hbuild, honce, hf, hg, hname, hfirst, ?_, ?_⟩
  · obtain ⟨i, hi, hsymbol, hiff⟩ := declaration_binds_unless_nested hbuild honce hf hname
    rw [hids, List.mem_pair] at hi
    rcases hi with rfl | rfl
    · exact hiff.mp hfirst
    · simp [hsecond] at hsymbol
  · obtain ⟨i, hi, hsymbol, hiff⟩ := declaration_binds_unless_nested hbuild honce hg hname
    rw [hids, List.mem_pair] at hi
    rcases hi with rfl | rfl
    · simp [hfirst] at hsymbol
    · simpa [hfirst] using hiff

/-- An alias that stands for its own parameter. -/
def parameterAliasText : Text := "type A<T> = T;".toList

def parameterAlias : ParsedFile where
  tree :=
    .node ⟨"Program", ⟨0, 14⟩, [("body", .parts [⟨0, 14⟩])]⟩
      [.node ⟨"TSTypeAliasDeclaration", ⟨0, 14⟩,
          [("id", .part ⟨5, 6⟩), ("type_annotation", .part ⟨12, 13⟩)]⟩
        [.node ⟨"BindingIdentifier", ⟨5, 6⟩, [("symbol", .symbol 0)]⟩ [],
          .node ⟨"TSTypeParameterDeclaration", ⟨6, 9⟩, []⟩
            [.node ⟨"TSTypeParameter", ⟨7, 8⟩, []⟩
              [.node ⟨"BindingIdentifier", ⟨7, 8⟩, [("symbol", .symbol 1)]⟩ []]],
          .node ⟨"TSTypeReference", ⟨12, 13⟩, [("type_name", .part ⟨12, 13⟩)]⟩
            [.node ⟨"IdentifierReference", ⟨12, 13⟩, [("symbol", .symbol 1)]⟩ []]]]
  comments := []

/-- The declaration of a type parameter is taken to be the alias around it, which binds another
symbol; so the alias seems to stand for itself. -/
theorem type_parameter_attributed_to_alias :
    ∃ doc, build parameterAliasText parameterAlias true = .ok doc ∧ doc.BoundOnce ∧
      doc.declarationOf? 1 = some 1 ∧ doc.bindingIdentifier? 1 = some 2 ∧
      doc.symbol 2 = some 0 ∧ doc.aliased? 1 = some 1 := by
  obtain ⟨doc, hbuild, htest⟩ : ∃ doc, build parameterAliasText parameterAlias true = .ok doc ∧
      (decide doc.BoundOnce && doc.declarationOf? 1 == some 1 &&
        doc.bindingIdentifier? 1 == some 2 && doc.symbol 2 == some 0 &&
        doc.aliased? 1 == some 1) = true :=
    exists_build_of_any (by decide +kernel)
  simp only [Bool.and_eq_true, beq_iff_eq, decide_eq_true_eq] at htest
  obtain ⟨⟨⟨⟨honce, hdeclaration⟩, hname⟩, hsymbol⟩, halias⟩ := htest
  exact ⟨doc, hbuild, honce, hdeclaration, hname, hsymbol, halias⟩

end Document

end ScriptLint

import Mathlib.Data.Option.Basic
import Mathlib.Logic.Relation
import ScriptLint.Proofs.Scope.Declarations
import ScriptLint.Scope.Reference

/-!
What a reference is taken for. The use of a name counts for a variable if the name is the argument of
a component type in an annotation of the variable, or of something that stands directly below it
(`site_moves_iff_component_argument`). A read has the role of an export if the nearest node above it
that settles a role is an export list entry or a default export, however deep in what is exported the
read stands (`exported_role_iff_under_export`).
-/
namespace ScriptLint.Document

variable {doc : Document} {id x p d : Nat}

theorem identifier_classify (doc : Document) (x : NodeId) : (doc.classify x).identifier = x := by
  rw [classify]
  cases doc.componentVariable? x <;> rfl

theorem site_classify (doc : Document) (x : NodeId) :
    (doc.classify x).site = (doc.componentVariable? x).getD x := by
  rw [classify]
  cases doc.componentVariable? x <;> rfl

/-! Component types. -/

/-- The node stands directly in another one, which has the kind. -/
def StandsIn (doc : Document) (id parent : NodeId) (kind : NodeKind) : Prop :=
  doc.parent id = some parent ∧ doc.kind parent = kind

theorem parentOfKind?_eq_some_iff {kind : NodeKind} :
    doc.parentOfKind? id kind = some p ↔ doc.StandsIn id p kind := by
  simp [parentOfKind?, StandsIn, Option.filter_eq_some_iff]

/-- The node names the argument of a component type, and this type is the whole annotation. -/
def ComponentArgument (doc : Document) (id annotated : NodeId) : Prop :=
  ∃ argument arguments component,
    doc.StandsIn id argument .typeReference ∧ doc.StandsIn argument arguments .typeArguments ∧
    doc.StandsIn arguments component .typeReference ∧
    doc.StandsIn component annotated .annotatedType ∧
    ∃ name, doc.slotNode? component "typeName" = some name ∧
      isContainerAlias (doc.text name) = true

theorem StandsIn.unique {kind kind' : NodeKind} {q : Nat} (h : doc.StandsIn id p kind)
    (h' : doc.StandsIn id q kind') : p = q :=
  Option.some.inj (h.1.symm.trans h'.1)

theorem ComponentArgument.unique {a b : Nat} (ha : doc.ComponentArgument id a)
    (hb : doc.ComponentArgument id b) : a = b := by
  obtain ⟨argument, arguments, component, h₁, h₂, h₃, h₄, _⟩ := ha
  obtain ⟨argument', arguments', component', h₁', h₂', h₃', h₄', _⟩ := hb
  obtain rfl := h₁.unique h₁'
  obtain rfl := h₂.unique h₂'
  obtain rfl := h₃.unique h₃'
  exact h₄.unique h₄'

/-- The node hangs on the declarator, or else its owner, which is no declarator, does. -/
def DeclaratorNear (doc : Document) (id declarator : NodeId) : Prop :=
  doc.kind declarator = .variableDeclarator ∧
    (doc.parent id = some declarator ∨
      ∃ owner, doc.parent id = some owner ∧ doc.kind owner ≠ .variableDeclarator ∧
        doc.parent owner = some declarator)

theorem WellFormed.findDeclarator_iff (hdoc : doc.WellFormed) :
    doc.findAncestorOfKind? id .variableDeclarator (some 2) = some d ↔ doc.DeclaratorNear id d := by
  rw [findAncestorOfKind?, hdoc.findAncestor?_eq_some_iff]
  constructor
  · intro h
    cases h with
    | parent link passes => exact ⟨of_decide_eq_true passes, .inl link⟩
    | @further _ _ owner _ link fails rest =>
      cases rest with
      | parent link' passes =>
        exact ⟨of_decide_eq_true passes, .inr ⟨owner, link, of_decide_eq_false fails, link'⟩⟩
      | further _ _ rest => cases rest
  · rintro ⟨hkind, hparent | ⟨owner, howner, hfails, hparent⟩⟩
    · exact .parent hparent (decide_eq_true hkind)
    · exact .further howner (decide_eq_false hfails) (.parent hparent (decide_eq_true hkind))

theorem WellFormed.componentVariable?_eq_some_iff (hdoc : doc.WellFormed) :
    doc.componentVariable? x = some d ↔
      ∃ annotated, doc.ComponentArgument x annotated ∧ doc.DeclaratorNear annotated d := by
  simp only [componentVariable?, Option.bind_eq_bind, Option.bind_eq_some_iff,
    Option.ite_none_right_eq_some, parentOfKind?_eq_some_iff, hdoc.findDeclarator_iff,
    ComponentArgument]
  constructor
  · rintro ⟨argument, h₁, arguments, h₂, component, h₃, name, hname, halias, annotated, h₄, hd⟩
    exact ⟨annotated, ⟨argument, arguments, component, h₁, h₂, h₃, h₄, name, hname, halias⟩, hd⟩
  · rintro ⟨annotated, ⟨argument, arguments, component, h₁, h₂, h₃, h₄, name, hname, halias⟩, hd⟩
    exact ⟨argument, h₁, arguments, h₂, component, h₃, name, hname, halias, annotated, h₄, hd⟩

/-- The variable stands before the argument of its type. -/
theorem WellFormed.declarator_lt (hdoc : doc.WellFormed) {annotated : Nat}
    (h : doc.ComponentArgument x annotated) (hd : doc.DeclaratorNear annotated d) : d < x := by
  obtain ⟨argument, arguments, component, h₁, h₂, h₃, h₄, _⟩ := h
  have hannotated : annotated < x := calc
    annotated < component := hdoc.parent_lt h₄.1
    _ < arguments := hdoc.parent_lt h₃.1
    _ < argument := hdoc.parent_lt h₂.1
    _ < x := hdoc.parent_lt h₁.1
  rcases hd.2 with hparent | ⟨owner, howner, _, hparent⟩
  · exact (hdoc.parent_lt hparent).trans hannotated
  · exact (hdoc.parent_lt hparent).trans ((hdoc.parent_lt howner).trans hannotated)

variable {source : Text} {file : ParsedFile} {resolved : Bool}

/-- The use of a name counts for another node exactly if the name is the argument of a component type
that makes up an annotation, and the other node is the declarator on which the annotation hangs, or,
if it does not hang on one, the declarator on which the owner of the annotation hangs. -/
theorem site_moves_iff_component_argument (h : build source file resolved = .ok doc) (x d : Nat) :
    (doc.classify x).site = d ∧ d ≠ x ↔
      ∃ annotated, doc.ComponentArgument x annotated ∧ doc.kind d = .variableDeclarator ∧
        (doc.parent annotated = some d ∨
          ∃ owner, doc.parent annotated = some owner ∧ doc.kind owner ≠ .variableDeclarator ∧
            doc.parent owner = some d) := by
  have hdoc := build_wellFormed h
  rw [site_classify]
  constructor
  · rintro ⟨hsite, hne⟩
    have hvariable : doc.componentVariable? x = some d := by
      cases hfound : doc.componentVariable? x with
      | none => exact absurd (hsite.symm.trans (by simp [hfound])) hne
      | some e => simpa [hfound] using hsite
    exact hdoc.componentVariable?_eq_some_iff.mp hvariable
  · rintro ⟨annotated, hargument, hnear⟩
    have hvariable := hdoc.componentVariable?_eq_some_iff.mpr ⟨annotated, hargument, hnear⟩
    exact ⟨by rw [hvariable]; rfl, Nat.ne_of_lt (hdoc.declarator_lt hargument hnear)⟩

/-- A component type as the annotation of a variable. -/
def componentText : Text := "type P = {}; let C: React.FC<P>;".toList

def component : ParsedFile where
  tree :=
    .node ⟨"Program", ⟨0, 32⟩, [("body", .parts [⟨0, 12⟩, ⟨13, 32⟩])]⟩
      [.node ⟨"TSTypeAliasDeclaration", ⟨0, 12⟩,
          [("id", .part ⟨5, 6⟩), ("type_annotation", .part ⟨9, 11⟩)]⟩
        [.node ⟨"BindingIdentifier", ⟨5, 6⟩, [("symbol", .symbol 0)]⟩ [],
          .node ⟨"TSTypeLiteral", ⟨9, 11⟩, [("members", .parts [])]⟩ []],
        .node ⟨"VariableDeclaration", ⟨13, 32⟩, [("declarations", .parts [⟨17, 31⟩])]⟩
          [.node ⟨"VariableDeclarator", ⟨17, 31⟩, [("id", .part ⟨17, 18⟩)]⟩
            [.node ⟨"BindingIdentifier", ⟨17, 18⟩, [("symbol", .symbol 1)]⟩ [],
              .node ⟨"TSTypeAnnotation", ⟨18, 31⟩, [("type_annotation", .part ⟨20, 31⟩)]⟩
                [.node ⟨"TSTypeReference", ⟨20, 31⟩, [("type_name", .part ⟨20, 28⟩)]⟩
                  [.node ⟨"TSQualifiedName", ⟨20, 28⟩,
                      [("left", .part ⟨20, 25⟩), ("right", .part ⟨26, 28⟩)]⟩
                    [.node ⟨"IdentifierReference", ⟨20, 25⟩, []⟩ [],
                      .node ⟨"IdentifierName", ⟨26, 28⟩, []⟩ []],
                    .node ⟨"TSTypeParameterInstantiation", ⟨28, 31⟩,
                        [("params", .parts [⟨29, 30⟩])]⟩
                      [.node ⟨"TSTypeReference", ⟨29, 30⟩, [("type_name", .part ⟨29, 30⟩)]⟩
                        [.node ⟨"IdentifierReference", ⟨29, 30⟩,
                          [("symbol", .symbol 0)]⟩ []]]]]]]]
  comments := []

theorem site_moves_iff_component_argument_component :
    ∃ doc, build componentText component true = .ok doc ∧ doc.ComponentArgument 14 7 ∧
      doc.parent 7 = some 5 ∧ (doc.classify 14).site = 5 := by
  obtain ⟨doc, hbuild, htest⟩ : ∃ doc, build componentText component true = .ok doc ∧
      (doc.parentOfKind? 14 .typeReference == some 13 &&
        doc.parentOfKind? 13 .typeArguments == some 12 &&
        doc.parentOfKind? 12 .typeReference == some 8 &&
        doc.parentOfKind? 8 .annotatedType == some 7 && doc.slotNode? 8 "typeName" == some 9 &&
        isContainerAlias (doc.text 9) && doc.parent 7 == some 5 &&
        doc.kind 5 == .variableDeclarator) = true :=
    exists_build_of_any (by decide +kernel)
  simp only [Bool.and_eq_true, beq_iff_eq, parentOfKind?_eq_some_iff] at htest
  obtain ⟨⟨⟨⟨⟨⟨⟨h₁, h₂⟩, h₃⟩, h₄⟩, hname⟩, halias⟩, hparent⟩, hkind⟩ := htest
  have hargument : doc.ComponentArgument 14 7 := ⟨13, 12, 8, h₁, h₂, h₃, h₄, 9, hname, halias⟩
  have hsite := (site_moves_iff_component_argument hbuild 14 5).mpr
    ⟨7, hargument, hkind, .inl hparent⟩
  exact ⟨doc, hbuild, hargument, hparent, hsite.1⟩

/-- A component type as the return type of a function in a variable. -/
def componentFactoryText : Text := "type P = {}; const f = (): FC<P> => null;".toList

def componentFactory : ParsedFile where
  tree :=
    .node ⟨"Program", ⟨0, 41⟩, [("body", .parts [⟨0, 12⟩, ⟨13, 41⟩])]⟩
      [.node ⟨"TSTypeAliasDeclaration", ⟨0, 12⟩,
          [("id", .part ⟨5, 6⟩), ("type_annotation", .part ⟨9, 11⟩)]⟩
        [.node ⟨"BindingIdentifier", ⟨5, 6⟩, [("symbol", .symbol 0)]⟩ [],
          .node ⟨"TSTypeLiteral", ⟨9, 11⟩, [("members", .parts [])]⟩ []],
        .node ⟨"VariableDeclaration", ⟨13, 41⟩, [("declarations", .parts [⟨19, 40⟩])]⟩
          [.node ⟨"VariableDeclarator", ⟨19, 40⟩,
              [("id", .part ⟨19, 20⟩), ("init", .part ⟨23, 40⟩)]⟩
            [.node ⟨"BindingIdentifier", ⟨19, 20⟩, [("symbol", .symbol 1)]⟩ [],
              .node ⟨"ArrowFunctionExpression", ⟨23, 40⟩,
                  [("params", .parts []), ("body", .part ⟨36, 40⟩),
                    ("return_type", .part ⟨25, 32⟩), ("expression", .set)]⟩
                [.node ⟨"FormalParameters", ⟨23, 25⟩, [("items", .parts [])]⟩ [],
                  .node ⟨"TSTypeAnnotation", ⟨25, 32⟩, [("type_annotation", .part ⟨27, 32⟩)]⟩
                    [.node ⟨"TSTypeReference", ⟨27, 32⟩, [("type_name", .part ⟨27, 29⟩)]⟩
                      [.node ⟨"IdentifierReference", ⟨27, 29⟩, []⟩ [],
                        .node ⟨"TSTypeParameterInstantiation", ⟨29, 32⟩,
                            [("params", .parts [⟨30, 31⟩])]⟩
                          [.node ⟨"TSTypeReference", ⟨30, 31⟩, [("type_name", .part ⟨30, 31⟩)]⟩
                            [.node ⟨"IdentifierReference", ⟨30, 31⟩,
                              [("symbol", .symbol 0)]⟩ []]]]],
                  .node ⟨"FunctionBody", ⟨36, 40⟩, [("statements", .parts [⟨36, 40⟩])]⟩
                    [.node ⟨"ExpressionStatement", ⟨36, 40⟩, [("expression", .part ⟨36, 40⟩)]⟩
                      [.node ⟨"NullLiteral", ⟨36, 40⟩, []⟩ []]]]]]]
  comments := []

/-- The return type of a function that a variable starts with is taken for the type of the variable:
its argument counts for the variable, which has no annotation of its own. -/
theorem return_type_moves_site :
    ∃ doc, build componentFactoryText componentFactory true = .ok doc ∧
      doc.kind 14 = .identifierReference ∧ (doc.classify 14).site = 5 ∧
      (¬ ∃ annotated, doc.ComponentArgument 14 annotated ∧ doc.parent annotated = some 5) ∧
      doc.ComponentArgument 14 9 ∧ doc.slotNode? 7 "returnType" = some 9 ∧
      doc.slotNode? 5 "init" = some 7 := by
  obtain ⟨doc, hbuild, htest⟩ : ∃ doc, build componentFactoryText componentFactory true = .ok doc ∧
      (doc.parentOfKind? 14 .typeReference == some 13 &&
        doc.parentOfKind? 13 .typeArguments == some 12 &&
        doc.parentOfKind? 12 .typeReference == some 10 &&
        doc.parentOfKind? 10 .annotatedType == some 9 && doc.slotNode? 10 "typeName" == some 11 &&
        isContainerAlias (doc.text 11) && doc.parent 9 == some 7 &&
        doc.kind 14 == .identifierReference && (doc.classify 14).site == 5 &&
        doc.slotNode? 7 "returnType" == some 9 && doc.slotNode? 5 "init" == some 7) = true :=
    exists_build_of_any (by decide +kernel)
  simp only [Bool.and_eq_true, beq_iff_eq, parentOfKind?_eq_some_iff] at htest
  obtain ⟨⟨⟨⟨⟨⟨⟨⟨⟨⟨h₁, h₂⟩, h₃⟩, h₄⟩, hname⟩, halias⟩, hparent⟩, hkind⟩, hsite⟩, hreturn⟩, hinit⟩ :=
    htest
  have hargument : doc.ComponentArgument 14 9 := ⟨13, 12, 10, h₁, h₂, h₃, h₄, 11, hname, halias⟩
  refine ⟨doc, hbuild, hkind, hsite, ?_, hargument, hreturn, hinit⟩
  rintro ⟨annotated, hother, hown⟩
  obtain rfl := hargument.unique hother
  simp [hparent] at hown

/-! Exports. -/

/-- The node exports its child, as an entry of an export list or as the default of the module. -/
def ExportsChild (doc : Document) (child id : NodeId) : Prop :=
  doc.kind id = .exportSpecifier ∨
    doc.kind id = .exportDefaultDeclaration ∧ doc.slotNode? id "declaration" = some child

/-- The node gives another role to what is read below its child: it is a list of type arguments, a
parameter or a return type, a variable of which the child is the initial value, a function, or a list
of statements or one of them. -/
def Diverts (doc : Document) (child id : NodeId) : Prop :=
  doc.kind id = .typeArguments ∨ doc.kind id = .formalParameter ∨
    (doc.kind id = .annotatedType ∧ doc.isReturnType id = true) ∨
    (doc.kind id = .variableDeclarator ∧ doc.slotNode? id "init" = some child) ∨
    (doc.kind id).isFunction = true ∨ (doc.kind id).isStatementContainer = true ∨
    doc.isStatement id = true

/-- All that one node can do to a read below its child. -/
theorem roleFrom?_cases (doc : Document) (child id : NodeId) :
    doc.ExportsChild child id ∧ doc.roleFrom? child id = some .exported ∨
      ¬ doc.ExportsChild child id ∧ doc.Diverts child id ∧
        (∃ role, role ≠ .exported ∧ doc.roleFrom? child id = some role) ∨
      ¬ doc.ExportsChild child id ∧ ¬ doc.Diverts child id ∧ doc.roleFrom? child id = none := by
  simp only [roleFrom?, ExportsChild, Diverts]
  -- a default export and a variable settle the role of one child, an annotation that of a return type;
  -- otherwise they count as any other node
  split <;> rename_i hkind
  · simp [hkind]
  · by_cases hchild : doc.slotNode? id "declaration" = some child
    · simp [hkind, hchild]
    · simp [hkind, hchild, NodeKind.isFunction, NodeKind.isStatementContainer]
  · simp [hkind]
  · simp [hkind]
  · by_cases hreturn : doc.isReturnType id = true
    · simp [hkind, hreturn]
    · simp [hkind, hreturn, NodeKind.isFunction, NodeKind.isStatementContainer]
  · by_cases hchild : doc.slotNode? id "init" = some child
    · simp [hkind, hchild]
    · simp [hkind, hchild, NodeKind.isFunction, NodeKind.isStatementContainer]
  · by_cases hbound : ((doc.kind id).isFunction || (doc.kind id).isStatementContainer ||
        doc.isStatement id) = true
    · simp_all [or_assoc]
    · simp_all

/-- One link up, past a node that does not divert. -/
def PassesUp (doc : Document) (child parent : NodeId) : Prop :=
  doc.parent child = some parent ∧ ¬ doc.Diverts child parent

/-- The way up leads, past nodes that do not divert, to a node that exports what it comes from. -/
def UnderExport (doc : Document) (id : NodeId) : Prop :=
  ∃ child clause, Relation.ReflTransGen doc.PassesUp id child ∧ doc.parent child = some clause ∧
    doc.ExportsChild child clause

theorem UnderExport.exists_parent (h : doc.UnderExport id) :
    ∃ p, doc.parent id = some p ∧
      (doc.ExportsChild id p ∨ ¬ doc.Diverts id p ∧ doc.UnderExport p) := by
  obtain ⟨child, clause, hpath, hparent, hexports⟩ := h
  cases Relation.ReflTransGen.cases_head hpath with
  | inl heq => exact ⟨clause, heq ▸ hparent, .inl (heq ▸ hexports)⟩
  | inr hstep =>
    obtain ⟨p, ⟨hp, hpasses⟩, hrest⟩ := hstep
    exact ⟨p, hp, .inr ⟨hpasses, child, clause, hrest, hparent, hexports⟩⟩

theorem underExport_iff_of_parent (hp : doc.parent id = some p) :
    doc.UnderExport id ↔
      doc.ExportsChild id p ∨ ¬ doc.Diverts id p ∧ doc.UnderExport p := by
  constructor
  · intro h
    obtain ⟨q, hq, hcases⟩ := h.exists_parent
    obtain rfl := Option.some.inj (hp.symm.trans hq)
    exact hcases
  · rintro (hexports | ⟨hpasses, child, clause, hpath, hrest⟩)
    · exact ⟨id, p, .refl, hp, hexports⟩
    · exact ⟨child, clause, .head ⟨hp, hpasses⟩ hpath, hrest⟩

theorem WellFormed.roleAlong_eq_exported_iff (hdoc : doc.WellFormed) :
    doc.roleAlong id (doc.strictAncestors id) = .exported ↔ doc.UnderExport id := by
  -- links go to smaller ids
  induction id using Nat.strong_induction_on with
  | _ id ih =>
    cases hp : doc.parent id with
    | none =>
      rw [hdoc.strictAncestors_of_no_parent hp, roleAlong]
      refine iff_of_false (by simp) fun h => ?_
      obtain ⟨p, hparent, _⟩ := h.exists_parent
      rw [hp] at hparent
      cases hparent
    | some p =>
      rw [hdoc.strictAncestors_of_parent hp, roleAlong, underExport_iff_of_parent hp,
        ← ih p (hdoc.parent_lt hp)]
      obtain ⟨hexports, hrole⟩ | ⟨hexports, hdiverts, role, hne, hrole⟩ |
        ⟨hexports, hdiverts, hrole⟩ := doc.roleFrom?_cases id p
      · simp [hexports, hrole]
      · simp [hexports, hdiverts, hrole, hne]
      · simp [hexports, hdiverts, hrole]

theorem ExportsChild.kind_ne {child : Nat} (h : doc.ExportsChild child id) :
    doc.kind id ≠ .typeReference ∧ doc.kind id ≠ .typeArguments := by
  rcases h with h | ⟨h, _⟩ <;> simp [h]

/-- The arguments of a component type divert. -/
theorem ComponentArgument.not_underExport {annotated : Nat}
    (h : doc.ComponentArgument id annotated) : ¬ doc.UnderExport id := by
  obtain ⟨argument, arguments, _, hargument, harguments, _⟩ := h
  rw [underExport_iff_of_parent hargument.1, underExport_iff_of_parent harguments.1]
  rintro (hexports | ⟨_, hexports | ⟨hpasses, _⟩⟩)
  · exact hexports.kind_ne.1 hargument.2
  · exact hexports.kind_ne.2 harguments.2
  · exact hpasses (.inl harguments.2)

/-- A read has the role of an export exactly if it stands in an entry of an export list, or in what a
default export has for its declaration, and no node on the way up to there gives it another role. -/
theorem exported_role_iff_under_export (h : build source file resolved = .ok doc) (x : Nat) :
    (doc.classify x).role = .exported ↔
      ∃ child clause, Relation.ReflTransGen doc.PassesUp x child ∧ doc.parent child = some clause ∧
        (doc.kind clause = .exportSpecifier ∨
          doc.kind clause = .exportDefaultDeclaration ∧
            doc.slotNode? clause "declaration" = some child) := by
  have hdoc := build_wellFormed h
  rw [classify]
  cases hvariable : doc.componentVariable? x with
  | none => exact hdoc.roleAlong_eq_exported_iff
  | some d =>
    obtain ⟨annotated, hargument, _⟩ := hdoc.componentVariable?_eq_some_iff.mp hvariable
    exact iff_of_false (by simp) hargument.not_underExport

/-- A name exported under another one. -/
def exportListText : Text := "let x; export { x as y };".toList

def exportList : ParsedFile where
  tree :=
    .node ⟨"Program", ⟨0, 25⟩, [("body", .parts [⟨0, 6⟩, ⟨7, 25⟩])]⟩
      [.node ⟨"VariableDeclaration", ⟨0, 6⟩, [("declarations", .parts [⟨4, 5⟩])]⟩
        [.node ⟨"VariableDeclarator", ⟨4, 5⟩, [("id", .part ⟨4, 5⟩)]⟩
          [.node ⟨"BindingIdentifier", ⟨4, 5⟩, [("symbol", .symbol 0)]⟩ []]],
        .node ⟨"ExportNamedDeclaration", ⟨7, 25⟩, [("specifiers", .parts [⟨16, 22⟩])]⟩
          [.node ⟨"ExportSpecifier", ⟨16, 22⟩,
              [("local", .part ⟨16, 17⟩), ("exported", .part ⟨21, 22⟩)]⟩
            [.node ⟨"IdentifierReference", ⟨16, 17⟩, [("symbol", .symbol 0)]⟩ [],
              .node ⟨"IdentifierName", ⟨21, 22⟩, []⟩ []]]]
  comments := []

theorem exported_role_iff_under_export_exportList :
    ∃ doc, build exportListText exportList true = .ok doc ∧ doc.parent 6 = some 5 ∧
      doc.kind 5 = .exportSpecifier ∧ (doc.classify 6).role = .exported := by
  obtain ⟨doc, hbuild, htest⟩ : ∃ doc, build exportListText exportList true = .ok doc ∧
      (doc.parent 6 == some 5 && doc.kind 5 == .exportSpecifier) = true :=
    exists_build_of_any (by decide +kernel)
  simp only [Bool.and_eq_true, beq_iff_eq] at htest
  obtain ⟨hparent, hkind⟩ := htest
  exact ⟨doc, hbuild, hparent, hkind,
    (exported_role_iff_under_export hbuild 6).mpr ⟨6, 5, .refl, hparent, .inl hkind⟩⟩

/-- An export names the node: as an entry of its list, or as the whole of what a default export has
for its declaration, parentheses aside. -/
def NamedByExport (doc : Document) (id : NodeId) : Prop :=
  (∃ entry, doc.kind entry = .exportSpecifier ∧ doc.Within id entry) ∨
    ∃ clause child, doc.kind clause = .exportDefaultDeclaration ∧
      doc.slotNode? clause "declaration" = some child ∧
      Relation.ReflTransGen (fun a b => doc.StandsIn a b .parenthesizedExpression) id child

/-- The value of a call as a default export. -/
def exportedCallText : Text := "let x; export default f(x)".toList

def exportedCall : ParsedFile where
  tree :=
    .node ⟨"Program", ⟨0, 26⟩, [("body", .parts [⟨0, 6⟩, ⟨7, 26⟩])]⟩
      [.node ⟨"VariableDeclaration", ⟨0, 6⟩, [("declarations", .parts [⟨4, 5⟩])]⟩
        [.node ⟨"VariableDeclarator", ⟨4, 5⟩, [("id", .part ⟨4, 5⟩)]⟩
          [.node ⟨"BindingIdentifier", ⟨4, 5⟩, [("symbol", .symbol 0)]⟩ []]],
        .node ⟨"ExportDefaultDeclaration", ⟨7, 26⟩, [("declaration", .part ⟨22, 26⟩)]⟩
          [.node ⟨"CallExpression", ⟨22, 26⟩,
              [("callee", .part ⟨22, 23⟩), ("arguments", .parts [⟨24, 25⟩])]⟩
            [.node ⟨"IdentifierReference", ⟨22, 23⟩, []⟩ [],
              .node ⟨"IdentifierReference", ⟨24, 25⟩, [("symbol", .symbol 0)]⟩ []]]]
  comments := []

/-- What is only used in a default export has the role of an export too. -/
theorem call_argument_exported :
    ∃ doc, build exportedCallText exportedCall true = .ok doc ∧
      doc.kind 7 = .identifierReference ∧ (doc.classify 7).role = .exported ∧
      ¬ doc.NamedByExport 7 := by
  obtain ⟨doc, hbuild, htest⟩ : ∃ doc, build exportedCallText exportedCall true = .ok doc ∧
      (doc.kind 7 == .identifierReference && (doc.classify 7).role == .exported &&
        (doc.ancestors 7).all (doc.kind · != .exportSpecifier) &&
        doc.idsOfKind .exportDefaultDeclaration == [4] &&
        doc.slotNode? 4 "declaration" == some 5 && doc.parent 7 == some 5 &&
        doc.kind 5 == .callExpression) = true :=
    exists_build_of_any (by decide +kernel)
  have hdoc := build_wellFormed hbuild
  simp only [Bool.and_eq_true, beq_iff_eq, List.all_eq_true, bne_iff_ne] at htest
  obtain ⟨⟨⟨⟨⟨⟨hkind, hrole⟩, hnone⟩, hdefault⟩, hslot⟩, hparent⟩, hcall⟩ := htest
  refine ⟨doc, hbuild, hkind, hrole, ?_⟩
  rintro (⟨entry, hentry, hwithin⟩ | ⟨clause, child, hclause, hchild, hpath⟩)
  · exact hnone entry (hdoc.mem_ancestors_iff.mpr hwithin) hentry
  · have hmem := (mem_idsOfKind (by decide)).mpr hclause
    rw [hdefault, List.mem_singleton] at hmem
    subst hmem
    obtain rfl := Option.some.inj (hslot.symm.trans hchild)
    rcases Relation.ReflTransGen.cases_head hpath with heq | ⟨b, ⟨hb, hparens⟩, _⟩
    · cases heq
    · obtain rfl := Option.some.inj (hparent.symm.trans hb)
      simp [hcall] at hparens

end ScriptLint.Document

import Mathlib.Logic.Relation
import ScriptLint.Proofs.Tree.Exact
import ScriptLint.Proofs.Tree.Walks
import ScriptLint.Scope.Binding

/-!
What counts as exported. The statement of a node is the last node on the way up before a list of
statements (`statementOf?_eq_some_iff`), and only an export clause in that place exports what is below
it. The body of a namespace is no list of statements, so the way leads on through it: a clause inside
goes unseen (`namespace_member_not_exported`), and one around it counts for everything inside.
-/
namespace ScriptLint.Document

variable {doc : Document} {id : Nat}

/-- One link up, to a node that is no list of statements. -/
def StepsUp (doc : Document) (child parent : NodeId) : Prop :=
  doc.parent child = some parent ∧ (doc.kind parent).isStatementContainer = false

/-- On the way from a node, itself included, up to the next list of statements, which is not. -/
def OnPath (doc : Document) (id a : NodeId) : Prop := Relation.ReflTransGen doc.StepsUp id a

def IsExportClause (doc : Document) (id : NodeId) : Prop :=
  doc.kind id = .exportNamedDeclaration ∨ doc.kind id = .exportDefaultDeclaration

theorem IsExportClause.not_container (h : doc.IsExportClause id) :
    (doc.kind id).isStatementContainer = false := by
  rcases h with h | h <;> rw [h] <;> rfl

theorem isStatement_of_parent {p : Nat} (h : doc.parent id = some p) :
    doc.isStatement id = (doc.kind p).isStatementContainer := by
  rw [isStatement, h]

namespace WellFormed

variable (hdoc : doc.WellFormed)

include hdoc

theorem statementOf?_of_isStatement (h : doc.isStatement id = true) :
    doc.statementOf? id = some id := by
  rw [statementOf?, hdoc.ancestors_eq_cons, List.find?_cons_of_pos h]

theorem statementOf?_of_stepsUp {p : Nat} (h : doc.StepsUp id p) :
    doc.statementOf? id = doc.statementOf? p := by
  have hid : ¬ doc.isStatement id = true := by simp [isStatement_of_parent h.1, h.2]
  rw [statementOf?, statementOf?, hdoc.ancestors_of_parent h.1, List.find?_cons_of_neg hid]

theorem statementOf?_of_no_parent (h : doc.parent id = none) : doc.statementOf? id = none := by
  simp [statementOf?, hdoc.ancestors_of_no_parent h, isStatement, h]

/-- All nodes on the way have the same statement. -/
theorem statementOf?_of_onPath {a : Nat} (h : doc.OnPath id a) :
    doc.statementOf? id = doc.statementOf? a := by
  induction h with
  | refl => rfl
  | tail _ hstep ih => rw [ih, hdoc.statementOf?_of_stepsUp hstep]

theorem onPath_of_statementOf? {statement : Nat} (h : doc.statementOf? id = some statement) :
    doc.OnPath id statement ∧ doc.isStatement statement = true := by
  refine ⟨?_, List.find?_some h⟩
  -- links go to smaller ids
  induction id using Nat.strong_induction_on with
  | _ id ih =>
    by_cases hid : doc.isStatement id = true
    · rw [hdoc.statementOf?_of_isStatement hid] at h
      rw [Option.some.inj h]
      exact .refl
    · cases hp : doc.parent id with
      | none => simp [hdoc.statementOf?_of_no_parent hp] at h
      | some p =>
        have hstep : doc.StepsUp id p := by
          refine ⟨hp, ?_⟩
          rw [← isStatement_of_parent hp]
          simpa using hid
        rw [hdoc.statementOf?_of_stepsUp hstep] at h
        exact .head hstep (ih p (hdoc.parent_lt hp) h)

theorem statementOf?_eq_some_iff {statement : Nat} :
    doc.statementOf? id = some statement ↔
      doc.OnPath id statement ∧ doc.isStatement statement = true := by
  constructor
  · exact hdoc.onPath_of_statementOf?
  · rintro ⟨hpath, hstatement⟩
    rw [hdoc.statementOf?_of_onPath hpath, hdoc.statementOf?_of_isStatement hstatement]

end WellFormed

theorem isExported_iff_statementOf? :
    doc.isExported id = true ↔ ∃ e, doc.statementOf? id = some e ∧ doc.IsExportClause e := by
  rw [isExported]
  cases doc.statementOf? id with
  | none => simp
  | some statement => simp [IsExportClause]

variable {source : Text} {file : ParsedFile} {resolved : Bool}

/-- A node is exported exactly if, on the way up to the next list of statements, there is an export
clause that stands in this list itself. So what such a clause holds, its declaration first of all, is
exported. -/
theorem exported_iff_under_clause_statement (h : build source file resolved = .ok doc) (id : Nat) :
    (doc.isExported id = true ↔
      ∃ e, doc.OnPath id e ∧ doc.IsExportClause e ∧ doc.isStatement e = true) ∧
    ∀ e, doc.parent id = some e → doc.IsExportClause e → doc.isStatement e = true →
      doc.isExported id = true := by
  have hdoc := build_wellFormed h
  have hexported : doc.isExported id = true ↔
      ∃ e, doc.OnPath id e ∧ doc.IsExportClause e ∧ doc.isStatement e = true := by
    rw [isExported_iff_statementOf?]
    apply exists_congr
    intro e
    rw [hdoc.statementOf?_eq_some_iff, and_assoc, and_comm (a := doc.isStatement e = true)]
  refine ⟨hexported, ?_⟩
  intro e hparent hclause hstatement
  exact hexported.mpr ⟨e, .single ⟨hparent, hclause.not_container⟩, hclause, hstatement⟩

/-- A type in a namespace that is exported as a whole. -/
def exportedNamespaceText : Text := "export namespace N { type T = 1; }".toList

def exportedNamespace : ParsedFile where
  tree :=
    .node ⟨"Program", ⟨0, 34⟩, [("body", .parts [⟨0, 34⟩])]⟩
      [.node ⟨"ExportNamedDeclaration", ⟨0, 34⟩,
          [("declaration", .part ⟨7, 34⟩), ("specifiers", .parts [])]⟩
        [.node ⟨"TSModuleDeclaration", ⟨7, 34⟩, []⟩
          [.node ⟨"BindingIdentifier", ⟨17, 18⟩, [("symbol", .symbol 0)]⟩ [],
            .node ⟨"TSModuleBlock", ⟨19, 34⟩, []⟩
              [.node ⟨"TSTypeAliasDeclaration", ⟨21, 32⟩,
                  [("id", .part ⟨26, 27⟩), ("type_annotation", .part ⟨30, 31⟩)]⟩
                [.node ⟨"BindingIdentifier", ⟨26, 27⟩, [("symbol", .symbol 1)]⟩ [],
                  .node ⟨"TSLiteralType", ⟨30, 31⟩, []⟩
                    [.node ⟨"NumericLiteral", ⟨30, 31⟩, []⟩ []]]]]]]
  comments := []

theorem exported_iff_under_clause_statement_namespace :
    ∃ doc, build exportedNamespaceText exportedNamespace true = .ok doc ∧
      doc.slotNode? 1 "declaration" = some 2 ∧ doc.isExported 2 = true ∧
      doc.isExported 5 = true ∧
      ∃ e, doc.OnPath 5 e ∧ doc.IsExportClause e ∧ doc.isStatement e = true := by
  obtain ⟨doc, hbuild, htest⟩ : ∃ doc, build exportedNamespaceText exportedNamespace true = .ok doc ∧
      (doc.slotNode? 1 "declaration" == some 2 && doc.parent 2 == some 1 &&
        doc.kind 1 == .exportNamedDeclaration && doc.isStatement 1 && doc.isExported 5) = true :=
    exists_build_of_any (by decide +kernel)
  simp only [Bool.and_eq_true, beq_iff_eq] at htest
  obtain ⟨⟨⟨⟨hslot, hparent⟩, hkind⟩, hstatement⟩, hexported⟩ := htest
  have hdeclaration :=
    (exported_iff_under_clause_statement hbuild 2).2 1 hparent (.inl hkind) hstatement
  exact ⟨doc, hbuild, hslot, hdeclaration, hexported,
    (exported_iff_under_clause_statement hbuild 5).1.mp hexported⟩

/-- A type that a namespace exports from itself. -/
def namespaceExportText : Text := "namespace N { export type T = 1; }".toList

def namespaceExport : ParsedFile where
  tree :=
    .node ⟨"Program", ⟨0, 34⟩, [("body", .parts [⟨0, 34⟩])]⟩
      [.node ⟨"TSModuleDeclaration", ⟨0, 34⟩, []⟩
        [.node ⟨"BindingIdentifier", ⟨10, 11⟩, [("symbol", .symbol 0)]⟩ [],
          .node ⟨"TSModuleBlock", ⟨12, 34⟩, []⟩
            [.node ⟨"ExportNamedDeclaration", ⟨14, 32⟩,
                [("declaration", .part ⟨21, 32⟩), ("specifiers", .parts [])]⟩
              [.node ⟨"TSTypeAliasDeclaration", ⟨21, 32⟩,
                  [("id", .part ⟨26, 27⟩), ("type_annotation", .part ⟨30, 31⟩)]⟩
                [.node ⟨"BindingIdentifier", ⟨26, 27⟩, [("symbol", .symbol 1)]⟩ [],
                  .node ⟨"TSLiteralType", ⟨30, 31⟩, []⟩
                    [.node ⟨"NumericLiteral", ⟨30, 31⟩, []⟩ []]]]]]]
  comments := []

/-- The declaration of an export clause is not exported if the clause stands in a namespace: an
export clause on the way up is not enough. -/
theorem namespace_member_not_exported :
    ∃ doc, build namespaceExportText namespaceExport true = .ok doc ∧
      doc.slotNode? 4 "declaration" = some 5 ∧ doc.isExported 5 = false ∧
      ¬ (doc.isExported 5 = true ↔ ∃ e, doc.OnPath 5 e ∧ doc.IsExportClause e) := by
  obtain ⟨doc, hbuild, htest⟩ : ∃ doc, build namespaceExportText namespaceExport true = .ok doc ∧
      (doc.slotNode? 4 "declaration" == some 5 && doc.parent 5 == some 4 &&
        doc.kind 4 == .exportNamedDeclaration && !doc.isExported 5) = true :=
    exists_build_of_any (by decide +kernel)
  simp only [Bool.and_eq_true, beq_iff_eq, Bool.not_eq_true'] at htest
  obtain ⟨⟨⟨hslot, hparent⟩, hkind⟩, hexported⟩ := htest
  have hclause : doc.IsExportClause 4 := .inl hkind
  refine ⟨doc, hbuild, hslot, hexported, ?_⟩
  intro hiff
  rw [hiff.mpr ⟨4, .single ⟨hparent, hclause.not_container⟩, hclause⟩] at hexported
  cases hexported

end ScriptLint.Document

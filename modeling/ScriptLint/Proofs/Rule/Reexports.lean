import ScriptLint.Proofs.Rule.Findings
import ScriptLint.Proofs.Scope.Declarations
import ScriptLint.Proofs.Selector.Meaning
import ScriptLint.Proofs.Selector.Words
import ScriptLint.Proofs.Tree.Attributes

/-!
The rule `no-reexport` finds re-exports. There are three forms (`Reexport.Form`): an export from
another module, an export list that names what the module imports, and such a name as the default
export. The selectors of the rule ask for more nodes than these (`Reexport.selects_iff`) and its check
filters them again; what is left after both is a re-export (`Reexport.Asked.isReexport`), and no
re-export is lost on the way (`Reexport.Form.asked`, `Reexport.Form.exists_check`), given that export
specifiers stand in the lists of their declarations.
-/
namespace ScriptLint

/-- The kinds of nodes that the patterns of the rule name, identifiers apart. -/
def Reexport.exportKinds : List NodeKind :=
  [.exportAllDeclaration, .exportNamedDeclaration, .exportSpecifier, .exportDefaultDeclaration]

theorem NodeKind.typeName_eq_iff {kind : NodeKind} (hkind : kind ∈ Reexport.exportKinds)
    (other : NodeKind) : other.typeName = kind.typeName ↔ other = kind := by
  have hall : ∀ k ∈ Reexport.exportKinds, ∀ o ∈ NodeKind.all, o.typeName = k.typeName → o = k := by
    decide +kernel
  exact ⟨hall kind hkind other other.mem_all, congrArg typeName⟩

theorem Compound.accepts_kind_iff {kind : NodeKind} (hkind : kind ∈ Reexport.exportKinds)
    (predicates : List Predicate) (doc : Document) (id : NodeId) :
    (Compound.mk (some kind.typeName) predicates).accepts doc id = true ↔
      doc.kind id = kind ∧ ∀ p ∈ predicates, p.holds (doc.resolvePath? id p.path) = true := by
  simp [accepts, NodeKind.typeName_eq_iff hkind]

namespace Selector

theorem accepts_alone (pattern : String) (subject : Compound) (doc : Document) (id : NodeId) :
    (Selector.mk pattern subject []).accepts doc id = subject.accepts doc id := by
  simp [accepts, contextAccepts]

theorem accepts_child_iff (pattern : String) (subject above : Compound) (doc : Document)
    (id : NodeId) :
    (Selector.mk pattern subject [(.child, above)]).accepts doc id = true ↔
      subject.accepts doc id = true ∧
        ∃ parent, doc.parent id = some parent ∧ above.accepts doc parent = true := by
  cases hparent : doc.parent id <;> simp [accepts, contextAccepts, hparent]

end Selector

namespace Reexport

/-- The identifier stands for a symbol whose declaration is an import specifier. -/
def Imported (doc : Document) (identifier : NodeId) : Prop :=
  ∃ symbol declaration, doc.symbol identifier = some symbol ∧
    doc.declarationOf? symbol = some declaration ∧ (doc.kind declaration).isImportSpecifier = true

/-- Every export specifier stands in the list of the declaration above it. -/
def SpecifiersListed (doc : Document) : Prop :=
  ∀ id ∈ doc.idsOfKind .exportSpecifier, ∃ parent, doc.parent id = some parent ∧
    doc.kind parent = .exportNamedDeclaration ∧ id ∈ doc.slotNodes parent "specifiers"

/-- The forms of a re-export: the node, what it is called and the place where it is seen. -/
inductive Form (doc : Document) : NodeId → String → NodeId → Prop
  | source {id source : NodeId}
    (kind : doc.kind id = .exportAllDeclaration ∨ doc.kind id = .exportNamedDeclaration)
    (named : doc.slotNode? id "source" = some source) : Form doc id "reexportFrom" id
  | specifier {id parent identifier : NodeId} (kind : doc.kind id = .exportSpecifier)
    (listed : doc.parent id = some parent) (own : doc.slotNode? parent "source" = none)
    (exported : doc.slotNode? id "local" = some identifier) (imported : Imported doc identifier) :
    Form doc id "reexportBinding" identifier
  | value {id parent : NodeId} (kind : doc.kind id = .identifierReference)
    (exported : doc.parent id = some parent) (clause : doc.kind parent = .exportDefaultDeclaration)
    (imported : Imported doc id) : Form doc id "reexportBinding" id

/-- The node is a re-export of some form. -/
def IsReexport (doc : Document) (id : NodeId) : Prop := ∃ messageId place, Form doc id messageId place

/-- What is to be told of a re-export: what it is called, at its place. -/
def Tells (doc : Document) (id : NodeId) (d : Diagnostic) : Prop :=
  ∀ messageId place, Form doc id messageId place →
    d.messageId = some messageId ∧ d.span = doc.span place

variable {doc : Document} {id : Nat} {d : Diagnostic} {messageId : String} {place : NodeId}

/-! What the check finds. -/

theorem exists_checkIdentifier (h : Imported doc id) :
    ∃ d, checkIdentifier doc id = some d ∧ d.messageId = some "reexportBinding" ∧
      d.span = doc.span id := by
  obtain ⟨symbol, declaration, hsymbol, hdeclaration, himport⟩ := h
  simp only [checkIdentifier, Option.bind_eq_bind, hsymbol, Option.bind_some, hdeclaration, himport,
    guard_true, Option.pure_def]
  exact ⟨_, rfl, rfl, rfl⟩

theorem imported_of_checkIdentifier (h : checkIdentifier doc id = some d) : Imported doc id := by
  simp only [checkIdentifier, Option.bind_eq_bind, Option.bind_eq_some_iff] at h
  obtain ⟨symbol, hsymbol, declaration, hdeclaration, _, himport, _⟩ := h
  exact ⟨symbol, declaration, hsymbol, hdeclaration, by simpa using himport⟩

/-- The check reports every re-export. -/
theorem Form.exists_check (h : Form doc id messageId place) :
    ∃ d, check doc id = some d ∧ d.messageId = some messageId ∧ d.span = doc.span place := by
  cases h with
  | source kind named =>
    have hcheck : check doc id = checkSource doc id := by
      cases kind with
      | inl hall => rw [check, hall]
      | inr hnamed => rw [check, hnamed]
    simp only [hcheck, checkSource, named]
    exact ⟨_, rfl, rfl, rfl⟩
  | specifier kind listed own exported imported =>
    obtain ⟨d, hd, hsaid⟩ := exists_checkIdentifier imported
    refine ⟨d, ?_, hsaid⟩
    simp [check, kind, hasSource, listed, own, exported, hd]
  | value kind exported clause imported =>
    simpa [check, kind] using exists_checkIdentifier imported

/-! What the selectors ask for. -/

/-- The patterns of the rule, compiled. -/
theorem compile_selectors :
    selectors.map (fun pattern => (Selector.compile pattern).toOption) =
      [some ⟨"ExportAllDeclaration", ⟨some NodeKind.exportAllDeclaration.typeName, []⟩, []⟩,
        some ⟨"ExportNamedDeclaration[source]",
          ⟨some NodeKind.exportNamedDeclaration.typeName, [⟨["source"], none⟩]⟩, []⟩,
        some ⟨"ExportNamedDeclaration[specifiers.length>0] > ExportSpecifier",
          ⟨some NodeKind.exportSpecifier.typeName, []⟩,
          [(.child, ⟨some NodeKind.exportNamedDeclaration.typeName,
            [⟨["specifiers", "length"], some (.gt, .number (.ofNat 0))⟩]⟩)]⟩,
        some ⟨"ExportDefaultDeclaration > Identifier", ⟨some "Identifier", []⟩,
          [(.child, ⟨some NodeKind.exportDefaultDeclaration.typeName, []⟩)]⟩] := by
  decide +kernel

/-- The nodes that the patterns accept. -/
inductive Asked (doc : Document) (id : NodeId) : Prop
  | all (kind : doc.kind id = .exportAllDeclaration)
  | named (kind : doc.kind id = .exportNamedDeclaration)
    (source : (doc.attribute? id "source").isSome = true)
  | specifier {parent : NodeId} (kind : doc.kind id = .exportSpecifier)
    (above : doc.parent id = some parent) (clause : doc.kind parent = .exportNamedDeclaration)
    (listed : doc.slotNodes parent "specifiers" ≠ [])
  | identifier {parent : NodeId} (kind : (doc.kind id).isIdentifier = true)
    (above : doc.parent id = some parent) (clause : doc.kind parent = .exportDefaultDeclaration)

/-- The attribute is no value that would count as missing. -/
theorem holds_source_iff :
    (Predicate.mk ["source"] none).holds (doc.resolvePath? id ["source"]) = true ↔
      (doc.attribute? id "source").isSome = true := by
  have hpath : doc.resolvePath? id ["source"] = doc.attribute? id "source" := by
    simp [Document.resolvePath?, Document.step?]
  have hbuiltin : doc.builtin? id "source" = none := rfl
  have hnull : doc.attribute? id "source" ≠ some .null := by
    rw [Document.attribute?, hbuiltin]
    cases doc.flag? id "source" with
    | some b => simp
    | none =>
      cases doc.slot? id "source" with
      | none => simp
      | some slot => cases slot <;> simp
  rw [hpath]
  cases hvalue : doc.attribute? id "source" with
  | none => simp [Predicate.holds]
  | some value =>
    have hne : value ≠ .null := by
      rintro rfl
      exact hnull hvalue
    simp [Predicate.holds, hne]

theorem isSome_attribute? {name : String} {child : NodeId} (h : doc.slotNode? id name = some child) :
    (doc.attribute? id name).isSome = true := by
  have hslot : doc.slot? id name = some (.one child) := by
    rw [Document.slotNode?] at h
    split at h
    · rename_i hslot
      rw [hslot, Option.some.inj h]
    · cases h
  rw [Document.attribute?]
  split
  · rfl
  · split
    · rfl
    · rw [hslot]
      rfl

section

variable {source : Text} {file : ParsedFile} {resolved : Bool}
  (h : Document.build source file resolved = .ok doc)

include h

theorem holds_specifiers_iff :
    (Predicate.mk ["specifiers", "length"] (some (.gt, .number (.ofNat 0)))).holds
        (doc.resolvePath? id ["specifiers", "length"]) = true ↔
      doc.slotNodes id "specifiers" ≠ [] := by
  rw [Document.holds_length_iff h id (by decide +kernel : Layout.OnlyLists "specifiers") rfl
    (.inl (Binary64.twoPow_pos 53)), List.length_pos_iff]

theorem selects_iff : Rule.reexport.selects doc id = true ↔ Asked doc id := by
  have hselects : Rule.reexport.selects doc id =
      (selectors.map fun pattern => (Selector.compile pattern).toOption).any
        (·.any (·.accepts doc id)) := by
    rw [List.any_map]
    rfl
  have hidentifier : (Compound.mk (some "Identifier") []).accepts doc id = true ↔
      (doc.kind id).isIdentifier = true := by
    simp [Compound.accepts, NodeKind.typeName_eq_identifier_iff]
  rw [hselects, compile_selectors]
  simp only [List.any_cons, List.any_nil, Option.any_some, Bool.or_false, Bool.or_eq_true,
    Selector.accepts_alone, Selector.accepts_child_iff, hidentifier,
    Compound.accepts_kind_iff (by decide : NodeKind.exportAllDeclaration ∈ exportKinds),
    Compound.accepts_kind_iff (by decide : NodeKind.exportNamedDeclaration ∈ exportKinds),
    Compound.accepts_kind_iff (by decide : NodeKind.exportSpecifier ∈ exportKinds),
    Compound.accepts_kind_iff (by decide : NodeKind.exportDefaultDeclaration ∈ exportKinds),
    List.forall_mem_singleton, holds_source_iff, holds_specifiers_iff h]
  constructor
  · rintro (⟨hkind, _⟩ | ⟨hkind, hsource⟩ | ⟨⟨hkind, _⟩, _, habove, hclause, hlisted⟩ |
      ⟨hkind, _, habove, hclause, _⟩)
    · exact .all hkind
    · exact .named hkind hsource
    · exact .specifier hkind habove hclause hlisted
    · exact .identifier hkind habove hclause
  · intro hasked
    cases hasked with
    | all kind => exact .inl ⟨kind, by simp⟩
    | named kind source => exact .inr (.inl ⟨kind, source⟩)
    | specifier kind above clause listed =>
      exact .inr (.inr (.inl ⟨⟨kind, by simp⟩, _, above, clause, listed⟩))
    | identifier kind above clause =>
      exact .inr (.inr (.inr ⟨kind, _, above, clause, by simp⟩))

end

/-- A node that is asked about and then reported is a re-export. -/
theorem Asked.isReexport (hasked : Asked doc id) (hcheck : check doc id = some d) :
    IsReexport doc id := by
  have hsource : checkSource doc id = some d → ∃ source, doc.slotNode? id "source" = some source := by
    intro h
    obtain ⟨source, hsource, _⟩ := Option.bind_eq_some_iff.mp h
    exact ⟨source, hsource⟩
  cases hasked with
  | all kind =>
    rw [check, kind] at hcheck
    obtain ⟨_, named⟩ := hsource hcheck
    exact ⟨_, _, .source (.inl kind) named⟩
  | named kind _ =>
    rw [check, kind] at hcheck
    obtain ⟨_, named⟩ := hsource hcheck
    exact ⟨_, _, .source (.inr kind) named⟩
  | @specifier parent kind above clause listed =>
    simp only [check, kind, hasSource, above] at hcheck
    cases hown : doc.slotNode? parent "source" with
    | some source => simp [hown] at hcheck
    | none =>
      simp only [hown, Option.isSome_none, Bool.false_eq_true, if_false,
        Option.bind_eq_some_iff] at hcheck
      obtain ⟨identifier, exported, hidentifier⟩ := hcheck
      exact ⟨_, _, .specifier kind above hown exported (imported_of_checkIdentifier hidentifier)⟩
  | identifier kind above clause =>
    cases hkind : doc.kind id with
    | identifierReference =>
      rw [check, hkind] at hcheck
      exact ⟨_, _, .value hkind above clause (imported_of_checkIdentifier hcheck)⟩
    -- other identifiers are asked about as well, but the check has nothing to say of them
    | _ => simp [check, hkind, NodeKind.isIdentifier] at hcheck kind

/-- Every re-export is asked about, since a list with a specifier in it is not empty. -/
theorem Form.asked (hlisted : SpecifiersListed doc) (h : Form doc id messageId place) :
    Asked doc id := by
  cases h with
  | source kind named =>
    cases kind with
    | inl hall => exact .all hall
    | inr hnamed => exact .named hnamed (isSome_attribute? named)
  | specifier kind listed own exported imported =>
    obtain ⟨parent, above, clause, hmem⟩ :=
      hlisted id ((Document.mem_idsOfKind (by decide)).mpr kind)
    exact .specifier kind above clause (List.ne_nil_of_mem hmem)
  | value kind exported clause imported =>
    exact .identifier (by simp [kind, NodeKind.isIdentifier]) exported clause

theorem Form.lt_size (h : Form doc id messageId place) : id < doc.size := by
  cases h with
  | source kind named =>
    cases kind with
    | inl hall => exact Document.lt_size_of_kind (by decide) hall
    | inr hnamed => exact Document.lt_size_of_kind (by decide) hnamed
  | specifier kind => exact Document.lt_size_of_kind (by decide) kind
  | value kind => exact Document.lt_size_of_kind (by decide) kind

theorem checks {source : Text} {file : ParsedFile} {resolved : Bool}
    (h : Document.build source file resolved = .ok doc) (hlisted : SpecifiersListed doc) :
    Rule.reexport.Checks doc (IsReexport doc) (Tells doc) where
  lt_size := by
    rintro id ⟨_, _, hform⟩
    exact hform.lt_size
  selects := by
    rintro id ⟨_, _, hform⟩
    exact (selects_iff h).mpr (hform.asked hlisted)
  exists_check := by
    rintro id ⟨_, _, hform⟩
    obtain ⟨d, hd, _⟩ := hform.exists_check
    refine ⟨d, hd, ?_⟩
    -- whatever other form the node may have, the check reports it with the same diagnostic
    intro messageId place hother
    obtain ⟨e, he, hsaid⟩ := hother.exists_check
    obtain rfl := Option.some.inj (hd.symm.trans he)
    exact hsaid
  wanted := by
    intro id d hselects hcheck
    exact ((selects_iff h).mp hselects).isReexport hcheck

/-- Where export specifiers stand in the lists of their declarations, a run with the rule reports each
re-export once, as what it is and at its place, and nothing else in the name of the rule. -/
theorem reports_each_reexport {source : Text} {file : ParsedFile} {resolved : Bool}
    (h : Document.build source file resolved = .ok doc) (hlisted : SpecifiersListed doc)
    {rules : RuleSet} (hrule : rules.reexport = true) {cache : SelectorCache}
    (hcache : cache.Sound) :
    ∃ report, (rules.run cache doc).1 = .ok report ∧
      OneEach (IsReexport doc) (Tells doc)
        (report.diagnostics.filter (·.rule == "no-reexport")) := by
  have henabled : Rule.reexport ∈ rules.enabled := by
    simp [RuleSet.enabled, hrule]
  apply RuleSet.oneEach_of_checks (Document.build_wellFormed h) henabled hcache (checks h hlisted)
  intro id d severity htells
  exact htells

/-- A name is imported and exported again, in a list and as the default, between which all of another
module is exported. -/
def relayText : Text :=
  "import \x7ba\x7d from 'm';export \x7ba\x7d;export * from 'n';export default a;".toList

def relayFile : ParsedFile where
  tree :=
    .node ⟨"Program", ⟨0, 66⟩, [("body", .parts [⟨0, 20⟩, ⟨20, 31⟩, ⟨31, 49⟩, ⟨49, 66⟩])]⟩
      [.node ⟨"ImportDeclaration", ⟨0, 20⟩,
          [("specifiers", .parts [⟨8, 9⟩]), ("source", .part ⟨16, 19⟩)]⟩
        [.node ⟨"ImportSpecifier", ⟨8, 9⟩, [("imported", .part ⟨8, 9⟩), ("local", .part ⟨8, 9⟩)]⟩
          [.node ⟨"IdentifierName", ⟨8, 9⟩, []⟩ [],
            .node ⟨"BindingIdentifier", ⟨8, 9⟩, [("symbol", .symbol 0)]⟩ []],
          .node ⟨"StringLiteral", ⟨16, 19⟩, []⟩ []],
        .node ⟨"ExportNamedDeclaration", ⟨20, 31⟩, [("specifiers", .parts [⟨28, 29⟩])]⟩
        [.node ⟨"ExportSpecifier", ⟨28, 29⟩,
            [("local", .part ⟨28, 29⟩), ("exported", .part ⟨28, 29⟩)]⟩
          [.node ⟨"IdentifierReference", ⟨28, 29⟩, [("symbol", .symbol 0)]⟩ [],
            .node ⟨"IdentifierName", ⟨28, 29⟩, []⟩ []]],
        .node ⟨"ExportAllDeclaration", ⟨31, 49⟩, [("source", .part ⟨45, 48⟩)]⟩
        [.node ⟨"StringLiteral", ⟨45, 48⟩, []⟩ []],
        .node ⟨"ExportDefaultDeclaration", ⟨49, 66⟩, [("declaration", .part ⟨64, 65⟩)]⟩
        [.node ⟨"IdentifierReference", ⟨64, 65⟩, [("symbol", .symbol 0)]⟩ []]]
  comments := []

/-- All three are reported. -/
theorem reports_each_reexport_relayText :
    ∃ doc report, Document.build relayText relayFile true = .ok doc ∧ SpecifiersListed doc ∧
      RuleSet.standard.reexport = true ∧ SelectorCache.empty.Sound ∧
      (RuleSet.standard.run .empty doc).1 = .ok report ∧
      (report.diagnostics.filter (·.rule == "no-reexport")).map (·.messageId) =
        [some "reexportBinding", some "reexportFrom", some "reexportBinding"] ∧
      OneEach (IsReexport doc) (Tells doc)
        (report.diagnostics.filter (·.rule == "no-reexport")) := by
  obtain ⟨doc, hbuild, htest⟩ : ∃ doc, Document.build relayText relayFile true = .ok doc ∧
      (doc.idsOfKind .exportSpecifier == [7] && doc.parent 7 == some 6 &&
        doc.kind 6 == .exportNamedDeclaration && doc.slotNodes 6 "specifiers" == [7] &&
        (RuleSet.standard.run .empty doc).1.toOption.map
            (fun report => (report.diagnostics.filter (·.rule == "no-reexport")).map (·.messageId)) ==
          some [some "reexportBinding", some "reexportFrom", some "reexportBinding"]) = true :=
    Document.exists_build_of_any (by decide +kernel)
  simp only [Bool.and_eq_true, beq_iff_eq] at htest
  obtain ⟨⟨⟨⟨hids, habove⟩, hclause⟩, hmembers⟩, hmessages⟩ := htest
  have hlisted : SpecifiersListed doc := by
    intro id hid
    rw [hids, List.mem_singleton] at hid
    subst hid
    exact ⟨6, habove, hclause, by simp [hmembers]⟩
  have hrule : RuleSet.standard.reexport = true := rfl
  obtain ⟨report, hrun, heach⟩ :=
    reports_each_reexport hbuild hlisted hrule SelectorCache.sound_empty
  rw [hrun] at hmessages
  exact ⟨doc, report, hbuild, hlisted, hrule, SelectorCache.sound_empty, hrun,
    Option.some.inj hmessages, heach⟩

end Reexport

end ScriptLint

import ScriptLint.Proofs.Rule.Findings
import ScriptLint.Proofs.Scope.Declarations
import ScriptLint.Proofs.Tree.Attributes

/-!
The rule `max-params` counts parameters. The limit goes into the patterns as decimal digits and comes
back as a double, which a selector compares with the double of the length of a list. As long as the
document has fewer than `2 ^ 53` nodes this decides as the numbers themselves would, for any limit
(`MaxParams.selects_iff`), so a run reports each function over the limit once and no other node.
-/
namespace ScriptLint.MaxParams

/-- The kinds of nodes whose parameters count. -/
def functionKinds : List NodeKind :=
  [.functionDeclaration, .functionExpression, .arrowFunction, .declareFunction]

/-- The node is a function with more parameters than the rule allows. -/
def Exceeds (rule : MaxParams) (doc : Document) (id : NodeId) : Prop :=
  doc.kind id ∈ functionKinds ∧ rule.max < (doc.slotNodes id "params").length

instance (rule : MaxParams) (doc : Document) (id : NodeId) : Decidable (rule.Exceeds doc id) :=
  inferInstanceAs (Decidable (_ ∧ _))

/-- What is to be told of such a function: how many parameters it has and how many are allowed, at
its name if it has one. -/
structure Tells (rule : MaxParams) (doc : Document) (id : NodeId) (d : Diagnostic) : Prop where
  messageId : d.messageId = some "exceed"
  span : d.span = doc.span ((doc.slotNode? id "id").getD id)
  count : d.value? "count" = some (toString (doc.slotNodes id "params").length)
  max : d.value? "max" = some (toString rule.max)

variable {rule : MaxParams} {doc : Document} {id : Nat}

theorem typeName_mem_functionTypes_iff (kind : NodeKind) :
    kind.typeName ∈ functionTypes ↔ kind ∈ functionKinds := by
  cases kind <;> decide

theorem exists_check_of_params (h : (doc.slotNodes id "params") ≠ []) :
    ∃ d, rule.check doc id = some d ∧ rule.Tells doc id d := by
  simp only [check, List.head?_eq_some_head h, List.getLast?_eq_some_getLast h]
  exact ⟨_, rfl, rfl, rfl, rfl, rfl⟩

section

variable {source : Text} {file : ParsedFile} {resolved : Bool}
  (h : Document.build source file resolved = .ok doc) (hsize : doc.size < Nat.pow 2 53)

include h hsize

theorem accepts_iff {type : String} (htype : type ∈ functionTypes) :
    (Selector.compile (type ++ "[params.length>" ++ toString rule.max ++ "]")).toOption.any
        (·.accepts doc id) = true ↔
      (doc.kind id).typeName = type ∧ rule.max < (doc.slotNodes id "params").length := by
  have hword : Selector.ofWord (Nat.toDigits 10 rule.max) = .number (.ofNat rule.max) :=
    Selector.ofWord_eq_iff.mpr (.number (Number.read?_toDigits rule.max))
  have hsmall : doc.size < Binary64.twoPow 53 := by
    unfold Binary64.twoPow
    exact hsize
  have hlength := Document.holds_length_iff h id (by decide +kernel : Layout.OnlyLists "params") rfl
    (n := rule.max) (.inr hsmall)
  rw [compile_selector htype, hword]
  simp only [Except.toOption, Option.any_some, Selector.accepts, Compound.accepts,
    Selector.contextAccepts, List.all_cons, List.all_nil, Bool.and_true, Bool.and_eq_true, beq_iff_eq,
    hlength]

theorem selects_iff : (Rule.maxParams rule).selects doc id = true ↔ rule.Exceeds doc id := by
  simp only [Rule.selects, Rule.selectors, selectors, List.any_map, List.any_eq_true,
    Function.comp_apply]
  rw [Exceeds, ← typeName_mem_functionTypes_iff]
  constructor
  · rintro ⟨type, htype, haccepts⟩
    obtain ⟨rfl, hcount⟩ := (accepts_iff h hsize htype).mp haccepts
    exact ⟨htype, hcount⟩
  · rintro ⟨htype, hcount⟩
    exact ⟨_, htype, (accepts_iff h hsize htype).mpr ⟨rfl, hcount⟩⟩

theorem checks : (Rule.maxParams rule).Checks doc (rule.Exceeds doc) (rule.Tells doc) where
  lt_size id hid := by
    apply Document.lt_size_of_kind _ rfl
    intro hunknown
    simp [Exceeds, hunknown, functionKinds] at hid
  selects id hid := (selects_iff h hsize).mpr hid
  exists_check id hid := by
    apply exists_check_of_params
    intro hnil
    simp [Exceeds, hnil] at hid
  wanted id d hselects _ := (selects_iff h hsize).mp hselects

end

/-- The patterns of the rule compile, whatever the limit, and a run with the rule reports each
function over the limit once, with the number of its parameters, and nothing else in its name. -/
theorem reports_functions_over_limit {source : Text} {file : ParsedFile} {resolved : Bool}
    (h : Document.build source file resolved = .ok doc) (hsize : doc.size < Nat.pow 2 53)
    {rules : RuleSet} (hrule : rules.maxParams = some rule) {cache : SelectorCache}
    (hcache : cache.Sound) :
    rule.selectors.length = 4 ∧
    (∀ pattern ∈ rule.selectors, ∃ selector, Selector.compile pattern = .ok selector) ∧
    ∃ report, (rules.run cache doc).1 = .ok report ∧
      OneEach (rule.Exceeds doc) (rule.Tells doc)
        (report.diagnostics.filter (·.rule == "max-params")) := by
  refine ⟨rfl, (Rule.maxParams rule).exists_compile, ?_⟩
  have henabled : Rule.maxParams rule ∈ rules.enabled := by
    simp [RuleSet.enabled, hrule]
  apply RuleSet.oneEach_of_checks (Document.build_wellFormed h) henabled hcache (checks h hsize)
  intro id d severity htells
  exact ⟨htells.messageId, htells.span, htells.count, htells.max⟩

/-- A function of three parameters, and one of two. -/
def functionsText : Text := "function f(a,b,c)\x7b\x7d g=(a,b)=>a".toList

def functionsFile : ParsedFile where
  tree :=
    .node ⟨"Program", ⟨0, 30⟩, [("body", .parts [⟨0, 19⟩, ⟨20, 30⟩])]⟩
      [.node ⟨"Function", ⟨0, 19⟩,
          [("type", .word "FunctionDeclaration"), ("id", .part ⟨9, 10⟩),
            ("params", .parts [⟨11, 12⟩, ⟨13, 14⟩, ⟨15, 16⟩]), ("body", .part ⟨17, 19⟩)]⟩
        [.node ⟨"BindingIdentifier", ⟨9, 10⟩, [("symbol", .symbol 0)]⟩ [],
          .node ⟨"FormalParameter", ⟨11, 12⟩, []⟩ [],
          .node ⟨"FormalParameter", ⟨13, 14⟩, []⟩ [],
          .node ⟨"FormalParameter", ⟨15, 16⟩, []⟩ [],
          .node ⟨"FunctionBody", ⟨17, 19⟩, [("statements", .parts [])]⟩ []],
        .node ⟨"ExpressionStatement", ⟨20, 30⟩, [("expression", .part ⟨20, 30⟩)]⟩
        [.node ⟨"AssignmentExpression", ⟨20, 30⟩, [("left", .part ⟨20, 21⟩), ("right", .part ⟨22, 30⟩)]⟩
          [.node ⟨"IdentifierReference", ⟨20, 21⟩, []⟩ [],
            .node ⟨"ArrowFunctionExpression", ⟨22, 30⟩,
                [("params", .parts [⟨23, 24⟩, ⟨25, 26⟩]), ("expression", .set),
                  ("body", .part ⟨29, 30⟩)]⟩
              [.node ⟨"FormalParameter", ⟨23, 24⟩, []⟩ [],
                .node ⟨"FormalParameter", ⟨25, 26⟩, []⟩ [],
                .node ⟨"IdentifierReference", ⟨29, 30⟩, []⟩ []]]]]
  comments := []

/-- Every rule, and two parameters allowed. -/
def twoAllowed : RuleSet := { RuleSet.standard with maxParams := some ⟨2⟩ }

/-- Where two parameters are allowed, the first function is reported and the second is not. -/
theorem reports_functions_over_limit_functionsText :
    ∃ doc report, Document.build functionsText functionsFile true = .ok doc ∧
      doc.size < Nat.pow 2 53 ∧ SelectorCache.empty.Sound ∧
      (twoAllowed.run .empty doc).1 = .ok report ∧
      (MaxParams.mk 2).Exceeds doc 1 ∧ ¬ (MaxParams.mk 2).Exceeds doc 10 ∧
      OneEach ((MaxParams.mk 2).Exceeds doc) ((MaxParams.mk 2).Tells doc)
        (report.diagnostics.filter (·.rule == "max-params")) := by
  obtain ⟨doc, hbuild, htest⟩ : ∃ doc, Document.build functionsText functionsFile true = .ok doc ∧
      (decide (doc.size < Nat.pow 2 53) && decide ((MaxParams.mk 2).Exceeds doc 1) &&
        decide (doc.kind 10 ∈ functionKinds ∧ ¬ (MaxParams.mk 2).Exceeds doc 10)) = true :=
    Document.exists_build_of_any (by decide +kernel)
  simp only [Bool.and_eq_true, decide_eq_true_eq] at htest
  obtain ⟨⟨hsize, hfirst⟩, hsecond⟩ := htest
  have hrule : twoAllowed.maxParams = some ⟨2⟩ := rfl
  obtain ⟨_, _, report, hrun, heach⟩ :=
    reports_functions_over_limit hbuild hsize hrule SelectorCache.sound_empty
  exact ⟨doc, report, hbuild, hsize, SelectorCache.sound_empty, hrun, hfirst, hsecond.2, heach⟩

end ScriptLint.MaxParams

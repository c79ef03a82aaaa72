import Mathlib.Data.Multiset.Bind
import ScriptLint.Proofs.Edit.Acceptance
import ScriptLint.Proofs.Rule.Checks
import ScriptLint.Proofs.Rule.Dispatch
import ScriptLint.Proofs.Tree.Walks

/-!
Rules do not get in each other's way. A run is a list of calls, each of a rule about a node
(`Dispatch.calls`); a rule is called about the nodes that it selects and no others
(`Dispatch.calls_flatMap_dispatches`). What it says bears its name, so the diagnostics of one rule can
be told from the rest, and as the sort is stable they come in the order they would have if the rule
were alone.
-/
namespace ScriptLint

namespace Dispatch

/-- The calls of rules in a run over a document, in order: a rule and the node that it is asked
about. -/
def calls (dispatches : List Dispatch) (doc : Document) : List (Rule × NodeId) :=
  (doc.descendants Document.root).flatMap fun id =>
    (dispatches.filter (·.selector.accepts doc id)).map fun d => (d.rule, id)

/-- Whatever a run says is said in one of these calls. -/
theorem checkAll_eq_calls (dispatches : List Dispatch) (doc : Document) :
    checkAll dispatches doc =
      (calls dispatches doc).filterMap fun call => call.1.check doc call.2 := by
  rw [checkAll, calls, List.filterMap_flatMap]
  refine congrArg (doc.descendants Document.root).flatMap (funext fun id => ?_)
  rw [checkNode, List.filterMap_map, List.filterMap_filter]
  rfl

theorem compileEach_append {as bs : List (Rule × String)} {ds es : List Dispatch}
    (has : compileEach as = .ok ds) (hbs : compileEach bs = .ok es) :
    compileEach (as ++ bs) = .ok (ds ++ es) := by
  induction as generalizing ds with
  | nil =>
    cases has
    exact hbs
  | cons entry as ih =>
    rw [compileEach] at has
    rw [List.cons_append, compileEach]
    cases hc : Selector.compile entry.2 with
    | error error =>
      rw [hc] at has
      cases has
    | ok selector =>
      rw [hc] at has
      cases hrest : compileEach as with
      | error error =>
        rw [hrest] at has
        cases has
      | ok rest =>
        rw [hrest] at has
        cases has
        simp only [ih hrest]
        rfl

/-- The patterns of a rule compile to its dispatches. -/
theorem compileEach_patterns (rule : Rule) : compileEach rule.patterns = .ok rule.dispatches := by
  have h := rule.exists_compile
  rw [Rule.patterns, Rule.dispatches]
  revert h
  induction rule.selectors with
  | nil => exact fun _ => rfl
  | cons pattern patterns ih =>
    intro h
    obtain ⟨selector, hselector⟩ := h pattern List.mem_cons_self
    rw [List.map_cons, compileEach]
    simp only [hselector, ih fun p hp => h p (List.mem_cons_of_mem _ hp)]
    rw [List.filterMap_cons_some (by rw [hselector]; rfl)]
    rfl

theorem compileEach_flatMap_patterns (rules : List Rule) :
    compileEach (rules.flatMap Rule.patterns) = .ok (rules.flatMap Rule.dispatches) := by
  induction rules with
  | nil => rfl
  | cons rule rules ih => exact compileEach_append (compileEach_patterns rule) ih

/-- A node goes to the rules that select it, once to each. -/
theorem map_rule_filter_flatMap (rules : List Rule) (doc : Document) (id : NodeId) :
    ((rules.flatMap Rule.dispatches).filter (·.selector.accepts doc id)).map (·.rule) =
      rules.filter (·.selects doc id) := by
  induction rules with
  | nil => rfl
  | cons rule rules ih =>
    rw [List.flatMap_cons, List.filter_append, List.map_append, ih,
      Rule.map_rule_filter_dispatches, List.filter_cons]
    split
    · rfl
    · rfl

theorem calls_flatMap_dispatches (rules : List Rule) (doc : Document) :
    calls (rules.flatMap Rule.dispatches) doc =
      (doc.descendants Document.root).flatMap fun id =>
        (rules.filter (·.selects doc id)).map fun rule => (rule, id) := by
  refine congrArg (doc.descendants Document.root).flatMap (funext fun id => ?_)
  rw [← map_rule_filter_flatMap, List.map_map]
  rfl

/-- What rules say in a run: the nodes in visiting order, and for each of them the rules in theirs. -/
theorem checkAll_flatMap_dispatches (rules : List Rule) (doc : Document) :
    checkAll (rules.flatMap Rule.dispatches) doc =
      (doc.descendants Document.root).flatMap fun id =>
        (rules.filter (·.selects doc id)).filterMap (·.check doc id) := by
  rw [checkAll_eq_calls, calls_flatMap_dispatches, List.filterMap_flatMap]
  refine congrArg (doc.descendants Document.root).flatMap (funext fun id => ?_)
  rw [List.filterMap_map]
  rfl

theorem calls_nodup {rules : List Rule} (hrules : rules.Nodup) {doc : Document}
    (hdoc : doc.WellFormed) : (calls (rules.flatMap Rule.dispatches) doc).Nodup := by
  rw [calls_flatMap_dispatches, hdoc.descendants_root, Document.ids, List.nodup_flatMap]
  constructor
  · intro id _
    exact (hrules.filter _).map fun a b h => (Prod.mk.inj h).1
  · refine List.nodup_range.imp fun {a b} hne => ?_
    rintro ⟨rule, id⟩ ha hb
    obtain ⟨_, _, ha⟩ := List.mem_map.mp ha
    obtain ⟨_, _, hb⟩ := List.mem_map.mp hb
    exact hne ((Prod.mk.inj ha).2.trans (Prod.mk.inj hb).2.symm)

end Dispatch

/-- What a rule reports about a document: it is asked about the nodes that it selects. -/
def Rule.reports (rule : Rule) (doc : Document) : List Diagnostic :=
  ((doc.descendants Document.root).filter (rule.selects doc)).filterMap (rule.check doc)

namespace RuleSet

variable {rules : RuleSet} {rule : Rule} {doc : Document}

/-- Of the rules only one, with the same severities. -/
def only (rules : RuleSet) : Rule → RuleSet
  | .singleLine options =>
    { RuleSet.empty with singleLine := some options, severities := rules.severities }
  | .maxParams options =>
    { RuleSet.empty with maxParams := some options, severities := rules.severities }
  | .singleUseType options =>
    { RuleSet.empty with singleUseType := some options, severities := rules.severities }
  | .reexport => { RuleSet.empty with reexport := true, severities := rules.severities }
  | .typesBeforeUse => { RuleSet.empty with typesBeforeUse := true, severities := rules.severities }

@[simp] theorem enabled_only (rules : RuleSet) (rule : Rule) : (rules.only rule).enabled = [rule] := by
  cases rule <;> rfl

@[simp] theorem withSeverity_only (rules : RuleSet) (rule : Rule) :
    (rules.only rule).withSeverity = rules.withSeverity := by
  cases rule <;> rfl

@[simp] theorem withSeverity_rule (rules : RuleSet) (d : Diagnostic) :
    (rules.withSeverity d).rule = d.rule := by
  rw [withSeverity]
  split <;> rfl

/-- The name of an enabled rule picks it out. -/
theorem filter_name_enabled (h : rule ∈ rules.enabled) :
    rules.enabled.filter (·.name == rule.name) = [rule] := by
  obtain ⟨before, after, henabled⟩ := List.append_of_mem h
  have hnames := rules.enabled_names_nodup
  rw [henabled, List.map_append, List.map_cons, List.nodup_middle, List.nodup_cons] at hnames
  have hnone : ∀ other ∈ before ++ after, ¬ (other.name == rule.name) = true := by
    intro other hother heq
    rw [← List.map_append] at hnames
    exact hnames.1 (List.mem_map.mpr ⟨other, hother, beq_iff_eq.mp heq⟩)
  have hleft : before.filter (·.name == rule.name) = [] :=
    List.filter_eq_nil_iff.mpr fun other ho => hnone other (List.mem_append_left _ ho)
  have hright : after.filter (·.name == rule.name) = [] :=
    List.filter_eq_nil_iff.mpr fun other ho => hnone other (List.mem_append_right _ ho)
  rw [henabled, List.filter_append, List.filter_cons, if_pos (beq_self_eq_true _), hleft, hright]
  rfl

/-- What rules say about a node, as far as it bears a name, is said by those of that name. -/
theorem filter_rule_filterMap_check (rules : List Rule) (name : String) (doc : Document)
    (id : NodeId) :
    (rules.filterMap (·.check doc id)).filter (·.rule == name) =
      (rules.filter (·.name == name)).filterMap (·.check doc id) := by
  rw [List.filter_filterMap, List.filterMap_filter]
  refine congrArg (rules.filterMap ·) (funext fun rule => ?_)
  cases hcheck : rule.check doc id with
  | none => simp
  | some d => simp [Option.filter, Rule.rule_of_check hcheck]

/-- The diagnostics with the name of an enabled rule are those it makes alone. -/
theorem filter_rule_checkAll (h : rule ∈ rules.enabled) (doc : Document) :
    (Dispatch.checkAll (rules.enabled.flatMap Rule.dispatches) doc).filter (·.rule == rule.name) =
      Dispatch.checkAll ([rule].flatMap Rule.dispatches) doc := by
  rw [Dispatch.checkAll_flatMap_dispatches, Dispatch.checkAll_flatMap_dispatches,
    List.filter_flatMap]
  refine congrArg (doc.descendants Document.root).flatMap (funext fun id => ?_)
  rw [filter_rule_filterMap_check, List.filter_comm, filter_name_enabled h]

theorem filter_rule_report (h : rule ∈ rules.enabled) (doc : Document) :
    (rules.report (rules.enabled.flatMap Rule.dispatches) doc).diagnostics.filter
        (·.rule == rule.name) =
      ((rules.only rule).report ([rule].flatMap Rule.dispatches) doc).diagnostics := by
  have hsort : ∀ ds : List Diagnostic,
      (sortBy (fun a b => a.span.le b.span) ds).filter (·.rule == rule.name) =
        sortBy (fun a b => a.span.le b.span) (ds.filter (·.rule == rule.name)) :=
    filter_sortBy (fun a b => Span.le_total a.span b.span)
      (fun a b c => Span.le_trans a.span b.span c.span) _
  simp only [report, withSeverity_only]
  rw [hsort, List.filter_map, ← filter_rule_checkAll h]
  simp [Function.comp_def]

/-- Node by node or rule by rule, the rules report the same. -/
theorem checkAll_perm_reports (rules : List Rule) (doc : Document) :
    (Dispatch.checkAll (rules.flatMap Rule.dispatches) doc).Perm
      (rules.flatMap (·.reports doc)) := by
  have hnodes : Dispatch.checkAll (rules.flatMap Rule.dispatches) doc =
      (doc.descendants Document.root).flatMap fun id => rules.flatMap fun rule =>
        (if rule.selects doc id then rule.check doc id else none).toList := by
    simp only [Dispatch.checkAll_flatMap_dispatches, List.filterMap_filter]
    simp only [List.filterMap_eq_flatMap_toList]
  have hrules : rules.flatMap (·.reports doc) =
      rules.flatMap fun rule => (doc.descendants Document.root).flatMap fun id =>
        (if rule.selects doc id then rule.check doc id else none).toList := by
    simp only [Rule.reports, List.filterMap_filter]
    simp only [List.filterMap_eq_flatMap_toList]
  rw [hnodes, hrules, ← Multiset.coe_eq_coe]
  simp only [← Multiset.coe_bind]
  exact Multiset.bind_bind _ _

theorem run_eq_report (rules : RuleSet) {cache : SelectorCache} (h : cache.Sound)
    (doc : Document) :
    (rules.run cache doc).1 = .ok (rules.report (rules.enabled.flatMap Rule.dispatches) doc) := by
  rw [(rules.run_spec h doc).1, runEach, Dispatch.compileEach_flatMap_patterns]
  rfl

/-- A run succeeds, and what it says of an enabled rule, in order, is what a run of that rule alone
says, whatever the two caches hold. The diagnostics are in order of place, they are those that the
rules report, with their severities, and of the calls they come from no two are of the same rule
about the same node. -/
theorem run_rules_independent {source : Text} {file : ParsedFile} {resolved : Bool}
    (built : Document.build source file resolved = .ok doc) (rules : RuleSet)
    {cache : SelectorCache} (hcache : cache.Sound) :
    ∃ dispatches,
      (Dispatch.compileAll cache (rules.enabled.flatMap Rule.patterns)).1 = .ok dispatches ∧
      (rules.run cache doc).1 = .ok (rules.report dispatches doc) ∧
      (∀ rule ∈ rules.enabled, ∀ other : SelectorCache, other.Sound →
        ((rules.only rule).run other doc).1 =
          .ok ⟨(rules.report dispatches doc).diagnostics.filter (·.rule == rule.name)⟩) ∧
      (rules.report dispatches doc).diagnostics.Pairwise (fun a b => a.span.le b.span = true) ∧
      (rules.report dispatches doc).diagnostics.Perm
        ((rules.enabled.flatMap (·.reports doc)).map rules.withSeverity) ∧
      Dispatch.checkAll dispatches doc =
        (Dispatch.calls dispatches doc).filterMap (fun call => call.1.check doc call.2) ∧
      (Dispatch.calls dispatches doc).Nodup := by
  refine ⟨rules.enabled.flatMap Rule.dispatches, ?_, rules.run_eq_report hcache doc, ?_, ?_, ?_,
    Dispatch.checkAll_eq_calls _ doc, ?_⟩
  · rw [(Dispatch.compileAll_spec hcache _).1, Dispatch.compileEach_flatMap_patterns]
  · intro rule hrule other hother
    rw [run_eq_report _ hother, enabled_only, filter_rule_report hrule]
  · exact sortBy_pairwise (fun a b => Span.le_total a.span b.span)
      (fun a b c => Span.le_trans a.span b.span c.span) _
  · exact (sortBy_perm _ _).trans ((checkAll_perm_reports rules.enabled doc).map rules.withSeverity)
  · exact Dispatch.calls_nodup rules.enabled_names_nodup.of_map (Document.build_wellFormed built)

/-- A function of four parameters that returns an object written on two lines. -/
def crowdedSample : Text := "f=(a,b,c,d)=>(\x7b\n x:1\x7d)".toList

def crowdedFile : ParsedFile where
  tree :=
    .node ⟨"Program", ⟨0, 22⟩, [("body", .parts [⟨0, 22⟩])]⟩
      [.node ⟨"ArrowFunctionExpression", ⟨2, 22⟩,
          [("params", .parts [⟨3, 4⟩, ⟨5, 6⟩, ⟨7, 8⟩, ⟨9, 10⟩]), ("body", .part ⟨14, 21⟩)]⟩
        [.node ⟨"FormalParameter", ⟨3, 4⟩, []⟩ [],
         .node ⟨"FormalParameter", ⟨5, 6⟩, []⟩ [],
         .node ⟨"FormalParameter", ⟨7, 8⟩, []⟩ [],
         .node ⟨"FormalParameter", ⟨9, 10⟩, []⟩ [],
         .node ⟨"ObjectExpression", ⟨14, 21⟩, [("properties", .parts [⟨17, 20⟩])]⟩
          [.node ⟨"ObjectProperty", ⟨17, 20⟩, []⟩ []]]]
  comments := []

theorem run_rules_independent_crowdedSample :
    ∃ doc report, Document.build crowdedSample crowdedFile true = .ok doc ∧
      SelectorCache.empty.Sound ∧ (RuleSet.standard.run .empty doc).1 = .ok report ∧
      report.diagnostics.map (·.rule) = ["max-params", "prefer-single-line"] ∧
      Rule.maxParams {} ∈ RuleSet.standard.enabled ∧
      ((RuleSet.standard.only (.maxParams {})).run .empty doc).1 =
        .ok ⟨report.diagnostics.filter (·.rule == "max-params")⟩ := by
  have hnames : ((Document.build crowdedSample crowdedFile true).toOption.map fun doc =>
      (RuleSet.standard.run .empty doc).1.toOption.map (·.diagnostics.map (·.rule))) =
        some (some ["max-params", "prefer-single-line"]) := by decide +kernel
  obtain ⟨doc, hdoc, hnames⟩ := Option.map_eq_some_iff.mp hnames
  have built := Session.eq_ok_of_toOption hdoc
  have hempty := SelectorCache.sound_empty
  have hmem : Rule.maxParams {} ∈ RuleSet.standard.enabled := by decide
  obtain ⟨dispatches, _, hrun, halone, _⟩ := run_rules_independent built .standard hempty
  rw [hrun] at hnames
  exact ⟨doc, _, built, hempty, hrun, Option.some.inj hnames, hmem, halone _ hmem _ hempty⟩

end RuleSet

end ScriptLint

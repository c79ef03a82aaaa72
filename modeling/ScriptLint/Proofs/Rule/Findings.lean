import ScriptLint.Proofs.Lint.Independence

/-!
What a run says in the name of one rule. Which nodes a rule speaks about is decided twice, by its
selectors and by its check; where the two together come down to a condition on nodes, the run has one
diagnostic for each node that meets the condition and no other (`RuleSet.oneEach_of_checks`).
-/
namespace ScriptLint

/-- The diagnostics are one for each wanted node, which tells of the node what it should, and no
others. -/
def OneEach (wanted : NodeId → Prop) (tells : NodeId → Diagnostic → Prop) (ds : List Diagnostic) :
    Prop :=
  ∃ found : List (NodeId × Diagnostic),
    (found.map Prod.fst).Nodup ∧ (∀ id, id ∈ found.map Prod.fst ↔ wanted id) ∧
      (∀ entry ∈ found, tells entry.1 entry.2) ∧ ds.Perm (found.map Prod.snd)

/-- The nodes that a rule speaks about are those that it selects and finds fault with. -/
structure Rule.Checks (rule : Rule) (doc : Document) (wanted : NodeId → Prop)
    (tells : NodeId → Diagnostic → Prop) : Prop where
  lt_size : ∀ id : Nat, wanted id → id < doc.size
  selects : ∀ id : Nat, wanted id → rule.selects doc id = true
  exists_check : ∀ id : Nat, wanted id → ∃ d, rule.check doc id = some d ∧ tells id d
  wanted : ∀ (id : Nat) (d : Diagnostic), rule.selects doc id = true → rule.check doc id = some d →
    wanted id

namespace RuleSet

variable {rules : RuleSet} {rule : Rule} {doc : Document} {wanted : NodeId → Prop}
  {tells : NodeId → Diagnostic → Prop}

/-- A rule set changes nothing about a diagnostic but its severity. -/
theorem exists_withSeverity_eq (rules : RuleSet) (d : Diagnostic) :
    ∃ severity, rules.withSeverity d = d.withSeverity severity := by
  rw [withSeverity]
  split
  · exact ⟨_, rfl⟩
  · exact ⟨d.severity, rfl⟩

theorem oneEach_reports (hdoc : doc.WellFormed) (hchecks : rule.Checks doc wanted tells)
    (htells : ∀ id d severity, tells id d → tells id (d.withSeverity severity)) (rules : RuleSet) :
    OneEach wanted tells ((rule.reports doc).map rules.withSeverity) := by
  refine ⟨(doc.ids.filter (rule.selects doc)).filterMap fun id =>
    (rule.check doc id).map fun d => (id, rules.withSeverity d), ?_, ?_, ?_, ?_⟩
  · rw [List.map_filterMap]
    apply List.Nodup.filterMap _ (List.nodup_range.filter _)
    intro a b id ha hb
    simp only [Option.map_map, Option.mem_def, Option.map_eq_some_iff, Function.comp_apply] at ha hb
    obtain ⟨_, _, rfl⟩ := ha
    obtain ⟨_, _, hid⟩ := hb
    exact hid.symm
  · intro id
    simp only [List.mem_map, List.mem_filterMap, List.mem_filter, Option.map_eq_some_iff]
    constructor
    · rintro ⟨_, ⟨id, ⟨_, hselects⟩, d, hd, rfl⟩, rfl⟩
      exact hchecks.wanted id d hselects hd
    · intro hid
      obtain ⟨d, hd, _⟩ := hchecks.exists_check id hid
      exact ⟨(id, rules.withSeverity d), ⟨id, ⟨List.mem_range.mpr (hchecks.lt_size id hid),
        hchecks.selects id hid⟩, d, hd, rfl⟩, rfl⟩
  · intro entry hentry
    simp only [List.mem_filterMap, List.mem_filter, Option.map_eq_some_iff] at hentry
    obtain ⟨id, ⟨_, hselects⟩, d, hd, rfl⟩ := hentry
    obtain ⟨e, he, hsaid⟩ := hchecks.exists_check id (hchecks.wanted id d hselects hd)
    obtain rfl := Option.some.inj (hd.symm.trans he)
    obtain ⟨severity, hsame⟩ := rules.exists_withSeverity_eq d
    rw [hsame]
    exact htells id d severity hsaid
  · rw [Rule.reports, hdoc.descendants_root, List.map_filterMap, List.map_filterMap]
    simp [Function.comp_def]

/-- A run has one diagnostic of the rule for each node that the rule speaks about. -/
theorem oneEach_of_checks (hdoc : doc.WellFormed) (h : rule ∈ rules.enabled)
    {cache : SelectorCache} (hcache : cache.Sound) (hchecks : rule.Checks doc wanted tells)
    (htells : ∀ id d severity, tells id d → tells id (d.withSeverity severity)) :
    ∃ report, (rules.run cache doc).1 = .ok report ∧
      OneEach wanted tells (report.diagnostics.filter (·.rule == rule.name)) := by
  refine ⟨_, rules.run_eq_report hcache doc, ?_⟩
  obtain ⟨found, hnodup, hmem, hsaid, hperm⟩ :=
    oneEach_reports hdoc hchecks htells rules
  refine ⟨found, hnodup, hmem, hsaid, ?_⟩
  rw [filter_rule_report h, report, withSeverity_only]
  have halone : (Dispatch.checkAll ([rule].flatMap Rule.dispatches) doc).Perm (rule.reports doc) := by
    simpa using checkAll_perm_reports [rule] doc
  exact ((sortBy_perm _ _).trans (halone.map rules.withSeverity)).trans hperm

end RuleSet

end ScriptLint

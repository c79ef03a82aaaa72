import Mathlib.Data.List.Nodup
import ScriptLint.Proofs.Lint.Memory
import ScriptLint.Proofs.Rule.Patterns

/-!
Which nodes go to a rule. The patterns of a rule ask for different types of nodes, so no two of them
accept the same node and a rule sees a node once (`Rule.map_rule_filter_dispatches`), whatever number
stands in the patterns of `max-params`. No two enabled rules have the same name
(`RuleSet.enabled_names_nodup`).
-/
namespace ScriptLint

/-- The types of nodes that patterns ask for, as far as they compile. -/
def Selector.askedTypes (patterns : List String) : List (Option (Option String)) :=
  patterns.map fun pattern => (compile pattern).toOption.map (·.subject.kind)

namespace Rule

variable {rule : Rule} {doc : Document} {id : NodeId}

/-- The types of nodes that the patterns of a rule ask for, one for each. -/
def subjects : Rule → List String
  | .singleLine _ => SingleLine.selectors
  | .maxParams _ => MaxParams.functionTypes
  | .singleUseType _ => SingleUseType.selectors
  | .reexport =>
    ["ExportAllDeclaration", "ExportNamedDeclaration", "ExportSpecifier", "Identifier"]
  | .typesBeforeUse => ["TSTypeAliasDeclaration", "TSInterfaceDeclaration"]

theorem subjects_nodup (rule : Rule) : rule.subjects.Nodup := by
  cases rule with
  | singleLine options => exact (by decide : SingleLine.selectors.Nodup)
  | maxParams options => exact (by decide : MaxParams.functionTypes.Nodup)
  | singleUseType options => exact (by decide : SingleUseType.selectors.Nodup)
  | reexport => decide
  | typesBeforeUse => decide

theorem askedTypes_selectors (rule : Rule) :
    Selector.askedTypes rule.selectors = rule.subjects.map fun type => some (some type) := by
  cases rule with
  | maxParams options =>
    simp only [Selector.askedTypes, selectors, subjects, MaxParams.selectors, List.map_map]
    refine List.map_congr_left fun type htype => ?_
    rw [Function.comp_apply, MaxParams.compile_selector htype]
    rfl
  | singleLine options =>
    exact (by decide +kernel : Selector.askedTypes SingleLine.selectors =
      SingleLine.selectors.map fun type => some (some type))
  | singleUseType options =>
    exact (by decide +kernel : Selector.askedTypes SingleUseType.selectors =
      SingleUseType.selectors.map fun type => some (some type))
  | reexport => decide +kernel
  | typesBeforeUse => decide +kernel

/-- The rule with each of its patterns, compiled. -/
def dispatches (rule : Rule) : List Dispatch :=
  rule.selectors.filterMap fun pattern => (Selector.compile pattern).toOption.map (Dispatch.mk rule)

theorem rule_of_mem_dispatches {d : Dispatch} (h : d ∈ rule.dispatches) : d.rule = rule := by
  obtain ⟨_, _, hd⟩ := List.mem_filterMap.mp h
  obtain ⟨_, _, rfl⟩ := Option.map_eq_some_iff.mp hd
  rfl

theorem kinds_of_askedTypes {patterns types : List String}
    (h : Selector.askedTypes patterns = types.map fun type => some (some type)) :
    (patterns.filterMap fun pattern =>
      (Selector.compile pattern).toOption.map (Dispatch.mk rule)).map (·.selector.subject.kind) =
        types.map some := by
  induction patterns generalizing types with
  | nil =>
    obtain rfl := List.map_eq_nil_iff.mp h.symm
    rfl
  | cons pattern patterns ih =>
    cases types with
    | nil => cases h
    | cons type types =>
      obtain ⟨hhead, htail⟩ := List.cons_eq_cons.mp h
      obtain ⟨selector, hselector, hkind⟩ := Option.map_eq_some_iff.mp hhead
      rw [List.filterMap_cons_some (by rw [hselector]; rfl), List.map_cons, List.map_cons, ih htail]
      exact congrArg (· :: types.map some) hkind

theorem kinds_dispatches (rule : Rule) :
    rule.dispatches.map (·.selector.subject.kind) = rule.subjects.map some :=
  kinds_of_askedTypes rule.askedTypes_selectors

theorem kind_of_accepts {selector : Selector} {type : String}
    (hkind : selector.subject.kind = some type) (h : selector.accepts doc id = true) :
    (doc.kind id).typeName = type := by
  rw [Selector.accepts, Compound.accepts, hkind] at h
  simp only [Bool.and_eq_true, beq_iff_eq] at h
  exact h.1.1

/-- No two patterns of a rule accept the same node: they ask for different types. -/
theorem dispatches_exclusive (rule : Rule) (doc : Document) (id : NodeId) :
    rule.dispatches.Pairwise fun a b =>
      ¬ (a.selector.accepts doc id = true ∧ b.selector.accepts doc id = true) := by
  have hkinds : (rule.dispatches.map (·.selector.subject.kind)).Nodup := by
    rw [kinds_dispatches]
    exact rule.subjects_nodup.map fun _ _ h => Option.some.inj h
  have hsome : ∀ d ∈ rule.dispatches, ∃ type, d.selector.subject.kind = some type := by
    intro d hd
    have hmem := List.mem_map_of_mem (f := (·.selector.subject.kind)) hd
    rw [kinds_dispatches] at hmem
    obtain ⟨type, _, htype⟩ := List.mem_map.mp hmem
    exact ⟨type, htype.symm⟩
  refine (List.pairwise_map.mp hkinds).imp_of_mem fun {a b} ha hb hne => ?_
  rintro ⟨haccepts, hbaccepts⟩
  obtain ⟨s, hs⟩ := hsome a ha
  obtain ⟨t, ht⟩ := hsome b hb
  rw [hs, ht, ← kind_of_accepts hs haccepts, ← kind_of_accepts ht hbaccepts] at hne
  exact hne rfl

theorem selects_eq_any (rule : Rule) (doc : Document) (id : NodeId) :
    rule.selects doc id = rule.dispatches.any (·.selector.accepts doc id) := by
  rw [selects, dispatches, List.any_filterMap]
  refine congrArg rule.selectors.any (funext fun pattern => ?_)
  cases (Selector.compile pattern).toOption <;> rfl

/-- A node that some pattern accepts goes to the rule once, and any other node does not. -/
theorem map_rule_filter_dispatches (rule : Rule) (doc : Document) (id : NodeId) :
    (rule.dispatches.filter (·.selector.accepts doc id)).map (·.rule) =
      if rule.selects doc id then [rule] else [] := by
  have hexclusive := (rule.dispatches_exclusive doc id).filter (·.selector.accepts doc id)
  have hmem : ∀ d ∈ rule.dispatches.filter (·.selector.accepts doc id),
      d.rule = rule ∧ d.selector.accepts doc id = true := by
    intro d hd
    obtain ⟨hd, haccepts⟩ := List.mem_filter.mp hd
    exact ⟨rule_of_mem_dispatches hd, haccepts⟩
  rw [selects_eq_any]
  cases haccepted : rule.dispatches.filter (·.selector.accepts doc id) with
  | nil =>
    rw [List.any_eq_false.mpr (List.filter_eq_nil_iff.mp haccepted)]
    rfl
  | cons d rest =>
    rw [haccepted] at hexclusive hmem
    obtain ⟨hd, haccepts⟩ := hmem d List.mem_cons_self
    have hin : d ∈ rule.dispatches.filter (·.selector.accepts doc id) := by
      rw [haccepted]
      exact List.mem_cons_self
    have hany : rule.dispatches.any (·.selector.accepts doc id) = true :=
      List.any_eq_true.mpr ⟨d, (List.mem_filter.mp hin).1, haccepts⟩
    cases rest with
    | nil => rw [hany, if_pos rfl, List.map_singleton, hd]
    | cons e rest =>
      obtain ⟨_, he⟩ := hmem e (List.mem_cons_of_mem d List.mem_cons_self)
      exact absurd ⟨haccepts, he⟩ (List.rel_of_pairwise_cons hexclusive List.mem_cons_self)

end Rule

namespace RuleSet

theorem enabled_names_nodup (rules : RuleSet) : (rules.enabled.map Rule.name).Nodup := by
  have hsublist : (rules.enabled.map Rule.name).Sublist
      ([SingleLine.name] ++ [MaxParams.name] ++ [SingleUseType.name] ++ [Reexport.name] ++
        [TypesBeforeUse.name]) := by
    simp only [enabled, List.map_append]
    refine ((((?_ : List.Sublist _ _).append ?_).append ?_).append ?_).append ?_
    · cases rules.singleLine <;> simp [Rule.name]
    · cases rules.maxParams <;> simp [Rule.name]
    · cases rules.singleUseType <;> simp [Rule.name]
    · cases rules.reexport <;> simp [Rule.name]
    · cases rules.typesBeforeUse <;> simp [Rule.name]
  exact hsublist.nodup (by decide)

end RuleSet

end ScriptLint

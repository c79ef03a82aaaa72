import Mathlib.Data.Option.Basic
import ScriptLint.Rule

/-!
What the rules can say. A diagnostic bears the name of its rule (`Rule.rule_of_check`), and there are
two kinds of fixes: `prefer-single-line` offers to put in the one-line form of a construct, whose line
it has measured, and `types-before-use` to move a declaration. The other rules offer none.
-/
namespace ScriptLint

variable {doc : Document} {id : NodeId} {d : Diagnostic}

theorem SingleLine.check_eq_some {rule : SingleLine} (h : rule.check doc id = some d) :
    d.rule = name ∧ ∃ collapsed, doc.collapse? id = some collapsed ∧
      rule.fits doc id collapsed = true ∧
      ∀ fix ∈ d.fixes, fix.edits = [⟨doc.span id, collapsed⟩] := by
  simp only [check, Option.bind_eq_bind, Option.bind_eq_some_iff] at h
  obtain ⟨_, _, collapsed, hcollapsed, _, hfits, hd⟩ := h
  obtain rfl := Option.some.inj hd
  refine ⟨rfl, collapsed, hcollapsed, by simpa using hfits, ?_⟩
  intro fix hfix
  obtain rfl : fix = _ := List.mem_singleton.mp hfix
  rfl

theorem MaxParams.check_eq_some {rule : MaxParams} (h : rule.check doc id = some d) :
    d.rule = name ∧ d.fixes = [] := by
  simp only [check, Option.bind_eq_bind, Option.bind_eq_some_iff] at h
  obtain ⟨_, _, _, _, hd⟩ := h
  obtain rfl := Option.some.inj hd
  exact ⟨rfl, rfl⟩

theorem SingleUseType.check_eq_some {rule : SingleUseType} (h : rule.check doc id = some d) :
    d.rule = name ∧ d.fixes = [] := by
  simp only [check, Option.bind_eq_bind, Option.bind_eq_some_iff] at h
  obtain ⟨_, _, _, _, _, _, _, _, hd⟩ := h
  obtain rfl := Option.some.inj hd
  exact ⟨rfl, rfl⟩

theorem Reexport.checkIdentifier_eq_some (h : checkIdentifier doc id = some d) :
    d.rule = name ∧ d.fixes = [] := by
  simp only [checkIdentifier, Option.bind_eq_bind, Option.bind_eq_some_iff] at h
  obtain ⟨_, _, _, _, _, _, hd⟩ := h
  obtain rfl := Option.some.inj hd
  exact ⟨rfl, rfl⟩

theorem Reexport.checkSource_eq_some (h : checkSource doc id = some d) :
    d.rule = name ∧ d.fixes = [] := by
  simp only [checkSource, Option.bind_eq_bind, Option.bind_eq_some_iff] at h
  obtain ⟨_, _, hd⟩ := h
  obtain rfl := Option.some.inj hd
  exact ⟨rfl, rfl⟩

theorem Reexport.check_eq_some (h : check doc id = some d) : d.rule = name ∧ d.fixes = [] := by
  rw [check] at h
  split at h
  · exact checkSource_eq_some h
  · exact checkSource_eq_some h
  · split at h
    · cases h
    · obtain ⟨_, _, hd⟩ := Option.bind_eq_some_iff.mp h
      exact checkIdentifier_eq_some hd
  · exact checkIdentifier_eq_some h
  · cases h

theorem TypesBeforeUse.edits_of_fix? {first : NodeId} {binding : Binding} {fix : Fix}
    (h : fix? doc id first binding = some fix) :
    doc.moveStatement id (doc.leadingCommentStart (doc.span first).start) = .ok fix.edits := by
  rw [fix?] at h
  split at h
  · rename_i edits hedits
    obtain rfl := Option.some.inj h
    exact hedits
  · cases h

/-- Everything that a diagnostic of the rule is made of but its texts. -/
theorem TypesBeforeUse.exists_of_check (h : check doc id = some d) :
    d.rule = name ∧ ∃ binding first, doc.binding? id = some binding ∧
      firstUse? doc id binding = some first ∧
      d.labels = [⟨doc.span first, "first used here"⟩] ∧
      d.fixes = (fix? doc id first binding).toList := by
  simp only [check, Option.bind_eq_bind, Option.bind_eq_some_iff] at h
  obtain ⟨binding, hbinding, first, hfirst, _, _, identifier, _, hd⟩ := h
  cases hfix : fix? doc id first binding with
  | some fix =>
    rw [hfix] at hd
    obtain rfl := Option.some.inj hd
    exact ⟨rfl, binding, first, hbinding, hfirst, rfl, by rw [hfix]; rfl⟩
  | none =>
    rw [hfix] at hd
    obtain rfl := Option.some.inj hd
    exact ⟨rfl, binding, first, hbinding, hfirst, rfl, by rw [hfix]; rfl⟩

theorem TypesBeforeUse.check_eq_some (h : check doc id = some d) :
    d.rule = name ∧ ∃ binding first, doc.binding? id = some binding ∧
      firstUse? doc id binding = some first ∧
      d.labels = [⟨doc.span first, "first used here"⟩] ∧
      ∀ fix ∈ d.fixes,
        doc.moveStatement id (doc.leadingCommentStart (doc.span first).start) = .ok fix.edits := by
  obtain ⟨hrule, binding, first, hbinding, hfirst, hlabels, hfixes⟩ := exists_of_check h
  refine ⟨hrule, binding, first, hbinding, hfirst, hlabels, ?_⟩
  intro fix hfix
  rw [hfixes, Option.mem_toList] at hfix
  exact edits_of_fix? hfix

theorem Rule.rule_of_check {rule : Rule} (h : rule.check doc id = some d) : d.rule = rule.name := by
  cases rule with
  | singleLine options => exact (SingleLine.check_eq_some h).1
  | maxParams options => exact (MaxParams.check_eq_some h).1
  | singleUseType options => exact (SingleUseType.check_eq_some h).1
  | reexport => exact (Reexport.check_eq_some h).1
  | typesBeforeUse => exact (TypesBeforeUse.check_eq_some h).1

end ScriptLint

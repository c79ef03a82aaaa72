import ScriptLint.Rule

/-!
Which rules run, with which options, and the severities of what they report.
-/
namespace ScriptLint

structure RuleSet where
  singleLine : Option SingleLine
  maxParams : Option MaxParams
  singleUseType : Option SingleUseType
  reexport : Bool
  typesBeforeUse : Bool
  /-- Severities by rule name, for rules that do not keep their own. -/
  severities : List (String × Severity)
  deriving DecidableEq, Repr

namespace RuleSet

/-- Every rule with its defaults. -/
def standard : RuleSet where
  singleLine := some {}
  maxParams := some {}
  singleUseType := some {}
  reexport := true
  typesBeforeUse := true
  severities := []

/-- No rule at all. -/
def empty : RuleSet where
  singleLine := none
  maxParams := none
  singleUseType := none
  reexport := false
  typesBeforeUse := false
  severities := []

/-- The rules that run, in order. -/
def enabled (rules : RuleSet) : List Rule :=
  (rules.singleLine.map Rule.singleLine).toList
    ++ (rules.maxParams.map Rule.maxParams).toList
    ++ (rules.singleUseType.map Rule.singleUseType).toList
    ++ (if rules.reexport then [.reexport] else [])
    ++ (if rules.typesBeforeUse then [.typesBeforeUse] else [])

def severity? (rules : RuleSet) (name : String) : Option Severity := rules.severities.lookup name

/-- Let a rule keep its own severity. -/
def clearSeverity (rules : RuleSet) (name : String) : RuleSet :=
  { rules with severities := rules.severities.filter fun entry => entry.1 != name }

def setSeverity (rules : RuleSet) (name : String) (severity : Severity) : RuleSet :=
  { rules with severities := (name, severity) :: (rules.clearSeverity name).severities }

theorem severity?_clearSeverity (rules : RuleSet) (name other : String) :
    (rules.clearSeverity name).severity? other =
      if other = name then none else rules.severity? other := by
  simp only [severity?, clearSeverity]
  induction rules.severities with
  | nil => simp
  | cons entry rest ih =>
    obtain ⟨key, severity⟩ := entry
    by_cases hk : key = name
    · subst hk
      rw [List.filter_cons_of_neg (by simp), ih, List.lookup_cons]
      by_cases ho : other = key
      · simp [ho]
      · have hb : (other == key) = false := beq_eq_false_iff_ne.mpr ho
        simp [ho, hb]
    · rw [List.filter_cons_of_pos (by simp [hk]), List.lookup_cons, List.lookup_cons, ih]
      by_cases ho : other = key
      · simp [ho, hk]
      · have hb : (other == key) = false := beq_eq_false_iff_ne.mpr ho
        simp [hb]

theorem severity?_setSeverity (rules : RuleSet) (name other : String) (severity : Severity) :
    (rules.setSeverity name severity).severity? other =
      if other = name then some severity else rules.severity? other := by
  have h := rules.severity?_clearSeverity name other
  by_cases ho : other = name
  · simp [severity?, setSeverity, ho]
  · have hb : (other == name) = false := beq_eq_false_iff_ne.mpr ho
    simpa [severity?, setSeverity, List.lookup_cons, hb, ho] using h

end RuleSet

end ScriptLint

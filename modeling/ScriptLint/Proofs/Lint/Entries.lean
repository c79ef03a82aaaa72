import Mathlib.Logic.Function.Basic
import ScriptLint.Lint.Settings

/-!
Entries of a configuration do not get in each other's way. A rule set is looked at rule by rule: what
runs under a name, and with which severity (`RuleSet.standing`). An entry is refused by every rule set
or by none, and where it is taken in it changes the standing of the name it is for, to the same value
whatever the rule set was (`RuleSet.applyEntry_cases`). So entries for different names can be taken in
one by one, in any order.
-/
namespace ScriptLint

/-- How things stand with a rule: the rule with its options if it runs, and the severity that was set
for it. -/
structure Standing where
  rule : Option Rule
  severity : Option Severity
  deriving DecidableEq, Repr

/-- The severity that a level sets. -/
def Level.severity? : Level → Option Severity
  | .severity chosen => some chosen
  | .on | .off => none

namespace RuleSet

/-- The rule of a name, with its options, if it runs. -/
def rule? (rules : RuleSet) (name : String) : Option Rule :=
  if name = SingleLine.name then rules.singleLine.map .singleLine
  else if name = MaxParams.name then rules.maxParams.map .maxParams
  else if name = SingleUseType.name then rules.singleUseType.map .singleUseType
  else if name = Reexport.name then if rules.reexport then some .reexport else none
  else if name = TypesBeforeUse.name then if rules.typesBeforeUse then some .typesBeforeUse else none
  else none

def standing (rules : RuleSet) (name : String) : Standing := ⟨rules.rule? name, rules.severity? name⟩

variable {rules after : RuleSet} {name : String} {value : Json} {entries : List (String × Json)}

/-- The enabled rules are those that run under the five names, in their order. -/
theorem enabled_eq_filterMap_rule? (rules : RuleSet) :
    rules.enabled = (Rule.defaults.map Rule.name).filterMap rules.rule? := by
  obtain ⟨singleLine, maxParams, singleUseType, reexport, typesBeforeUse, severities⟩ := rules
  cases singleLine <;> cases maxParams <;> cases singleUseType <;> cases reexport <;>
    cases typesBeforeUse <;> rfl

theorem standing_standard {rule : Rule} (h : rule ∈ Rule.defaults) :
    standard.standing rule.name = ⟨some rule, none⟩ := by
  revert rule
  decide

theorem rule?_singleLine (rules : RuleSet) (options : Option SingleLine) :
    ({ rules with singleLine := options } : RuleSet).rule? =
      Function.update rules.rule? SingleLine.name (options.map .singleLine) := by
  funext other
  by_cases h : other = SingleLine.name <;> simp [rule?, h]

theorem rule?_maxParams (rules : RuleSet) (options : Option MaxParams) :
    ({ rules with maxParams := options } : RuleSet).rule? =
      Function.update rules.rule? MaxParams.name (options.map .maxParams) := by
  have hname : MaxParams.name ≠ SingleLine.name := by decide
  funext other
  by_cases h : other = MaxParams.name <;> simp [rule?, h, hname]

theorem rule?_singleUseType (rules : RuleSet) (options : Option SingleUseType) :
    ({ rules with singleUseType := options } : RuleSet).rule? =
      Function.update rules.rule? SingleUseType.name (options.map .singleUseType) := by
  have hnames : SingleUseType.name ≠ SingleLine.name ∧ SingleUseType.name ≠ MaxParams.name := by
    decide
  funext other
  by_cases h : other = SingleUseType.name <;> simp [rule?, h, hnames]

theorem rule?_reexport (rules : RuleSet) (on : Bool) :
    ({ rules with reexport := on } : RuleSet).rule? =
      Function.update rules.rule? Reexport.name (if on then some .reexport else none) := by
  have hnames : Reexport.name ≠ SingleLine.name ∧ Reexport.name ≠ MaxParams.name ∧
      Reexport.name ≠ SingleUseType.name := by decide
  funext other
  by_cases h : other = Reexport.name <;> simp [rule?, h, hnames]

theorem rule?_typesBeforeUse (rules : RuleSet) (on : Bool) :
    ({ rules with typesBeforeUse := on } : RuleSet).rule? =
      Function.update rules.rule? TypesBeforeUse.name (if on then some .typesBeforeUse else none) := by
  have hnames : TypesBeforeUse.name ≠ SingleLine.name ∧ TypesBeforeUse.name ≠ MaxParams.name ∧
      TypesBeforeUse.name ≠ SingleUseType.name ∧ TypesBeforeUse.name ≠ Reexport.name := by decide
  funext other
  by_cases h : other = TypesBeforeUse.name <;> simp [rule?, h, hnames]

/-- In every rule set the setting puts this rule under the name, and leaves the other rules and the
severities alone. -/
def Configures (name : String) (setting : Setting) (rule : Option Rule) : Prop :=
  ∀ rules : RuleSet, ∃ after, rules.configure name setting = .ok after ∧
    after.rule? = Function.update rules.rule? name rule ∧ after.severities = rules.severities

/-- The setting is refused, with the same error whatever the rule set, or it is taken in by every rule
set in the same way, and then a rule that is turned off does not run. -/
def Settled (name : String) (setting : Setting) : Prop :=
  (∃ error, ∀ rules : RuleSet, rules.configure name setting = .error error) ∨
    ∃ rule, (setting.level = .off → rule = none) ∧ Configures name setting rule

/-- A rule with options, which are read only if it is turned on. -/
theorem settled_of_options {α : Type} {setting : Setting} (found : Option α) (wrap : α → Rule)
    (put : RuleSet → Option α → RuleSet)
    (hrule : ∀ rules options,
      (put rules options).rule? = Function.update rules.rule? name (options.map wrap))
    (hseverities : ∀ rules options, (put rules options).severities = rules.severities)
    (hoff : setting.level = .off →
      ∀ rules : RuleSet, rules.configure name setting = .ok (put rules none))
    (hon : setting.level ≠ .off → ∀ rules : RuleSet, rules.configure name setting =
      found.elim (.error (.invalidOptions name)) fun options => .ok (put rules (some options))) :
    Settled name setting := by
  by_cases hlevel : setting.level = .off
  · exact .inr ⟨none, fun _ => rfl, fun rules =>
      ⟨put rules none, hoff hlevel rules, hrule rules none, hseverities rules none⟩⟩
  · cases found with
    | none => exact .inl ⟨.invalidOptions name, hon hlevel⟩
    | some options =>
      exact .inr ⟨some (wrap options), fun h => absurd h hlevel, fun rules =>
        ⟨put rules (some options), hon hlevel rules, hrule rules _, hseverities rules _⟩⟩

/-- A rule without options, which refuses any even if it is turned off. -/
theorem settled_of_switch {setting : Setting} (rule : Rule) (put : RuleSet → Bool → RuleSet)
    (hrule : ∀ rules on,
      (put rules on).rule? = Function.update rules.rule? name (if on then some rule else none))
    (hseverities : ∀ rules on, (put rules on).severities = rules.severities)
    (hconfigure : ∀ rules : RuleSet, rules.configure name setting =
      if setting.options.isEmpty then .ok (put rules (setting.level ≠ .off))
      else .error (.invalidOptions name)) : Settled name setting := by
  by_cases hempty : setting.options.isEmpty = true
  · refine .inr ⟨if setting.level ≠ .off then some rule else none, by simp, fun rules => ?_⟩
    refine ⟨put rules (setting.level ≠ .off), by rw [hconfigure, if_pos hempty], ?_, hseverities _ _⟩
    rw [hrule]
    simp
  · exact .inl ⟨.invalidOptions name, fun rules => by rw [hconfigure, if_neg hempty]⟩

theorem settled (name : String) (setting : Setting) : Settled name setting := by
  -- the names are tried in the order in which `configure` tries them
  by_cases hsingleLine : name = SingleLine.name
  · subst hsingleLine
    apply settled_of_options (SingleLine.ofOptions? setting.options) .singleLine
      fun rules options => { rules with singleLine := options }
    · exact rule?_singleLine
    · simp
    · simp +contextual [configure]
    · intro hon rules
      cases hread : SingleLine.ofOptions? setting.options <;> simp [configure, hon, hread]
  by_cases hmaxParams : name = MaxParams.name
  · subst hmaxParams
    apply settled_of_options (MaxParams.ofOptions? setting.options) .maxParams
      fun rules options => { rules with maxParams := options }
    · exact rule?_maxParams
    · simp
    · simp +contextual [configure, hsingleLine]
    · intro hon rules
      cases hread : MaxParams.ofOptions? setting.options <;>
        simp [configure, hsingleLine, hon, hread]
  by_cases hsingleUse : name = SingleUseType.name
  · subst hsingleUse
    apply settled_of_options (SingleUseType.ofOptions? setting.options) .singleUseType
      fun rules options => { rules with singleUseType := options }
    · exact rule?_singleUseType
    · simp
    · simp +contextual [configure, hsingleLine, hmaxParams]
    · intro hon rules
      cases hread : SingleUseType.ofOptions? setting.options <;>
        simp [configure, hsingleLine, hmaxParams, hon, hread]
  by_cases hreexport : name = Reexport.name
  · subst hreexport
    apply settled_of_switch .reexport fun rules on => { rules with reexport := on }
    · exact rule?_reexport
    · simp
    · simp [configure, hsingleLine, hmaxParams, hsingleUse]
  by_cases htypes : name = TypesBeforeUse.name
  · subst htypes
    apply settled_of_switch .typesBeforeUse fun rules on => { rules with typesBeforeUse := on }
    · exact rule?_typesBeforeUse
    · simp
    · simp [configure, hsingleLine, hmaxParams, hsingleUse, hreexport]
  · left
    exists .unknownRule name
    simp [configure, hsingleLine, hmaxParams, hsingleUse, hreexport, htypes]

/-! One entry. -/

/-- The entry gives the rule of its name this standing, whatever the rule set, and changes nothing about
the other rules. -/
def Sets (name : String) (value : Json) (standing : Standing) : Prop :=
  ∀ rules : RuleSet, ∃ after, rules.applyEntry name value = .ok after ∧
    after.standing = Function.update rules.standing name standing

theorem standing_eq_update {rule : Option Rule} {severity : Option Severity}
    (hrule : after.rule? = Function.update rules.rule? name rule)
    (hseverity : ∀ other, after.severity? other =
      if other = name then severity else rules.severity? other) :
    after.standing = Function.update rules.standing name ⟨rule, severity⟩ := by
  funext other
  by_cases h : other = name <;> simp [standing, hrule, hseverity, h]

theorem Sets.unique {s t : Standing} (hs : Sets name value s) (ht : Sets name value t) : s = t := by
  obtain ⟨a, ha, hsa⟩ := hs standard
  obtain ⟨b, hb, htb⟩ := ht standard
  obtain rfl := Except.ok.inj (ha.symm.trans hb)
  simpa using congrFun (hsa.symm.trans htb) name

theorem sets_of_configures {setting : Setting} {rule : Option Rule}
    (hvalue : Setting.ofJson? value = some setting) (h : Configures name setting rule) :
    Sets name value ⟨rule, setting.level.severity?⟩ := by
  intro rules
  obtain ⟨configured, hconfigured, hrule, hseverities⟩ := h rules
  have hkept : configured.severity? = rules.severity? := by
    funext other
    simp [severity?, hseverities]
  cases hlevel : setting.level with
  | severity severity =>
    refine ⟨configured.setSeverity name severity, ?_, standing_eq_update hrule ?_⟩
    · simp [applyEntry, hvalue, hconfigured, hlevel]
    · simp [severity?_setSeverity, hkept, Level.severity?]
  | on =>
    refine ⟨configured.clearSeverity name, ?_, standing_eq_update hrule ?_⟩
    · simp [applyEntry, hvalue, hconfigured, hlevel]
    · simp [severity?_clearSeverity, hkept, Level.severity?]
  | off =>
    refine ⟨configured.clearSeverity name, ?_, standing_eq_update hrule ?_⟩
    · simp [applyEntry, hvalue, hconfigured, hlevel]
    · simp [severity?_clearSeverity, hkept, Level.severity?]

/-- An entry is refused by every rule set, or it sets a standing. -/
theorem applyEntry_cases (name : String) (value : Json) :
    (∃ error, ∀ rules : RuleSet, rules.applyEntry name value = .error error) ∨
      ∃ standing, Sets name value standing := by
  cases hvalue : Setting.ofJson? value with
  | none => exact .inl ⟨.invalidSetting name value, fun rules => by simp [applyEntry, hvalue]⟩
  | some setting =>
    cases settled name setting with
    | inl hrefused =>
      obtain ⟨error, herror⟩ := hrefused
      exact .inl ⟨error, fun rules => by simp [applyEntry, hvalue, herror]⟩
    | inr htaken =>
      obtain ⟨rule, _, hrule⟩ := htaken
      exact .inr ⟨_, sets_of_configures hvalue hrule⟩

theorem exists_sets_of_applyEntry (h : rules.applyEntry name value = .ok after) :
    ∃ standing, Sets name value standing ∧
      after.standing = Function.update rules.standing name standing := by
  cases applyEntry_cases name value with
  | inl hrefused =>
    obtain ⟨error, herror⟩ := hrefused
    rw [herror] at h
    cases h
  | inr htaken =>
    obtain ⟨standing, hsets⟩ := htaken
    obtain ⟨next, hnext, hstanding⟩ := hsets rules
    obtain rfl := Except.ok.inj (hnext.symm.trans h)
    exact ⟨standing, hsets, hstanding⟩

/-- A rule that is turned off neither runs nor keeps a severity. -/
theorem Sets.eq_of_off {standing : Standing} (h : Sets name value standing) {setting : Setting}
    (hvalue : Setting.ofJson? value = some setting) (hoff : setting.level = .off) :
    standing = ⟨none, none⟩ := by
  cases settled name setting with
  | inl hrefused =>
    obtain ⟨error, herror⟩ := hrefused
    obtain ⟨after, hafter, _⟩ := h standard
    simp [applyEntry, hvalue, herror] at hafter
  | inr htaken =>
    obtain ⟨rule, hnone, hrule⟩ := htaken
    have hsets := sets_of_configures hvalue hrule
    rw [hnone hoff, hoff] at hsets
    exact h.unique hsets

/-! All entries. -/

theorem applyEntries_cons_eq_ok :
    rules.applyEntries ((name, value) :: entries) = .ok after ↔
      ∃ next, rules.applyEntry name value = .ok next ∧ next.applyEntries entries = .ok after := by
  cases h : rules.applyEntry name value <;> simp [applyEntries, h]

/-- A configuration is taken in if all of its entries are. -/
theorem exists_applyEntries_iff (rules : RuleSet) (entries : List (String × Json)) :
    (∃ after, rules.applyEntries entries = .ok after) ↔
      ∀ entry ∈ entries, ∃ standing, Sets entry.1 entry.2 standing := by
  induction entries generalizing rules with
  | nil => simp [applyEntries]
  | cons entry rest ih =>
    obtain ⟨name, value⟩ := entry
    rw [List.forall_mem_cons]
    constructor
    · rintro ⟨after, hafter⟩
      obtain ⟨next, hnext, hrest⟩ := applyEntries_cons_eq_ok.mp hafter
      obtain ⟨standing, hsets, _⟩ := exists_sets_of_applyEntry hnext
      exact ⟨⟨standing, hsets⟩, (ih next).mp ⟨after, hrest⟩⟩
    · rintro ⟨⟨standing, hsets⟩, hrest⟩
      obtain ⟨next, hnext, _⟩ := hsets rules
      obtain ⟨after, hafter⟩ := (ih next).mpr hrest
      exact ⟨after, applyEntries_cons_eq_ok.mpr ⟨next, hnext, hafter⟩⟩

theorem standing_of_not_mem (h : rules.applyEntries entries = .ok after)
    (hname : name ∉ entries.map Prod.fst) : after.standing name = rules.standing name := by
  induction entries generalizing rules with
  | nil =>
    cases h
    rfl
  | cons entry rest ih =>
    obtain ⟨next, hnext, hrest⟩ := applyEntries_cons_eq_ok.mp h
    obtain ⟨standing, _, hstanding⟩ := exists_sets_of_applyEntry hnext
    rw [List.map_cons, List.mem_cons, not_or] at hname
    rw [ih hrest hname.2, hstanding, Function.update_of_ne hname.1]

/-- Entries for other names, before and after, leave alone what an entry sets. -/
theorem standing_of_mem (hkeys : (entries.map Prod.fst).Nodup)
    (h : rules.applyEntries entries = .ok after) {standing : Standing}
    (hmem : (name, value) ∈ entries) (hsets : Sets name value standing) :
    after.standing name = standing := by
  induction entries generalizing rules with
  | nil => cases hmem
  | cons entry rest ih =>
    obtain ⟨next, hnext, hrest⟩ := applyEntries_cons_eq_ok.mp h
    rw [List.map_cons, List.nodup_cons] at hkeys
    by_cases hhead : entry = (name, value)
    · -- no later entry has this name, so the standing is kept to the end
      subst hhead
      obtain ⟨other, hother, hstanding⟩ := exists_sets_of_applyEntry hnext
      rw [standing_of_not_mem hrest hkeys.1, hstanding, Function.update_self, hother.unique hsets]
    · apply ih hkeys.2 hrest
      exact (List.mem_cons.mp hmem).resolve_left (Ne.symm hhead)

theorem exists_ofSettings_iff (entries : List (String × Json)) :
    (∃ rules, ofSettings entries = .ok rules) ↔
      ∀ entry ∈ entries, ∃ standing, Sets entry.1 entry.2 standing :=
  exists_applyEntries_iff standard entries

/-- Two orders of the same entries leave every rule with the same standing. -/
theorem standing_eq_of_perm {order : List (String × Json)} {other : RuleSet}
    (hkeys : (entries.map Prod.fst).Nodup) (hperm : order.Perm entries)
    (h : rules.applyEntries entries = .ok after) (hother : rules.applyEntries order = .ok other) :
    other.standing = after.standing := by
  funext name
  have hnames := hperm.map Prod.fst
  by_cases hname : name ∈ entries.map Prod.fst
  · obtain ⟨⟨_, value⟩, hmem, rfl⟩ := List.mem_map.mp hname
    obtain ⟨standing, hsets⟩ := (exists_applyEntries_iff rules entries).mp ⟨after, h⟩ _ hmem
    rw [standing_of_mem hkeys h hmem hsets,
      standing_of_mem (hnames.nodup_iff.mpr hkeys) hother (hperm.mem_iff.mpr hmem) hsets]
  · rw [standing_of_not_mem h hname, standing_of_not_mem hother (by rwa [hnames.mem_iff])]

/-- A configuration is taken in exactly if each of its entries is taken in alone. Then a rule that has
an entry stands as it does with this entry alone, and a rule that has none keeps its defaults; the order
of the entries does not matter, and a rule that is turned off does not run and has no severity. -/
theorem settings_entries_independent {entries : List (String × Json)}
    (hkeys : (entries.map Prod.fst).Nodup) :
    ((∃ rules, ofSettings entries = .ok rules) ↔
      ∀ entry ∈ entries, ∃ alone, ofSettings [entry] = .ok alone) ∧
    ∀ rules, ofSettings entries = .ok rules →
      (∀ name value alone, (name, value) ∈ entries → ofSettings [(name, value)] = .ok alone →
        rules.standing name = alone.standing name) ∧
      (∀ rule ∈ Rule.defaults, rule.name ∉ entries.map Prod.fst →
        rules.standing rule.name = ⟨some rule, none⟩) ∧
      (∀ order, order.Perm entries → ∃ other, ofSettings order = .ok other ∧
        other.enabled = rules.enabled ∧ other.severity? = rules.severity?) ∧
      ∀ name value setting, (name, value) ∈ entries → Setting.ofJson? value = some setting →
        setting.level = .off → rules.standing name = ⟨none, none⟩ := by
  constructor
  · simp only [exists_ofSettings_iff, List.mem_singleton, forall_eq]
  intro rules hrules
  have hsets : ∀ entry ∈ entries, ∃ standing, Sets entry.1 entry.2 standing :=
    (exists_ofSettings_iff entries).mp ⟨rules, hrules⟩
  refine ⟨?_, ?_, ?_, ?_⟩
  · intro name value alone hmem halone
    obtain ⟨standing, hstanding⟩ := hsets _ hmem
    rw [standing_of_mem hkeys hrules hmem hstanding,
      standing_of_mem (by simp) halone List.mem_cons_self hstanding]
  · intro rule hrule hname
    rw [standing_of_not_mem hrules hname, standing_standard hrule]
  · intro order hperm
    obtain ⟨other, hother⟩ := (exists_ofSettings_iff order).mpr
      fun entry hentry => hsets entry (hperm.mem_iff.mp hentry)
    have hsame := standing_eq_of_perm hkeys hperm hrules hother
    have hrule : other.rule? = rules.rule? := by
      funext name
      exact congrArg Standing.rule (congrFun hsame name)
    refine ⟨other, hother, ?_, ?_⟩
    · rw [enabled_eq_filterMap_rule?, enabled_eq_filterMap_rule?, hrule]
    · funext name
      exact congrArg Standing.severity (congrFun hsame name)
  · intro name value setting hmem hvalue hoff
    obtain ⟨standing, hstanding⟩ := hsets _ hmem
    rw [standing_of_mem hkeys hrules hmem hstanding, hstanding.eq_of_off hvalue hoff]

/-- Three rules with settings of their own, in ascending order. -/
def mixedEntries : List (String × Json) :=
  [("max-params", .array [.text "error", .object [("max", .natural 2)]]),
   ("no-reexport", .bool false),
   ("no-single-use-type",
     .object [("ignoreTypesWithSuffix", .array [.text "Props"])])]

theorem settings_entries_independent_mixedEntries :
    Json.parse? ("\x7b\"no-reexport\":false,\"max-params\":[\"error\",\x7b\"max\":2\x7d]," ++
        "\"no-single-use-type\":\x7b\"ignoreTypesWithSuffix\":[\"Props\"]\x7d\x7d") =
        some (.object mixedEntries) ∧
      (mixedEntries.map Prod.fst).Nodup ∧
      ∃ rules, ofSettings mixedEntries = .ok rules ∧
        rules.standing MaxParams.name = ⟨some (.maxParams ⟨2⟩), some .error⟩ ∧
        rules.standing SingleUseType.name = ⟨some (.singleUseType ⟨["Props"]⟩), none⟩ ∧
        rules.standing SingleLine.name = ⟨some (.singleLine {}), none⟩ ∧
        rules.standing Reexport.name = ⟨none, none⟩ ∧
        ∃ other, ofSettings mixedEntries.reverse = .ok other ∧ other.enabled = rules.enabled := by
  have hkeys : (mixedEntries.map Prod.fst).Nodup := by decide
  obtain ⟨haccepted, hresult⟩ := settings_entries_independent hkeys
  obtain ⟨rules, hrules⟩ := haccepted.mpr
    (by simp [mixedEntries]; exact ⟨⟨_, rfl⟩, ⟨_, rfl⟩, ⟨_, rfl⟩⟩)
  obtain ⟨halone, hdefault, horder, hoff⟩ := hresult rules hrules
  refine ⟨rfl, hkeys, rules, hrules, ?_, ?_, ?_, ?_, ?_⟩
  · exact halone _ _ _ List.mem_cons_self rfl
  · exact halone _ _ _ (List.mem_cons_of_mem _ (List.mem_cons_of_mem _ List.mem_cons_self)) rfl
  · exact hdefault (.singleLine {}) (by decide) (by decide)
  · exact hoff _ _ _ (List.mem_cons_of_mem _ List.mem_cons_self) rfl rfl
  · obtain ⟨other, hother, henabled, _⟩ := horder _ (List.reverse_perm mixedEntries)
    exact ⟨other, hother, henabled⟩

end RuleSet

end ScriptLint

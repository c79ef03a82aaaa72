import ScriptLint.Json.Reader
import ScriptLint.Lint.RuleSet

/-!
Rule settings as JSON text: an object from rule names to settings, such as
`{"max-params": ["error", {"max": 2}], "no-reexport": false}`. A setting is a level, a level in an
array, a level with an object of options in an array, or the options alone, which turn the rule on.
Rules that are not named keep their defaults.
-/
namespace ScriptLint

inductive Level where
  | off
  | on
  | severity (severity : Severity)
  deriving DecidableEq, Repr

def Level.ofJson? : Json → Option Level
  | .null | .bool false | .text "off" | .natural 0 => some .off
  | .bool true | .text "on" => some .on
  | .text "warn" | .natural 1 => some (.severity .warning)
  | .text "error" | .natural 2 => some (.severity .error)
  | _ => none

/-- What is set for one rule. -/
structure Setting where
  level : Level
  options : List (String × Json)
  deriving Repr

def Setting.ofJson? : Json → Option Setting
  | .object options => some ⟨.on, options⟩
  | .array [level] => (Level.ofJson? level).map (⟨·, []⟩)
  | .array [level, .object options] => (Level.ofJson? level).map (⟨·, options⟩)
  | .array _ => none
  | level => (Level.ofJson? level).map (⟨·, []⟩)

inductive SettingsError where
  | malformed
  | unknownRule (name : String)
  | invalidSetting (rule : String) (setting : Json)
  | invalidOptions (rule : String)
  deriving Repr

/-- The message, where there is one beside the kind of the error. -/
def SettingsError.message? : SettingsError → Option String
  | .malformed | .invalidOptions _ => none
  | .unknownRule name => some ("Unknown rule `" ++ name ++ "`")
  | .invalidSetting rule setting =>
    some ("Invalid setting for rule `" ++ rule ++ "`: " ++ setting.compact)

def SingleLine.ofOptions? (options : List (String × Json)) : Option SingleLine :=
  match options.lookup "maxLineLength" with
  | none | some .null => some {}
  | some (.natural n) => some ⟨some n⟩
  | some _ => none

def MaxParams.ofOptions? (options : List (String × Json)) : Option MaxParams :=
  match options.lookup "max" with
  | none => some {}
  | some (.natural n) => some ⟨n⟩
  | some _ => none

/-- All values are texts. -/
def Json.texts? : List Json → Option (List String)
  | [] => some []
  | .text s :: rest => (Json.texts? rest).map (s :: ·)
  | _ :: _ => none

def SingleUseType.ofOptions? (options : List (String × Json)) : Option SingleUseType :=
  match options.lookup "ignoreTypesWithSuffix" with
  | none => some {}
  | some (.array items) => (Json.texts? items).map (⟨·⟩)
  | some _ => none

namespace RuleSet

/-- Turn a named rule on or off. The options of a rule that has some are read only if it is turned
on; a rule that has none refuses any. -/
def configure (rules : RuleSet) (name : String) (setting : Setting) :
    Except SettingsError RuleSet :=
  let on := setting.level ≠ .off
  let invalid : Except SettingsError RuleSet := .error (.invalidOptions name)
  if name = SingleLine.name then
    if on then
      match SingleLine.ofOptions? setting.options with
      | some options => .ok { rules with singleLine := some options }
      | none => invalid
    else .ok { rules with singleLine := none }
  else if name = MaxParams.name then
    if on then
      match MaxParams.ofOptions? setting.options with
      | some options => .ok { rules with maxParams := some options }
      | none => invalid
    else .ok { rules with maxParams := none }
  else if name = SingleUseType.name then
    if on then
      match SingleUseType.ofOptions? setting.options with
      | some options => .ok { rules with singleUseType := some options }
      | none => invalid
    else .ok { rules with singleUseType := none }
  else if name = Reexport.name then
    if setting.options.isEmpty then .ok { rules with reexport := on } else invalid
  else if name = TypesBeforeUse.name then
    if setting.options.isEmpty then .ok { rules with typesBeforeUse := on } else invalid
  else .error (.unknownRule name)

/-- Take in one entry. A level that is a severity overrides the rule's own, any other level gives
it back. -/
def applyEntry (rules : RuleSet) (name : String) (value : Json) : Except SettingsError RuleSet :=
  match Setting.ofJson? value with
  | none => .error (.invalidSetting name value)
  | some setting =>
    match rules.configure name setting with
    | .error error => .error error
    | .ok configured =>
      match setting.level with
      | .severity severity => .ok (configured.setSeverity name severity)
      | .on | .off => .ok (configured.clearSeverity name)

def applyEntries (rules : RuleSet) : List (String × Json) → Except SettingsError RuleSet
  | [] => .ok rules
  | (name, value) :: rest =>
    match rules.applyEntry name value with
    | .error error => .error error
    | .ok rules => rules.applyEntries rest

/-- The defaults with the entries of an object on top, in ascending order of their names. -/
def ofSettings (entries : List (String × Json)) : Except SettingsError RuleSet :=
  standard.applyEntries entries

def parse (text : String) : Except SettingsError RuleSet :=
  match Json.parse? text with
  | some (.object entries) => ofSettings entries
  | _ => .error .malformed

end RuleSet

end ScriptLint

import ScriptLint.Text.Blank

/-!
Names with a meaning of their own: the generic component types whose argument describes the
properties of the annotated variable, and type names that end in a suffix set aside by the user.
-/
namespace ScriptLint

/-- Component types such as `FC`, which type their variable by their argument. -/
def containerAliases : List String := [
  "FC", "VFC", "FunctionComponent", "VoidFunctionComponent", "ComponentType",
  "React.FC", "React.VFC", "React.FunctionComponent", "React.VoidFunctionComponent",
  "React.ComponentType", "Component", "ParentComponent", "VoidComponent", "FlowComponent"]

/-- The name, written without blanks, is that of a component type. -/
def isContainerAlias (name : Text) : Bool :=
  containerAliases.contains (.ofList (name.filter (!Text.isBlank ·)))

/-- The name ends in one of the suffixes and is longer than it. An empty suffix is no suffix. -/
def hasIgnoredSuffix (name : Text) (suffixes : List String) : Bool :=
  suffixes.any fun suffix =>
    suffix != "" && name != suffix.toList && suffix.toList.isSuffixOf name

end ScriptLint

import ScriptLint.StableSort
import ScriptLint.Text.Bytes
import ScriptLint.Text.Quoted

/-!
Text edits. An edit replaces a byte span of a source; an empty span inserts and an empty
replacement deletes. `Edit.applyAll` applies a list of edits together, all of them relative to the
source they were made for: the edits are put in order of their spans, edits with equal spans
keeping their given order, and the source is copied once from left to right. A list with an edit
that does not fit the source, or with two edits that meet, changes nothing and is refused.
-/
namespace ScriptLint

structure Edit where
  span : Span
  replacement : Text
  deriving DecidableEq, Repr, Inhabited

inductive EditError where
  | overlapping (first second : Span)
  | outOfBounds (span : Span) (size : Nat)
  | splitsCharacter (span : Span)
  | inverted (span : Span)
  deriving DecidableEq, Repr

def EditError.message : EditError → String
  | .overlapping first second => "overlapping edits: " ++ first.text ++ " and " ++ second.text
  | .outOfBounds span size =>
    "edit " ++ span.text ++ " is out of bounds (source length " ++ toString size ++ ")"
  | .splitsCharacter span => "edit " ++ span.text ++ " does not fall on character boundaries"
  | .inverted span => "edit " ++ span.text ++ " has its start after its end"

namespace Edit

def insert (offset : Nat) (text : Text) : Edit := ⟨⟨offset, offset⟩, text⟩

def delete (span : Span) : Edit := ⟨span, []⟩

/-- The two edits touch a common byte. An insertion at the rim of another edit touches none. -/
def overlaps (a b : Edit) : Bool := a.span.overlaps b.span

theorem overlaps_symm (a b : Edit) : a.overlaps b = b.overlaps a := Span.overlaps_comm _ _

/-- What keeps an edit from fitting the source, the first cause only. -/
def fault? (source : Text) (e : Edit) : Option EditError :=
  if e.span.stop < e.span.start then some (.inverted e.span)
  else if Text.width source < e.span.stop then some (.outOfBounds e.span (Text.width source))
  else if !(Text.isBoundary source e.span.start && Text.isBoundary source e.span.stop) then
    some (.splitsCharacter e.span)
  else none

/-- Order of application. -/
def le (a b : Edit) : Bool := a.span.le b.span

/-- The first two neighbours of which the second starts before the first ends. -/
def conflict? : List Edit → Option EditError
  | a :: b :: rest =>
    if b.span.start < a.span.stop then some (.overlapping a.span b.span) else conflict? (b :: rest)
  | _ => none

/-- Copy the source from the cursor on, putting in the edits as their spans are reached. -/
def splice (source : Text) (cursor : Nat) : List Edit → Text
  | [] => Text.drop cursor source
  | e :: rest =>
    Text.slice source ⟨cursor, e.span.start⟩ ++ e.replacement ++ splice source e.span.stop rest

def applyAll (source : Text) (edits : List Edit) : Except EditError Text :=
  match edits.findSome? (fault? source) with
  | some error => .error error
  | none =>
    let ordered := sortBy le edits
    match conflict? ordered with
    | some error => .error error
    | none => .ok (splice source 0 ordered)

@[simp] theorem applyAll_nil (source : Text) : applyAll source [] = .ok source := by
  have h : Text.drop 0 source = source := Text.drop_width_append [] source
  simp [applyAll, conflict?, splice, h]

/-- The form shown to people: the span, an arrow and the quoted replacement. -/
def text (e : Edit) : String := e.span.text ++ " -> " ++ Text.quoted e.replacement

end Edit

end ScriptLint

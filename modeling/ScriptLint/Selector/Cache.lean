import ScriptLint.Selector.Parser

/-!
Compiled selectors by pattern. Every compiled selector has a ticket, so that it can be seen whether
two requests were answered with the same object; tickets are never used again, not even after the
cache is cleared. Patterns that do not compile leave no trace.
-/
namespace ScriptLint

structure CompiledSelector where
  ticket : Nat
  selector : Selector
  deriving DecidableEq, Repr

structure SelectorCache where
  entries : List (String × CompiledSelector)
  nextTicket : Nat
  deriving DecidableEq, Repr

namespace SelectorCache

def empty : SelectorCache := ⟨[], 0⟩

def size (c : SelectorCache) : Nat := c.entries.length

def isEmpty (c : SelectorCache) : Bool := c.entries.isEmpty

def clear (c : SelectorCache) : SelectorCache := { c with entries := [] }

/-- The selector compiled earlier for the pattern, or a new one, which the cache then holds. -/
def getOrCompile (c : SelectorCache) (pattern : String) :
    Except SelectorError CompiledSelector × SelectorCache :=
  match c.entries.lookup pattern with
  | some compiled => (.ok compiled, c)
  | none =>
    match Selector.compile pattern with
    | .error error => (.error error, c)
    | .ok selector =>
      let compiled := ⟨c.nextTicket, selector⟩
      (.ok compiled, ⟨(pattern, compiled) :: c.entries, c.nextTicket + 1⟩)

@[simp] theorem size_empty : empty.size = 0 := rfl

@[simp] theorem size_clear (c : SelectorCache) : c.clear.size = 0 := rfl

/-- A pattern that does not compile leaves the cache as it was. -/
theorem getOrCompile_of_error {c : SelectorCache} {pattern : String} {error : SelectorError}
    (h : (c.getOrCompile pattern).1 = .error error) : (c.getOrCompile pattern).2 = c := by
  unfold getOrCompile at h ⊢
  cases hc : c.entries.lookup pattern with
  | some compiled => simp [hc] at h
  | none =>
    cases hp : Selector.compile pattern with
    | error failure => simp
    | ok selector => simp [hc, hp] at h

end SelectorCache

end ScriptLint

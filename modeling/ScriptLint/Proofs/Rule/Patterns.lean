import ScriptLint.Lint.Runner
import ScriptLint.Proofs.Selector.Reading

/-!
The patterns of the rules are selectors. Most of them are fixed; those of `max-params` have the
decimal digits of the limit in them, and compile for any limit (`MaxParams.compile_selector`). So no
run fails for want of a selector (`Dispatch.compileAll_ok`), whatever the cache holds.
-/
namespace ScriptLint

namespace MaxParams

open Selector

theorem functionTypes_known : ∀ type ∈ functionTypes, isKnownType type = true := by
  decide

/-- The pattern asks for more parameters than a number written in decimal digits. -/
theorem compoundText_count {kind : NodeKind} (hknown : kind ≠ .unknown) {digits : Text}
    (h : IsRun Char.isDigit digits) :
    CompoundText ⟨some kind.typeName, [⟨["params", "length"], some (.gt, ofWord digits)⟩]⟩
      (kind.typeName.toList ++ '[' :: ("params.length".toList ++ '>' :: (digits ++ [']']))) := by
  have hpath : PathText [.ofList "params".toList, .ofList "length".toList]
      ("params".toList ++ '.' :: "length".toList) := .dot (by decide) (.last (by decide))
  have hword : IsRun isWordChar digits := by
    refine ⟨h.1, fun c hc => ?_⟩
    simp [isWordChar, isNameChar, Char.isAlphanum, h.2 c hc]
  have hattribute := AttributeText.compact hpath .gt (.word hword (ofWord_eq_iff.mp rfl))
  exact .single (.name hknown) hattribute

theorem compile_selector {type : String} (h : type ∈ functionTypes) (max : Nat) :
    Selector.compile (type ++ "[params.length>" ++ toString max ++ "]") =
      .ok ⟨type ++ "[params.length>" ++ toString max ++ "]",
        ⟨some type, [⟨["params", "length"],
          some (.gt, Selector.ofWord (Nat.toDigits 10 max))⟩]⟩, []⟩ := by
  obtain ⟨kind, hknown, rfl⟩ := isKnownType_iff.mp (functionTypes_known type h)
  have hdigits : IsRun Char.isDigit (Nat.toDigits 10 max) :=
    ⟨Nat.toDigits_ne_nil, fun c hc => Nat.isDigit_of_mem_toDigits (by decide) (by decide) hc⟩
  have htext := PatternText.compact (.intro (compoundText_count hknown hdigits) .nil)
  refine compile_eq_ok_iff.mpr ⟨rfl, ?_⟩
  simpa [compounds, combinators, String.toList_append] using htext

end MaxParams

/-- Fixed patterns are tried out, all of them together. -/
theorem Selector.exists_of_all_isOk (patterns : List String)
    (h : (patterns.all fun pattern => (compile pattern).isOk) = true) :
    ∀ pattern ∈ patterns, ∃ selector, compile pattern = .ok selector := by
  intro pattern hpattern
  have hok := List.all_eq_true.mp h pattern hpattern
  cases hc : compile pattern with
  | error error =>
    rw [hc] at hok
    cases hok
  | ok selector => exact ⟨selector, rfl⟩

/-- Every pattern of every rule is a selector. -/
theorem Rule.exists_compile (rule : Rule) :
    ∀ pattern ∈ rule.selectors, ∃ selector, Selector.compile pattern = .ok selector := by
  cases rule with
  | maxParams options =>
    intro pattern hpattern
    obtain ⟨type, htype, rfl⟩ := List.mem_map.mp hpattern
    exact ⟨_, MaxParams.compile_selector htype options.max⟩
  | singleLine options =>
    exact Selector.exists_of_all_isOk SingleLine.selectors (by decide +kernel)
  | singleUseType options =>
    exact Selector.exists_of_all_isOk SingleUseType.selectors (by decide +kernel)
  | reexport =>
    exact Selector.exists_of_all_isOk Reexport.selectors (by decide +kernel)
  | typesBeforeUse =>
    exact Selector.exists_of_all_isOk TypesBeforeUse.selectors (by decide +kernel)

namespace Dispatch

theorem getOrCompile_ok {pattern : String} {selector : Selector}
    (h : Selector.compile pattern = .ok selector) (cache : SelectorCache) :
    ∃ compiled, (cache.getOrCompile pattern).1 = .ok compiled := by
  rw [SelectorCache.getOrCompile]
  split
  · exact ⟨_, rfl⟩
  · rw [h]
    exact ⟨_, rfl⟩

theorem compileAll_ok {patterns : List (Rule × String)}
    (h : ∀ entry ∈ patterns, ∃ selector, Selector.compile entry.2 = .ok selector)
    (cache : SelectorCache) : ∃ dispatches, (compileAll cache patterns).1 = .ok dispatches := by
  induction patterns generalizing cache with
  | nil => exact ⟨[], rfl⟩
  | cons entry rest ih =>
    obtain ⟨rule, pattern⟩ := entry
    obtain ⟨selector, hselector⟩ := h (rule, pattern) List.mem_cons_self
    obtain ⟨compiled, hcompiled⟩ := getOrCompile_ok hselector cache
    obtain ⟨dispatches, hrest⟩ := ih (fun e he => h e (List.mem_cons_of_mem _ he))
      (cache.getOrCompile pattern).2
    rcases hget : cache.getOrCompile pattern with ⟨outcome, next⟩
    rw [hget] at hcompiled hrest
    cases hcompiled
    rcases hall : compileAll next rest with ⟨outcome, last⟩
    rw [hall] at hrest
    cases hrest
    exact ⟨⟨rule, compiled.selector⟩ :: dispatches, by simp only [compileAll, hget, hall]⟩

end Dispatch

theorem RuleSet.run_ok (rules : RuleSet) (cache : SelectorCache) (doc : Document) :
    ∃ report, (rules.run cache doc).1 = .ok report := by
  have hpatterns : ∀ entry ∈ rules.enabled.flatMap Rule.patterns,
      ∃ selector, Selector.compile entry.2 = .ok selector := by
    intro entry hentry
    obtain ⟨rule, _, hrule⟩ := List.mem_flatMap.mp hentry
    obtain ⟨pattern, hpattern, rfl⟩ := List.mem_map.mp hrule
    exact rule.exists_compile pattern hpattern
  obtain ⟨dispatches, hcompiled⟩ := Dispatch.compileAll_ok hpatterns cache
  rcases hall : Dispatch.compileAll cache (rules.enabled.flatMap Rule.patterns) with ⟨outcome, last⟩
  rw [hall] at hcompiled
  cases hcompiled
  exact ⟨rules.report dispatches doc, by simp only [run, hall]⟩

end ScriptLint

import ScriptLint.Proofs.Tree.Exact

/-!
Tokens around and inside a span, said without bisection. Along tokens that stand apart both starts and
stops grow, so the tokens that start before an offset come first, and so do those that end there or
earlier (`Token.Apart.divides_start`, `Token.Apart.divides_stop`). The cuts of a range query are the
places where these two end (`Document.tokensIn_eq`). The cuts cross where the span is not in order or
lies inside a token; then the query gives nothing, and there is no token in the span.
-/
namespace ScriptLint

namespace Divides

variable {α : Type} {test p q : α → Bool} {m n : Nat} {xs : List α}

theorem filter_eq_take (h : Divides test n xs) : xs.filter test = xs.take n := by
  have hback : (xs.drop n).filter test = [] := by simpa using h.back
  calc xs.filter test
      = (xs.take n).filter test ++ (xs.drop n).filter test := by
        rw [← List.filter_append, List.take_append_drop]
    _ = xs.take n := by rw [List.filter_eq_self.mpr h.front, hback, List.append_nil]

theorem filter_not_eq_drop (h : Divides test n xs) : (xs.filter fun x => !test x) = xs.drop n := by
  have hfront : ((xs.take n).filter fun x => !test x) = [] := by simpa using h.front
  have hback : ((xs.drop n).filter fun x => !test x) = xs.drop n := by simpa using h.back
  calc (xs.filter fun x => !test x)
      = ((xs.take n).filter fun x => !test x) ++ ((xs.drop n).filter fun x => !test x) := by
        rw [← List.filter_append, List.take_append_drop]
    _ = xs.drop n := by rw [hfront, hback, List.nil_append]

theorem drop (h : Divides test n xs) (m : Nat) : Divides test (n - m) (xs.drop m) := by
  constructor
  · intro x hx
    apply h.front
    rw [← List.drop_take] at hx
    exact List.mem_of_mem_drop hx
  · intro x hx
    apply h.back
    rw [List.drop_drop, show m + (n - m) = n + (m - n) by omega, ← List.drop_drop] at hx
    exact List.mem_of_mem_drop hx

/-- What is after the first cut and before the second; nothing if the cuts cross. -/
theorem filter_between (hp : Divides p m xs) (hq : Divides q n xs) :
    (xs.filter fun x => !p x && q x) = (xs.take (max n m)).drop m := by
  calc (xs.filter fun x => !p x && q x)
      = (xs.filter fun x => !p x).filter q := by simp [List.filter_filter, Bool.and_comm]
    _ = (xs.drop m).take (n - m) := by rw [hp.filter_not_eq_drop, (hq.drop m).filter_eq_take]
    _ = (xs.take (max n m)).drop m := by
        rw [List.drop_take, show max n m - m = n - m by omega]

end Divides

namespace Token.Apart

variable {tokens : Array Token} (h : Apart 0 tokens.toList)

include h

theorem divides_start (offset : Nat) :
    Divides (fun t => t.span.start < offset)
      (partitionPoint tokens fun t => t.span.start < offset) tokens.toList := by
  apply partitionPoint_divides
  refine h.pairwise.imp_of_mem fun {a b} ha _ hab => ?_
  have := (h.start_lt_stop ha).2
  simp only [decide_eq_true_eq]
  omega

theorem divides_stop (offset : Nat) :
    Divides (fun t => t.span.stop ≤ offset)
      (partitionPoint tokens fun t => t.span.stop ≤ offset) tokens.toList := by
  apply partitionPoint_divides
  refine h.pairwise.imp_of_mem fun {a b} _ hb hab => ?_
  have := (h.start_lt_stop hb).2
  simp only [decide_eq_true_eq]
  omega

end Token.Apart

namespace Document

variable {doc : Document} {source : Text} {file : ParsedFile} {resolved : Bool}

theorem build_tokens_apart (h : build source file resolved = .ok doc) :
    Token.Apart 0 doc.tokens.toList := by
  obtain ⟨_, _, _, rfl⟩ := build_eq_ok h
  exact Token.tokenize_apart source _

section Apart

variable (hdoc : Token.Apart 0 doc.tokens.toList)

include hdoc

/-- The tokens before an offset are those that end there or earlier, nearest first. -/
theorem tokensAroundSpan_before (span : Span) :
    doc.tokensAroundSpan span .before =
      (doc.tokens.toList.filter fun t => t.span.stop ≤ span.start).reverse := by
  rw [tokensAroundSpan, (hdoc.divides_stop span.start).filter_eq_take]

theorem tokensAroundSpan_after (span : Span) :
    doc.tokensAroundSpan span .after =
      doc.tokens.toList.filter fun t => span.stop ≤ t.span.start := by
  rw [tokensAroundSpan, ← (hdoc.divides_start span.stop).filter_not_eq_drop]
  simp [← decide_not]

theorem tokensIn_eq (span : Span) :
    doc.tokensIn span = doc.tokens.toList.filter fun t =>
      span.start ≤ t.span.start ∧ t.span.stop ≤ span.stop := by
  rw [tokensIn, ← (hdoc.divides_start span.start).filter_between (hdoc.divides_stop span.stop)]
  simp [← decide_not]

theorem hasComments_iff (id : NodeId) :
    doc.hasComments id = true ↔ ∃ t ∈ doc.tokens.toList, t.isComment = true ∧
      (doc.span id).start ≤ t.span.start ∧ t.span.stop ≤ (doc.span id).stop := by
  simp [hasComments, commentsIn, tokensIn_eq hdoc, and_comm, and_assoc]

end Apart

/-- The queries by bisection give what a look at every token gives: the tokens that lie whole in a
span, those that start after it, those that end before it from the nearest on; and a node has comments
exactly if one lies whole in its span. Nothing is asked of the span. -/
theorem token_ranges_are_filters (h : build source file resolved = .ok doc) :
    (∀ span : Span, doc.tokensIn span = doc.tokens.toList.filter fun t =>
      span.start ≤ t.span.start ∧ t.span.stop ≤ span.stop) ∧
    (∀ span : Span, doc.tokensAroundSpan span .after =
      doc.tokens.toList.filter fun t => span.stop ≤ t.span.start) ∧
    (∀ span : Span, doc.tokensAroundSpan span .before =
      (doc.tokens.toList.filter fun t => t.span.stop ≤ span.start).reverse) ∧
    ∀ id, doc.hasComments id = true ↔ ∃ t ∈ doc.tokens.toList, t.isComment = true ∧
      (doc.span id).start ≤ t.span.start ∧ t.span.stop ≤ (doc.span id).stop := by
  have hdoc := build_tokens_apart h
  exact ⟨tokensIn_eq hdoc, tokensAroundSpan_after hdoc, tokensAroundSpan_before hdoc,
    hasComments_iff hdoc⟩

/-- A word, a comment and a wide word; the second statement holds no more than the comment's end. -/
def remarkText : Text := "ab /* c */ é".toList

def remarkFile : ParsedFile where
  tree :=
    .node ⟨"Program", ⟨0, 13⟩, [("body", .parts [⟨0, 10⟩, ⟨9, 13⟩])]⟩
      [.node ⟨"ExpressionStatement", ⟨0, 10⟩, []⟩ [], .node ⟨"ExpressionStatement", ⟨9, 13⟩, []⟩ []]
  comments := [⟨⟨3, 10⟩, true⟩]

/-- A span that cuts two words, one inside the comment, and one that is not in order. -/
theorem token_ranges_are_filters_remarkText :
    ∃ doc, build remarkText remarkFile true = .ok doc ∧
      doc.tokensIn ⟨1, 12⟩ = [⟨.blockComment, ⟨3, 10⟩, false⟩] ∧
      doc.tokensIn ⟨4, 9⟩ = [] ∧ doc.tokensIn ⟨11, 2⟩ = [] ∧
      doc.tokensAroundSpan ⟨11, 2⟩ .after =
        [⟨.blockComment, ⟨3, 10⟩, false⟩, ⟨.word, ⟨11, 13⟩, false⟩] ∧
      doc.tokensAroundSpan ⟨11, 2⟩ .before =
        [⟨.blockComment, ⟨3, 10⟩, false⟩, ⟨.word, ⟨0, 2⟩, false⟩] ∧
      doc.hasComments 1 = true ∧ ¬ doc.hasComments 2 = true := by
  obtain ⟨doc, hbuild, htest⟩ : ∃ doc, build remarkText remarkFile true = .ok doc ∧
      (doc.span 1 == ⟨0, 10⟩ && doc.span 2 == ⟨9, 13⟩ && doc.tokens.toList ==
        [⟨.word, ⟨0, 2⟩, false⟩, ⟨.blockComment, ⟨3, 10⟩, false⟩,
          ⟨.word, ⟨11, 13⟩, false⟩]) = true :=
    exists_build_of_any (by decide +kernel)
  simp only [Bool.and_eq_true, beq_iff_eq] at htest
  obtain ⟨⟨hfirst, hsecond⟩, htokens⟩ := htest
  obtain ⟨hin, hafter, hbefore, hcomments⟩ := token_ranges_are_filters hbuild
  refine ⟨doc, hbuild, ?_⟩
  rw [hin, hin, hin, hafter, hbefore, hcomments, hcomments, hfirst, hsecond, htokens]
  decide

end Document

end ScriptLint

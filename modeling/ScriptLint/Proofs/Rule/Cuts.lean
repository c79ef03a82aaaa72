import ScriptLint.Lint.Runner
import ScriptLint.Proofs.Revision.Relocate

/-!
The cuts that rules make. They are made at the ends of nodes and of comments and at the starts and ends
of lines, and all of these are boundaries where the spans of nodes and comments are exact. So every cut
is whole (`Rule.cuts_whole`), and a run breaks off nowhere (`RuleSet.brokenCut?_eq_none`).
-/
namespace ScriptLint

theorem Text.isWhole_of_exact {source : Text} {span : Span} (hordered : span.start ≤ span.stop)
    (hexact : span.Exact source) : isWhole source span = true :=
  (isWhole_iff source span).mpr ⟨hordered, hexact.start, hexact.stop⟩

namespace Document

variable {doc : Document} {start offset : Nat}

section Lines

variable (h : Text.isBoundary doc.source offset = true)

include h

theorem frontCut_whole : Text.isWhole doc.source (doc.frontCut offset) = true := by
  rw [frontCut, Nat.min_eq_left (Text.le_width_of_isBoundary h)]
  exact Text.isWhole_of_exact (Nat.zero_le offset) ⟨Text.isBoundary_zero _, h⟩

theorem backCut_whole : Text.isWhole doc.source (doc.backCut offset) = true := by
  have hle := Text.le_width_of_isBoundary h
  rw [backCut, Nat.min_eq_left hle]
  exact Text.isWhole_of_exact hle ⟨h, Text.isBoundary_width _⟩

theorem lineFront_whole : Text.isWhole doc.source (doc.lineFront offset) = true :=
  Text.isWhole_of_exact (Text.lineStart_le _ _) ⟨Text.isBoundary_lineStart _ _, h⟩

theorem lineBack_whole : Text.isWhole doc.source (doc.lineBack offset) = true :=
  Text.isWhole_of_exact (Text.le_lineEnd h) ⟨h, Text.isBoundary_lineEnd h⟩

theorem isBoundary_lineText : Text.isBoundary doc.source (doc.lineText offset) = true := by
  rw [lineText]
  rcases Nat.le_total (Text.lineEnd doc.source offset) (Text.skipIndent doc.source offset) with
    hle | hle
  · rw [Nat.min_eq_left hle]
    exact Text.isBoundary_lineEnd h
  · rw [Nat.min_eq_right hle]
    exact Text.isBoundary_skipIndent h

theorem indentCuts_whole : ∀ cut ∈ doc.indentCuts offset, Text.isWhole doc.source cut = true := by
  have htext := isBoundary_lineText h
  have hrest : Text.isWhole doc.source ⟨offset, Text.width doc.source⟩ = true :=
    Text.isWhole_of_exact (Text.le_width_of_isBoundary h) ⟨h, Text.isBoundary_width _⟩
  simp [indentCuts, backCut_whole h, hrest, frontCut_whole htext, lineFront_whole htext]

end Lines

theorem vacatedCuts_whole {moved : Span} (hmoved : moved.Exact doc.source) :
    ∀ cut ∈ doc.vacatedCuts moved, Text.isWhole doc.source cut = true := by
  have hbefore : Text.isWhole doc.source ⟨0, moved.start⟩ = true :=
    Text.isWhole_of_exact (Nat.zero_le _) ⟨Text.isBoundary_zero _, hmoved.start⟩
  simp [vacatedCuts, frontCut_whole hmoved.start, lineFront_whole hmoved.start,
    backCut_whole hmoved.stop, lineBack_whole hmoved.stop, hbefore]

theorem leadCuts_whole {t : Token} (hstart : Text.isBoundary doc.source start = true)
    (hle : t.span.stop ≤ start) (ht : t.isComment = true → t.span.Exact doc.source) :
    ∀ cut ∈ doc.leadCuts t start, Text.isWhole doc.source cut = true := by
  rw [leadCuts]
  split
  · rename_i hc
    have hexact := ht hc
    have hgap : Text.isWhole doc.source ⟨t.span.stop, start⟩ = true :=
      Text.isWhole_of_exact hle ⟨hexact.stop, hstart⟩
    split <;> simp [hgap, frontCut_whole hexact.start, lineFront_whole hexact.start]
  · simp

/-- The walk back over comments. Each of the tokens to come ends where the one before it in the list
starts, or earlier. -/
theorem commentCuts_whole {tokens : List Token} (hstart : Text.isBoundary doc.source start = true)
    (hbefore : ∀ t ∈ tokens, t.span.stop ≤ start)
    (hapart : tokens.Pairwise fun a b => b.span.stop ≤ a.span.start)
    (hexact : ∀ t ∈ tokens, t.isComment = true → t.span.Exact doc.source) :
    ∀ cut ∈ doc.commentCuts start tokens, Text.isWhole doc.source cut = true := by
  induction tokens generalizing start with
  | nil => simp [commentCuts]
  | cons t rest ih =>
    rw [List.forall_mem_cons] at hbefore hexact
    rw [List.pairwise_cons] at hapart
    rw [commentCuts, List.forall_mem_append]
    refine ⟨leadCuts_whole hstart hbefore.1 hexact.1, ?_⟩
    split
    · rename_i hleads
      have ht := hexact.1 (leadsTo_iff.mp hleads).comment
      exact ih ht.start hapart.1 hapart.2 hexact.2
    · simp

section Exact

variable (hdoc : doc.Exact) (hcomments : doc.CommentsExact)

include hdoc hcomments

theorem leadingCuts_whole (hstart : Text.isBoundary doc.source start = true) :
    ∀ cut ∈ doc.leadingCuts start, Text.isWhole doc.source cut = true := by
  rw [leadingCuts, tokensAroundSpan_before hdoc.tokens_apart]
  refine commentCuts_whole hstart ?_ ?_ ?_
  · intro t ht
    simpa using (List.mem_filter.mp (List.mem_reverse.mp ht)).2
  · rw [List.pairwise_reverse]
    exact hdoc.tokens_apart.pairwise.filter _
  · intro t ht
    exact hcomments t (List.mem_filter.mp (List.mem_reverse.mp ht)).1

theorem moveCuts_whole (id : NodeId) {target : Nat}
    (htarget : Text.isBoundary doc.source target = true) :
    ∀ cut ∈ doc.moveCuts id target, Text.isWhole doc.source cut = true := by
  have hspan := hdoc.exact id
  have hrest : Text.isWhole doc.source ⟨(doc.span id).stop, Text.width doc.source⟩ = true :=
    Text.isWhole_of_exact (Text.le_width_of_isBoundary hspan.stop)
      ⟨hspan.stop, Text.isBoundary_width _⟩
  have hstatement : Text.isBoundary doc.source (doc.statementSpan id).start = true := by
    rw [(statementSpan_spec hdoc id).1]
    exact hspan.start
  obtain ⟨hordered, hmoved⟩ := movedSpan_spec hdoc id
  rw [moveCuts, List.forall_mem_cons, List.forall_mem_append, List.forall_mem_append,
    List.forall_mem_cons]
  refine ⟨hrest, ⟨leadingCuts_whole hdoc hcomments hstatement, vacatedCuts_whole hmoved⟩,
    frontCut_whole htarget, ?_⟩
  split
  · rw [List.forall_mem_append, List.forall_mem_singleton]
    exact ⟨indentCuts_whole (Text.isBoundary_lineStart _ _), Text.isWhole_of_exact hordered hmoved⟩
  · simp

end Exact

end Document

theorem SingleLine.cuts_whole {doc : Document} (hdoc : doc.Exact) (rule : SingleLine)
    (id : NodeId) : ∀ cut ∈ rule.cuts doc id, Text.isWhole doc.source cut = true := by
  have hspan := hdoc.exact id
  have hbefore : Text.isWhole doc.source (before doc id) = true :=
    Text.isWhole_of_exact (Text.indent_le hspan.start)
      ⟨Text.isBoundary_indent _ _, hspan.start⟩
  rw [cuts]
  split
  · simp [Document.indentOfCuts, Document.frontCut_whole hspan.start,
      Document.lineFront_whole hspan.start, hbefore, Document.backCut_whole hspan.stop,
      Document.lineBack_whole hspan.stop]
  · simp

section Exact

variable {doc : Document} (hdoc : doc.Exact) (hcomments : doc.CommentsExact)

include hdoc hcomments

theorem TypesBeforeUse.cuts_whole (id : NodeId) :
    ∀ cut ∈ cuts doc id, Text.isWhole doc.source cut = true := by
  rw [cuts]
  split
  · rename_i first _ _
    have hfirst := (hdoc.exact first).start
    rw [List.forall_mem_append]
    exact ⟨Document.leadingCuts_whole hdoc hcomments hfirst,
      Document.moveCuts_whole hdoc hcomments id (Document.leadingCommentStart_spec hdoc hfirst).2⟩
  · simp

/-- Whatever a rule cuts out of the source, it cuts at boundaries. -/
theorem Rule.cuts_whole (rule : Rule) (id : NodeId) :
    ∀ cut ∈ rule.cuts doc id, Text.isWhole doc.source cut = true := by
  cases rule with
  | singleLine options => exact SingleLine.cuts_whole hdoc options id
  | typesBeforeUse => exact TypesBeforeUse.cuts_whole hdoc hcomments id
  | maxParams => simp [cuts]
  | singleUseType => simp [cuts]
  | reexport => simp [cuts]

theorem RuleSet.brokenCut?_eq_none (rules : RuleSet) : rules.brokenCut? doc = none := by
  rw [brokenCut?, List.findSome?_eq_none_iff]
  intro id _
  rw [List.findSome?_eq_none_iff]
  intro rule _
  have hnone : ((rule.cuts doc id).find? fun cut => !Text.isWhole doc.source cut) = none := by
    rw [List.find?_eq_none]
    intro cut hcut
    simp [Rule.cuts_whole hdoc hcomments rule id cut hcut]
  rw [Rule.brokenCut?, hnone, Option.filter_none]

end Exact

end ScriptLint

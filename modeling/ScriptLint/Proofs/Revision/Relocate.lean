import ScriptLint.Proofs.Edit.Acceptance
import ScriptLint.Proofs.Revision.CommentBlock
import ScriptLint.Proofs.Text.Code

/-!
Moving a statement. What is taken out holds the moved text and, before and after it, blanks only
(`vacated_holds`); what is put in is the moved text with an indent and a line feed. So the move
takes out and puts in the same code, and its two edits fit the source and do not overlap
(`moveStatement_eq_ok`).
-/
namespace ScriptLint

namespace Text

theorem allBlank_append (as bs : Text) : allBlank (as ++ bs) = (allBlank as && allBlank bs) :=
  List.all_append

theorem isBlank_of_isIndent {c : Char} (h : isIndent c = true) : isBlank c = true := by
  simp only [isIndent, Bool.or_eq_true, beq_iff_eq] at h
  rcases h with rfl | rfl <;> decide

theorem allBlank_indentAt (s : Text) (offset : Nat) : allBlank (indentAt s offset) = true := by
  rw [allBlank, List.all_eq_true]
  intro c hc
  exact isBlank_of_isIndent (List.all_eq_true.mp List.all_takeWhile c hc)

end Text

namespace Document

variable {doc : Document}

theorem leadingCommentStart_spec (hdoc : doc.Exact) {start : Nat}
    (hstart : Text.isBoundary doc.source start = true) :
    doc.leadingCommentStart start ≤ start ∧
      Text.isBoundary doc.source (doc.leadingCommentStart start) = true := by
  obtain ⟨⟨tokens, text, hblock⟩, _⟩ := exists_commentBlock hdoc.tokens_apart start
  refine ⟨hblock.start_le hdoc.tokens_apart, hblock.isBoundary_start ?_ hstart⟩
  intro t ht
  obtain ⟨hmem, hcomment⟩ := hblock.mem_tokens hdoc.tokens_apart t ht
  exact hdoc.comment_start t hmem hcomment

theorem statementSpan_spec (hdoc : doc.Exact) (id : NodeId) :
    (doc.statementSpan id).start = (doc.span id).start ∧
      (doc.span id).stop ≤ (doc.statementSpan id).stop ∧
      Text.isBoundary doc.source (doc.statementSpan id).stop = true := by
  have hspan := hdoc.exact id
  unfold statementSpan
  dsimp only
  split
  · rename_i rest hrest
    refine ⟨rfl, by simp only; omega, ?_⟩
    exact Text.isBoundary_add hspan.stop (show _ = [';'] ++ rest from hrest)
  · exact ⟨rfl, Nat.le_refl _, hspan.stop⟩

theorem movedSpan_spec (hdoc : doc.Exact) (id : NodeId) :
    (doc.movedSpan id).start ≤ (doc.movedSpan id).stop ∧
      (doc.movedSpan id).Exact doc.source := by
  obtain ⟨hstart, hstop, hexact⟩ := statementSpan_spec hdoc id
  have hlead := leadingCommentStart_spec hdoc (hdoc.exact id).start
  have hordered := hdoc.ordered id
  rw [← hstart] at hlead
  refine ⟨?_, hlead.2, hexact⟩
  simp only [movedSpan]
  omega

end Document

/-- The outer span holds the inner one and otherwise blanks only. -/
structure Span.Holds (source : Text) (outer inner : Span) : Prop where
  start_le : outer.start ≤ inner.start
  le_stop : inner.stop ≤ outer.stop
  exact : outer.Exact source
  blank_before : Text.allBlank (Text.slice source ⟨outer.start, inner.start⟩) = true
  blank_after : Text.allBlank (Text.slice source ⟨inner.stop, outer.stop⟩) = true

theorem Span.Holds.code_eq {source : Text} {outer inner : Span} (h : outer.Holds source inner)
    (hordered : inner.start ≤ inner.stop) (hexact : inner.Exact source) :
    Text.code (Text.slice source outer) = Text.code (Text.slice source inner) := by
  have hstop := h.le_stop
  have hparts : Text.slice source ⟨outer.start, inner.start⟩ ++
      (Text.slice source ⟨inner.start, inner.stop⟩ ++
        Text.slice source ⟨inner.stop, outer.stop⟩) = Text.slice source outer := by
    rw [Text.slice_append_slice hexact.start hexact.stop hordered hstop,
      Text.slice_append_slice h.exact.start hexact.start h.start_le (by omega)]
  rw [← hparts, Text.code_append, Text.code_append, Text.code_of_allBlank h.blank_before,
    Text.code_of_allBlank h.blank_after, List.nil_append, List.append_nil]

namespace Document

variable {doc : Document}

theorem vacated_start (doc : Document) {moved : Span}
    (hmoved : Text.isBoundary doc.source moved.start = true) :
    (doc.vacated moved).start ≤ moved.start ∧
      Text.isBoundary doc.source (doc.vacated moved).start = true ∧
      Text.allBlank (Text.slice doc.source ⟨(doc.vacated moved).start, moved.start⟩) = true := by
  have hline := Text.isBoundary_lineStart doc.source moved.start
  have hle := Text.lineStart_le doc.source moved.start
  rw [vacated]
  dsimp only
  split
  · rename_i hblank
    exact ⟨Nat.zero_le _, Text.isBoundary_zero _, hblank⟩
  · by_cases hopens : doc.isBlankIn (doc.lineFront moved.start) = true
    · rw [if_pos hopens]
      split
      · -- the last line: the line feed before it goes too, if there is one
        rcases Nat.eq_zero_or_pos (Text.lineStart doc.source moved.start) with hzero | hpos
        · rw [lineFront, hzero] at hopens
          rw [hzero]
          exact ⟨Nat.zero_le _, Text.isBoundary_zero _, hopens⟩
        · obtain ⟨hpred, hfeed⟩ := Text.lineStart_pred hpos
          refine ⟨by omega, hpred, ?_⟩
          rw [← Text.slice_append_slice hpred hline (by omega) hle, hfeed, Text.allBlank_append,
            Bool.and_eq_true]
          exact ⟨by decide, hopens⟩
      · exact ⟨hle, hline, hopens⟩
    · simp only [hopens, Bool.and_false, Bool.false_eq_true, if_false]
      exact ⟨Nat.le_refl _, hmoved, by rw [Text.slice_self]; rfl⟩

theorem vacated_stop (doc : Document) {moved : Span}
    (hmoved : Text.isBoundary doc.source moved.stop = true) :
    moved.stop ≤ (doc.vacated moved).stop ∧
      Text.isBoundary doc.source (doc.vacated moved).stop = true ∧
      Text.allBlank (Text.slice doc.source ⟨moved.stop, (doc.vacated moved).stop⟩) = true := by
  have hend := Text.isBoundary_lineEnd hmoved
  have hle := Text.le_lineEnd hmoved
  rw [vacated]
  dsimp only
  split
  · rename_i hcloses
    simp only [Bool.and_eq_true, Bool.not_not, decide_eq_true_eq] at hcloses
    obtain ⟨rest, hrest⟩ := Text.drop_lineEnd hmoved hcloses.2
    have hfeed : Text.drop (Text.lineEnd doc.source moved.stop) doc.source = ['\n'] ++ rest := hrest
    refine ⟨by omega, Text.isBoundary_add hend hfeed, ?_⟩
    rw [← Text.slice_append_slice hmoved hend hle (by omega), Text.allBlank_append,
      Bool.and_eq_true]
    refine ⟨hcloses.1, ?_⟩
    have hslice : Text.slice doc.source ⟨Text.lineEnd doc.source moved.stop,
        Text.lineEnd doc.source moved.stop + 1⟩ = ['\n'] := Text.slice_of_drop hfeed
    rw [hslice]
    decide
  · exact ⟨Nat.le_refl _, hmoved, by rw [Text.slice_self]; rfl⟩

theorem vacated_holds (doc : Document) {moved : Span} (hmoved : moved.Exact doc.source) :
    (doc.vacated moved).Holds doc.source moved := by
  obtain ⟨hstart, hexact, hbefore⟩ := vacated_start doc hmoved.start
  obtain ⟨hstop, hexact', hafter⟩ := vacated_stop doc hmoved.stop
  exact ⟨hstart, hstop, ⟨hexact, hexact'⟩, hbefore, hafter⟩

/-- A span of the source in its bounds, from which an edit may be made. -/
theorem fits_of_exact {source : Text} {span : Span} (hordered : span.start ≤ span.stop)
    (hexact : span.Exact source) (replacement : Text) : Edit.Fits source ⟨span, replacement⟩ :=
  ⟨hordered, Text.le_width_of_isBoundary hexact.stop, hexact.start, hexact.stop⟩

/-- A move that is not refused takes out a span around the statement and puts the statement, after
an indent and before a line feed, at the start of a line outside that span. -/
theorem moveStatement_eq_ok {id : NodeId} {target : Nat} {edits : List Edit}
    (h : doc.moveStatement id target = .ok edits) :
    ∃ indent : Text, Text.allBlank indent = true ∧
      ¬((doc.vacated (doc.movedSpan id)).start < Text.lineStart doc.source target ∧
        Text.lineStart doc.source target < (doc.vacated (doc.movedSpan id)).stop) ∧
      edits = [.delete (doc.vacated (doc.movedSpan id)),
        .insert (Text.lineStart doc.source target)
          (indent ++ Text.slice doc.source (doc.movedSpan id) ++ ['\n'])] := by
  unfold moveStatement at h
  dsimp only at h
  split at h
  · cases h
  · rename_i hplace
    cases h
    exact ⟨_, Text.allBlank_indentAt _ _, hplace, rfl⟩

end Document

end ScriptLint

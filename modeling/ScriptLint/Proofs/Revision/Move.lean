import ScriptLint.Proofs.Edit.OneByOne
import ScriptLint.Proofs.Revision.Relocate

/-!
What a move does to the text. The two edits of a move take a span out and put its text in again at
the start of a line. But for blanks the outcome is the source with the span of the statement, from
the comments above it to the semicolon after it, cut out and put there
(`Document.moveStatement_moves`).
-/
namespace ScriptLint

namespace Text

/-- The text with a span of it cut out and put in again at a place that lies before or after it. -/
def relocate (s : Text) (moved : Span) (place : Nat) : Text :=
  if place ≤ moved.start then
    take place s ++ slice s moved ++ slice s ⟨place, moved.start⟩ ++ drop moved.stop s
  else
    take moved.start s ++ slice s ⟨moved.stop, place⟩ ++ slice s moved ++ drop place s

theorem relocate_before (s : Text) {moved : Span} {place : Nat} (h : place ≤ moved.start) :
    relocate s moved place =
      take place s ++ slice s moved ++ slice s ⟨place, moved.start⟩ ++ drop moved.stop s := by
  rw [relocate, if_pos h]

theorem relocate_after (s : Text) {moved : Span} {place : Nat} (hordered : moved.start ≤ moved.stop)
    (h : moved.stop ≤ place) :
    relocate s moved place =
      take moved.start s ++ slice s ⟨moved.stop, place⟩ ++ slice s moved ++ drop place s := by
  rw [relocate]
  split
  · -- an empty span that is put where it was
    have hstart : moved.start = place := by omega
    have hstop : moved.stop = place := by omega
    rw [hstart, hstop, List.append_assoc (take place s), List.append_assoc (take place s)]
    simp [slice, hstart, hstop]
  · rfl

end Text

namespace Span.Holds

variable {source : Text} {outer inner : Span} {place : Nat}

/-! Up to blanks it does not matter which of the two spans a text is cut at. -/

theorem visible_take (h : outer.Holds source inner) :
    Text.visible (Text.take inner.start source) = Text.visible (Text.take outer.start source) := by
  rw [← Text.take_append_slice h.exact.start h.start_le, Text.visible_append,
    Text.visible_of_allBlank h.blank_before, List.append_nil]

theorem visible_drop (h : outer.Holds source inner) (hinner : inner.Exact source) :
    Text.visible (Text.drop inner.stop source) = Text.visible (Text.drop outer.stop source) := by
  rw [← Text.slice_append_drop hinner.stop h.le_stop, Text.visible_append,
    Text.visible_of_allBlank h.blank_after, List.nil_append]

theorem visible_slice_before (h : outer.Holds source inner)
    (hplace : Text.isBoundary source place = true) (hle : place ≤ outer.start) :
    Text.visible (Text.slice source ⟨place, inner.start⟩) =
      Text.visible (Text.slice source ⟨place, outer.start⟩) := by
  rw [← Text.slice_append_slice hplace h.exact.start hle h.start_le, Text.visible_append,
    Text.visible_of_allBlank h.blank_before, List.append_nil]

theorem visible_slice_after (h : outer.Holds source inner) (hinner : inner.Exact source)
    (hle : outer.stop ≤ place) :
    Text.visible (Text.slice source ⟨inner.stop, place⟩) =
      Text.visible (Text.slice source ⟨outer.stop, place⟩) := by
  rw [← Text.slice_append_slice hinner.stop h.exact.stop h.le_stop hle, Text.visible_append,
    Text.visible_of_allBlank h.blank_after, List.nil_append]

end Span.Holds

namespace Edit

variable {source : Text} {a b : Edit}

theorem reorders_swap (h : a.span ≠ b.span) : Reorders (fun e : Edit => e.span) [a, b] [b, a] := by
  refine ⟨.swap a b [], fun span => ?_⟩
  by_cases ha : a.span = span
  · have hb : b.span ≠ span := fun hb => h (ha.trans hb.symm)
    simp [ha, hb]
  · by_cases hb : b.span = span <;> simp [ha, hb]

/-- Two edits of which the first ends before the second starts. -/
theorem applyAll_pair (ha : Fits source a) (hb : Fits source b)
    (h : a.span.stop ≤ b.span.start) :
    applyAll source [a, b] = .ok (Text.take a.span.start source ++ a.replacement ++
      Text.slice source ⟨a.span.stop, b.span.start⟩ ++ b.replacement ++
      Text.drop b.span.stop source) := by
  have hle : a.le b = true := by
    have := ha.ordered
    have := hb.ordered
    simp only [le, Span.le, Bool.or_eq_true, Bool.and_eq_true, beq_iff_eq, decide_eq_true_eq]
    omega
  obtain ⟨out, hout⟩ : ∃ out, applyAll source [a, b] = .ok out := by
    apply exists_applyAll_eq_ok_iff.mpr
    refine ⟨by simp [ha, hb], ?_⟩
    exact List.pairwise_pair.mpr ((Span.overlaps_eq_false_iff hle hb.ordered).mpr h)
  rw [hout, applyAll_eq_ok hout, sortBy_of_pairwise (by simpa using hle)]
  simp [splice, Text.slice_zero]

/-- Taking out a span around another and putting the text of the inner one in at a place outside the
outer one relocates the inner one, up to blanks. -/
theorem applyAll_delete_insert {outer inner : Span} {place : Nat} {text : Text}
    (holds : outer.Holds source inner) (hordered : inner.start ≤ inner.stop)
    (hinner : inner.Exact source) (hplace : Text.isBoundary source place = true)
    (outside : ¬(outer.start < place ∧ place < outer.stop))
    (htext : Text.visible text = Text.visible (Text.slice source inner)) :
    ∃ out, applyAll source [.delete outer, .insert place text] = .ok out ∧
      Text.visible out = Text.visible (Text.relocate source inner place) := by
  have hstart := holds.start_le
  have hstop := holds.le_stop
  have hdelete : Fits source (.delete outer) :=
    Document.fits_of_exact (by omega) holds.exact []
  have hinsert : Fits source (.insert place text) :=
    Document.fits_of_exact (Nat.le_refl place) ⟨hplace, hplace⟩ text
  by_cases hafter : outer.stop ≤ place
  · refine ⟨_, applyAll_pair hdelete hinsert hafter, ?_⟩
    rw [Text.relocate_after source hordered (by omega)]
    simp [delete, insert, htext, holds.visible_take, holds.visible_slice_after hinner hafter]
  · have hbefore : place ≤ outer.start := by omega
    have hne : (insert place text).span ≠ (delete outer).span := by
      intro h
      have := congrArg Span.stop h
      simp only [insert, delete] at this
      omega
    have hfits : ∀ e ∈ [insert place text, delete outer], Fits source e := by
      simp [hdelete, hinsert]
    have hswap := applyAll_eq_of_reorders (reorders_swap hne) hfits
    refine ⟨_, hswap.trans (applyAll_pair hinsert hdelete hbefore), ?_⟩
    rw [Text.relocate_before source (by omega)]
    simp [delete, insert, htext, holds.visible_drop hinner,
      holds.visible_slice_before hplace hbefore]

end Edit

namespace Document

variable {doc : Document} {source : Text} {file : ParsedFile} {resolved : Bool}

/-- The semicolon directly after a node, if there is one. -/
def semicolonAfter (doc : Document) (id : NodeId) : Text :=
  ((Text.drop (doc.span id).stop doc.source).head?.filter (· = ';')).toList

theorem slice_statementSpan (hdoc : doc.Exact) (id : NodeId) :
    Text.slice doc.source ⟨(doc.span id).start, (doc.statementSpan id).stop⟩ =
      doc.text id ++ doc.semicolonAfter id := by
  have hspan := hdoc.exact id
  unfold statementSpan semicolonAfter
  dsimp only
  split
  · rename_i rest hrest
    have hsemicolon : Text.slice doc.source ⟨(doc.span id).stop, (doc.span id).stop + 1⟩ = [';'] :=
      Text.slice_of_drop (show _ = [';'] ++ rest from hrest)
    rw [← Text.slice_append_slice hspan.start hspan.stop (hdoc.ordered id) (Nat.le_succ _),
      hsemicolon, hrest]
    rfl
  · rename_i hnone
    cases hrest : Text.drop (doc.span id).stop doc.source with
    | nil => simp [text]
    | cons c rest =>
      have hc : c ≠ ';' := by
        rintro rfl
        exact hnone rest hrest
      simp [text, hc]

/-- The text that is moved: what lies between the start of the comments above a node and the node,
the node, and the semicolon after it. -/
theorem slice_movedSpan (hdoc : doc.Exact) (id : NodeId) :
    Text.slice doc.source (doc.movedSpan id) =
      Text.slice doc.source ⟨doc.leadingCommentStart (doc.span id).start, (doc.span id).start⟩ ++
        (doc.text id ++ doc.semicolonAfter id) := by
  obtain ⟨hstart, hstop, _⟩ := statementSpan_spec hdoc id
  have hlead := leadingCommentStart_spec hdoc (hdoc.exact id).start
  have hordered := hdoc.ordered id
  rw [← slice_statementSpan hdoc id, Text.slice_append_slice hlead.2 (hdoc.exact id).start hlead.1
    (by omega), movedSpan, hstart]

theorem moveStatement_eq_error {id : NodeId} {target : Nat} {error : EditError}
    (h : doc.moveStatement id target = .error error) :
    (doc.vacated (doc.movedSpan id)).start < Text.lineStart doc.source target ∧
      Text.lineStart doc.source target < (doc.vacated (doc.movedSpan id)).stop := by
  unfold moveStatement at h
  dsimp only at h
  split at h
  · rename_i hplace
    exact hplace
  · cases h

/-- A move takes out a span that holds the statement, with the comments above it and the semicolon
after it, and otherwise blanks only, and puts them in at the start of the target's line. The two edits
do not overlap and are accepted, and up to blanks they relocate the moved text. Where a move is
refused, the line of the target starts strictly inside what would be taken out. -/
theorem moveStatement_moves (hfile : file.Exact source)
    (hbuild : build source file resolved = .ok doc) (id : NodeId) (target : Nat) :
    Text.slice source (doc.movedSpan id) =
      Text.slice source ⟨doc.leadingCommentStart (doc.span id).start, (doc.span id).start⟩ ++
        (doc.text id ++ doc.semicolonAfter id) ∧
    (doc.vacated (doc.movedSpan id)).Holds source (doc.movedSpan id) ∧
    (∀ edits, doc.moveStatement id target = .ok edits →
      ∃ deletion insertion text, edits = [deletion, insertion] ∧
        deletion = .delete (doc.vacated (doc.movedSpan id)) ∧
        insertion = .insert (Text.lineStart source target) text ∧
        deletion.overlaps insertion = false ∧
        ∃ out, Edit.applyAll source edits = .ok out ∧
          Text.visible out = Text.visible
            (Text.relocate source (doc.movedSpan id) (Text.lineStart source target))) ∧
    (∀ error, doc.moveStatement id target = .error error →
      (doc.vacated (doc.movedSpan id)).start < Text.lineStart source target ∧
        Text.lineStart source target < (doc.vacated (doc.movedSpan id)).stop) := by
  obtain ⟨hdoc, rfl⟩ := build_exact hfile hbuild
  obtain ⟨hordered, hexact⟩ := movedSpan_spec hdoc id
  have holds := vacated_holds doc hexact
  refine ⟨slice_movedSpan hdoc id, holds, ?_, fun error => moveStatement_eq_error⟩
  intro edits h
  obtain ⟨indent, hindent, hplace, rfl⟩ := moveStatement_eq_ok h
  have hmoved : Text.visible (indent ++ Text.slice doc.source (doc.movedSpan id) ++ ['\n']) =
      Text.visible (Text.slice doc.source (doc.movedSpan id)) := by
    have hfeed : Text.visible ['\n'] = [] := by decide
    simp [Text.visible_of_allBlank hindent, hfeed]
  exact ⟨_, _, _, rfl, rfl, rfl, (Span.not_overlaps_iff _ _).mpr hplace,
    Edit.applyAll_delete_insert holds hordered hexact
      (Text.isBoundary_lineStart doc.source target) hplace hmoved⟩

/-- A comment, a statement below it, and its semicolon, after another statement. -/
def commentedText : Text := "x\n// é\n  y;\n".toList

def commentedFile : ParsedFile where
  tree :=
    .node ⟨"Program", ⟨0, 13⟩, []⟩
      [.node ⟨"ExpressionStatement", ⟨0, 1⟩, []⟩ [], .node ⟨"ExpressionStatement", ⟨10, 11⟩, []⟩ []]
  comments := [⟨⟨2, 7⟩, false⟩]

/-- The edits that move the second statement to the first line. -/
def commentedMove : List Edit := [.delete ⟨2, 13⟩, .insert 0 "// é\n  y;\n".toList]

theorem moveStatement_moves_commentedText :
    commentedFile.Exact commentedText ∧
      ∃ doc, build commentedText commentedFile true = .ok doc ∧
        doc.moveStatement 2 0 = .ok commentedMove ∧ doc.movedSpan 2 = ⟨2, 12⟩ ∧
        ∃ out, Edit.applyAll commentedText commentedMove = .ok out ∧
          Text.visible out = "//éy;x".toList := by
  have hfile : commentedFile.Exact commentedText := ⟨by decide +kernel, by decide⟩
  obtain ⟨doc, hbuild, htest⟩ : ∃ doc, build commentedText commentedFile true = .ok doc ∧
      ((doc.moveStatement 2 0).toOption == some commentedMove &&
        doc.movedSpan 2 == ⟨2, 12⟩) = true :=
    exists_build_of_any (by decide +kernel)
  simp only [Bool.and_eq_true, beq_iff_eq] at htest
  have hmove : doc.moveStatement 2 0 = .ok commentedMove := by
    cases hedits : doc.moveStatement 2 0 with
    | error error => simp [hedits, Except.toOption] at htest
    | ok edits => simpa [hedits, Except.toOption] using htest.1
  obtain ⟨_, _, hmoves, _⟩ := moveStatement_moves hfile hbuild 2 0
  obtain ⟨_, _, _, _, _, _, _, out, hout, hvisible⟩ := hmoves _ hmove
  refine ⟨hfile, doc, hbuild, hmove, htest.2, out, hout, ?_⟩
  rw [hvisible, htest.2]
  decide

end Document

end ScriptLint

import ScriptLint.Proofs.Edit.Splice
import ScriptLint.Proofs.Rule.Faithful
import ScriptLint.Proofs.Text.Lines

/-!
The line that `prefer-single-line` measures. The one-line form of a construct has no line feed, so it
stands on the line on which the construct began, and what followed the construct on the line where it
ended follows it there. The measure counts these three parts in the source; it is the length of that
line in the text with the form put in (`SingleLine.lineLength_is_real`). All other lines of that text
are lines of the source.
-/
namespace ScriptLint

namespace Text

/-- The text with a span of it replaced. -/
def replace (s : Text) (span : Span) (t : Text) : Text :=
  take span.start s ++ (t ++ drop span.stop s)

variable {s t : Text} {span : Span}

/-- A replacement without a line feed stands on one line with what is before it on the line where the
span starts and what is after it on the line where the span stops. -/
theorem lineAt_replace (hspan : isBoundary s span.start = true) (h : '\n' ∉ t) :
    lineAt (replace s span t) span.start =
      lastLine (take span.start s) ++ (t ++ firstLine (drop span.stop s)) := by
  have hfront : width (take span.start s) = span.start := width_take hspan
  have hcut : isBoundary (replace s span t) span.start = true :=
    (isBoundary_iff _ _).mpr ⟨_, _, rfl, hfront⟩
  have htake : take span.start (replace s span t) = take span.start s := by
    simpa [replace, hfront] using take_width_append (take span.start s) (t ++ drop span.stop s)
  have hdrop : drop span.start (replace s span t) = t ++ drop span.stop s := by
    simpa [replace, hfront] using drop_width_append (take span.start s) (t ++ drop span.stop s)
  rw [lineAt_eq hcut, htake, hdrop, firstLine_append_of_not_mem h]

/-- The other lines are lines of the text. -/
theorem mem_splitOn_replace (h : '\n' ∉ t) {line : Text}
    (hline : line ∈ (replace s span t).splitOn '\n') :
    line = lastLine (take span.start s) ++ (t ++ firstLine (drop span.stop s)) ∨
      line ∈ s.splitOn '\n' := by
  rw [replace, splitOn_append, splitOn_append_of_not_mem h, firstLine_append_of_not_mem h,
    List.mem_append, List.mem_cons, List.tail_cons] at hline
  rcases hline with hbefore | hmade | hafter
  · rw [← take_append_drop span.start s, splitOn_append]
    exact .inr (List.mem_append_left _ hbefore)
  · exact .inl hmade
  · rw [← take_append_drop span.stop s, splitOn_append]
    exact .inr (List.mem_append_right _ (List.mem_cons_of_mem _ hafter))

end Text

theorem Edit.applyAll_single {source : Text} {e : Edit} (fit : e.Fits source) :
    Edit.applyAll source [e] = .ok (Text.replace source e.span e.replacement) := by
  obtain ⟨out, hout⟩ : ∃ out, applyAll source [e] = .ok out := by
    apply exists_applyAll_eq_ok_iff.mpr
    simp [fit]
  rw [hout, applyAll_eq_ok hout]
  simp [sortBy, insertBy, splice, Text.slice_zero, Text.replace]

namespace SingleLine

variable {doc : Document} {id : NodeId} {collapsed : Text}

/-- The indentation and what follows it make up the line as far as the construct, so the measure
counts the characters of three parts of the source. -/
theorem lineLength_eq (hspan : (doc.span id).Exact doc.source) (collapsed : Text) :
    lineLength doc id collapsed =
      (Text.lastLine (Text.take (doc.span id).start doc.source)).length + collapsed.length +
        (Text.firstLine (Text.drop (doc.span id).stop doc.source)).length := by
  have hfront : (doc.indentOf id).length + (Text.slice doc.source (before doc id)).length =
      (Text.lastLine (Text.take (doc.span id).start doc.source)).length := by
    rw [← List.length_append, Document.indentOf, before, Document.indentOf,
      Text.indentAt_append_slice hspan.start, Text.slice_lineStart hspan.start]
  rw [lineLength, hfront, Document.lineBack, Text.slice_lineEnd hspan.stop]

/-- The measured length is the number of characters of the line of the construct's start in the text
with the one-line form put in for the construct. So a fix with a limit, applied alone, makes no line
longer than the limit: each longer line of the outcome was there before. -/
theorem lineLength_is_real {source : Text} {file : ParsedFile} {resolved : Bool}
    (hfile : file.Exact source) (hbuild : Document.build source file resolved = .ok doc)
    (id : NodeId) :
    (∀ collapsed, doc.collapse? id = some collapsed →
      ∃ out, Edit.applyAll source [⟨doc.span id, collapsed⟩] = .ok out ∧
        lineLength doc id collapsed = (Text.lineAt out (doc.span id).start).length) ∧
    ∀ (rule : SingleLine) (limit : Nat) (d : Diagnostic), rule.maxLineLength = some limit →
      rule.check doc id = some d → ∀ fix ∈ d.fixes, ∃ out, Edit.applyAll source fix.edits = .ok out ∧
        (Text.lineAt out (doc.span id).start).length ≤ limit ∧
        ∀ line ∈ out.splitOn '\n', line.length ≤ limit ∨ line ∈ source.splitOn '\n' := by
  obtain ⟨hdoc, rfl⟩ := Document.build_exact hfile hbuild
  have hstart := (hdoc.exact id).start
  have happly : ∀ collapsed, Edit.applyAll doc.source [⟨doc.span id, collapsed⟩] =
      .ok (Text.replace doc.source (doc.span id) collapsed) := by
    intro collapsed
    exact Edit.applyAll_single (Document.fits_of_exact (hdoc.ordered id) (hdoc.exact id) collapsed)
  constructor
  · intro collapsed h
    refine ⟨_, happly collapsed, ?_⟩
    rw [Text.lineAt_replace hstart (Document.feed_not_mem_collapse? h),
      lineLength_eq (hdoc.exact id), List.length_append, List.length_append, Nat.add_assoc]
  · intro rule limit d hlimit hcheck fix hfix
    obtain ⟨_, collapsed, hcollapsed, hfits, hedits⟩ := check_eq_some hcheck
    have hflat := Document.feed_not_mem_collapse? hcollapsed
    rw [fits, hlimit] at hfits
    simp only [lineLength_eq (hdoc.exact id), decide_eq_true_eq] at hfits
    rw [hedits fix hfix]
    refine ⟨_, happly collapsed, ?_, ?_⟩
    · rwa [Text.lineAt_replace hstart hflat, List.length_append, List.length_append,
        ← Nat.add_assoc]
    · intro line hline
      rcases Text.mem_splitOn_replace hflat hline with rfl | hold
      · rw [List.length_append, List.length_append, ← Nat.add_assoc]
        exact .inl hfits
      · exact .inr hold

/-- An object on three lines with text before and after it. -/
def spreadObject : Text := "ü=\x7b\n a:é\n\x7d+b".toList

def joinedObject : Text := "ü=\x7b a:é \x7d+b".toList

def objectFile : ParsedFile where
  tree :=
    .node ⟨"Program", ⟨0, 14⟩, [("body", .parts [⟨0, 14⟩])]⟩
      [.node ⟨"ExpressionStatement", ⟨0, 14⟩, [("expression", .part ⟨0, 14⟩)]⟩
        [.node ⟨"AssignmentExpression", ⟨0, 14⟩, [("left", .part ⟨0, 2⟩), ("right", .part ⟨3, 14⟩)]⟩
          [.node ⟨"IdentifierReference", ⟨0, 2⟩, []⟩ [],
            .node ⟨"BinaryExpression", ⟨3, 14⟩,
                [("left", .part ⟨3, 12⟩), ("right", .part ⟨13, 14⟩)]⟩
              [.node ⟨"ObjectExpression", ⟨3, 12⟩, [("properties", .parts [⟨6, 10⟩])]⟩
                [.node ⟨"ObjectProperty", ⟨6, 10⟩,
                    [("key", .part ⟨6, 7⟩), ("value", .part ⟨8, 10⟩)]⟩
                  [.node ⟨"IdentifierName", ⟨6, 7⟩, []⟩ [],
                    .node ⟨"IdentifierReference", ⟨8, 10⟩, []⟩ []]],
                .node ⟨"IdentifierReference", ⟨13, 14⟩, []⟩ []]]]]
  comments := []

theorem lineLength_is_real_spreadObject :
    objectFile.Exact spreadObject ∧
      ∃ doc d fix, Document.build spreadObject objectFile true = .ok doc ∧
        doc.collapse? 5 = some "\x7b a:é \x7d".toList ∧
        lineLength doc 5 "\x7b a:é \x7d".toList = 11 ∧ check ⟨some 11⟩ doc 5 = some d ∧
        fix ∈ d.fixes ∧ Edit.applyAll spreadObject fix.edits = .ok joinedObject ∧
        (Text.lineAt joinedObject (doc.span 5).start).length ≤ 11 := by
  have hfile : objectFile.Exact spreadObject := ⟨by decide +kernel, by decide⟩
  obtain ⟨doc, hbuild, htest⟩ : ∃ doc, Document.build spreadObject objectFile true = .ok doc ∧
      (doc.collapse? 5 == some "\x7b a:é \x7d".toList &&
        lineLength doc 5 "\x7b a:é \x7d".toList == 11 &&
        ((check ⟨some 11⟩ doc 5).map fun d => d.fixes.map fun fix =>
          (Edit.applyAll spreadObject fix.edits).toOption) == some [some joinedObject]) = true :=
    Document.exists_build_of_any (by decide +kernel)
  simp only [Bool.and_eq_true, beq_iff_eq, Option.map_eq_some_iff] at htest
  obtain ⟨⟨hcollapsed, hlength⟩, d, hcheck, hfixes⟩ := htest
  obtain ⟨fix, hfix, hout⟩ := List.mem_map.mp (hfixes ▸ List.mem_singleton_self (some joinedObject))
  obtain ⟨out, happly, hline, _⟩ :=
    (lineLength_is_real hfile hbuild 5).2 ⟨some 11⟩ 11 d rfl hcheck fix hfix
  rw [happly] at hout
  obtain rfl : out = joinedObject := Option.some.inj hout
  exact ⟨hfile, doc, d, fix, hbuild, hcollapsed, hlength, hcheck, hfix, happly, hline⟩

end SingleLine

end ScriptLint

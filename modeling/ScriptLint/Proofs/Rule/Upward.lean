import ScriptLint.Proofs.Lint.Independence
import ScriptLint.Proofs.Revision.Move
import ScriptLint.Proofs.Rule.Placement
import ScriptLint.Proofs.Text.Cells

/-!
The fix of `types-before-use` always moves upwards. A top-level statement ends in a character that is
no blank and stands in no comment. Above a declaration such a character of its first use is a barrier:
the walk back over comments does not pass it (`Document.CodeAt.lt_block_start`), and neither does what
is taken out around the declaration, which is blank up to the moved text. So the place where the
declaration is put in lies before all that is taken out, the move is never refused, and every
diagnostic has its fix (`TypesBeforeUse.fix_moves_up`).
-/
namespace ScriptLint

namespace Document

variable {doc : Document} {id : NodeId} {offset : Nat}

/-- The text of the node ends in a character that is no blank and stands in no comment. -/
def endsInCode (doc : Document) (id : NodeId) : Bool :=
  (doc.text id).getLast?.any fun c =>
    !Text.isBlank c && doc.tokens.toList.all fun t =>
      !(t.isComment && t.span.contains ((doc.span id).stop - c.utf8Size))

/-- A character that is no blank stands at the offset, and no comment covers it. -/
structure CodeAt (doc : Document) (offset : Nat) : Prop where
  visible : ∃ c, Text.StandsAt doc.source offset c ∧ Text.isBlank c = false
  outside : ∀ t ∈ doc.tokens.toList, t.isComment = true → t.span.contains offset = false

theorem exists_codeAt (hdoc : doc.Exact) (h : doc.endsInCode id = true) :
    ∃ offset, doc.CodeAt offset ∧ (doc.span id).start ≤ offset ∧ offset < (doc.span id).stop := by
  rw [endsInCode, Option.any_eq_true] at h
  obtain ⟨c, hlast, hc⟩ := h
  obtain ⟨front, htext⟩ := List.getLast?_eq_some_iff.mp hlast
  simp only [Bool.and_eq_true, Bool.not_eq_true', List.all_eq_true, Bool.and_eq_false_iff] at hc
  have hspan := hdoc.exact id
  have hordered := hdoc.ordered id
  have hsize := c.utf8Size_pos
  have hwidth : Text.width (doc.text id) = (doc.span id).stop - (doc.span id).start :=
    Text.width_slice hspan.start hspan.stop hordered
  have hdrop : doc.text id ++ Text.drop (doc.span id).stop doc.source =
      Text.drop (doc.span id).start doc.source :=
    Text.slice_append_drop hspan.start hordered
  rw [htext] at hwidth hdrop
  simp only [Text.width_append, Text.width_cons, Text.width_nil] at hwidth
  refine ⟨(doc.span id).stop - c.utf8Size, ⟨⟨c, ?_, hc.1⟩, ?_⟩, by omega, by omega⟩
  · refine ⟨Text.take (doc.span id).start doc.source ++ front,
      Text.drop (doc.span id).stop doc.source, ?_, ?_⟩
    · have hsource := Text.take_append_drop (doc.span id).start doc.source
      rw [← hdrop] at hsource
      simpa using hsource.symm
    · rw [Text.width_append, Text.width_take hspan.start]
      omega
  · intro t ht hcomment
    rcases hc.2 t ht with hno | hno
    · rw [hno] at hcomment
      cases hcomment
    · exact hno

namespace CodeAt

variable (hcode : doc.CodeAt offset)

include hcode

/-- Blanks that end after the character begin after it. -/
theorem lt_of_blank {m n : Nat} (hm : Text.isBoundary doc.source m = true)
    (hn : Text.isBoundary doc.source n = true)
    (hblank : Text.allBlank (Text.slice doc.source ⟨m, n⟩) = true) (hlt : offset < n) :
    offset < m := by
  obtain ⟨c, hstands, hc⟩ := hcode.visible
  apply Nat.lt_of_not_le
  intro hle
  have hmem := hstands.mem_slice hm hn hle hlt
  rw [Text.allBlank, List.all_eq_true] at hblank
  rw [hblank c hmem] at hc
  cases hc

/-- One step back over a comment does not pass the character. -/
theorem lt_start_of_leads {t : Token} {start : Nat} (ht : t ∈ doc.tokens.toList)
    (hspan : t.span.Exact doc.source) (hstart : Text.isBoundary doc.source start = true)
    (hlead : doc.Leads t start) (hlt : offset < start) : offset < t.span.start := by
  have hbefore := hcode.lt_of_blank hspan.stop hstart hlead.blank hlt
  have houtside := hcode.outside t ht hlead.comment
  simp only [Span.contains, Bool.and_eq_false_iff, decide_eq_false_iff_not] at houtside
  omega

theorem lt_block_start (hdoc : Token.Apart 0 doc.tokens.toList)
    (hcomments : ∀ t ∈ doc.tokens.toList, t.isComment = true → t.span.Exact doc.source)
    {start stop : Nat} {tokens : List Token} {text : Text}
    (hblock : doc.CommentBlock start stop tokens text)
    (hstop : Text.isBoundary doc.source stop = true) (hlt : offset < stop) : offset < start := by
  induction hblock with
  | empty => exact hlt
  | comment _ before leads ih =>
    obtain ⟨_, _, htokens, _⟩ := tokenBefore?_eq_some hdoc before
    have ht : _ ∈ doc.tokens.toList := htokens ▸ List.mem_append_right _ List.mem_cons_self
    have hspan := hcomments _ ht leads.comment
    exact ih hspan.start (hcode.lt_start_of_leads ht hspan hstop leads hlt)

/-- A character above a node is above all that is taken out when the node is moved. -/
theorem lt_vacated (hdoc : doc.Exact)
    (hcomments : ∀ t ∈ doc.tokens.toList, t.isComment = true → t.span.Exact doc.source)
    (hlt : offset < (doc.span id).start) : offset < (doc.vacated (doc.movedSpan id)).start := by
  obtain ⟨_, hmoved⟩ := movedSpan_spec hdoc id
  obtain ⟨_, hexact, hblank⟩ := vacated_start doc hmoved.start
  apply hcode.lt_of_blank hexact hmoved.start hblank
  have hstart := (statementSpan_spec hdoc id).1
  obtain ⟨⟨_, _, hblock⟩, _⟩ := exists_commentBlock hdoc.tokens_apart (doc.span id).start
  rw [movedSpan, hstart]
  exact hcode.lt_block_start hdoc.tokens_apart hcomments hblock (hdoc.exact id).start hlt

end CodeAt

/-- A move to a line that starts before all that is taken out is not refused. -/
theorem exists_moveStatement {target : Nat}
    (h : Text.lineStart doc.source target ≤ (doc.vacated (doc.movedSpan id)).start) :
    ∃ edits, doc.moveStatement id target = .ok edits := by
  cases hmove : doc.moveStatement id target with
  | ok edits => exact ⟨edits, rfl⟩
  | error error =>
    have hinside := (moveStatement_eq_error hmove).1
    omega

end Document

namespace TypesBeforeUse

open Document

variable {doc : Document} {id : NodeId}

theorem context_of_mem_selectors : ∀ pattern ∈ selectors,
    (Selector.compile pattern).toOption.map (·.context) =
      some [(.child, ⟨some "Program", []⟩)] := by
  decide +kernel

theorem kind_eq_program {kind : NodeKind} (h : kind.typeName = "Program") : kind = .program := by
  have hall : ∀ k ∈ NodeKind.all, k.typeName = "Program" → k = .program := by decide +kernel
  exact hall kind kind.mem_all h

/-- The nodes that the rule is asked about have the program for a parent. -/
theorem exists_parent_of_selects (h : Rule.typesBeforeUse.selects doc id = true) :
    ∃ p, doc.parent id = some p ∧ doc.kind p = .program := by
  obtain ⟨pattern, hpattern, hselects⟩ := List.any_eq_true.mp h
  rw [Option.any_eq_true] at hselects
  obtain ⟨selector, hcompile, haccepts⟩ := hselects
  have hcontext := context_of_mem_selectors pattern hpattern
  rw [hcompile, Option.map_some, Option.some.injEq] at hcontext
  rw [Selector.accepts, Bool.and_eq_true, hcontext, Selector.contextAccepts] at haccepts
  cases hparent : doc.parent id with
  | none => simp [hparent] at haccepts
  | some p =>
    refine ⟨p, rfl, kind_eq_program ?_⟩
    simpa [hparent, Compound.accepts, Selector.contextAccepts] using haccepts.2

/-- The statements that stand at the top: under the root, where first uses are looked for, or under
a program, where declarations are. -/
def topLevel (doc : Document) : List NodeId :=
  doc.ids.filter fun s => (doc.parent s).any fun p => p == root || doc.kind p == .program

theorem mem_topLevel {p : NodeId} (hparent : doc.parent id = some p)
    (hp : p = root ∨ doc.kind p = .program) : id ∈ topLevel doc := by
  have hsize := lt_size_of_parent hparent
  simp only [topLevel, ids, List.mem_filter, List.mem_range, hparent, Option.any_some,
    Bool.or_eq_true, beq_iff_eq]
  exact ⟨hsize, hp⟩

/-- The first use ends before the declaration starts. -/
theorem stop_le_of_firstUse (hdoc : doc.Exact) {first : NodeId}
    (hapart : (topLevel doc).Pairwise fun a b => (doc.span a).overlaps (doc.span b) = false)
    (hid : id ∈ topLevel doc) (hfirst : first ∈ topLevel doc)
    (habove : (doc.span first).start < (doc.span id).start) :
    (doc.span first).stop ≤ (doc.span id).start := by
  have hordered := hdoc.ordered id
  have hne : first ≠ id := by
    intro heq
    rw [heq] at habove
    omega
  have hsymm : Std.Symm fun a b => (doc.span a).overlaps (doc.span b) = false := by
    constructor
    intro a b hab
    rwa [Span.overlaps_comm]
  have hclear := hapart.forall hfirst hid hne
  rw [Span.not_overlaps_iff] at hclear
  omega

/-- Everything the rule reports has a fix, which takes the declaration out and puts it in no further
down than where it is taken out. It is asked that top-level statements end in code and do not overlap,
and that the spans of nodes and comments cut no character; as a token has at least one byte, the file
does not give that for a comment without text. -/
theorem fix_moves_up {source : Text} {file : ParsedFile} {resolved : Bool} {d : Diagnostic}
    (hfile : file.Exact source) (hbuild : build source file resolved = .ok doc)
    (hcomments : ∀ t ∈ doc.tokens.toList, t.isComment = true → t.span.Exact source)
    (hcode : ∀ s ∈ topLevel doc, doc.endsInCode s = true)
    (hapart : (topLevel doc).Pairwise fun a b => (doc.span a).overlaps (doc.span b) = false)
    (hd : d ∈ Rule.typesBeforeUse.reports doc) :
    ∃ id ∈ topLevel doc, check doc id = some d ∧
      ∃ fix place text, d.fixes = [fix] ∧
        fix.edits = [.delete (doc.vacated (doc.movedSpan id)), .insert place text] ∧
        (doc.vacated (doc.movedSpan id)).Holds source (doc.movedSpan id) ∧
        place ≤ (doc.vacated (doc.movedSpan id)).start := by
  have hwell := build_wellFormed hbuild
  obtain ⟨hdoc, rfl⟩ := build_exact hfile hbuild
  obtain ⟨id, hselected, hcheck⟩ := List.mem_filterMap.mp hd
  obtain ⟨p, hparent, hkind⟩ := exists_parent_of_selects (List.mem_filter.mp hselected).2
  have hid := mem_topLevel hparent (.inr hkind)
  obtain ⟨_, binding, first, _, hfirst, _, hfixes⟩ := exists_of_check hcheck
  have huse := firstUse?_eq_some hwell hfirst
  have htop := mem_topLevel (hwell.mem_children_iff.mp huse.topLevel) (.inl rfl)
  -- the last character of the first use lies between the two places
  obtain ⟨offset, hoffset, hstart, hstop⟩ := exists_codeAt hdoc (hcode first htop)
  have hbelow := stop_le_of_firstUse hdoc hapart hid htop huse.above
  have hhole : offset < (doc.vacated (doc.movedSpan id)).start :=
    hoffset.lt_vacated hdoc hcomments (by omega)
  have hplace := landing_le hdoc first
  have hup : landing doc first ≤ (doc.vacated (doc.movedSpan id)).start := by omega
  obtain ⟨fix, hfix⟩ : ∃ fix, fix? doc id first binding = some fix := by
    obtain ⟨edits, hmove⟩ := exists_moveStatement hup
    rw [fix?, hmove]
    exact ⟨_, rfl⟩
  obtain ⟨indent, _, _, hedits⟩ := moveStatement_eq_ok (edits_of_fix? hfix)
  refine ⟨id, hid, hcheck, fix, landing doc first, _, ?_, hedits,
    vacated_holds doc (movedSpan_spec hdoc id).2, hup⟩
  rw [hfixes, hfix, Option.toList_some]

/-- A variable with a type, and on the last lines the declaration of the type below a comment. -/
def describedText : Text := "let t: T;\n// é\ntype T = 1;".toList

def describedFile : ParsedFile where
  tree :=
    .node ⟨"Program", ⟨0, 27⟩, [("body", .parts [⟨0, 9⟩, ⟨16, 27⟩])]⟩
      [.node ⟨"VariableDeclaration", ⟨0, 9⟩, [("declarations", .parts [⟨4, 8⟩])]⟩
        [.node ⟨"VariableDeclarator", ⟨4, 8⟩, [("id", .part ⟨4, 5⟩)]⟩
          [.node ⟨"BindingIdentifier", ⟨4, 5⟩, [("symbol", .symbol 0)]⟩ [],
            .node ⟨"TSTypeAnnotation", ⟨5, 8⟩, [("type_annotation", .part ⟨7, 8⟩)]⟩
              [.node ⟨"TSTypeReference", ⟨7, 8⟩, [("type_name", .part ⟨7, 8⟩)]⟩
                [.node ⟨"IdentifierReference", ⟨7, 8⟩, [("symbol", .symbol 1)]⟩ []]]]],
        .node ⟨"TSTypeAliasDeclaration", ⟨16, 27⟩,
            [("id", .part ⟨21, 22⟩), ("type_annotation", .part ⟨25, 26⟩)]⟩
          [.node ⟨"BindingIdentifier", ⟨21, 22⟩, [("symbol", .symbol 1)]⟩ [],
            .node ⟨"TSLiteralType", ⟨25, 26⟩, []⟩ [.node ⟨"NumericLiteral", ⟨25, 26⟩, []⟩ []]]]
  comments := [⟨⟨10, 15⟩, false⟩]

/-- The comment goes along, and on the last line the line feed before it is taken out too. -/
theorem fix_moves_up_describedText :
    describedFile.Exact describedText ∧
      ∃ doc d, build describedText describedFile true = .ok doc ∧
        (∀ t ∈ doc.tokens.toList, t.isComment = true → t.span.Exact describedText) ∧
        (∀ s ∈ topLevel doc, doc.endsInCode s = true) ∧
        (topLevel doc).Pairwise (fun a b => (doc.span a).overlaps (doc.span b) = false) ∧
        d ∈ Rule.typesBeforeUse.reports doc ∧
        ∃ fix place text, d.fixes = [fix] ∧
          fix.edits = [.delete ⟨9, 27⟩, .insert place text] ∧ place ≤ 9 := by
  have hfile : describedFile.Exact describedText := ⟨by decide +kernel, by decide⟩
  obtain ⟨doc, hbuild, htest⟩ : ∃ doc, build describedText describedFile true = .ok doc ∧
      (decide (∀ t ∈ doc.tokens.toList, t.isComment = true → t.span.Exact describedText) &&
        decide (∀ s ∈ topLevel doc, doc.endsInCode s = true) &&
        decide ((topLevel doc).Pairwise fun a b => (doc.span a).overlaps (doc.span b) = false) &&
        (Rule.typesBeforeUse.reports doc).map (fun d => d.fixes.map (·.edits)) ==
          [[[.delete ⟨9, 27⟩, .insert 0 "// é\ntype T = 1;\n".toList]]]) = true :=
    exists_build_of_any (by decide +kernel)
  simp only [Bool.and_eq_true, beq_iff_eq, decide_eq_true_eq] at htest
  obtain ⟨⟨⟨hcomments, hcode⟩, hapart⟩, hreports⟩ := htest
  obtain ⟨d, hd, hedits⟩ := List.mem_map.mp (hreports ▸ List.mem_singleton_self _)
  obtain ⟨id, _, _, fix, place, text, hfix, hparts, _, hup⟩ :=
    fix_moves_up hfile hbuild hcomments hcode hapart hd
  have hhole : doc.vacated (doc.movedSpan id) = ⟨9, 27⟩ := by
    rw [hfix, List.map_singleton, hparts] at hedits
    simp only [Edit.delete, Edit.insert, List.cons.injEq, Edit.mk.injEq] at hedits
    exact hedits.1.1.1
  rw [hhole] at hparts hup
  exact ⟨hfile, doc, d, hbuild, hcomments, hcode, hapart, hd, fix, place, text, hfix, hparts, hup⟩

end TypesBeforeUse

end ScriptLint

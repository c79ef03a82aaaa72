import ScriptLint.Proofs.Revision.Relocate
import ScriptLint.Proofs.Rule.Checks
import ScriptLint.Proofs.Tree.Walks

/-!
Where `types-before-use` puts a declaration: at the start of the line on which its first use, with the
comments that lead to it, begins. That is below every statement that ends on an earlier line
(`TypesBeforeUse.fix_placement`). A statement that ends on the same line is not kept clear of, and the
declaration can land in the middle of it (`TypesBeforeUse.fix_lands_inside_statement`).
-/
namespace ScriptLint

theorem eq_nil_of_leastBy?_eq_none {α : Type} {key : α → Nat} {xs : List α}
    (h : leastBy? key xs = none) : xs = [] := by
  cases xs with
  | nil => rfl
  | cons x rest =>
    rw [leastBy?] at h
    split at h
    · split at h <;> cases h
    · cases h

theorem leastBy?_eq_some {α : Type} {key : α → Nat} {xs : List α} {a : α}
    (h : leastBy? key xs = some a) : a ∈ xs ∧ ∀ b ∈ xs, key a ≤ key b := by
  fun_induction leastBy? key xs generalizing a with
  | case1 => cases h
  | case2 x rest b hrest hlt ih =>
    obtain rfl := Option.some.inj h
    obtain ⟨hmem, hle⟩ := ih hrest
    exact ⟨List.mem_cons_of_mem x hmem, List.forall_mem_cons.mpr ⟨by omega, hle⟩⟩
  | case3 x rest b hrest hge ih =>
    obtain rfl := Option.some.inj h
    obtain ⟨_, hle⟩ := ih hrest
    have hrest_le : ∀ c ∈ rest, key x ≤ key c := by
      intro c hc
      have := hle c hc
      omega
    exact ⟨List.mem_cons_self, List.forall_mem_cons.mpr ⟨Nat.le_refl _, hrest_le⟩⟩
  | case4 x rest hrest ih =>
    obtain rfl := Option.some.inj h
    obtain rfl := eq_nil_of_leastBy?_eq_none hrest
    simp

/-- Of two statements apart from each other, the one that starts earlier ends before the other
starts. -/
theorem Document.Exact.stop_le_start {doc : Document} (hdoc : doc.Exact) {ids : List NodeId}
    {a b : NodeId} (hapart : ids.Pairwise fun a b => (doc.span a).stop ≤ (doc.span b).start)
    (ha : a ∈ ids) (hb : b ∈ ids) (hlt : (doc.span a).start < (doc.span b).start) :
    (doc.span a).stop ≤ (doc.span b).start := by
  obtain ⟨i, hi, rfl⟩ := List.getElem_of_mem ha
  obtain ⟨j, hj, rfl⟩ := List.getElem_of_mem hb
  have hordered := hdoc.ordered ids[j]
  have hpairs := List.pairwise_iff_getElem.mp hapart
  by_cases hij : i < j
  · exact hpairs i j hi hj hij
  · by_cases hji : j < i
    · have := hpairs j i hj hi hji
      omega
    · obtain rfl : i = j := by omega
      omega

namespace TypesBeforeUse

open Document

variable {doc : Document} {id : NodeId}

theorem topLevelStatement?_eq_some_iff (hdoc : doc.WellFormed) {s : NodeId} :
    topLevelStatement? doc id = some s ↔ s ∈ doc.children root ∧ doc.Within id s := by
  rw [hdoc.mem_children_iff, topLevelStatement?]
  constructor
  · intro h
    exact ⟨by simpa using List.find?_some h, hdoc.mem_ancestors_iff.mp (List.mem_of_find?_eq_some h)⟩
  · intro h
    obtain ⟨hs, hwithin⟩ := h
    cases hfind : (doc.ancestors id).find? fun a => doc.parent a = some root with
    | none =>
      have hnot := List.find?_eq_none.mp hfind s (hdoc.mem_ancestors_iff.mpr hwithin)
      simp [hs] at hnot
    | some a =>
      have ha : doc.parent a = some root := by simpa using List.find?_some hfind
      have hwithin' := hdoc.mem_ancestors_iff.mp (List.mem_of_find?_eq_some hfind)
      rw [hdoc.child_unique ha hs hwithin' hwithin]

/-- The statement has a read of the binding in it. -/
def Reads (doc : Document) (binding : Binding) (s : NodeId) : Prop :=
  ∃ r ∈ binding.references, doc.Within r.identifier s

/-- A top-level statement above the declaration is the first one that reads what it binds. -/
structure IsFirstUse (doc : Document) (id : NodeId) (binding : Binding) (first : NodeId) : Prop where
  topLevel : first ∈ doc.children root
  above : (doc.span first).start < (doc.span id).start
  reads : Reads doc binding first
  least : ∀ s ∈ doc.children root, Reads doc binding s →
    (doc.span first).start ≤ (doc.span s).start

theorem firstUse?_eq_some (hdoc : doc.WellFormed) {binding : Binding} {first : NodeId}
    (h : firstUse? doc id binding = some first) : IsFirstUse doc id binding first := by
  obtain ⟨hmem, hleast⟩ := leastBy?_eq_some h
  simp only [List.mem_filter, List.mem_filterMap, decide_eq_true_eq,
    topLevelStatement?_eq_some_iff hdoc] at hmem hleast
  obtain ⟨⟨r, hr, htop, hwithin⟩, habove⟩ := hmem
  refine ⟨htop, habove, ⟨r, hr, hwithin⟩, ?_⟩
  intro s hs hreads
  obtain ⟨r', hr', hwithin'⟩ := hreads
  by_cases hlt : (doc.span s).start < (doc.span id).start
  · exact hleast s ⟨⟨r', hr', hs, hwithin'⟩, hlt⟩
  · omega

/-- Where a declaration lands: at the start of the line on which its first use begins, or the first
of the comments that lead to it. -/
def landing (doc : Document) (first : NodeId) : Nat :=
  Text.lineStart doc.source (doc.leadingCommentStart (doc.span first).start)

theorem landing_le (hdoc : doc.Exact) (first : NodeId) :
    landing doc first ≤ (doc.span first).start := by
  have hline := Text.lineStart_le doc.source (doc.leadingCommentStart (doc.span first).start)
  have hlead := (leadingCommentStart_spec hdoc (hdoc.exact first).start).1
  exact Nat.le_trans hline hlead

/-- A statement ends above the landing exactly if it ends on an earlier line. -/
theorem stop_le_landing_iff (hdoc : doc.Exact) (s first : NodeId) :
    (doc.span s).stop ≤ landing doc first ↔
      (doc.span s).stop = landing doc first ∨
        '\n' ∈ Text.slice doc.source
          ⟨(doc.span s).stop, doc.leadingCommentStart (doc.span first).start⟩ :=
  Text.le_lineStart_iff (hdoc.exact s).stop
    (leadingCommentStart_spec hdoc (hdoc.exact first).start).2

/-- The fix takes the declaration out and puts it in at the start of the line on which its first use
begins. Statements from the first use on start there or later. Statements above the first use end
before it, and they end above the insertion exactly if they end on an earlier line. -/
theorem fix_placement {source : Text} {file : ParsedFile} {resolved : Bool} {d : Diagnostic}
    {fix : Fix} (hfile : file.Exact source) (hbuild : build source file resolved = .ok doc)
    (hapart : (doc.children root).Pairwise fun a b => (doc.span a).stop ≤ (doc.span b).start)
    (hcheck : check doc id = some d) (hfix : fix ∈ d.fixes) :
    ∃ binding first indent, doc.binding? id = some binding ∧ IsFirstUse doc id binding first ∧
      d.labels = [⟨doc.span first, "first used here"⟩] ∧ Text.allBlank indent = true ∧
      fix.edits = [.delete (doc.vacated (doc.movedSpan id)),
        .insert (landing doc first) (indent ++ Text.slice source (doc.movedSpan id) ++ ['\n'])] ∧
      ∀ s ∈ doc.children root,
        ((doc.span first).start ≤ (doc.span s).start →
          landing doc first ≤ (doc.span s).start) ∧
        ((doc.span s).start < (doc.span first).start →
          (doc.span s).stop ≤ (doc.span first).start ∧
          ((doc.span s).stop ≤ landing doc first ↔
            (doc.span s).stop = landing doc first ∨
              '\n' ∈ Text.slice source
                ⟨(doc.span s).stop, doc.leadingCommentStart (doc.span first).start⟩)) := by
  have hwell := build_wellFormed hbuild
  obtain ⟨hdoc, rfl⟩ := build_exact hfile hbuild
  obtain ⟨_, binding, first, hbinding, hfirst, hlabels, hmove⟩ := check_eq_some hcheck
  obtain ⟨indent, hindent, _, hedits⟩ := moveStatement_eq_ok (hmove fix hfix)
  have huse := firstUse?_eq_some hwell hfirst
  refine ⟨binding, first, indent, hbinding, huse, hlabels, hindent, hedits, ?_⟩
  intro s hs
  constructor
  · intro hle
    exact Nat.le_trans (landing_le hdoc first) hle
  · intro hlt
    exact ⟨hdoc.stop_le_start hapart hs huse.topLevel hlt, stop_le_landing_iff hdoc s first⟩

/-- An assignment, a variable with a type, and below them the declaration of the type. -/
def aliasFile : ParsedFile where
  tree :=
    .node ⟨"Program", ⟨0, 30⟩, [("body", .parts [⟨0, 8⟩, ⟨9, 18⟩, ⟨19, 30⟩])]⟩
      [.node ⟨"ExpressionStatement", ⟨0, 8⟩, [("expression", .part ⟨0, 7⟩)]⟩
        [.node ⟨"AssignmentExpression", ⟨0, 7⟩, [("left", .part ⟨0, 1⟩), ("right", .part ⟨4, 7⟩)]⟩
          [.node ⟨"IdentifierReference", ⟨0, 1⟩, []⟩ [],
            .node ⟨"ArrayExpression", ⟨4, 7⟩, [("elements", .parts [])]⟩ []]],
        .node ⟨"VariableDeclaration", ⟨9, 18⟩, [("declarations", .parts [⟨13, 17⟩])]⟩
          [.node ⟨"VariableDeclarator", ⟨13, 17⟩, [("id", .part ⟨13, 14⟩)]⟩
            [.node ⟨"BindingIdentifier", ⟨13, 14⟩, [("symbol", .symbol 0)]⟩ [],
              .node ⟨"TSTypeAnnotation", ⟨14, 17⟩, [("type_annotation", .part ⟨16, 17⟩)]⟩
                [.node ⟨"TSTypeReference", ⟨16, 17⟩, [("type_name", .part ⟨16, 17⟩)]⟩
                  [.node ⟨"IdentifierReference", ⟨16, 17⟩, [("symbol", .symbol 1)]⟩ []]]]],
        .node ⟨"TSTypeAliasDeclaration", ⟨19, 30⟩,
            [("id", .part ⟨24, 25⟩), ("type_annotation", .part ⟨28, 29⟩)]⟩
          [.node ⟨"BindingIdentifier", ⟨24, 25⟩, [("symbol", .symbol 1)]⟩ [],
            .node ⟨"TSLiteralType", ⟨28, 29⟩, []⟩ [.node ⟨"NumericLiteral", ⟨28, 29⟩, []⟩ []]]]
  comments := []

/-- The variable stands on a line of its own. -/
def ownLineText : Text := "x = [ ];\nlet t: T;\ntype T = 1;".toList

/-- The variable stands on the line on which the assignment ends. -/
def sharedLineText : Text := "x = [\n]; let t: T;\ntype T = 1;".toList

/-- What the rule offers for the declaration in these texts, as a test on documents. -/
def offers (offset : Nat) (doc : Document) : Bool :=
  doc.children root == [1, 5, 11] && doc.span 1 == ⟨0, 8⟩ && doc.span 5 == ⟨9, 18⟩ &&
    doc.span 11 == ⟨19, 30⟩ &&
    ((check doc 11).map fun d => (d.labels, d.fixes.map (·.edits))) ==
      some ([⟨⟨9, 18⟩, "first used here"⟩],
        [[.delete ⟨18, 30⟩, .insert offset "type T = 1;\n".toList]])

/-- The top-level statements stand apart, the variable is the first use, and the fix puts the
declaration in at the offset. -/
theorem exists_offer {source : Text} {offset : Nat}
    (h : (build source aliasFile true).toOption.any (offers offset) = true) :
    ∃ doc d fix, build source aliasFile true = .ok doc ∧
      (doc.children root).Pairwise (fun a b => (doc.span a).stop ≤ (doc.span b).start) ∧
      1 ∈ doc.children root ∧ doc.span 1 = ⟨0, 8⟩ ∧ check doc 11 = some d ∧ fix ∈ d.fixes ∧
      d.labels = [⟨⟨9, 18⟩, "first used here"⟩] ∧
      fix.edits = [.delete ⟨18, 30⟩, .insert offset "type T = 1;\n".toList] := by
  obtain ⟨doc, hbuild, htest⟩ := exists_build_of_any h
  simp only [offers, Bool.and_eq_true, beq_iff_eq, Option.map_eq_some_iff, Prod.mk.injEq] at htest
  obtain ⟨⟨⟨⟨hchildren, hassign⟩, hvariable⟩, halias⟩, d, hcheck, hlabels, hedits⟩ := htest
  obtain ⟨fix, hfix, hfixEdits⟩ := List.mem_map.mp (hedits ▸ List.mem_singleton_self _)
  refine ⟨doc, d, fix, hbuild, ?_, ?_, hassign, hcheck, hfix, hlabels, hfixEdits⟩
  · simp [hchildren, hassign, hvariable, halias]
  · simp [hchildren]

theorem fix_placement_ownLineText :
    aliasFile.Exact ownLineText ∧
      ∃ doc d fix, build ownLineText aliasFile true = .ok doc ∧
        (doc.children root).Pairwise (fun a b => (doc.span a).stop ≤ (doc.span b).start) ∧
        check doc 11 = some d ∧ fix ∈ d.fixes ∧
        fix.edits = [.delete ⟨18, 30⟩, .insert 9 "type T = 1;\n".toList] ∧
        1 ∈ doc.children root ∧ doc.span 1 = ⟨0, 8⟩ ∧
        '\n' ∈ Text.slice ownLineText ⟨8, doc.leadingCommentStart 9⟩ := by
  have hfile : aliasFile.Exact ownLineText := ⟨by decide +kernel, by decide⟩
  have htest : (build ownLineText aliasFile true).toOption.any (offers 9) = true := by
    decide +kernel
  obtain ⟨doc, d, fix, hbuild, hapart, hmem, hassign, hcheck, hfix, hlabels, hedits⟩ :=
    exists_offer htest
  obtain ⟨_, first, _, _, _, hlabels', _, hedits', hplace⟩ :=
    fix_placement hfile hbuild hapart hcheck hfix
  have hfirst : doc.span first = ⟨9, 18⟩ := by simpa [hlabels'] using hlabels
  have hlanding : landing doc first = 9 := by
    have hsame := hedits'.symm.trans hedits
    simp only [Edit.insert, List.cons.injEq, Edit.mk.injEq, Span.mk.injEq] at hsame
    exact hsame.2.1.1.1
  obtain ⟨_, habove⟩ := hplace 1 hmem
  rw [hassign, hfirst, hlanding] at habove
  have hfeed := (habove (by decide)).2.mp (by decide)
  exact ⟨hfile, doc, d, fix, hbuild, hapart, hcheck, hfix, hedits, hmem, hassign,
    hfeed.resolve_left (by decide)⟩

/-- The declaration lands inside the assignment, which starts above the first use and ends on its
line. -/
theorem fix_lands_inside_statement :
    aliasFile.Exact sharedLineText ∧
      ∃ doc d fix, build sharedLineText aliasFile true = .ok doc ∧
        (doc.children root).Pairwise (fun a b => (doc.span a).stop ≤ (doc.span b).start) ∧
        check doc 11 = some d ∧ fix ∈ d.fixes ∧ d.labels = [⟨⟨9, 18⟩, "first used here"⟩] ∧
        fix.edits = [.delete ⟨18, 30⟩, .insert 6 "type T = 1;\n".toList] ∧
        1 ∈ doc.children root ∧ (doc.span 1).start < 6 ∧ 6 < (doc.span 1).stop ∧
        (doc.span 1).stop ≤ 9 := by
  have hfile : aliasFile.Exact sharedLineText := ⟨by decide +kernel, by decide⟩
  have htest : (build sharedLineText aliasFile true).toOption.any (offers 6) = true := by
    decide +kernel
  obtain ⟨doc, d, fix, hbuild, hapart, hmem, hassign, hcheck, hfix, hlabels, hedits⟩ :=
    exists_offer htest
  refine ⟨hfile, doc, d, fix, hbuild, hapart, hcheck, hfix, hlabels, hedits, hmem, ?_⟩
  simp [hassign]

end TypesBeforeUse

end ScriptLint

import Mathlib.Data.List.Forall2
import ScriptLint.Proofs.Revision.Collapse

/-!
The members of a construct on its one line. They stand there in the order of the children and as
they are in the source but for what they end in, and around them stand blanks and delimiters only
(`Document.collapse?_changes_layout`). The statements of a block are joined by a blank: a statement is
parted from the next one exactly if its own text closes it (`Document.collapse?_parts_statements_iff`),
and statements that a line feed alone kept apart run together
(`Document.collapse?_joins_statements`).
-/
namespace ScriptLint

namespace Text

/-- The parts stand in the text one after another, and around them blanks and delimiters only. -/
inductive InOrder : List Text → Text → Prop
  | nil {gap : Text} (hgap : code gap = []) : InOrder [] gap
  | cons {gap part rest : Text} {parts : List Text} (hgap : code gap = []) (h : InOrder parts rest) :
      InOrder (part :: parts) (gap ++ (part ++ rest))

namespace InOrder

variable {parts : List Text} {s gap : Text}

theorem first (part : Text) (h : InOrder parts s) : InOrder (part :: parts) (part ++ s) :=
  .cons (show code [] = [] from rfl) h

theorem prepend (hgap : code gap = []) (h : InOrder parts s) : InOrder parts (gap ++ s) := by
  cases h with
  | nil hlast => exact .nil (by simp [hgap, hlast])
  | cons hfirst hrest =>
    rw [← List.append_assoc]
    exact .cons (by simp [hgap, hfirst]) hrest

theorem append (h : InOrder parts s) (hgap : code gap = []) : InOrder parts (s ++ gap) := by
  induction h with
  | nil hlast => exact .nil (by simp [hgap, hlast])
  | cons hfirst _ ih =>
    rw [List.append_assoc, List.append_assoc]
    exact .cons hfirst ih

end InOrder

theorem inOrder_intercalate {separator : Text} (h : code separator = []) (parts : List Text) :
    InOrder parts (separator.intercalate parts) := by
  induction parts with
  | nil => exact .nil rfl
  | cons part rest ih =>
    cases rest with
    | nil => simpa using (InOrder.nil (show code [] = [] from rfl)).first part
    | cons next more =>
      rw [List.intercalate_cons_cons, List.append_assoc]
      exact (ih.prepend h).first part

/-- The last character that is no blank closes a statement: it is a semicolon or a brace. -/
def endsStatement (s : Text) : Bool :=
  (visible s).getLast?.any fun c => c == ';' || c == '}'

theorem head?_trimStart (s : Text) : (trimStart s).head? = (visible s).head? := by
  induction s with
  | nil => rfl
  | cons c s ih =>
    by_cases hc : isBlank c = true
    · simpa [trimStart, visible, hc] using ih
    · simp [trimStart, visible, hc]

theorem getLast?_trimEnd (s : Text) : (trimEnd s).getLast? = (visible s).getLast? := by
  calc (trimEnd s).getLast?
      = (trimStart s.reverse).head? := List.getLast?_reverse
    _ = (visible s).getLast? := by
        rw [head?_trimStart, visible, List.filter_reverse, List.head?_reverse, visible]

end Text

namespace MemberStyle

/-- The members in braces, with the separator between them. -/
def written (style : MemberStyle) (members : List Text) : Text :=
  if members.isEmpty then ['{', '}']
  else ['{', ' '] ++ style.separator.toList.intercalate members ++ [' ', '}']

theorem exists_inOrder_written {style : MemberStyle} (h : Text.code style.separator.toList = [])
    (members : List Text) :
    ∃ inner, style.written members = '{' :: inner ++ ['}'] ∧ Text.InOrder members inner := by
  have hblank : Text.code [' '] = [] := by decide
  have hjoined := Text.inOrder_intercalate h members
  by_cases hempty : members = []
  · subst hempty
    exact ⟨[], rfl, .nil rfl⟩
  · refine ⟨[' '] ++ (style.separator.toList.intercalate members ++ [' ']), ?_, ?_⟩
    · simp [written, hempty]
    · exact (hjoined.append hblank).prepend hblank

/-- Before the next member begins, the member is closed: by what it ends in itself, a semicolon or a
brace, or by a semicolon of the separator. -/
def closes (style : MemberStyle) (member : Text) : Bool :=
  member.getLast? == some ';' || member.getLast? == some '}' ||
    style.separator.toList.contains ';'

theorem ofKind?_of_block {kind : NodeKind} (h : kind = .blockStatement ∨ kind = .functionBody) :
    ofKind? kind = some ⟨" ", false⟩ := by
  rcases h with rfl | rfl <;> rfl

/-- A blank closes nothing, so a statement of a block has to end itself. -/
theorem closes_trimEnd (member : Text) :
    closes ⟨" ", false⟩ (Text.trimEnd member) = Text.endsStatement member := by
  have hblank : (" ".toList.contains ';') = false := by decide
  rw [closes, hblank, Bool.or_false, Text.getLast?_trimEnd, Text.endsStatement]
  cases (Text.visible member).getLast? with
  | none => rfl
  | some c => simp

end MemberStyle

namespace Document

variable {doc : Document} {id : NodeId} {collapsed : Text}

/-- A construct is written with the texts of its children, trimmed at the end. -/
theorem collapse?_eq_written (h : doc.collapse? id = some collapsed) :
    ∃ style, MemberStyle.ofKind? (doc.kind id) = some style ∧
      collapsed = style.written ((doc.children id).map fun child => style.trim (doc.text child)) := by
  obtain ⟨style, members, hstyle, _, _, hmembers, hcollapsed⟩ := collapse?_eq_some h
  obtain ⟨rfl, _⟩ := collapseMembers?_eq_some hmembers
  refine ⟨style, hstyle, ?_⟩
  rcases hcollapsed with ⟨hempty, rfl⟩ | ⟨hmore, rfl⟩
  · rw [hempty]
    rfl
  · rw [MemberStyle.written, if_neg (by simpa using hmore)]

/-- The text of the child is the piece and, after it, blanks and delimiters only. -/
def IsPiece (doc : Document) (child : NodeId) (piece : Text) : Prop :=
  ∃ tail, doc.text child = piece ++ tail ∧ Text.code tail = []

/-- Writing a construct on one line changes its layout only. There is no line feed and there are
braces around it; without blanks and delimiters it is what the construct is; and between the braces
stand the texts of the children in their order, each of them whole but for blanks and delimiters at its
end, and no other code. -/
theorem collapse?_changes_layout {source : Text} {file : ParsedFile} {resolved : Bool}
    (hfile : file.Exact source) (hbuild : build source file resolved = .ok doc)
    (h : doc.collapse? id = some collapsed) :
    '\n' ∉ collapsed ∧ Text.code collapsed = Text.code (doc.text id) ∧
      ∃ inner pieces, collapsed = '{' :: inner ++ ['}'] ∧ Text.InOrder pieces inner ∧
        List.Forall₂ doc.IsPiece (doc.children id) pieces := by
  obtain ⟨hdoc, _⟩ := build_exact hfile hbuild
  refine ⟨feed_not_mem_collapse? h, code_collapse? hdoc h, ?_⟩
  obtain ⟨style, hstyle, rfl⟩ := collapse?_eq_written h
  obtain ⟨inner, hinner, horder⟩ :=
    MemberStyle.exists_inOrder_written (MemberStyle.code_separator hstyle) _
  refine ⟨inner, _, hinner, horder, ?_⟩
  rw [List.forall₂_map_right_iff, List.forall₂_same]
  intro child _
  exact style.exists_trim_append (doc.text child)

/-- A type with two members, of which the first ends in a semicolon. -/
def memberText : Text := "type T=\x7b\n a:é;\n b\n\x7d".toList

def memberFile : ParsedFile where
  tree :=
    .node ⟨"Program", ⟨0, 20⟩, [("body", .parts [⟨0, 20⟩])]⟩
      [.node ⟨"TSTypeAliasDeclaration", ⟨0, 20⟩,
          [("id", .part ⟨5, 6⟩), ("type_annotation", .part ⟨7, 20⟩)]⟩
        [.node ⟨"BindingIdentifier", ⟨5, 6⟩, [("symbol", .symbol 0)]⟩ [],
          .node ⟨"TSTypeLiteral", ⟨7, 20⟩, [("members", .parts [⟨10, 15⟩, ⟨17, 18⟩])]⟩
            [.node ⟨"TSPropertySignature", ⟨10, 15⟩,
                [("key", .part ⟨10, 11⟩), ("type_annotation", .part ⟨11, 14⟩)]⟩
              [.node ⟨"IdentifierName", ⟨10, 11⟩, []⟩ [],
                .node ⟨"TSTypeAnnotation", ⟨11, 14⟩, [("type_annotation", .part ⟨12, 14⟩)]⟩
                  [.node ⟨"TSTypeReference", ⟨12, 14⟩, [("type_name", .part ⟨12, 14⟩)]⟩
                    [.node ⟨"IdentifierReference", ⟨12, 14⟩, []⟩ []]]],
              .node ⟨"TSPropertySignature", ⟨17, 18⟩, [("key", .part ⟨17, 18⟩)]⟩
                [.node ⟨"IdentifierName", ⟨17, 18⟩, []⟩ []]]]]
  comments := []

theorem collapse?_changes_layout_memberText :
    memberFile.Exact memberText ∧
      ∃ doc, build memberText memberFile true = .ok doc ∧
        doc.collapse? 3 = some "\x7b a:é; b \x7d".toList ∧ doc.children 3 = [4, 9] ∧
        ∃ inner pieces, "\x7b a:é; b \x7d".toList = '{' :: inner ++ ['}'] ∧
          Text.InOrder pieces inner ∧ List.Forall₂ doc.IsPiece [4, 9] pieces := by
  have hfile : memberFile.Exact memberText := ⟨by decide +kernel, by decide⟩
  obtain ⟨doc, hbuild, htest⟩ : ∃ doc, build memberText memberFile true = .ok doc ∧
      (doc.collapse? 3 == some "\x7b a:é; b \x7d".toList && doc.children 3 == [4, 9]) = true :=
    exists_build_of_any (by decide +kernel)
  simp only [Bool.and_eq_true, beq_iff_eq] at htest
  obtain ⟨_, _, inner, pieces, hinner, horder, hpieces⟩ :=
    collapse?_changes_layout hfile hbuild htest.1
  rw [htest.2] at hpieces
  exact ⟨hfile, doc, hbuild, htest.1, htest.2, inner, pieces, hinner, horder, hpieces⟩

/-- How a block is written on one line: its statements without blanks at their ends and one blank
between them. So a statement is closed before the next one begins exactly if it ends, blanks aside, in
a semicolon or a brace of its own. -/
theorem collapse?_parts_statements_iff
    (hkind : doc.kind id = .blockStatement ∨ doc.kind id = .functionBody)
    (h : doc.collapse? id = some collapsed) :
    ∃ style, MemberStyle.ofKind? (doc.kind id) = some style ∧ style.separator = " " ∧
      collapsed = style.written ((doc.children id).map fun child => Text.trimEnd (doc.text child)) ∧
      ∀ child ∈ (doc.children id).dropLast,
        style.closes (Text.trimEnd (doc.text child)) = true ↔
          Text.endsStatement (doc.text child) = true := by
  obtain ⟨style, hstyle, hcollapsed⟩ := collapse?_eq_written h
  have hblank := MemberStyle.ofKind?_of_block hkind
  obtain rfl : ⟨" ", false⟩ = style := Option.some.inj (hblank.symm.trans hstyle)
  refine ⟨_, hstyle, rfl, hcollapsed, ?_⟩
  intro child _
  rw [MemberStyle.closes_trimEnd]

/-- A block of two statements on lines of their own, the first so many bytes long. -/
def blockFile (length : Nat) : ParsedFile where
  tree :=
    .node ⟨"Program", ⟨0, length + 8⟩, [("body", .parts [⟨0, length + 8⟩])]⟩
      [.node ⟨"BlockStatement", ⟨0, length + 8⟩,
          [("body", .parts [⟨3, length + 3⟩, ⟨length + 5, length + 6⟩])]⟩
        [.node ⟨"ExpressionStatement", ⟨3, length + 3⟩, [("expression", .part ⟨3, 4⟩)]⟩
          [.node ⟨"IdentifierReference", ⟨3, 4⟩, []⟩ []],
          .node ⟨"ExpressionStatement", ⟨length + 5, length + 6⟩,
              [("expression", .part ⟨length + 5, length + 6⟩)]⟩
            [.node ⟨"IdentifierReference", ⟨length + 5, length + 6⟩, []⟩ []]]]
  comments := []

def closedBlock : Text := "\x7b\n a;\n b\n\x7d".toList

/-- The statements are kept apart by a line feed alone. -/
def openBlock : Text := "\x7b\n a\n b\n\x7d".toList

theorem collapse?_parts_statements_iff_closedBlock :
    ∃ doc, build closedBlock (blockFile 2) true = .ok doc ∧ doc.kind 1 = .blockStatement ∧
      doc.collapse? 1 = some "\x7b a; b \x7d".toList ∧ 2 ∈ (doc.children 1).dropLast ∧
      ∃ style, MemberStyle.ofKind? (doc.kind 1) = some style ∧
        style.closes (Text.trimEnd (doc.text 2)) = true := by
  obtain ⟨doc, hbuild, htest⟩ : ∃ doc, build closedBlock (blockFile 2) true = .ok doc ∧
      (doc.kind 1 == .blockStatement && doc.collapse? 1 == some "\x7b a; b \x7d".toList &&
        (doc.children 1).dropLast == [2] && Text.endsStatement (doc.text 2)) = true :=
    exists_build_of_any (by decide +kernel)
  simp only [Bool.and_eq_true, beq_iff_eq] at htest
  obtain ⟨⟨⟨hkind, hcollapsed⟩, hchildren⟩, hends⟩ := htest
  have hmem : 2 ∈ (doc.children 1).dropLast := by simp [hchildren]
  obtain ⟨style, hstyle, _, _, hcloses⟩ := collapse?_parts_statements_iff (.inl hkind) hcollapsed
  exact ⟨doc, hbuild, hkind, hcollapsed, hmem, style, hstyle, (hcloses 2 hmem).mpr hends⟩

/-- Two statements of a block run together: nothing closes the first before the second begins. -/
theorem collapse?_joins_statements :
    (blockFile 1).Exact openBlock ∧
      ∃ doc, build openBlock (blockFile 1) true = .ok doc ∧ doc.kind 1 = .blockStatement ∧
        doc.children 1 = [2, 4] ∧ doc.text 2 = ['a'] ∧ doc.text 4 = ['b'] ∧
        doc.collapse? 1 = some "\x7b a b \x7d".toList ∧ ';' ∉ "\x7b a b \x7d".toList ∧
        ∀ style, MemberStyle.ofKind? (doc.kind 1) = some style →
          style.closes (Text.trimEnd (doc.text 2)) = false := by
  obtain ⟨doc, hbuild, htest⟩ : ∃ doc, build openBlock (blockFile 1) true = .ok doc ∧
      (doc.kind 1 == .blockStatement && doc.children 1 == [2, 4] && doc.text 2 == ['a'] &&
        doc.text 4 == ['b'] && doc.collapse? 1 == some "\x7b a b \x7d".toList) = true :=
    exists_build_of_any (by decide +kernel)
  simp only [Bool.and_eq_true, beq_iff_eq] at htest
  obtain ⟨⟨⟨⟨hkind, hchildren⟩, hfirst⟩, hsecond⟩, hcollapsed⟩ := htest
  refine ⟨⟨by decide +kernel, by decide⟩, doc, hbuild, hkind, hchildren, hfirst, hsecond, hcollapsed,
    by decide, ?_⟩
  intro style hstyle
  have hblank := MemberStyle.ofKind?_of_block (.inl hkind)
  obtain rfl : ⟨" ", false⟩ = style := Option.some.inj (hblank.symm.trans hstyle)
  rw [MemberStyle.closes_trimEnd, hfirst]
  decide

end Document

end ScriptLint

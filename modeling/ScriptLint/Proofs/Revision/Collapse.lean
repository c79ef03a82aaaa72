import Mathlib.Data.Option.Basic
import ScriptLint.Proofs.Text.Code
import ScriptLint.Proofs.Tree.Exact

/-!
A construct written on one line has the code of the construct: the same characters in the same
order, but for blanks and delimiters (`Document.code_collapse?`). The members and the gaps between
them make up all that stands between the braces; gaps hold no code, and a member loses none when
its end is trimmed. It is indeed one line (`Document.feed_not_mem_collapse?`).
-/
namespace ScriptLint

namespace Text

/-- A text in braces is the opening brace, what stands between, and the closing brace. -/
theorem eq_of_isBraced {s : Text} (h : isBraced s = true) : ∃ inner, s = '{' :: inner ++ ['}'] := by
  simp only [isBraced, Bool.and_eq_true, beq_iff_eq, decide_eq_true_eq] at h
  obtain ⟨⟨hhead, hlast⟩, hwidth⟩ := h
  obtain ⟨rest, rfl⟩ := List.head?_eq_some_iff.mp hhead
  obtain ⟨front, hfront⟩ := List.getLast?_eq_some_iff.mp hlast
  cases front with
  | nil => simp at hfront
  | cons c front =>
    obtain ⟨rfl, rfl⟩ := List.cons.inj hfront
    exact ⟨front, rfl⟩

theorem not_mem_intercalate {c : Char} {separator : Text} {parts : List Text}
    (hseparator : c ∉ separator) (hparts : ∀ part ∈ parts, c ∉ part) :
    c ∉ separator.intercalate parts := by
  induction parts with
  | nil => simp [List.intercalate]
  | cons part rest ih =>
    obtain ⟨hpart, hrest⟩ := List.forall_mem_cons.mp hparts
    cases rest with
    | nil => simpa [List.intercalate] using hpart
    | cons next more =>
      rw [List.intercalate_cons_cons, List.mem_append, List.mem_append]
      rintro ((hmem | hmem) | hmem)
      · exact hpart hmem
      · exact hseparator hmem
      · exact ih hrest hmem

end Text

namespace MemberStyle

/-- A member loses blanks and delimiters at its end and nothing else. -/
theorem exists_trim_append (style : MemberStyle) (member : Text) :
    ∃ tail, member = style.trim member ++ tail ∧ Text.code tail = [] := by
  have hblank : ∀ c, Text.isBlank c = true → (Text.isBlank c || isDelimiter c) = true := by
    intro c hc
    rw [hc, Bool.true_or]
  have hdelimiter : ∀ c, isDelimiter c = true → (Text.isBlank c || isDelimiter c) = true := by
    intro c hc
    rw [hc, Bool.or_true]
  by_cases hstrips : style.stripsDelimiters = true
  · obtain ⟨delimiters, hmember, hcode⟩ := Text.exists_dropEndWhile_append hdelimiter member
    obtain ⟨blanks, hkept, hcode'⟩ :=
      Text.exists_dropEndWhile_append hblank (Text.dropEndWhile isDelimiter member)
    refine ⟨blanks ++ delimiters, ?_, by rw [Text.code_append, hcode, hcode', List.append_nil]⟩
    rw [trim, if_pos hstrips, Text.trimEnd, ← List.append_assoc, ← hkept, ← hmember]
  · rw [trim, if_neg hstrips]
    exact Text.exists_dropEndWhile_append hblank member

theorem code_trim (style : MemberStyle) (member : Text) :
    Text.code (style.trim member) = Text.code member := by
  obtain ⟨tail, hmember, hcode⟩ := style.exists_trim_append member
  calc Text.code (style.trim member)
      = Text.code (style.trim member) ++ Text.code tail := by rw [hcode, List.append_nil]
    _ = Text.code member := by rw [← Text.code_append, ← hmember]

theorem mem_of_mem_trim {style : MemberStyle} {member : Text} {c : Char}
    (h : c ∈ style.trim member) : c ∈ member := by
  obtain ⟨tail, hmember, _⟩ := style.exists_trim_append member
  rw [hmember]
  exact List.mem_append_left tail h

theorem feed_not_mem_separator {kind : NodeKind} {style : MemberStyle}
    (h : ofKind? kind = some style) : '\n' ∉ style.separator.toList := by
  unfold ofKind? at h
  split at h <;> cases h <;> decide

theorem code_separator {kind : NodeKind} {style : MemberStyle} (h : ofKind? kind = some style) :
    Text.code style.separator.toList = [] := by
  unfold ofKind? at h
  split at h <;> cases h <;> decide

end MemberStyle

namespace Document

variable {doc : Document}

theorem isFiller_eq_true {span : Span} (h : doc.isFiller span = true) :
    span.start ≤ span.stop ∧ Text.isBoundary doc.source span.start = true ∧
      Text.isBoundary doc.source span.stop = true ∧ Text.code (Text.slice doc.source span) = [] := by
  rw [isFiller] at h
  split at h
  · rename_i gap hgap
    rw [Text.slice?] at hgap
    split at hgap
    · rename_i hcut
      cases hgap
      exact ⟨hcut.1, hcut.2.1, hcut.2.2, Text.code_eq_nil_iff.mpr h⟩
    · cases hgap
  · cases h

/-- Between the cursor and the closing brace stand the members and no other code. -/
theorem code_collapseMembers? (hdoc : doc.Exact) {style : MemberStyle} {stop cursor : Nat}
    {ids : List NodeId} {members : List Text}
    (h : doc.collapseMembers? style stop cursor ids = some members) :
    cursor ≤ stop ∧
      members.flatMap Text.code = Text.code (Text.slice doc.source ⟨cursor, stop⟩) := by
  induction ids generalizing cursor members with
  | nil =>
    rw [collapseMembers?] at h
    split at h
    · rename_i hfiller
      cases h
      obtain ⟨hle, _, _, hcode⟩ := isFiller_eq_true hfiller
      exact ⟨hle, by rw [hcode]; rfl⟩
    · cases h
  | cons id rest ih =>
    rw [collapseMembers?] at h
    split at h
    · rename_i hcheck
      obtain ⟨later, hlater, rfl⟩ := Option.map_eq_some_iff.mp h
      obtain ⟨hrest, hcode⟩ := ih hlater
      simp only [Bool.and_eq_true] at hcheck
      obtain ⟨hgap, hcursor, hstart, hblank⟩ := isFiller_eq_true hcheck.1
      have hordered := hdoc.ordered id
      have hspan := hdoc.exact id
      -- gap, member and remainder are the three parts of what stands from the cursor on
      have hparts : Text.slice doc.source ⟨cursor, (doc.span id).start⟩ ++ (doc.text id ++
          Text.slice doc.source ⟨(doc.span id).stop, stop⟩) =
          Text.slice doc.source ⟨cursor, stop⟩ := by
        have htext : doc.text id =
            Text.slice doc.source ⟨(doc.span id).start, (doc.span id).stop⟩ := rfl
        rw [htext, Text.slice_append_slice hspan.start hspan.stop hordered hrest,
          Text.slice_append_slice hcursor hspan.start hgap (by omega)]
      refine ⟨by simp only at hgap; omega, ?_⟩
      rw [← hparts, Text.code_append, Text.code_append, hblank, List.flatMap_cons,
        MemberStyle.code_trim, hcode, List.nil_append]
    · cases h

/-- All that it takes for a construct to be written on one line, and how it is written. -/
theorem collapse?_eq_some {id : NodeId} {collapsed : Text} (h : doc.collapse? id = some collapsed) :
    ∃ style members, MemberStyle.ofKind? (doc.kind id) = some style ∧
      doc.hasComments id = false ∧ Text.isBraced (doc.text id) = true ∧
      doc.collapseMembers? style ((doc.span id).stop - 1) ((doc.span id).start + 1)
        (doc.children id) = some members ∧
      (members = [] ∧ collapsed = ['{', '}'] ∨
        members ≠ [] ∧ collapsed =
          ['{', ' '] ++ style.separator.toList.intercalate members ++ [' ', '}']) := by
  simp only [collapse?, Option.bind_eq_bind, Option.bind_eq_some_iff] at h
  obtain ⟨style, hstyle, _, hguard, members, hmembers, hcollapsed⟩ := h
  simp only [Option.guard_eq_some', Bool.and_eq_true, Bool.not_eq_true'] at hguard
  refine ⟨style, members, hstyle, hguard.1, hguard.2, hmembers, ?_⟩
  cases members with
  | nil => exact .inl ⟨rfl, (Option.some.inj hcollapsed).symm⟩
  | cons member rest => exact .inr ⟨List.cons_ne_nil _ _, (Option.some.inj hcollapsed).symm⟩

/-- The members are the texts of the children, trimmed at the end, and none of them has a line
feed. -/
theorem collapseMembers?_eq_some {style : MemberStyle} {stop cursor : Nat} {ids : List NodeId}
    {members : List Text} (h : doc.collapseMembers? style stop cursor ids = some members) :
    members = ids.map (fun id => style.trim (doc.text id)) ∧ ∀ id ∈ ids, '\n' ∉ doc.text id := by
  induction ids generalizing cursor members with
  | nil =>
    rw [collapseMembers?] at h
    split at h
    · cases h
      simp
    · cases h
  | cons id rest ih =>
    rw [collapseMembers?] at h
    split at h
    · rename_i hcheck
      obtain ⟨later, hlater, rfl⟩ := Option.map_eq_some_iff.mp h
      obtain ⟨rfl, hflat⟩ := ih hlater
      simp only [Bool.and_eq_true, Bool.not_eq_true', List.contains_eq_mem,
        decide_eq_false_iff_not] at hcheck
      exact ⟨rfl, List.forall_mem_cons.mpr ⟨hcheck.2, hflat⟩⟩
    · cases h

/-- What a construct is written as has no line feed in it. -/
theorem feed_not_mem_collapse? {id : NodeId} {collapsed : Text}
    (h : doc.collapse? id = some collapsed) : '\n' ∉ collapsed := by
  obtain ⟨style, members, hstyle, _, _, hmembers, hcollapsed⟩ := collapse?_eq_some h
  have hseparator := MemberStyle.feed_not_mem_separator hstyle
  obtain ⟨rfl, hflat⟩ := collapseMembers?_eq_some hmembers
  rcases hcollapsed with ⟨_, rfl⟩ | ⟨_, rfl⟩
  · decide
  · have hjoin : '\n' ∉ style.separator.toList.intercalate
        ((doc.children id).map fun child => style.trim (doc.text child)) := by
      apply Text.not_mem_intercalate hseparator
      intro member hmember hfeed
      obtain ⟨child, hchild, rfl⟩ := List.mem_map.mp hmember
      exact hflat child hchild (MemberStyle.mem_of_mem_trim hfeed)
    simp [hjoin]

/-- What stands between the braces of a construct is the span without its first and its last
byte. -/
theorem slice_inside_braces (hdoc : doc.Exact) {id : NodeId} {inner : Text}
    (h : doc.text id = '{' :: inner ++ ['}']) :
    Text.slice doc.source ⟨(doc.span id).start + 1, (doc.span id).stop - 1⟩ = inner := by
  have hspan := hdoc.exact id
  have hdrop : doc.text id ++ Text.drop (doc.span id).stop doc.source =
      Text.drop (doc.span id).start doc.source :=
    Text.slice_append_drop hspan.start (hdoc.ordered id)
  have hwidth : Text.width (doc.text id) = (doc.span id).stop - (doc.span id).start :=
    Text.width_slice hspan.start hspan.stop (hdoc.ordered id)
  rw [h] at hdrop hwidth
  have hopen : Text.drop (doc.span id).start doc.source =
      ['{'] ++ (inner ++ ('}' :: Text.drop (doc.span id).stop doc.source)) := by
    rw [← hdrop]
    simp
  have hbrace : '{'.utf8Size = 1 ∧ '}'.utf8Size = 1 := ⟨rfl, rfl⟩
  simp only [Text.width_append, Text.width_cons, Text.width_nil, hbrace] at hwidth
  have hinner := Text.slice_of_drop (Text.drop_add hspan.start hopen)
  have hstart : (doc.span id).start + Text.width ['{'] = (doc.span id).start + 1 := rfl
  have hstop : (doc.span id).start + 1 + Text.width inner = (doc.span id).stop - 1 := by omega
  rwa [hstart, hstop] at hinner

/-- Writing a construct on one line keeps its code, in order. -/
theorem code_collapse? (hdoc : doc.Exact) {id : NodeId} {collapsed : Text}
    (h : doc.collapse? id = some collapsed) : Text.code collapsed = Text.code (doc.text id) := by
  obtain ⟨style, members, hstyle, _, hbraced, hmembers, hcollapsed⟩ := collapse?_eq_some h
  obtain ⟨inner, hinner⟩ := Text.eq_of_isBraced hbraced
  obtain ⟨_, hcode⟩ := code_collapseMembers? hdoc hmembers
  rw [slice_inside_braces hdoc hinner] at hcode
  have htext : Text.code (doc.text id) = ['{'] ++ members.flatMap Text.code ++ ['}'] := by
    rw [hinner, hcode, ← List.singleton_append, Text.code_append, Text.code_append]
    rfl
  rw [htext]
  rcases hcollapsed with ⟨rfl, rfl⟩ | ⟨_, rfl⟩
  · rfl
  · rw [Text.code_append, Text.code_append, Text.code_intercalate (MemberStyle.code_separator hstyle)]
    rfl

end Document

end ScriptLint

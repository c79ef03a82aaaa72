import ScriptLint.Proofs.Tree.Spans

/-!
The innermost node around an offset. The way down from a node goes into the first child that contains
the offset, for as long as there is one (`Document.DescendsTo`). Children have greater ids than their
parents, so the way ends and the bound on its steps is never felt (`WellFormed.descendsTo_innermost`).
A node that contains the offset is contained in turn by all nodes above it; where siblings share no
offset, the way down therefore never leaves the subtrees in which such a node lies
(`exists_stepInto?`), and it ends below all of them (`DescendsTo.within`).
-/
namespace ScriptLint

namespace Span

/-- No offset lies in both spans. An empty span is disjoint from every span. -/
def Disjoint (s t : Span) : Prop :=
  ∀ offset, ¬ (s.contains offset = true ∧ t.contains offset = true)

theorem contains_iff {s : Span} {offset : Nat} :
    s.contains offset = true ↔ s.start ≤ offset ∧ offset < s.stop := by
  simp [contains]

theorem disjoint_iff {s t : Span} :
    s.Disjoint t ↔ min s.stop t.stop ≤ max s.start t.start := by
  simp only [Disjoint, contains_iff]
  constructor
  · intro h
    have := h (max s.start t.start)
    omega
  · intro h offset
    omega

instance (s t : Span) : Decidable (s.Disjoint t) := decidable_of_iff _ disjoint_iff.symm

theorem Disjoint.symm {s t : Span} (h : s.Disjoint t) : t.Disjoint s :=
  fun offset hboth => h offset hboth.symm

theorem contains_of_covers {s t : Span} {offset : Nat} (h : s.covers t = true)
    (ht : t.contains offset = true) : s.contains offset = true := by
  simp only [covers, Bool.and_eq_true, decide_eq_true_eq] at h
  rw [contains_iff] at ht ⊢
  omega

end Span

namespace Document

/-- The children of a node have disjoint spans, whichever two are taken. -/
def SiblingsApart (doc : Document) : Prop :=
  ∀ p ∈ doc.ids, (doc.children p).Pairwise fun a b => (doc.span a).Disjoint (doc.span b)

instance (doc : Document) : Decidable doc.SiblingsApart :=
  inferInstanceAs (Decidable (∀ p ∈ doc.ids,
    (doc.children p).Pairwise fun a b => (doc.span a).Disjoint (doc.span b)))

/-- The first child that contains the offset. -/
def stepInto? (doc : Document) (offset : Nat) (id : NodeId) : Option NodeId :=
  (doc.children id).find? fun child => (doc.span child).contains offset

/-- The way down from a node ends at another one, in any number of steps. -/
inductive DescendsTo (doc : Document) (offset : Nat) : (id last : NodeId) → Prop
  | stay {id : NodeId} (hnone : doc.stepInto? offset id = none) : DescendsTo doc offset id id
  | down {id child last : NodeId} (hstep : doc.stepInto? offset id = some child)
      (hrest : DescendsTo doc offset child last) : DescendsTo doc offset id last

variable {doc : Document} {offset : Nat} {id a last : Nat}

theorem innermost_succ (doc : Document) (offset fuel : Nat) (id : NodeId) :
    doc.innermost offset (fuel + 1) id =
      match doc.stepInto? offset id with
      | some child => doc.innermost offset fuel child
      | none => id := rfl

theorem contains_of_stepInto? {child : Nat} (h : doc.stepInto? offset id = some child) :
    (doc.span child).contains offset = true := by
  rw [stepInto?] at h
  simpa using List.find?_some h

theorem DescendsTo.unique {last' : Nat} (h : doc.DescendsTo offset id last)
    (h' : doc.DescendsTo offset id last') : last = last' := by
  induction h with
  | stay hnone =>
    cases h' with
    | stay => rfl
    | down hstep' => cases hnone.symm.trans hstep'
  | down hstep _ ih =>
    cases h' with
    | stay hnone' => cases hnone'.symm.trans hstep
    | down hstep' hrest' =>
      cases Option.some.inj (hstep.symm.trans hstep')
      exact ih hrest'

/-- The way down stays among nodes that contain the offset. -/
theorem DescendsTo.contains (h : doc.DescendsTo offset id last)
    (hid : (doc.span id).contains offset = true) : (doc.span last).contains offset = true := by
  induction h with
  | stay => exact hid
  | down hstep _ ih => exact ih (contains_of_stepInto? hstep)

/-- Only nodes of the document contain an offset. -/
theorem lt_size_of_contains (h : (doc.span id).contains offset = true) : id < doc.size := by
  refine Nat.lt_of_not_le fun hle => ?_
  rw [span, node_eq_absent hle, Span.contains_iff] at h
  exact Nat.not_lt_zero _ h.2

namespace WellFormed

variable (hdoc : doc.WellFormed)

include hdoc

theorem parent_of_stepInto? {child : Nat} (h : doc.stepInto? offset id = some child) :
    doc.parent child = some id :=
  hdoc.mem_children_iff.mp (List.mem_of_find?_eq_some h)

/-- With as many steps as there are ids after the node, the walk gets to the end of the way. -/
theorem descendsTo_innermost {fuel : Nat} (hfuel : doc.size ≤ id + fuel) :
    doc.DescendsTo offset id (doc.innermost offset fuel id) := by
  induction fuel generalizing id with
  | zero =>
    have hchildren : doc.children id = [] := (node_of_size_le hfuel).2
    exact .stay (by rw [stepInto?, hchildren, List.find?_nil])
  | succ fuel ih =>
    rw [innermost_succ]
    cases hstep : doc.stepInto? offset id with
    | none => exact .stay hstep
    | some child =>
      have hlt := hdoc.parent_lt (hdoc.parent_of_stepInto? hstep)
      exact .down hstep (ih (by omega))

/-- The way down leads into the subtree of the node where it begins. -/
theorem within_of_descendsTo (h : doc.DescendsTo offset id last) : doc.Within last id := by
  induction h with
  | stay => exact .refl
  | down hstep _ ih => exact .head (hdoc.parent_of_stepInto? hstep) ih

theorem within_root (hid : id < doc.size) : doc.Within id root := by
  have hroot : root < doc.size := Nat.lt_of_le_of_lt (Nat.zero_le id) hid
  rw [Within, ← hdoc.mem_descendants_iff hroot, hdoc.descendants_root, ids, List.mem_range]
  exact hid

/-- Of the children of a node, one at most contains the offset. -/
theorem child_eq_of_contains (hapart : doc.SiblingsApart) {p b : Nat} (ha : doc.parent a = some p)
    (hb : doc.parent b = some p) (haspan : (doc.span a).contains offset = true)
    (hbspan : (doc.span b).contains offset = true) : a = b := by
  have hsymm : Std.Symm fun a b => (doc.span a).Disjoint (doc.span b) := ⟨fun _ _ h => h.symm⟩
  have hp : p ∈ doc.ids :=
    List.mem_range.mpr (Nat.lt_trans (hdoc.parent_lt ha) (lt_size_of_parent ha))
  refine Decidable.byContradiction fun hne => ?_
  have hdisjoint := (hapart p hp).forall (hdoc.mem_children_iff.mpr ha)
    (hdoc.mem_children_iff.mpr hb) hne
  exact hdisjoint offset ⟨haspan, hbspan⟩

end WellFormed

variable (hdoc : doc.WellFormed) (hnested : doc.Nested) (hapart : doc.SiblingsApart)

include hdoc hnested hapart

/-- Above a node that contains the offset, the next step down is towards it. -/
theorem exists_stepInto? (ha : (doc.span a).contains offset = true) (hwithin : doc.Within a id)
    (hne : a ≠ id) : ∃ child, doc.stepInto? offset id = some child ∧ doc.Within a child := by
  -- the child on the way to `a` contains the offset, so a child is found, and it can be no other
  obtain heq | ⟨c, hc, hac⟩ := Relation.ReflTransGen.cases_head hwithin
  · exact absurd heq.symm hne
  have hcspan := Span.contains_of_covers (hnested.covers_of_within hac) ha
  have hfound : (doc.stepInto? offset id).isSome = true :=
    List.find?_isSome.mpr ⟨c, hdoc.mem_children_iff.mpr hc, hcspan⟩
  obtain ⟨child, hchild⟩ := Option.isSome_iff_exists.mp hfound
  have heq := hdoc.child_eq_of_contains hapart hc (hdoc.parent_of_stepInto? hchild) hcspan
    (contains_of_stepInto? hchild)
  exact ⟨child, hchild, heq ▸ hac⟩

/-- The way down ends in the subtree of every node that contains the offset and lies below the
beginning of the way. -/
theorem DescendsTo.within (h : doc.DescendsTo offset id last)
    (ha : (doc.span a).contains offset = true) (hwithin : doc.Within a id) :
    doc.Within last a := by
  induction h with
  | @stay id hnone =>
    by_cases heq : a = id
    · subst heq
      exact .refl
    · obtain ⟨child, hchild, _⟩ := exists_stepInto? hdoc hnested hapart ha hwithin heq
      cases hnone.symm.trans hchild
  | @down id child last hstep hrest ih =>
    by_cases heq : a = id
    · subst heq
      exact hdoc.within_of_descendsTo (.down hstep hrest)
    · obtain ⟨child', hchild, hac⟩ := exists_stepInto? hdoc hnested hapart ha hwithin heq
      cases Option.some.inj (hstep.symm.trans hchild)
      exact ih hac

omit hdoc hnested hapart

/-- In a document whose siblings share no offset, nothing is found exactly at an offset that the root
does not contain. At any other one the way down from the root has an end, and the node found is that
end: it contains the offset and lies in the subtree of every node that does. -/
theorem node_found_is_innermost {source : Text} {file : ParsedFile} {resolved : Bool}
    (h : build source file resolved = .ok doc) (hapart : doc.SiblingsApart) (offset : Nat) :
    (doc.nodeAt? offset = none ↔ (doc.span root).contains offset = false) ∧
    ((doc.span root).contains offset = true →
      ∃ id, (∀ last, doc.DescendsTo offset root last ↔ last = id) ∧
        doc.nodeAt? offset = some id ∧ (doc.span id).contains offset = true ∧
        ∀ a, (doc.span a).contains offset = true → doc.Within id a) := by
  have hdoc := build_wellFormed h
  constructor
  · simp [nodeAt?]
  · intro hroot
    have hdown : doc.DescendsTo offset root (doc.innermost offset doc.size root) :=
      hdoc.descendsTo_innermost (Nat.le_add_left doc.size root)
    refine ⟨_, ?_, if_pos hroot, hdown.contains hroot, ?_⟩
    · intro last
      constructor
      · exact fun hlast => hlast.unique hdown
      · rintro rfl
        exact hdown
    · intro a ha
      exact hdown.within hdoc (build_nested h) hapart ha (hdoc.within_root (lt_size_of_contains ha))

/-- `f(a); b`, where the second statement is no longer than the name in it. -/
def callFile : ParsedFile where
  tree :=
    .node ⟨"Program", ⟨0, 7⟩, [("body", .parts [⟨0, 5⟩, ⟨6, 7⟩])]⟩
      [.node ⟨"ExpressionStatement", ⟨0, 5⟩, [("expression", .part ⟨0, 4⟩)]⟩
        [.node ⟨"CallExpression", ⟨0, 4⟩, [("callee", .part ⟨0, 1⟩), ("arguments", .parts [⟨2, 3⟩])]⟩
          [.node ⟨"IdentifierReference", ⟨0, 1⟩, []⟩ [],
            .node ⟨"IdentifierReference", ⟨2, 3⟩, []⟩ []]],
        .node ⟨"ExpressionStatement", ⟨6, 7⟩, [("expression", .part ⟨6, 7⟩)]⟩
          [.node ⟨"IdentifierReference", ⟨6, 7⟩, []⟩ []]]
  comments := []

/-- At the closing parenthesis that is the call, at the last character the name and not the statement
of the same span, and past the end nothing. -/
theorem node_found_is_innermost_callFile :
    ∃ doc, build "f(a); b".toList callFile true = .ok doc ∧ doc.SiblingsApart ∧
      doc.nodeAt? 7 = none ∧
      doc.nodeAt? 3 = some 2 ∧ (∀ a, (doc.span a).contains 3 = true → doc.Within 2 a) ∧
      doc.nodeAt? 6 = some 6 ∧ doc.span 5 = doc.span 6 ∧ doc.Within 6 5 := by
  obtain ⟨doc, hbuild, htest⟩ : ∃ doc, build "f(a); b".toList callFile true = .ok doc ∧
      (decide doc.SiblingsApart && doc.span root == ⟨0, 7⟩ && doc.span 5 == ⟨6, 7⟩ &&
        doc.span 6 == ⟨6, 7⟩ && doc.nodeAt? 3 == some 2 && doc.nodeAt? 6 == some 6) = true :=
    exists_build_of_any (by decide +kernel)
  simp only [Bool.and_eq_true, decide_eq_true_eq, beq_iff_eq] at htest
  obtain ⟨⟨⟨⟨⟨hapart, hroot⟩, hstatement⟩, hname⟩, hcall⟩, hlast⟩ := htest
  have hfound := node_found_is_innermost hbuild hapart
  rw [hroot] at hfound
  obtain ⟨call, _, hat, _, hinside⟩ := (hfound 3).2 (by decide)
  cases hat.symm.trans hcall
  obtain ⟨name, _, hat, _, hinner⟩ := (hfound 6).2 (by decide)
  cases hat.symm.trans hlast
  refine ⟨doc, hbuild, hapart, (hfound 7).1.mpr (by decide), hcall, hinside, hlast,
    hstatement.trans hname.symm, hinner 5 ?_⟩
  rw [hstatement]
  decide

end Document

end ScriptLint

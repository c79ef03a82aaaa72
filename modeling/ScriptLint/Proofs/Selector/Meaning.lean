import ScriptLint.Proofs.Tree.Walks
import ScriptLint.Selector.Match

/-!
What a selector means. A node is accepted if there is a chain of nodes that ends in it, one for each
compound, in which neighbours are related as the combinators say. The search goes from the node
upwards and tries every node above for a step to some node above, so no chain is missed
(`Selector.contextAccepts_iff`); turned round, the way up is the chain.
-/
namespace ScriptLint

/-- How a combinator relates the node of the compound before it to that of the compound after it. -/
def Combinator.Relates (doc : Document) : Combinator → NodeId → NodeId → Prop
  | .child => doc.IsParent
  | .descendant => doc.Above

theorem Document.WellFormed.mem_strictAncestors_iff {doc : Document} (hdoc : doc.WellFormed)
    {a id : Nat} : a ∈ doc.strictAncestors id ↔ doc.Above a id := by
  rw [Document.Above, Relation.TransGen.tail'_iff]
  cases hp : doc.parent id with
  | none => simp [hdoc.strictAncestors_of_no_parent hp, Document.IsParent, hp]
  | some p =>
    rw [hdoc.strictAncestors_of_parent hp, ← hdoc.ancestors_eq_cons, hdoc.mem_ancestors_iff]
    simp [Document.IsParent, hp]

namespace Selector

variable {doc : Document}

/-- One step up: some node that is related as the combinator says is accepted, and so are the nodes
above it. -/
theorem contextAccepts_cons_iff (hdoc : doc.WellFormed) (combinator : Combinator)
    (compound : Compound) (rest : List (Combinator × Compound)) (id : Nat) :
    contextAccepts doc ((combinator, compound) :: rest) id = true ↔
      ∃ a : Nat, combinator.Relates doc a id ∧ compound.accepts doc a = true ∧
        contextAccepts doc rest a = true := by
  cases combinator with
  | child =>
    cases hp : doc.parent id with
    | none => simp [contextAccepts, Combinator.Relates, Document.IsParent, hp]
    | some p => simp [contextAccepts, Combinator.Relates, Document.IsParent, hp]
  | descendant =>
    simp only [contextAccepts, Combinator.Relates, List.any_eq_true, Bool.and_eq_true,
      hdoc.mem_strictAncestors_iff]

/-- The nodes above meet a context if there is a way up through it, one node for each step. -/
theorem contextAccepts_iff (hdoc : doc.WellFormed) (context : List (Combinator × Compound))
    (id : Nat) :
    contextAccepts doc context id = true ↔
      ∃ up : Nat → Nat, up 0 = id ∧ ∀ i (h : i < context.length),
        context[i].1.Relates doc (up (i + 1)) (up i) ∧
          context[i].2.accepts doc (up (i + 1)) = true := by
  induction context generalizing id with
  | nil => exact ⟨fun _ => ⟨fun _ => id, rfl, fun i h => absurd h (by simp)⟩, fun _ => rfl⟩
  | cons step rest ih =>
    obtain ⟨combinator, compound⟩ := step
    rw [contextAccepts_cons_iff hdoc]
    constructor
    · rintro ⟨a, hrelates, haccepts, hrest⟩
      obtain ⟨up, rfl, hup⟩ := (ih a).mp hrest
      refine ⟨fun i => Nat.casesOn i id up, rfl, ?_⟩
      rintro (_ | i) h
      · exact ⟨hrelates, haccepts⟩
      · exact hup i (by simpa using h)
    · rintro ⟨up, rfl, hup⟩
      obtain ⟨hrelates, haccepts⟩ := hup 0 (by simp)
      refine ⟨up 1, hrelates, haccepts, (ih (up 1)).mpr ⟨fun i => up (i + 1), rfl, ?_⟩⟩
      intro i h
      exact hup (i + 1) (by simpa using h)

/-! The context holds the steps from the subject up, the written form from the top down. -/

theorem length_combinators (s : Selector) : s.combinators.length = s.context.length := by
  simp [combinators]

theorem combinators_getElem (s : Selector) {i j : Nat} (hi : i < s.combinators.length)
    (hj : j < s.context.length) (hij : i + j + 1 = s.context.length) :
    s.combinators[i] = s.context[j].1 := by
  obtain rfl : j = s.context.length - 1 - i := by omega
  simp [combinators, List.getElem_reverse]

theorem compounds_getElem (s : Selector) {i j : Nat} (hi : i < s.compounds.length)
    (hj : j < s.context.length) (hij : i + j + 1 = s.context.length) :
    s.compounds[i] = s.context[j].2 := by
  obtain rfl : j = s.context.length - 1 - i := by omega
  simp [compounds, List.getElem_reverse, show i < s.context.length by omega]

theorem compounds_getElem_last (s : Selector) (h : s.context.length < s.compounds.length) :
    s.compounds[s.context.length] = s.subject := by
  simp [compounds]

/-- There is a node for each compound that accepts it, the last of them the given one, and
neighbours are related as the combinators say. -/
def Matches (s : Selector) (doc : Document) (id : NodeId) : Prop :=
  ∃ nodes : Nat → NodeId, nodes s.combinators.length = id ∧
    (∀ i (h : i < s.compounds.length), s.compounds[i].accepts doc (nodes i) = true) ∧
    ∀ i (h : i < s.combinators.length), s.combinators[i].Relates doc (nodes i) (nodes (i + 1))

theorem accepts_iff_matches (hdoc : doc.WellFormed) (s : Selector) (id : Nat) :
    s.accepts doc id = true ↔ s.Matches doc id := by
  have hcombinators := s.length_combinators
  have hcompounds := s.length_compounds
  rw [accepts, Bool.and_eq_true, contextAccepts_iff hdoc]
  constructor
  · rintro ⟨hsubject, up, rfl, hup⟩
    refine ⟨fun i => up (s.context.length - i), by simp [hcombinators], ?_, ?_⟩
    · intro i h
      dsimp only
      by_cases hlast : i = s.context.length
      · subst hlast
        rwa [s.compounds_getElem_last h, Nat.sub_self]
      · obtain ⟨j, hj⟩ := Nat.exists_eq_add_of_lt (show i < s.context.length by omega)
        rw [s.compounds_getElem h (by omega) hj.symm, show s.context.length - i = j + 1 by omega]
        exact (hup j (by omega)).2
    · intro i h
      obtain ⟨j, hj⟩ := Nat.exists_eq_add_of_lt (show i < s.context.length by omega)
      dsimp only
      rw [s.combinators_getElem h (by omega) hj.symm, show s.context.length - i = j + 1 by omega,
        show s.context.length - (i + 1) = j by omega]
      exact (hup j (by omega)).1
  · rintro ⟨nodes, rfl, haccepts, hrelates⟩
    refine ⟨?_, fun i => nodes (s.context.length - i), by simp [hcombinators], ?_⟩
    · have hlast := haccepts s.context.length (by omega)
      rwa [s.compounds_getElem_last, ← hcombinators] at hlast
    · intro j h
      obtain ⟨i, hi⟩ := Nat.exists_eq_add_of_lt h
      have hij : i + j + 1 = s.context.length := by omega
      dsimp only
      rw [← s.combinators_getElem (by omega) h hij, ← s.compounds_getElem (by omega) h hij,
        show s.context.length - (j + 1) = i by omega, show s.context.length - j = i + 1 by omega]
      exact ⟨hrelates i (by omega), haccepts i (by omega)⟩

/-- A selector accepts exactly the nodes that it is meant to match, and finds those of a subtree, in
pre-order and each of them once; nodes above the subtree count for the combinators. -/
theorem accepts_and_matchAll_meaning (hdoc : doc.WellFormed) (s : Selector) :
    (∀ id, s.accepts doc id = true ↔ s.Matches doc id) ∧
    ∀ r : Nat, r < doc.size →
      (∀ id, id ∈ s.matchAll doc r ↔ doc.Within id r ∧ s.Matches doc id) ∧
      (s.matchAll doc r).Pairwise doc.Precedes ∧ (s.matchAll doc r).Nodup := by
  refine ⟨accepts_iff_matches hdoc s, ?_⟩
  intro r hr
  refine ⟨?_, (hdoc.descendants_pairwise hr).filter _, ?_⟩
  · intro id
    rw [matchAll, List.mem_filter, hdoc.mem_descendants_iff hr, accepts_iff_matches hdoc]
    rfl
  · obtain ⟨n, _, _, hrange, _⟩ := hdoc.descendants_eq hr
    rw [matchAll, hrange]
    exact List.Pairwise.filter _ List.nodup_range'

/-- A block of two statements, of which the first is a block of one. -/
def nestedText : Text := "\x7b\x7bx\x7d y\x7d".toList

def nestedBlocks : ParsedFile where
  tree :=
    .node ⟨"Program", ⟨0, 7⟩, [("body", .parts [⟨0, 7⟩])]⟩
      [.node ⟨"BlockStatement", ⟨0, 7⟩, [("body", .parts [⟨1, 4⟩, ⟨5, 6⟩])]⟩
        [.node ⟨"BlockStatement", ⟨1, 4⟩, [("body", .parts [⟨2, 3⟩])]⟩
          [.node ⟨"ExpressionStatement", ⟨2, 3⟩, [("expression", .part ⟨2, 3⟩)]⟩
            [.node ⟨"IdentifierReference", ⟨2, 3⟩, []⟩ []]],
         .node ⟨"ExpressionStatement", ⟨5, 6⟩, [("expression", .part ⟨5, 6⟩)]⟩
          [.node ⟨"IdentifierReference", ⟨5, 6⟩, []⟩ []]]]
  comments := []

/-- The statement `x` in an outermost block of several statements. -/
def inOuterBlock : Selector where
  pattern := "Program > BlockStatement[body.length>1] ExpressionStatement[expression.name=x]"
  subject :=
    ⟨some "ExpressionStatement", [⟨["expression", "name"], some (.eq, .text ['x'])⟩]⟩
  context :=
    [(.descendant,
        ⟨some "BlockStatement", [⟨["body", "length"], some (.gt, .number (.ofNat 1))⟩]⟩),
     (.child, ⟨some "Program", []⟩)]

/-- The block next to the statement holds no other, and the chain goes through the one around it, from
which the search does not start. -/
theorem accepts_and_matchAll_meaning_nestedBlocks :
    ∃ doc, Document.build nestedText nestedBlocks true = .ok doc ∧ doc.WellFormed ∧ 2 < doc.size ∧
      inOuterBlock.matchAll doc 0 = [3] ∧ inOuterBlock.matchAll doc 2 = [3] ∧
      doc.Within 3 2 ∧ inOuterBlock.Matches doc 3 ∧ ¬ inOuterBlock.Matches doc 5 := by
  obtain ⟨doc, hbuild, htest⟩ : ∃ doc, Document.build nestedText nestedBlocks true = .ok doc ∧
      (decide (2 < doc.size) && inOuterBlock.matchAll doc 0 == [3] &&
        inOuterBlock.matchAll doc 2 == [3] && !inOuterBlock.accepts doc 5) = true :=
    Document.exists_build_of_any (by decide +kernel)
  simp only [Bool.and_eq_true, decide_eq_true_eq, beq_iff_eq, Bool.not_eq_true'] at htest
  obtain ⟨⟨⟨hsize, hall⟩, hinner⟩, hother⟩ := htest
  have hdoc := Document.build_wellFormed hbuild
  obtain ⟨haccepts, hmatches⟩ := accepts_and_matchAll_meaning hdoc inOuterBlock
  obtain ⟨hwithin, hmatch⟩ := ((hmatches 2 hsize).1 3).mp (by simp [hinner])
  refine ⟨doc, hbuild, hdoc, hsize, hall, hinner, hwithin, hmatch, ?_⟩
  rw [← haccepts, hother]
  exact Bool.false_ne_true

end Selector

end ScriptLint

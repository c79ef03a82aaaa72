import Mathlib.Data.List.Chain
import Mathlib.Data.List.Sort
import ScriptLint.Proofs.Tree.Visits

/-!
Walks over a well-formed document reach what they should. Down from a node, the walk passes through
the ids that follow on it, as many as its subtree has nodes (`Holds.descend_eq`); up from a node, it
follows parent links to the root (`WellFormed.mem_ancestors_iff`), and so meets one child of any node
at most (`WellFormed.child_unique`); a search up finds the nearest node that passes
(`WellFormed.findAncestor?_eq_some_iff`). No walk needs more steps than there are nodes. Downwards, a
node comes before all that is below it, and what is below one child before what is below a later one
(`WellFormed.descendants_pairwise`).
-/
namespace ScriptLint.Document

variable {doc : Document} {outer : Option NodeId} {id : Nat} {t : Tree}

mutual

/-- The walk goes through a tree on its stack, in the order of the ids, and then on. -/
theorem Holds.descend_eq (fuel : Nat) (stack : List NodeId) :
    ∀ {outer : Option NodeId} {id : Nat} (t : Tree), doc.Holds outer id t →
      doc.descend (t.size + fuel) (id :: stack) =
        List.range' id t.size ++ doc.descend fuel stack
  | _, id, .node element children => by
    intro h
    rw [Holds] at h
    rw [Tree.size, Nat.add_comm 1, Nat.add_right_comm, descend, h.2.1,
      HoldsAll.descend_eq fuel stack children h.2.2, List.range'_succ, List.cons_append]

theorem HoldsAll.descend_eq (fuel : Nat) (stack : List NodeId) :
    ∀ {p next : Nat} (ts : List Tree), doc.HoldsAll p next ts →
      doc.descend (Tree.sizeAll ts + fuel) (Tree.childIds next ts ++ stack) =
        List.range' next (Tree.sizeAll ts) ++ doc.descend fuel stack
  | _, next, [] => by
    intro _
    simp [Tree.sizeAll, Tree.childIds]
  | _, next, t :: ts => by
    intro h
    rw [HoldsAll] at h
    rw [Tree.sizeAll, Tree.childIds, List.cons_append, Nat.add_assoc,
      Holds.descend_eq _ _ t h.1, HoldsAll.descend_eq fuel stack ts h.2, ← List.append_assoc,
      List.range'_append_1]

end

theorem Holds.descend_single (h : doc.Holds outer id t) {fuel : Nat} (hfuel : t.size ≤ fuel) :
    doc.descend fuel [id] = List.range' id t.size := by
  obtain ⟨more, rfl⟩ := Nat.exists_eq_add_of_le hfuel
  rw [Holds.descend_eq more [] t h]
  cases more <;> simp [descend]

/-! Upwards. -/

theorem climb_of_parent {p : Nat} (h : doc.parent id = some p) (fuel : Nat) :
    doc.climb (fuel + 1) id = id :: doc.climb fuel p := by
  rw [climb, h]

theorem climb_of_no_parent (h : doc.parent id = none) (fuel : Nat) :
    doc.climb (fuel + 1) id = [id] := by
  rw [climb, h]

theorem head?_climb (doc : Document) (fuel id : Nat) :
    (doc.climb (fuel + 1) id).head? = some id := by
  rw [climb, List.head?_cons]

theorem climb_isChain (doc : Document) (fuel id : Nat) :
    (doc.climb fuel id).IsChain fun a b => doc.parent a = some b := by
  induction fuel generalizing id with
  | zero => exact .nil
  | succ fuel ih =>
    cases hp : doc.parent id with
    | none =>
      rw [climb_of_no_parent hp]
      exact .singleton _
    | some p =>
      rw [climb_of_parent hp, List.isChain_cons]
      refine ⟨?_, ih p⟩
      intro q hq
      cases fuel with
      | zero => cases hq
      | succ fuel =>
        rw [head?_climb] at hq
        rwa [← Option.mem_some.mp hq]

namespace WellFormed

variable (hdoc : doc.WellFormed)

include hdoc

/-- A climb with more steps than the id of the node ends where there is no parent. -/
theorem climb_eq {fuel more : Nat} (h : id < fuel) (hmore : id < more) :
    doc.climb fuel id = doc.climb more id := by
  induction fuel generalizing id more with
  | zero => omega
  | succ fuel ih =>
    obtain ⟨more, rfl⟩ := Nat.exists_eq_succ_of_ne_zero (Nat.ne_zero_of_lt hmore)
    cases hp : doc.parent id with
    | none => rw [climb_of_no_parent hp, climb_of_no_parent hp]
    | some p =>
      have hlt := hdoc.parent_lt hp
      rw [climb_of_parent hp, climb_of_parent hp]
      exact congrArg (id :: ·) (ih (by omega) (by omega))

theorem mem_climb_iff {fuel a : Nat} (h : id < fuel) :
    a ∈ doc.climb fuel id ↔ Relation.ReflTransGen doc.IsParent a id := by
  induction fuel generalizing id with
  | zero => omega
  | succ fuel ih =>
    rw [Relation.ReflTransGen.cases_tail_iff, eq_comm]
    cases hp : doc.parent id with
    | none => simp [climb_of_no_parent hp, IsParent, hp]
    | some p =>
      have hlt := hdoc.parent_lt hp
      rw [climb_of_parent hp, List.mem_cons, ih (by omega)]
      simp [IsParent, hp]

/-- The top of a climb has no parent. -/
theorem getLast?_climb {fuel : Nat} (h : id < fuel) (hid : id < doc.size) :
    (doc.climb fuel id).getLast? = some root := by
  induction fuel generalizing id with
  | zero => omega
  | succ fuel ih =>
    by_cases hpos : 0 < id
    · obtain ⟨p, hp, hlt, _⟩ := hdoc.exists_parent hpos hid
      rw [climb_of_parent hp, List.getLast?_cons, ih (by omega) (by omega)]
      rfl
    · obtain rfl : id = root := by simp [root]; omega
      rw [climb_of_no_parent hdoc.parent_root]
      rfl

theorem ancestors_of_parent {p : Nat} (h : doc.parent id = some p) :
    doc.ancestors id = id :: doc.ancestors p := by
  have hid := lt_size_of_parent h
  have hlt := hdoc.parent_lt h
  obtain ⟨n, hn⟩ := Nat.exists_eq_succ_of_ne_zero (Nat.ne_zero_of_lt hid)
  have hclimb : doc.climb n p = doc.climb (n + 1) p := hdoc.climb_eq (by omega) (by omega)
  rw [ancestors, ancestors, hn, climb_of_parent h, hclimb]

theorem ancestors_of_no_parent (h : doc.parent id = none) : doc.ancestors id = [id] := by
  obtain ⟨n, hn⟩ := hdoc.exists_size_eq_succ
  rw [ancestors, hn, climb_of_no_parent h]

/-- The nodes above a node, with itself, are those from which parent links lead to it. -/
theorem mem_ancestors_iff {a : Nat} :
    a ∈ doc.ancestors id ↔ Relation.ReflTransGen doc.IsParent a id := by
  by_cases hid : id < doc.size
  · exact hdoc.mem_climb_iff hid
  · have hnone := (node_of_size_le (Nat.le_of_not_lt hid)).1
    rw [hdoc.ancestors_of_no_parent hnone, Relation.ReflTransGen.cases_tail_iff]
    simp [IsParent, hnone, eq_comm]

theorem ancestors_eq_cons (id : Nat) : doc.ancestors id = id :: doc.strictAncestors id := by
  cases hp : doc.parent id with
  | none => simp [strictAncestors, hdoc.ancestors_of_no_parent hp]
  | some p => simp [strictAncestors, hdoc.ancestors_of_parent hp]

theorem strictAncestors_of_parent {p : Nat} (h : doc.parent id = some p) :
    doc.strictAncestors id = p :: doc.strictAncestors p := by
  rw [← hdoc.ancestors_eq_cons p, strictAncestors, hdoc.ancestors_of_parent h, List.drop_one,
    List.tail_cons]

theorem strictAncestors_of_no_parent (h : doc.parent id = none) : doc.strictAncestors id = [] := by
  rw [strictAncestors, hdoc.ancestors_of_no_parent h]
  rfl

/-- The nodes of a subtree are the ids that follow on its root, and no walk through it is cut
short. -/
theorem descendants_eq (hid : id < doc.size) :
    ∃ n, 0 < n ∧ id + n ≤ doc.size ∧ doc.descendants id = List.range' id n ∧
      ∀ fuel, doc.size ≤ fuel → doc.descend fuel [id] = List.range' id n := by
  obtain ⟨t, ht, hstop⟩ := hdoc.exists_holds hid
  refine ⟨t.size, t.size_pos, hstop, ht.descend_single (by omega), ?_⟩
  intro fuel hfuel
  exact ht.descend_single (by omega)

/-- A subtree has the nodes to which parent links lead from its root. -/
theorem mem_descendants_iff {d : Nat} (hid : id < doc.size) :
    d ∈ doc.descendants id ↔ Relation.ReflTransGen doc.IsParent id d := by
  obtain ⟨t, ht, hstop⟩ := hdoc.exists_holds hid
  have hsize : t.size ≤ doc.size := by omega
  rw [descendants, ht.descend_single hsize, List.mem_range'_1]
  constructor
  · rintro ⟨hle, hlt⟩
    exact ht.reaches hle hlt
  · intro h
    induction h with
    | refl => exact ⟨Nat.le_refl _, Nat.lt_add_of_pos_right t.size_pos⟩
    | @tail p c _ hpc ih =>
      -- the child stands in the subtree of its parent, which lies in the whole
      obtain ⟨inner, s, hs, hnested, _⟩ := ht.exists_subtree ih.1 ih.2
      obtain ⟨_, hlt, hbound⟩ := hs.children_spec.2 c (hdoc.mem_children_iff.mpr hpc)
      exact ⟨Nat.le_trans ih.1 (Nat.le_of_lt hlt), Nat.lt_of_lt_of_le hbound hnested⟩

theorem children_eq (p : Nat) :
    doc.children p = doc.ids.filter fun c => doc.parent c = some p := by
  refine List.Pairwise.eq_of_mem_iff (r := fun a b : Nat => a < b) (hdoc.children_pairwise p)
    (List.pairwise_lt_range.filter _) ?_
  intro c
  rw [hdoc.mem_children_iff, List.mem_filter, decide_eq_true_eq, ids, List.mem_range]
  exact ⟨fun h => ⟨lt_size_of_parent h, h⟩, fun h => h.2⟩

theorem descendants_root : doc.descendants root = doc.ids := by
  obtain ⟨tree, htree, hsize⟩ := hdoc
  rw [descendants, htree.descend_single (Nat.le_of_eq hsize.symm), ids, List.range_eq_range', hsize]
  rfl

end WellFormed

/-- The nearest node above that passes, so many links up at most. -/
inductive NearestAbove (doc : Document) (test : Node → Bool) : (reach id above : Nat) → Prop
  | parent {reach id p : Nat} (link : doc.parent id = some p) (passes : test (doc.node p) = true) :
      NearestAbove doc test (reach + 1) id p
  | further {reach id p above : Nat} (link : doc.parent id = some p)
      (fails : test (doc.node p) = false) (rest : NearestAbove doc test reach p above) :
      NearestAbove doc test (reach + 1) id above

theorem NearestAbove.passed {test : Node → Bool} {reach above : Nat}
    (h : doc.NearestAbove test reach id above) : test (doc.node above) = true := by
  induction h with
  | parent _ passes => exact passes
  | further _ _ _ ih => exact ih

theorem WellFormed.findAncestor?_of_parent (hdoc : doc.WellFormed) {p : Nat}
    (h : doc.parent id = some p) (reach : Nat) (test : Node → Bool) :
    doc.findAncestor? id (some (reach + 1)) test =
      if test (doc.node p) then some p else doc.findAncestor? p (some reach) test := by
  simp only [findAncestor?, hdoc.strictAncestors_of_parent h, List.take_succ_cons, List.find?_cons]
  cases test (doc.node p) <;> rfl

theorem WellFormed.findAncestor?_eq_some_iff (hdoc : doc.WellFormed) {test : Node → Bool}
    {reach above : Nat} :
    doc.findAncestor? id (some reach) test = some above ↔ doc.NearestAbove test reach id above := by
  induction reach generalizing id with
  | zero =>
    apply iff_of_false
    · simp [findAncestor?]
    · intro h
      cases h
  | succ reach ih =>
    cases hp : doc.parent id with
    | none =>
      apply iff_of_false
      · simp [findAncestor?, hdoc.strictAncestors_of_no_parent hp]
      · intro h
        cases h <;> simp_all
    | some p =>
      rw [hdoc.findAncestor?_of_parent hp]
      by_cases hpasses : test (doc.node p) = true
      · rw [if_pos hpasses, Option.some.injEq]
        constructor
        · rintro rfl
          exact .parent hp hpasses
        · intro h
          cases h <;> simp_all
      · rw [if_neg hpasses, ih]
        constructor
        · exact .further hp (by simpa using hpasses)
        · intro h
          cases h <;> simp_all

/-! The order of the walk down. -/

/-- A node stands above another one, by one parent link or more. -/
def Above (doc : Document) : NodeId → NodeId → Prop := Relation.TransGen doc.IsParent

/-- A node lies in the subtree of another one. -/
def Within (doc : Document) (id root : NodeId) : Prop := Relation.ReflTransGen doc.IsParent root id

theorem WellFormed.le_of_within (hdoc : doc.WellFormed) {a : Nat} (h : doc.Within id a) :
    a ≤ id := by
  induction h with
  | refl => exact Nat.le_refl a
  | tail _ hstep ih =>
    have := hdoc.parent_lt hstep
    omega

/-- A child does not lie in the subtree of another child of the same node. -/
theorem WellFormed.eq_of_within_sibling (hdoc : doc.WellFormed) {p a b : Nat}
    (ha : doc.parent a = some p) (hb : doc.parent b = some p) (h : doc.Within b a) : a = b := by
  cases Relation.ReflTransGen.cases_tail h with
  | inl heq => exact heq.symm
  | inr hstep =>
    -- the last link comes from the common parent, which would then be below `a` too
    obtain ⟨q, haq, hqb⟩ := hstep
    obtain rfl : p = q := Option.some.inj (hb.symm.trans hqb)
    have hle := hdoc.le_of_within haq
    have hlt := hdoc.parent_lt ha
    omega

/-- A node lies in the subtree of one child of a node at most. -/
theorem WellFormed.child_unique (hdoc : doc.WellFormed) {p a b : Nat}
    (ha : doc.parent a = some p) (hb : doc.parent b = some p) (hida : doc.Within id a)
    (hidb : doc.Within id b) : a = b := by
  have hunique : Relator.RightUnique (Function.swap doc.IsParent) := by
    intro c q r hq hr
    exact Option.some.inj (hq.symm.trans hr)
  have htotal := Relation.ReflTransGen.total_of_right_unique hunique
    (Relation.reflTransGen_swap.mpr hida) (Relation.reflTransGen_swap.mpr hidb)
  cases htotal with
  | inl hba => exact (hdoc.eq_of_within_sibling hb ha (Relation.reflTransGen_swap.mp hba)).symm
  | inr hab => exact hdoc.eq_of_within_sibling ha hb (Relation.reflTransGen_swap.mp hab)

/-- Pre-order: a node precedes those below it, and the nodes in the subtree of a child precede those
in the subtrees of later children of the same node. -/
def Precedes (doc : Document) (a b : NodeId) : Prop :=
  doc.Above a b ∨
    ∃ p x y, List.Sublist [x, y] (doc.children p) ∧ doc.Within a x ∧ doc.Within b y

mutual

theorem Holds.range_pairwise : ∀ {outer : Option NodeId} {id : Nat} (t : Tree),
    doc.Holds outer id t → (List.range' id t.size).Pairwise doc.Precedes
  | outer, id, .node element children => by
    intro h
    have hparts := h
    rw [Holds] at hparts
    rw [Tree.size, Nat.add_comm, List.range'_succ, List.pairwise_cons]
    refine ⟨?_, HoldsAll.range_pairwise children hparts.2.2 (by rw [hparts.2.1])⟩
    intro d hd
    rw [List.mem_range'_1] at hd
    have hreach := h.reaches (d := d) (by omega) (by rw [Tree.size]; omega)
    have hne : d ≠ id := Nat.ne_of_gt hd.1
    exact .inl ((Relation.reflTransGen_iff_eq_or_transGen.mp hreach).resolve_left hne)

theorem HoldsAll.range_pairwise : ∀ {p next : Nat} (ts : List Tree), doc.HoldsAll p next ts →
    List.Sublist (Tree.childIds next ts) (doc.children p) →
    (List.range' next (Tree.sizeAll ts)).Pairwise doc.Precedes
  | _, next, [] => by
    intro _ _
    rw [Tree.sizeAll]
    exact .nil
  | p, next, t :: ts => by
    intro h hchildren
    rw [HoldsAll] at h
    rw [Tree.childIds] at hchildren
    rw [Tree.sizeAll, ← List.range'_append_1, List.pairwise_append]
    refine ⟨Holds.range_pairwise t h.1, HoldsAll.range_pairwise ts h.2
      ((List.sublist_cons_self _ _).trans hchildren), ?_⟩
    intro a ha b hb
    rw [List.mem_range'_1] at ha hb
    obtain ⟨c, t', hc, ht', _, hcb, hbc, _⟩ := h.2.exists_tree hb.1 hb.2
    refine .inr ⟨p, next, c, ?_, h.1.reaches ha.1 ha.2, ht'.reaches hcb hbc⟩
    exact ((List.singleton_sublist.mpr hc).cons_cons next).trans hchildren

end

theorem WellFormed.descendants_pairwise (hdoc : doc.WellFormed) (hid : id < doc.size) :
    (doc.descendants id).Pairwise doc.Precedes := by
  obtain ⟨t, ht, hstop⟩ := hdoc.exists_holds hid
  rw [descendants, ht.descend_single (by omega)]
  exact ht.range_pairwise

/-- Balanced visits around a single root are those of a tree, a document that is built from it has
the arena that the indexer makes of the visits, and such an arena is a tree whose walks are complete:
links go to smaller ids and end at the root, children are exactly the nodes linked to their parent,
in order; a subtree is a run of ids, those with its root among their ancestors; and no more steps
would lead any walk further. -/
theorem indexed_visits_form_tree (visits : List Visit) (h : Visit.isBalanced visits = true)
    (resolved : Bool) :
    ∃ tree : Tree, tree.visits = visits ∧
      (∀ source comments doc, build source ⟨tree, comments⟩ resolved = .ok doc →
        doc.Indexes (Indexer.run resolved .empty visits).drafts) ∧
      ∀ doc : Document, doc.Indexes (Indexer.run resolved .empty visits).drafts →
        doc.parent root = none ∧
        (∀ id : Nat, 0 < id → id < doc.size → ∃ p : Nat, doc.parent id = some p ∧ p < id) ∧
        (∀ p, doc.children p = doc.ids.filter fun c => doc.parent c = some p) ∧
        (∀ id : Nat, id < doc.size →
          (∃ n, 0 < n ∧ doc.descendants id = List.range' id n) ∧
          (∀ d, d ∈ doc.descendants id ↔ id ∈ doc.ancestors d)) ∧
        doc.descendants root = List.range doc.size ∧
        (∀ id : Nat, id < doc.size →
          (doc.ancestors id).head? = some id ∧
          ((doc.ancestors id).IsChain fun (a b : Nat) => doc.parent a = some b ∧ b < a) ∧
          (doc.ancestors id).getLast? = some root) ∧
        (∀ id fuel : Nat, id < doc.size → doc.size ≤ fuel →
          doc.climb fuel id = doc.ancestors id ∧ doc.descend fuel [id] = doc.descendants id) := by
  obtain ⟨tree, rfl⟩ := Visit.exists_tree h
  rw [Indexer.run_visits]
  refine ⟨tree, rfl, fun source comments doc => build_indexes, ?_⟩
  intro doc hindexes
  have hdoc := hindexes.wellFormed
  refine ⟨hdoc.parent_root, ?_, hdoc.children_eq, ?_, hdoc.descendants_root, ?_, ?_⟩
  · intro id hpos hid
    obtain ⟨p, hp, hlt, _⟩ := hdoc.exists_parent hpos hid
    exact ⟨p, hp, hlt⟩
  · intro id hid
    obtain ⟨n, hn, _, hrange, _⟩ := hdoc.descendants_eq hid
    refine ⟨⟨n, hn, hrange⟩, fun d => ?_⟩
    rw [hdoc.mem_descendants_iff hid, hdoc.mem_ancestors_iff]
  · intro id hid
    obtain ⟨n, hn⟩ := Nat.exists_eq_succ_of_ne_zero (Nat.ne_zero_of_lt hid)
    refine ⟨?_, (doc.climb_isChain doc.size id).imp ?_, hdoc.getLast?_climb hid hid⟩
    · rw [ancestors, hn, head?_climb]
    · intro a b hab
      exact ⟨hab, hdoc.parent_lt hab⟩
  · intro id fuel hid hfuel
    obtain ⟨n, _, _, hrange, hmore⟩ := hdoc.descendants_eq hid
    exact ⟨hdoc.climb_eq (by omega) hid, by rw [hmore fuel hfuel, hrange]⟩

/-- A program of two statements, the first of which holds a name. -/
def sampleVisits : List Visit :=
  [.enter ⟨"Program", ⟨0, 3⟩, []⟩,
    .enter ⟨"ExpressionStatement", ⟨0, 2⟩, []⟩,
      .enter ⟨"IdentifierReference", ⟨0, 1⟩, []⟩, .leave, .leave,
    .enter ⟨"ExpressionStatement", ⟨2, 3⟩, []⟩, .leave, .leave]

theorem indexed_visits_form_tree_sample :
    Visit.isBalanced sampleVisits = true ∧
    ∃ doc : Document, doc.Indexes (Indexer.run true .empty sampleVisits).drafts ∧ doc.size = 4 ∧
      doc.parent 3 = some 0 ∧ doc.descendants 0 = [0, 1, 2, 3] ∧
      (2 ∈ doc.descendants 1 ↔ 1 ∈ doc.ancestors 2) ∧
      (doc.ancestors 2).getLast? = some 0 := by
  refine ⟨by decide, ofDrafts _, indexes_ofDrafts _, by decide +kernel, by decide +kernel, ?_⟩
  obtain ⟨_, _, _, h⟩ := indexed_visits_form_tree sampleVisits (by decide) true
  obtain ⟨_, _, _, hbelow, hall, habove, _⟩ := h _ (indexes_ofDrafts _)
  have hsize : (ofDrafts (Indexer.run true .empty sampleVisits).drafts).size = 4 := by
    decide +kernel
  rw [hsize] at hbelow hall habove
  exact ⟨hall, (hbelow 1 (by decide)).2 2, (habove 2 (by decide)).2.2⟩

end ScriptLint.Document

import Mathlib.Logic.Relation
import ScriptLint.Proofs.Tree.Exact
import ScriptLint.Tree.Walk

/-!
The shape of an indexed document. `Document.Holds` says that a tree stands in the arena from an id
on: its nodes follow one another in visiting order, each linked to its parent and to its children.
What is built from a parsed file holds the tree of the file (`Document.build_wellFormed`). From this
come the facts that all walks rest on: a parent stands before its children
(`WellFormed.parent_lt`), a node is a child of exactly its parent (`WellFormed.mem_children_iff`),
and every node is the root of a tree of its own (`WellFormed.exists_holds`), whose nodes have the ids
that follow on it.
-/
namespace ScriptLint

mutual

theorem Tree.length_drafts (resolved : Bool) (outer : Option (NodeId × Element)) (id : NodeId) :
    ∀ t : Tree, (t.drafts resolved outer id).length = t.size
  | .node element children => by
    rw [Tree.drafts, Tree.size, List.length_cons,
      Tree.length_draftsAll resolved (id, element) (id + 1) children, Nat.add_comm]

theorem Tree.length_draftsAll (resolved : Bool) (outer : NodeId × Element) (next : NodeId) :
    ∀ ts : List Tree, (Tree.draftsAll resolved outer next ts).length = Tree.sizeAll ts
  | [] => by rw [Tree.draftsAll, Tree.sizeAll]; rfl
  | t :: ts => by
    rw [Tree.draftsAll, Tree.sizeAll, List.length_append,
      Tree.length_drafts resolved (some outer) next t,
      Tree.length_draftsAll resolved outer (next + t.size) ts]

end

theorem Tree.size_pos (t : Tree) : 0 < t.size := by
  cases t
  rw [Tree.size]
  omega

theorem Tree.childIds_bounds {next c : Nat} {ts : List Tree} (h : c ∈ Tree.childIds next ts) :
    next ≤ c ∧ c < next + Tree.sizeAll ts := by
  induction ts generalizing next with
  | nil => cases h
  | cons t ts ih =>
    have := t.size_pos
    rw [Tree.childIds] at h
    rw [Tree.sizeAll]
    rcases List.mem_cons.mp h with rfl | h
    · omega
    · have := ih h
      omega

theorem Tree.childIds_pairwise (next : Nat) (ts : List Tree) :
    (Tree.childIds next ts).Pairwise fun a b : Nat => a < b := by
  induction ts generalizing next with
  | nil => exact .nil
  | cons t ts ih =>
    rw [Tree.childIds, List.pairwise_cons]
    refine ⟨?_, ih _⟩
    intro c hc
    have := Tree.childIds_bounds hc
    have := t.size_pos
    omega

namespace Document

/-- From the id on, the nodes of the document have the links of the drafts. -/
def Agrees (doc : Document) (id : NodeId) (drafts : List Draft) : Prop :=
  ∀ i draft, drafts[i]? = some draft →
    doc.parent (id + i) = draft.node.parent ∧ doc.children (id + i) = draft.node.children

mutual

/-- The tree stands in the document from the id on, below the node `outer` if there is one. -/
def Holds (doc : Document) (outer : Option NodeId) (id : NodeId) : Tree → Prop
  | .node _ children =>
    doc.parent id = outer ∧ doc.children id = Tree.childIds (id + 1) children ∧
      doc.HoldsAll id (id + 1) children

/-- The trees stand in the document one after another, all of them below the node `outer`. -/
def HoldsAll (doc : Document) (outer next : NodeId) : List Tree → Prop
  | [] => True
  | t :: ts => doc.Holds (some outer) next t ∧ doc.HoldsAll outer (next + t.size) ts

end

/-- The document has the arena that the drafts describe. -/
def Indexes (doc : Document) (drafts : List Draft) : Prop :=
  doc.Agrees root drafts ∧ doc.size = drafts.length

/-- The nodes of the document are those of a tree, in visiting order. -/
def WellFormed (doc : Document) : Prop := ∃ tree, doc.Holds none root tree ∧ doc.size = tree.size

variable {doc : Document} {outer : Option NodeId} {id : Nat} {t : Tree}

theorem agrees_cons_iff {draft : Draft} {drafts : List Draft} :
    doc.Agrees id (draft :: drafts) ↔
      (doc.parent id = draft.node.parent ∧ doc.children id = draft.node.children) ∧
        doc.Agrees (id + 1) drafts := by
  constructor
  · intro h
    refine ⟨h 0 draft rfl, ?_⟩
    intro i later hi
    have := h (i + 1) later hi
    rwa [Nat.add_assoc, Nat.add_comm 1 i]
  · rintro ⟨hfirst, hlater⟩ i later hi
    cases i with
    | zero =>
      obtain rfl := Option.some.inj hi
      exact hfirst
    | succ i =>
      have := hlater i later hi
      rwa [Nat.add_assoc, Nat.add_comm 1 i] at this

theorem agrees_append_iff {as bs : List Draft} :
    doc.Agrees id (as ++ bs) ↔ doc.Agrees id as ∧ doc.Agrees (id + as.length) bs := by
  induction as generalizing id with
  | nil => simp [Agrees]
  | cons draft as ih =>
    rw [List.cons_append, agrees_cons_iff, agrees_cons_iff, ih, List.length_cons,
      show id + 1 + as.length = id + (as.length + 1) by omega]
    simp only [and_assoc]

mutual

/-- A document that agrees with the drafts of a tree holds the tree. -/
theorem holds_of_agrees (resolved : Bool) (outer : Option (NodeId × Element)) (id : NodeId) :
    ∀ t : Tree, doc.Agrees id (t.drafts resolved outer id) → doc.Holds (outer.map (·.1)) id t
  | .node element children => by
    intro h
    rw [Tree.drafts, agrees_cons_iff] at h
    obtain ⟨⟨hparent, hchildren⟩, hlater⟩ := h
    rw [Holds]
    exact ⟨hparent, hchildren, holdsAll_of_agrees resolved (id, element) (id + 1) children hlater⟩

theorem holdsAll_of_agrees (resolved : Bool) (outer : NodeId × Element) (next : NodeId) :
    ∀ ts : List Tree, doc.Agrees next (Tree.draftsAll resolved outer next ts) →
      doc.HoldsAll outer.1 next ts
  | [] => by
    intro _
    rw [HoldsAll]
    trivial
  | t :: ts => by
    intro h
    rw [Tree.draftsAll, agrees_append_iff, Tree.length_drafts] at h
    rw [HoldsAll]
    exact ⟨holds_of_agrees resolved (some outer) next t h.1,
      holdsAll_of_agrees resolved outer (next + t.size) ts h.2⟩

end

theorem Indexes.wellFormed {resolved : Bool} {tree : Tree}
    (h : doc.Indexes (tree.drafts resolved none root)) : doc.WellFormed :=
  ⟨tree, holds_of_agrees resolved none root tree h.1, by rw [h.2, Tree.length_drafts]⟩

/-- What is built has the links of the drafts; filling slots changes none of them. -/
theorem build_indexes {source : Text} {file : ParsedFile} {resolved : Bool}
    (h : build source file resolved = .ok doc) :
    doc.Indexes (file.tree.drafts resolved none root) := by
  rw [build] at h
  dsimp only at h
  split at h
  · cases h
  · cases h
    refine ⟨?_, by simp [size, root]⟩
    intro i draft hi
    rw [root] at hi
    simp [parent, children, node, Arena.get, root, hi]

theorem build_wellFormed {source : Text} {file : ParsedFile} {resolved : Bool}
    (h : build source file resolved = .ok doc) : doc.WellFormed :=
  (build_indexes h).wellFormed

/-- The document that has nothing but the arena of the drafts. -/
def ofDrafts (drafts : List Draft) : Document := ⟨[], (drafts.map (·.node)).toArray, #[]⟩

theorem indexes_ofDrafts (drafts : List Draft) : (ofDrafts drafts).Indexes drafts := by
  refine ⟨?_, by simp [size, ofDrafts]⟩
  intro i draft hi
  simp [parent, children, node, Arena.get, ofDrafts, root, hi]

/-! Nodes of a tree that stands in a document. -/

/-- One node is the parent of another. -/
def IsParent (doc : Document) (p c : NodeId) : Prop := doc.parent c = some p

/-- A node among those that stand one after another lies in one of the trees. -/
theorem HoldsAll.exists_tree {p next d : Nat} {ts : List Tree} (h : doc.HoldsAll p next ts)
    (hle : next ≤ d) (hlt : d < next + Tree.sizeAll ts) :
    ∃ (c : Nat) (t : Tree), c ∈ Tree.childIds next ts ∧ doc.Holds (some p) c t ∧
      next ≤ c ∧ c ≤ d ∧ d < c + t.size ∧ c + t.size ≤ next + Tree.sizeAll ts := by
  induction ts generalizing next with
  | nil =>
    rw [Tree.sizeAll] at hlt
    omega
  | cons t ts ih =>
    rw [HoldsAll] at h
    rw [Tree.sizeAll] at hlt ⊢
    rw [Tree.childIds]
    by_cases hd : d < next + t.size
    · exact ⟨next, t, List.mem_cons_self, h.1, Nat.le_refl _, hle, hd, by omega⟩
    · obtain ⟨c, t', hmem, hc, hnext, hcd, hdc, hstop⟩ := ih h.2 (by omega) (by omega)
      exact ⟨c, t', List.mem_cons_of_mem _ hmem, hc, by omega, hcd, hdc, by omega⟩

/-- A node of a tree is its root or lies in the tree of one of the children of the root. -/
theorem Holds.exists_child {d : Nat} (h : doc.Holds outer id t) (hle : id ≤ d)
    (hlt : d < id + t.size) :
    d = id ∨ ∃ (c : Nat) (t' : Tree), c ∈ doc.children id ∧ doc.Holds (some id) c t' ∧
      id < c ∧ c ≤ d ∧ d < c + t'.size ∧ c + t'.size ≤ id + t.size ∧ t'.size < t.size := by
  cases t with
  | node element children =>
    rw [Holds] at h
    rw [Tree.size] at hlt ⊢
    by_cases hd : d = id
    · exact .inl hd
    · obtain ⟨c, t', hmem, hc, hnext, hcd, hdc, hstop⟩ :=
        h.2.2.exists_tree (d := d) (by omega) (by omega)
      refine .inr ⟨c, t', ?_, hc, by omega, hcd, hdc, by omega, by omega⟩
      rw [h.2.1]
      exact hmem

theorem Holds.parent_eq (h : doc.Holds outer id t) : doc.parent id = outer := by
  cases t
  rw [Holds] at h
  exact h.1

/-- Every node of a tree is reached from the root of the tree by parent links. -/
theorem Holds.reaches {d : Nat} (h : doc.Holds outer id t) (hle : id ≤ d)
    (hlt : d < id + t.size) : Relation.ReflTransGen doc.IsParent id d := by
  induction hn : t.size using Nat.strongRecOn generalizing t id outer with
  | _ n ih =>
    subst hn
    rcases h.exists_child hle hlt with rfl | ⟨c, t', _, hc, _, hcd, hdc, _, hsmaller⟩
    · exact .refl
    · exact .head hc.parent_eq (ih t'.size hsmaller hc hcd hdc rfl)

/-- Every node of a tree is the root of a tree of its own, which ends no later. If it is not the
root of the whole, it is a child of an earlier node. -/
theorem Holds.exists_subtree {d : Nat} (h : doc.Holds outer id t) (hle : id ≤ d)
    (hlt : d < id + t.size) :
    ∃ (inner : Option NodeId) (t' : Tree), doc.Holds inner d t' ∧ d + t'.size ≤ id + t.size ∧
      (d = id ∧ inner = outer ∨
        ∃ p : Nat, inner = some p ∧ id ≤ p ∧ p < d ∧ d ∈ doc.children p) := by
  induction hn : t.size using Nat.strongRecOn generalizing t id outer with
  | _ n ih =>
    subst hn
    rcases h.exists_child hle hlt with rfl | ⟨c, t', hmem, hc, hic, hcd, hdc, hstop, hsmaller⟩
    · exact ⟨outer, t, h, Nat.le_refl _, .inl ⟨rfl, rfl⟩⟩
    · obtain ⟨inner, s, hs, hsize, hplace⟩ := ih t'.size hsmaller hc hcd hdc rfl
      refine ⟨inner, s, hs, by omega, .inr ?_⟩
      rcases hplace with ⟨rfl, rfl⟩ | ⟨p, hp, hcp, hpd, hchild⟩
      · exact ⟨id, rfl, Nat.le_refl _, hic, hmem⟩
      · exact ⟨p, hp, by omega, hpd, hchild⟩

theorem HoldsAll.parent_of_mem {p next c : Nat} {ts : List Tree} (h : doc.HoldsAll p next ts)
    (hc : c ∈ Tree.childIds next ts) : doc.parent c = some p := by
  induction ts generalizing next with
  | nil => cases hc
  | cons t ts ih =>
    rw [HoldsAll] at h
    rw [Tree.childIds] at hc
    rcases List.mem_cons.mp hc with rfl | hc
    · exact h.1.parent_eq
    · exact ih h.2 hc

/-- The children of the root of a tree lie in the tree, in order, and have it as their parent. -/
theorem Holds.children_spec (h : doc.Holds outer id t) :
    ((doc.children id).Pairwise fun a b : Nat => a < b) ∧
      ∀ c : Nat, c ∈ doc.children id → doc.parent c = some id ∧ id < c ∧ c < id + t.size := by
  cases t with
  | node element children =>
    rw [Holds] at h
    rw [h.2.1, Tree.size]
    refine ⟨Tree.childIds_pairwise _ _, fun c hc => ⟨h.2.2.parent_of_mem hc, ?_⟩⟩
    have hbounds := Tree.childIds_bounds hc
    omega

theorem node_eq_absent (hid : doc.size ≤ id) : doc.node id = .absent := by
  rw [node, Arena.get, Array.getD]
  exact dif_neg (Nat.not_lt.mpr hid)

theorem node_of_size_le (hid : doc.size ≤ id) : doc.parent id = none ∧ doc.children id = [] := by
  rw [parent, children, node_eq_absent hid]
  exact ⟨rfl, rfl⟩

theorem lt_size_of_parent {p c : Nat} (h : doc.parent c = some p) : c < doc.size := by
  refine Nat.lt_of_not_le fun hle => ?_
  rw [(node_of_size_le hle).1] at h
  cases h

namespace WellFormed

variable (hdoc : doc.WellFormed)

include hdoc

theorem exists_size_eq_succ : ∃ n, doc.size = n + 1 := by
  obtain ⟨tree, _, hsize⟩ := hdoc
  rw [hsize]
  exact Nat.exists_eq_succ_of_ne_zero (Nat.ne_zero_of_lt tree.size_pos)

theorem parent_root : doc.parent root = none := by
  obtain ⟨tree, htree, _⟩ := hdoc
  exact htree.parent_eq

/-- Every node is the root of a tree that stands in the document. -/
theorem exists_holds (hid : id < doc.size) :
    ∃ t, doc.Holds (doc.parent id) id t ∧ id + t.size ≤ doc.size := by
  obtain ⟨tree, htree, hsize⟩ := hdoc
  obtain ⟨inner, t, ht, hstop, _⟩ := htree.exists_subtree (Nat.zero_le id) (by simp [root]; omega)
  rw [root, Nat.zero_add] at hstop
  exact ⟨t, ht.parent_eq ▸ ht, by omega⟩

theorem exists_parent (hpos : 0 < id) (hid : id < doc.size) :
    ∃ p : Nat, doc.parent id = some p ∧ p < id ∧ id ∈ doc.children p := by
  obtain ⟨tree, htree, hsize⟩ := hdoc
  obtain ⟨inner, t, ht, _, hplace⟩ := htree.exists_subtree (Nat.zero_le id) (by simp [root]; omega)
  rcases hplace with ⟨rfl, _⟩ | ⟨p, hp, _, hlt, hchild⟩
  · simp [root] at hpos
  · exact ⟨p, ht.parent_eq.trans hp, hlt, hchild⟩

/-- A parent comes before its children. -/
theorem parent_lt {p c : Nat} (h : doc.parent c = some p) : p < c := by
  have hpos : 0 < c := by
    refine Nat.pos_of_ne_zero ?_
    rintro rfl
    rw [← root, hdoc.parent_root] at h
    cases h
  obtain ⟨q, hq, hlt, _⟩ := hdoc.exists_parent hpos (lt_size_of_parent h)
  rw [h] at hq
  rwa [Option.some.inj hq]

/-- The children of a node are the nodes of which it is the parent. -/
theorem mem_children_iff {p c : Nat} : c ∈ doc.children p ↔ doc.parent c = some p := by
  constructor
  · intro hc
    by_cases hp : p < doc.size
    · obtain ⟨t, ht, _⟩ := hdoc.exists_holds hp
      exact (ht.children_spec.2 c hc).1
    · rw [(node_of_size_le (Nat.le_of_not_lt hp)).2] at hc
      cases hc
  · intro h
    have hlt := hdoc.parent_lt h
    obtain ⟨q, hq, _, hchild⟩ := hdoc.exists_parent (by omega) (lt_size_of_parent h)
    rw [h] at hq
    rwa [Option.some.inj hq]

theorem children_pairwise (p : Nat) : (doc.children p).Pairwise fun a b : Nat => a < b := by
  by_cases hp : p < doc.size
  · obtain ⟨t, ht, _⟩ := hdoc.exists_holds hp
    exact ht.children_spec.1
  · rw [(node_of_size_le (Nat.le_of_not_lt hp)).2]
    exact .nil

end WellFormed

end Document

end ScriptLint

import ScriptLint.Proofs.Tree.Shape

/-!
Indexing while a tree is visited. A visitor enters and leaves nodes; the indexer keeps a stack of the
nodes that are open, gives each node that is entered the next id, and adds it to the children of the
innermost open node. Visits that leave whatever they enter and go around a single root are those of a
tree (`Visit.exists_tree`), and what the indexer makes of them are the drafts of the tree
(`Indexer.run_visits`).
-/
namespace ScriptLint

inductive Visit where
  | enter (element : Element)
  | leave

mutual

/-- Enter the root, visit what is below it, leave the root. -/
def Tree.visits : Tree → List Visit
  | .node element children => .enter element :: (Tree.visitsAll children ++ [.leave])

def Tree.visitsAll : List Tree → List Visit
  | [] => []
  | t :: ts => t.visits ++ Tree.visitsAll ts

end

namespace Visit

/-- With so many nodes open, all of them are left in the end, and nothing comes after the last. -/
def closes : Nat → List Visit → Bool
  | 0, visits => visits.isEmpty
  | _ + 1, [] => false
  | depth + 1, .enter _ :: rest => closes (depth + 2) rest
  | depth + 1, .leave :: rest => closes depth rest

/-- A single root is entered, and it is left at the very end. -/
def isBalanced : List Visit → Bool
  | .enter _ :: rest => closes 1 rest
  | _ => false

/-- What is visited before the innermost open node is left are trees one after another. -/
theorem exists_trees {depth : Nat} {visits : List Visit} (h : closes (depth + 1) visits = true) :
    ∃ ts rest, visits = Tree.visitsAll ts ++ .leave :: rest ∧ closes depth rest = true := by
  induction hn : visits.length using Nat.strongRecOn generalizing depth visits with
  | _ n ih =>
    match visits, hn with
    | [], _ => cases h
    | .leave :: rest, _ => exact ⟨[], rest, by rw [Tree.visitsAll]; rfl, h⟩
    | .enter element :: later, hn =>
      rw [closes] at h
      -- first what is below the node that is entered, then the rest of what is below the outer one
      obtain ⟨children, after, rfl, hafter⟩ := ih later.length (by rw [← hn]; simp) h rfl
      obtain ⟨ts, rest, rfl, hrest⟩ :=
        ih after.length (by rw [← hn]; simp; omega) hafter rfl
      refine ⟨.node element children :: ts, rest, ?_, hrest⟩
      rw [Tree.visitsAll, Tree.visits]
      simp

/-- Balanced visits are those of a tree. -/
theorem exists_tree {visits : List Visit} (h : isBalanced visits = true) :
    ∃ tree : Tree, tree.visits = visits := by
  match visits with
  | [] => cases h
  | .leave :: _ => cases h
  | .enter element :: later =>
    obtain ⟨children, rest, rfl, hrest⟩ := exists_trees h
    rw [closes] at hrest
    obtain rfl := List.isEmpty_iff.mp hrest
    exact ⟨.node element children, by rw [Tree.visits]⟩

end Visit

/-- The drafts made so far and the nodes that are open, innermost first. -/
structure Indexer where
  drafts : List Draft
  stack : List (NodeId × Element)

/-- Add children after those that the draft has. -/
def Draft.addChildren (children : List NodeId) (draft : Draft) : Draft :=
  { draft with node := { draft.node with children := draft.node.children ++ children } }

namespace Indexer

def empty : Indexer := ⟨[], []⟩

/-- The drafts with the child added to the innermost open node, if there is one. -/
def linked (indexer : Indexer) (child : NodeId) : List Draft :=
  match indexer.stack with
  | [] => indexer.drafts
  | (id, _) :: _ => indexer.drafts.modify id (Draft.addChildren [child])

def enter (resolved : Bool) (indexer : Indexer) (element : Element) : Indexer :=
  let id := indexer.drafts.length
  let outer := indexer.stack.head?
  let description := element.describe resolved (outer.map (·.2))
  { drafts := indexer.linked id ++
      [{ node :=
          { kind := description.kind
            span := element.span
            parent := outer.map (·.1)
            children := []
            slots := []
            flags := description.flags
            symbol := description.symbol }
         pending := description.pending }]
    stack := (id, element) :: indexer.stack }

def leave (indexer : Indexer) : Indexer := { indexer with stack := indexer.stack.tail }

def step (resolved : Bool) (indexer : Indexer) : Visit → Indexer
  | .enter element => indexer.enter resolved element
  | .leave => indexer.leave

def run (resolved : Bool) (indexer : Indexer) (visits : List Visit) : Indexer :=
  visits.foldl (step resolved) indexer

@[simp] theorem run_nil (resolved : Bool) (indexer : Indexer) : run resolved indexer [] = indexer :=
  rfl
@[simp] theorem run_cons (resolved : Bool) (indexer : Indexer) (visit : Visit)
    (visits : List Visit) :
    run resolved indexer (visit :: visits) = run resolved (step resolved indexer visit) visits := rfl
@[simp] theorem run_append (resolved : Bool) (indexer : Indexer) (as bs : List Visit) :
    run resolved indexer (as ++ bs) = run resolved (run resolved indexer as) bs :=
  List.foldl_append

@[simp] theorem length_linked (indexer : Indexer) (child : NodeId) :
    (indexer.linked child).length = indexer.drafts.length := by
  rw [linked]
  split
  · rfl
  · exact List.length_modify _ _ _

theorem modify_middle {α : Type} (f : α → α) (front : List α) (x : α) (back : List α) :
    (front ++ x :: back).modify front.length f = front ++ f x :: back := by
  induction front with
  | nil => rfl
  | cons y front ih => simp [ih]

mutual

/-- Visiting a tree links its root to the innermost open node and adds its drafts. -/
theorem run_tree (resolved : Bool) (indexer : Indexer) :
    ∀ t : Tree, run resolved indexer t.visits =
      ⟨indexer.linked indexer.drafts.length
        ++ t.drafts resolved indexer.stack.head? indexer.drafts.length, indexer.stack⟩
  | .node element children => by
    rw [Tree.visits, run_cons, run_append, step, enter,
      run_trees resolved _ _ [] (indexer.length_linked _) element indexer.stack children]
    rw [Tree.drafts, run_cons, run_nil, step, leave]
    simp [Draft.addChildren]

/-- Visiting trees one after another adds them to the children of the innermost open node, whose
draft stands at its id among the drafts. -/
theorem run_trees (resolved : Bool) (front : List Draft) (draft : Draft) (back : List Draft)
    {id : Nat} (hid : front.length = id) (element : Element) (stack : List (NodeId × Element)) :
    ∀ ts : List Tree,
      run resolved ⟨front ++ draft :: back, (id, element) :: stack⟩ (Tree.visitsAll ts) =
      ⟨front ++ draft.addChildren (Tree.childIds (id + back.length + 1) ts) :: back
        ++ Tree.draftsAll resolved (id, element) (id + back.length + 1) ts,
        (id, element) :: stack⟩
  | [] => by
    rw [Tree.visitsAll, Tree.childIds, Tree.draftsAll]
    simp [Draft.addChildren]
  | t :: ts => by
    subst hid
    have hlength : (front ++ draft :: back).length = front.length + back.length + 1 := by
      simp
      omega
    rw [Tree.visitsAll, run_append, run_tree resolved _ t, hlength, linked]
    dsimp only
    rw [modify_middle, List.append_assoc, List.cons_append,
      run_trees resolved front _ (back ++ _) rfl element stack ts, Tree.childIds, Tree.draftsAll,
      List.length_append, Tree.length_drafts,
      show front.length + (back.length + t.size) + 1 = front.length + back.length + 1 + t.size by
        omega]
    simp [Draft.addChildren]

end

/-- The indexer makes the drafts of a tree when it is visited. -/
theorem run_visits (resolved : Bool) (tree : Tree) :
    (run resolved empty tree.visits).drafts = tree.drafts resolved none Document.root := by
  rw [run_tree]
  rfl

end Indexer

end ScriptLint

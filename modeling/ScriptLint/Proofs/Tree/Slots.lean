import Mathlib.Data.List.Flatten
import Mathlib.Data.List.Perm.Basic
import Mathlib.Data.List.ReduceOption
import ScriptLint.Proofs.Tree.Spans

/-!
What fills the slots of a node. A slot asks for nodes by their spans, and each span is answered with
the first node below the owner, level by level, that has the span and was not the answer to an earlier
one (`Document.unclaimed?`). The search in the arena keeps a queue and does not look into nodes that
do not cover the span. A queue goes through the levels one after another (`Arena.search_append`), and
where spans are nested nothing is missed below a node that is not looked into
(`filter_generation_pruned`), so the search finds the same node
(`Document.WellFormed.below?_eq_unclaimed?`).
-/
namespace ScriptLint

/-! Levels. -/

/-- The nodes that are so many links below the given ones, in the order of the nodes above them. -/
def generation (children : NodeId → List NodeId) : Nat → List NodeId → List NodeId
  | 0, ids => ids
  | n + 1, ids => generation children n (ids.flatMap children)

/-- The given nodes, then those one link below them, and so on, level by level. -/
def levels (children : NodeId → List NodeId) (depth : Nat) (ids : List NodeId) : List NodeId :=
  (List.range depth).flatMap fun n => generation children n ids

section Levels

variable {children : NodeId → List NodeId}

@[simp] theorem generation_nil (n : Nat) : generation children n [] = [] := by
  induction n with
  | zero => rfl
  | succ n ih => simpa [generation] using ih

theorem generation_append (n : Nat) (as bs : List NodeId) :
    generation children n (as ++ bs) = generation children n as ++ generation children n bs := by
  induction n generalizing as bs with
  | zero => rfl
  | succ n ih => simp [generation, ih]

@[simp] theorem levels_zero (ids : List NodeId) : levels children 0 ids = [] := rfl

theorem levels_succ (depth : Nat) (ids : List NodeId) :
    levels children (depth + 1) ids = ids ++ levels children depth (ids.flatMap children) := by
  simp only [levels, List.range_succ_eq_map, List.flatMap_cons, List.flatMap_map]
  rfl

@[simp] theorem levels_nil (depth : Nat) : levels children depth [] = [] := by
  simp [levels]

theorem levels_append_perm (depth : Nat) (as bs : List NodeId) :
    (levels children depth (as ++ bs)).Perm
      (levels children depth as ++ levels children depth bs) := by
  simp only [levels, generation_append]
  exact (List.flatMap_append_perm _ _ _).symm

end Levels

/-! Levels that leave out what is below some of the nodes. -/

section Pruned

variable {children : NodeId → List NodeId} {keep : NodeId → Bool}

/-- The children of the nodes that are kept; the others are taken to have none. -/
def pruned (children : NodeId → List NodeId) (keep : NodeId → Bool) (id : NodeId) : List NodeId :=
  if keep id then children id else []

theorem generation_pruned_sublist (n : Nat) {as bs : List NodeId} (h : as.Sublist bs) :
    (generation (pruned children keep) n as).Sublist (generation children n bs) := by
  induction n generalizing as bs with
  | zero => exact h
  | succ n ih =>
    apply ih
    refine (List.Sublist.flatMap_right as ?_).trans (h.flatMap children)
    intro id _
    rw [pruned]
    split
    · exact List.Sublist.refl _
    · exact List.nil_sublist _

theorem levels_pruned_sublist (children : NodeId → List NodeId) (keep : NodeId → Bool) (depth : Nat)
    (ids : List NodeId) :
    (levels (pruned children keep) depth ids).Sublist (levels children depth ids) :=
  List.Sublist.flatMap_right _ fun n _ => generation_pruned_sublist n (List.Sublist.refl ids)

/-- If nothing is kept below a node that is not kept, the nodes that are kept stand on the same
levels whether or not the others have children. -/
theorem filter_generation_pruned (hkeep : ∀ id, keep id = false → ∀ c ∈ children id, keep c = false)
    (n : Nat) {as bs : List NodeId} (h : as.filter keep = bs.filter keep) :
    (generation (pruned children keep) n as).filter keep =
      (generation children n bs).filter keep := by
  induction n generalizing as bs with
  | zero => exact h
  | succ n ih =>
    apply ih
    -- children of nodes that are not kept fall to the filter in both lists
    have hsplit (ids : List NodeId) : (ids.flatMap children).filter keep =
        (ids.filter keep).flatMap fun id => (children id).filter keep := by
      induction ids with
      | nil => rfl
      | cons id ids ihids =>
        cases hid : keep id with
        | true => simp [hid, ihids]
        | false => simp [hid, ihids]; exact hkeep id hid
    have hpruned (ids : List NodeId) : (ids.flatMap (pruned children keep)).filter keep =
        (ids.filter keep).flatMap fun id => (children id).filter keep := by
      induction ids with
      | nil => rfl
      | cons id ids ihids =>
        cases hid : keep id with
        | true => simp [hid, ihids, pruned]
        | false => simp [hid, ihids, pruned]
    rw [hsplit, hpruned, h]

theorem find?_levels_pruned (hkeep : ∀ id, keep id = false → ∀ c ∈ children id, keep c = false)
    {test : NodeId → Bool} (htest : ∀ id, test id = true → keep id = true) (depth : Nat)
    (ids : List NodeId) :
    (levels (pruned children keep) depth ids).find? test = (levels children depth ids).find? test := by
  have hfilter (list : List NodeId) : list.find? test = (list.filter keep).find? test := by
    rw [List.find?_filter]
    congr 1
    funext id
    cases hid : test id with
    | true => simp [htest id hid]
    | false => simp
  rw [hfilter, hfilter (levels children depth ids), levels, levels, List.filter_flatMap,
    List.filter_flatMap]
  congr 2
  funext n
  exact filter_generation_pruned hkeep n rfl

end Pruned

/-! The queue of a search. -/

namespace Arena

variable {nodes : Array Node} {taken : List NodeId} {span : Span}

/-- The node has the span and is not taken. -/
def isWanted (nodes : Array Node) (taken : List NodeId) (span : Span) (id : NodeId) : Bool :=
  (get nodes id).span = span ∧ id ∉ taken

/-- The nodes that are looked at once a node itself has not been the one. -/
def entered (nodes : Array Node) (span : Span) : NodeId → List NodeId :=
  pruned (fun id => (get nodes id).children) fun id => (get nodes id).span.covers span

theorem search_nil (fuel : Nat) : search nodes taken span fuel [] = none := by
  cases fuel <;> rfl

theorem search_cons (fuel : Nat) (id : NodeId) (queue : List NodeId) :
    search nodes taken span (fuel + 1) (id :: queue) =
      if isWanted nodes taken span id then some id
      else search nodes taken span fuel (queue ++ entered nodes span id) := by
  simp only [search, isWanted, entered, pruned, decide_eq_true_eq]
  split
  · rfl
  · split
    · rfl
    · rw [List.append_nil]

/-- The nodes at the front of the queue are looked at in turn; then the queue has come to what is one
link below them. -/
theorem search_append (nodes : Array Node) (taken : List NodeId) (span : Span) (fuel : Nat)
    (as bs : List NodeId) :
    search nodes taken span (as.length + fuel) (as ++ bs) =
      (as.find? (isWanted nodes taken span)).or
        (search nodes taken span fuel (bs ++ as.flatMap (entered nodes span))) := by
  induction as generalizing bs with
  | nil => simp
  | cons id as ih =>
    rw [List.length_cons, Nat.add_right_comm, List.cons_append, search_cons]
    split
    · rename_i hid
      simp [hid]
    · rename_i hid
      rw [List.append_assoc, ih, List.find?_cons_of_neg hid, List.flatMap_cons, List.append_assoc]

/-- With steps enough for all levels, the search goes through the levels. -/
theorem search_eq_find?_levels (depth : Nat) {fuel : Nat} {ids : List NodeId}
    (hend : generation (entered nodes span) depth ids = [])
    (hfuel : (levels (entered nodes span) depth ids).length ≤ fuel) :
    search nodes taken span fuel ids =
      (levels (entered nodes span) depth ids).find? (isWanted nodes taken span) := by
  induction depth generalizing ids fuel with
  | zero =>
    obtain rfl : ids = [] := hend
    rw [search_nil, levels_zero, List.find?_nil]
  | succ depth ih =>
    rw [levels_succ, List.length_append] at hfuel
    obtain ⟨more, rfl⟩ := Nat.exists_eq_add_of_le (Nat.le_of_add_right_le hfuel)
    have hstep := search_append nodes taken span more ids []
    rw [List.append_nil, List.nil_append, ih hend (by omega)] at hstep
    rw [hstep, levels_succ, List.find?_append]

end Arena

/-! What is below a node of a document. -/

namespace Document

variable {doc : Document} {id : Nat}

/-- Everything below a node, breadth first. -/
def breadthFirst (doc : Document) (id : NodeId) : List NodeId :=
  levels doc.children doc.size (doc.children id)

/-- The first node below the owner, breadth first, that has the span and is not claimed. -/
def unclaimed? (doc : Document) (owner : NodeId) (claimed : List NodeId) (span : Span) :
    Option NodeId :=
  (doc.breadthFirst owner).find? fun id => doc.span id = span ∧ id ∉ claimed

mutual

/-- The levels of a tree hold its nodes. -/
theorem Holds.levels_perm : ∀ {outer : Option NodeId} {id : Nat} (depth : Nat) (t : Tree),
    doc.Holds outer id t → t.size ≤ depth →
      (levels doc.children depth [id]).Perm (List.range' id t.size) ∧
        generation doc.children depth [id] = []
  | _, id, 0, t => by
    intro _ hdepth
    have := t.size_pos
    omega
  | _, id, depth + 1, .node element children => by
    intro h hdepth
    rw [Holds] at h
    rw [Tree.size] at hdepth ⊢
    obtain ⟨hperm, hend⟩ := HoldsAll.levels_perm depth children h.2.2 (by omega)
    rw [← h.2.1] at hperm hend
    rw [levels_succ, generation, List.flatMap_singleton, Nat.add_comm, List.range'_succ]
    exact ⟨hperm.cons id, hend⟩

theorem HoldsAll.levels_perm : ∀ {p next : Nat} (depth : Nat) (ts : List Tree),
    doc.HoldsAll p next ts → Tree.sizeAll ts ≤ depth →
      (levels doc.children depth (Tree.childIds next ts)).Perm
        (List.range' next (Tree.sizeAll ts)) ∧
        generation doc.children depth (Tree.childIds next ts) = []
  | _, next, depth, [] => by
    intro _ _
    rw [Tree.childIds, Tree.sizeAll]
    simp
  | _, next, depth, t :: ts => by
    intro h hdepth
    rw [HoldsAll] at h
    rw [Tree.sizeAll] at hdepth ⊢
    obtain ⟨hfirst, hfirstEnd⟩ := Holds.levels_perm depth t h.1 (by omega)
    obtain ⟨hlater, hlaterEnd⟩ := HoldsAll.levels_perm depth ts h.2 (by omega)
    rw [Tree.childIds, ← List.singleton_append, generation_append, hfirstEnd, hlaterEnd,
      ← List.range'_append_1]
    exact ⟨(levels_append_perm depth _ _).trans (hfirst.append hlater), rfl⟩

end

namespace WellFormed

variable (hdoc : doc.WellFormed)

include hdoc

/-- Breadth first or in visiting order, below a node there are the same nodes. -/
theorem breadthFirst_perm (hid : id < doc.size) :
    ∃ n, id + n < doc.size ∧ doc.descendants id = id :: List.range' (id + 1) n ∧
      (doc.breadthFirst id).Perm (List.range' (id + 1) n) ∧
      generation doc.children doc.size (doc.children id) = [] := by
  obtain ⟨t, ht, hstop⟩ := hdoc.exists_holds hid
  have hdescend : doc.descend doc.size [id] = List.range' id t.size := ht.descend_single (by omega)
  cases t with
  | node element children =>
    rw [Tree.size] at hstop hdescend
    rw [Holds] at ht
    obtain ⟨hperm, hend⟩ := HoldsAll.levels_perm doc.size children ht.2.2 (by omega)
    rw [← ht.2.1] at hperm hend
    refine ⟨Tree.sizeAll children, by omega, ?_, hperm, hend⟩
    rw [descendants, hdescend, Nat.add_comm 1, List.range'_succ]

theorem breadthFirst_nodup (hid : id < doc.size) : (doc.breadthFirst id).Nodup := by
  obtain ⟨n, _, _, hperm, _⟩ := hdoc.breadthFirst_perm hid
  exact hperm.nodup_iff.mpr List.nodup_range'

theorem length_breadthFirst_le (hid : id < doc.size) :
    (doc.breadthFirst id).length ≤ doc.size := by
  obtain ⟨n, hn, _, hperm, _⟩ := hdoc.breadthFirst_perm hid
  rw [hperm.length_eq, List.length_range']
  omega

/-- The nodes below a node are those to which parent links lead from it. -/
theorem mem_breadthFirst_iff (hid : id < doc.size) {d : Nat} :
    d ∈ doc.breadthFirst id ↔ doc.Above id d := by
  obtain ⟨n, _, hdescend, hperm, _⟩ := hdoc.breadthFirst_perm hid
  have hwithin := hdoc.mem_descendants_iff hid (d := d)
  rw [hdescend, List.mem_cons, Relation.reflTransGen_iff_eq_or_transGen] at hwithin
  rw [hperm.mem_iff]
  constructor
  · intro hd
    have hne : d ≠ id := by
      have := (List.mem_range'_1.mp hd).1
      omega
    exact (hwithin.mp (.inr hd)).resolve_left hne
  · intro habove
    have hlt : id < d := by
      obtain ⟨p, hp, hstep⟩ := Relation.TransGen.tail'_iff.mp habove
      have hle := hdoc.le_of_within hp
      have hlt := hdoc.parent_lt hstep
      omega
    exact (hwithin.mpr (.inr habove)).resolve_left (by omega)

/-- The search in the arena looks for the same node as one that looks into everything. -/
theorem below?_eq_unclaimed? (hnested : doc.Nested) (hid : id < doc.size) (taken : List NodeId)
    (span : Span) :
    Arena.below? doc.nodes (doc.node id) taken span = doc.unclaimed? id taken span := by
  -- a node with the span lies in nodes that cover it, so none is below one that does not
  have hkeep : ∀ a : Nat, (doc.span a).covers span = false →
      ∀ c ∈ doc.children a, (doc.span c).covers span = false := by
    intro a ha c hc
    rw [Bool.eq_false_iff] at ha ⊢
    intro hcovers
    exact ha (Span.covers_trans (hnested a c (hdoc.mem_children_iff.mp hc)) hcovers)
  have htest : ∀ d : Nat, Arena.isWanted doc.nodes taken span d = true →
      (doc.span d).covers span = true := by
    intro d hd
    have hspan : doc.span d = span := (of_decide_eq_true hd).1
    rw [hspan]
    exact Span.covers_refl span
  obtain ⟨_, _, _, _, hend⟩ := hdoc.breadthFirst_perm hid
  have hsub := levels_pruned_sublist doc.children (fun a => (doc.span a).covers span) doc.size
    (doc.children id)
  have hlast : generation (Arena.entered doc.nodes span) doc.size (doc.children id) = [] := by
    refine List.sublist_nil.mp ?_
    rw [← hend]
    exact generation_pruned_sublist doc.size (List.Sublist.refl _)
  calc Arena.below? doc.nodes (doc.node id) taken span
      = (levels (Arena.entered doc.nodes span) doc.size (doc.children id)).find?
          (Arena.isWanted doc.nodes taken span) :=
        Arena.search_eq_find?_levels doc.size hlast
          (Nat.le_trans hsub.length_le (hdoc.length_breadthFirst_le hid))
    _ = (doc.breadthFirst id).find? (Arena.isWanted doc.nodes taken span) :=
        find?_levels_pruned hkeep htest doc.size (doc.children id)
    _ = doc.unclaimed? id taken span := rfl

end WellFormed

end Document

/-! Filling slots. -/

/-- The spans that a slot asks for, in order. The slot for a child of a kind asks for none. -/
def Pending.spans : Pending → List Span
  | .one span => [span]
  | .many spans => spans
  | .childOf _ => []

namespace Document

variable {doc : Document} {owner : NodeId}

/-- What a slot is filled with once the spans that it asks for are answered. Spans for which there is
no node are dropped, and with its only span a slot for one node. -/
def slotsFor (doc : Document) (owner : NodeId) (slot : String × Pending)
    (answers : List (Option NodeId)) : List (String × Slot) :=
  match slot.2 with
  | .one _ => answers.reduceOption.map fun id => (slot.1, .one id)
  | .many _ => [(slot.1, .many answers.reduceOption)]
  | .childOf kind => (doc.firstChildOfKind? owner kind).toList.map fun id => (slot.1, .one id)

@[simp] theorem slotsFor_one (name : String) (span : Span) (answers : List (Option NodeId)) :
    doc.slotsFor owner (name, .one span) answers =
      answers.reduceOption.map fun id => (name, .one id) := rfl
@[simp] theorem slotsFor_many (name : String) (spans : List Span) (answers : List (Option NodeId)) :
    doc.slotsFor owner (name, .many spans) answers = [(name, .many answers.reduceOption)] := rfl
@[simp] theorem slotsFor_childOf (name : String) (kind : NodeKind)
    (answers : List (Option NodeId)) :
    doc.slotsFor owner (name, .childOf kind) answers =
      (doc.firstChildOfKind? owner kind).toList.map fun id => (name, .one id) := rfl

/-- Answer spans one after another, after the answers that were given before. -/
def answers (doc : Document) (owner : NodeId) (before : List (Option NodeId)) :
    List Span → List (Option NodeId)
  | [] => []
  | span :: rest =>
    let answer := doc.unclaimed? owner before.reduceOption span
    answer :: doc.answers owner (before ++ [answer]) rest

/-- The answers for each slot. -/
def answersFor (doc : Document) (owner : NodeId) (before : List (Option NodeId)) :
    List (String × Pending) → List (List (Option NodeId))
  | [] => []
  | slot :: rest =>
    let found := doc.answers owner before slot.2.spans
    found :: doc.answersFor owner (before ++ found) rest

theorem length_answers (before : List (Option NodeId)) (spans : List Span) :
    (doc.answers owner before spans).length = spans.length := by
  induction spans generalizing before with
  | nil => rfl
  | cons span rest ih => simp [answers, ih]

theorem answers_append (before : List (Option NodeId)) (as bs : List Span) :
    doc.answers owner before (as ++ bs) =
      doc.answers owner before as ++ doc.answers owner (before ++ doc.answers owner before as) bs := by
  induction as generalizing before with
  | nil => simp [answers]
  | cons span as ih => simp [answers, ih]

theorem map_length_answersFor (before : List (Option NodeId)) (pending : List (String × Pending)) :
    (doc.answersFor owner before pending).map List.length =
      pending.map fun slot => slot.2.spans.length := by
  induction pending generalizing before with
  | nil => rfl
  | cons slot rest ih => simp [answersFor, length_answers, ih]

theorem flatten_answersFor (before : List (Option NodeId)) (pending : List (String × Pending)) :
    (doc.answersFor owner before pending).flatten =
      doc.answers owner before (pending.flatMap fun slot => slot.2.spans) := by
  induction pending generalizing before with
  | nil => rfl
  | cons slot rest ih => simp [answersFor, answers_append, ih]

/-- Each answer is the first node that no earlier answer has claimed. -/
theorem answers_getElem? (before : List (Option NodeId)) {spans : List Span} {i : Nat} {span : Span}
    (h : spans[i]? = some span) :
    (doc.answers owner before spans)[i]? =
      some (doc.unclaimed? owner
        (before ++ (doc.answers owner before spans).take i).reduceOption span) := by
  induction spans generalizing before i with
  | nil => cases h
  | cons first rest ih =>
    cases i with
    | zero =>
      obtain rfl : first = span := Option.some.inj h
      simp [answers]
    | succ i => simp [answers, ih _ h]

theorem not_mem_of_unclaimed? {claimed : List NodeId} {span : Span} {d : NodeId}
    (h : doc.unclaimed? owner claimed span = some d) : d ∉ claimed := by
  have htest := List.find?_some h
  exact (of_decide_eq_true htest).2

theorem nodup_answers {before : List (Option NodeId)} (hbefore : before.reduceOption.Nodup)
    (spans : List Span) : (before ++ doc.answers owner before spans).reduceOption.Nodup := by
  induction spans generalizing before with
  | nil => simpa [answers] using hbefore
  | cons span rest ih =>
    have hnext : (before ++ [doc.unclaimed? owner before.reduceOption span]).reduceOption.Nodup := by
      rw [List.reduceOption_append, List.reduceOption_singleton]
      cases hfound : doc.unclaimed? owner before.reduceOption span with
      | none => simpa using hbefore
      | some d =>
        refine List.nodup_append'.mpr ⟨hbefore, List.nodup_singleton d, ?_⟩
        simpa using not_mem_of_unclaimed? hfound
    have hrest := ih hnext
    rwa [List.append_assoc] at hrest

theorem unclaimed?_congr {as bs : List NodeId} (h : ∀ d, d ∈ as ↔ d ∈ bs) (span : Span) :
    doc.unclaimed? owner as span = doc.unclaimed? owner bs span := by
  simp only [unclaimed?, h]

section Fill

variable {nodes : Array Node} {node : Node}
  (hfind : ∀ taken span, Arena.below? nodes node taken span = doc.unclaimed? owner taken span)

include hfind

theorem pickAll_eq {taken : List NodeId} {before : List (Option NodeId)}
    (htaken : ∀ d, d ∈ taken ↔ d ∈ before.reduceOption) (spans : List Span) :
    Arena.pickAll nodes node taken spans = (doc.answers owner before spans).reduceOption := by
  induction spans generalizing taken before with
  | nil => rfl
  | cons span rest ih =>
    rw [Arena.pickAll, hfind, unclaimed?_congr htaken, answers]
    cases hfound : doc.unclaimed? owner before.reduceOption span with
    | none =>
      rw [List.reduceOption_cons_of_none]
      exact ih (by simpa [List.reduceOption_append] using htaken)
    | some d =>
      rw [List.reduceOption_cons_of_some]
      refine congrArg (d :: ·) (ih ?_)
      intro e
      simp [List.reduceOption_append, htaken, or_comm]

/-- What fills the slots comes of the answers to all their spans in order. -/
theorem fill_eq (hchild : ∀ kind, (node.children.find? fun id => (Arena.get nodes id).kind = kind) =
      doc.firstChildOfKind? owner kind)
    {taken : List NodeId} {before : List (Option NodeId)}
    (htaken : ∀ d, d ∈ taken ↔ d ∈ before.reduceOption) (pending : List (String × Pending)) :
    Arena.fill nodes node taken pending =
      (List.zipWith (doc.slotsFor owner) pending (doc.answersFor owner before pending)).flatten := by
  induction pending generalizing taken before with
  | nil => rfl
  | cons slot rest ih =>
    obtain ⟨name, slot⟩ := slot
    rw [answersFor, List.zipWith_cons_cons, List.flatten_cons]
    cases slot with
    | one span =>
      rw [Arena.fill, hfind, unclaimed?_congr htaken, Pending.spans, answers, answers, slotsFor_one]
      cases hfound : doc.unclaimed? owner before.reduceOption span with
      | none => exact ih (by simpa [List.reduceOption_append] using htaken)
      | some d =>
        refine congrArg ((name, Slot.one d) :: ·) (ih ?_)
        intro e
        simp [List.reduceOption_append, htaken, or_comm]
    | many spans =>
      rw [Arena.fill, pickAll_eq hfind htaken, Pending.spans, slotsFor_many]
      refine congrArg (_ :: ·) (ih ?_)
      intro e
      simp [List.reduceOption_append, htaken, or_comm]
    | childOf kind =>
      rw [Arena.fill, hchild, Pending.spans, answers, slotsFor_childOf, List.append_nil]
      have hrest := ih htaken
      cases doc.firstChildOfKind? owner kind with
      | none => exact hrest
      | some child => exact congrArg ((name, Slot.one child) :: ·) hrest

end Fill

variable {source : Text} {file : ParsedFile} {resolved : Bool}

theorem children_skeleton (h : build source file resolved = .ok doc) :
    (skeleton file resolved).children = doc.children := by
  funext id
  rw [children, children, build_node h, skeleton, node_ofDrafts]
  cases (file.tree.drafts resolved none root)[id]? <;> rfl

/-- Filling the slots changes nothing about the nodes below an owner. -/
theorem unclaimed?_skeleton (h : build source file resolved = .ok doc) :
    (skeleton file resolved).unclaimed? = doc.unclaimed? := by
  have hsize : (skeleton file resolved).size = doc.size := by
    rw [skeleton, size_ofDrafts, (build_indexes h).2]
  have hspan : (skeleton file resolved).span = doc.span :=
    funext fun id => (agreeAt_skeleton h id).span.symm
  funext owner claimed span
  simp only [unclaimed?, breadthFirst, children_skeleton h, hsize, hspan]

section Skeleton

variable (h : build source file resolved = .ok doc) {id : Nat} {draft : Draft}
  (hdraft : (file.tree.drafts resolved none root)[id]? = some draft)

include h hdraft

theorem below?_skeleton (taken : List NodeId) (span : Span) :
    Arena.below? (skeleton file resolved).nodes draft.node taken span =
      doc.unclaimed? id taken span := by
  have hnode : (skeleton file resolved).node id = draft.node := by
    rw [skeleton, node_ofDrafts, hdraft]
    rfl
  have hid : id < (skeleton file resolved).size := by
    rw [skeleton, size_ofDrafts]
    exact (List.getElem?_eq_some_iff.mp hdraft).1
  have hnested : (skeleton file resolved).Nested := fun p c hp =>
    (exists_build_iff.mp ⟨doc, h⟩ c (lt_size_of_parent hp)).nested p hp
  have hshape : (skeleton file resolved).WellFormed := (indexes_ofDrafts _).wellFormed
  rw [← hnode, hshape.below?_eq_unclaimed? hnested hid, unclaimed?_skeleton h]

theorem firstChildOfKind?_skeleton (kind : NodeKind) :
    (draft.node.children.find? fun c => (Arena.get (skeleton file resolved).nodes c).kind = kind) =
      doc.firstChildOfKind? id kind := by
  have hchildren : draft.node.children = doc.children id := by
    rw [children, build_node h, hdraft]
    rfl
  have hkind : (fun c => (Arena.get (skeleton file resolved).nodes c).kind) = doc.kind :=
    funext fun c => (agreeAt_skeleton h c).kind.symm
  rw [firstChildOfKind?, hchildren, ← hkind]

end Skeleton

/-- Each span that a slot of a node asks for is answered with the first node below, breadth first,
that has the span and is not the answer to an earlier one, and dropped only if there is none. The
search that looks only into nodes that cover the span finds the same nodes, and no node is the answer
to two spans. -/
theorem slots_filled_breadth_first (h : build source file resolved = .ok doc) {id : Nat}
    {draft : Draft} (hdraft : (file.tree.drafts resolved none root)[id]? = some draft) :
    (∀ d, d ∈ doc.breadthFirst id ↔ doc.Above id d) ∧ (doc.breadthFirst id).Nodup ∧
    (∀ claimed span, Arena.below? doc.nodes (doc.node id) claimed span =
      doc.unclaimed? id claimed span) ∧
    (∀ claimed span, doc.unclaimed? id claimed span = none ↔
      ∀ d, doc.Above id d → doc.span d = span → d ∈ claimed) ∧
    ∃ answers : List (List (Option NodeId)),
      answers.map List.length = draft.pending.map (fun slot => slot.2.spans.length) ∧
      (∀ i span, (draft.pending.flatMap fun slot => slot.2.spans)[i]? = some span →
        answers.flatten[i]? =
          some (doc.unclaimed? id (answers.flatten.take i).reduceOption span)) ∧
      (doc.node id).slots = (List.zipWith (doc.slotsFor id) draft.pending answers).flatten ∧
      answers.flatten.reduceOption.Nodup := by
  have hdoc := build_wellFormed h
  have hid : id < doc.size := by
    rw [(build_indexes h).2]
    exact (List.getElem?_eq_some_iff.mp hdraft).1
  refine ⟨fun d => hdoc.mem_breadthFirst_iff hid, hdoc.breadthFirst_nodup hid,
    hdoc.below?_eq_unclaimed? (build_nested h) hid, ?_, doc.answersFor id [] draft.pending,
    map_length_answersFor _ _, ?_, ?_, ?_⟩
  · intro claimed span
    simp [unclaimed?, hdoc.mem_breadthFirst_iff hid]
  · intro i span hspan
    rw [flatten_answersFor, answers_getElem? [] hspan, List.nil_append]
  · rw [build_node h id, hdraft, Option.map_some, Option.getD_some]
    exact fill_eq (below?_skeleton h hdraft) (firstChildOfKind?_skeleton h hdraft) (by simp) _
  · have hnone : ([] : List (Option NodeId)).reduceOption.Nodup := List.nodup_nil
    rw [flatten_answersFor]
    exact nodup_answers hnone _

/-- `({a})`, where a name and a reference stand at the same place in a property of the same span. -/
def shorthandFile : ParsedFile where
  tree :=
    .node ⟨"Program", ⟨0, 5⟩, [("body", .parts [⟨0, 5⟩])]⟩
      [.node ⟨"ExpressionStatement", ⟨0, 5⟩, [("expression", .part ⟨0, 5⟩)]⟩
        [.node ⟨"ParenthesizedExpression", ⟨0, 5⟩, [("expression", .part ⟨1, 4⟩)]⟩
          [.node ⟨"ObjectExpression", ⟨1, 4⟩, [("properties", .parts [⟨2, 3⟩])]⟩
            [.node ⟨"ObjectProperty", ⟨2, 3⟩,
              [("key", .part ⟨2, 3⟩), ("value", .part ⟨2, 3⟩), ("shorthand", .set)]⟩
              [.node ⟨"IdentifierName", ⟨2, 3⟩, []⟩ [],
                .node ⟨"IdentifierReference", ⟨2, 3⟩, []⟩ []]]]]]
  comments := []

/-- The key is the first of the two, and the value the one that the key has left. -/
theorem slots_filled_breadth_first_shorthandFile :
    ∃ doc draft, build "(\x7ba\x7d)".toList shorthandFile true = .ok doc ∧
      (shorthandFile.tree.drafts true none root)[4]? = some draft ∧
      (doc.node 4).slots = [("key", .one 5), ("value", .one 6)] ∧
      Arena.below? doc.nodes (doc.node 4) [5] ⟨2, 3⟩ = doc.unclaimed? 4 [5] ⟨2, 3⟩ ∧
      ∃ answers : List (List (Option NodeId)),
        (doc.node 4).slots = (List.zipWith (doc.slotsFor 4) draft.pending answers).flatten ∧
        answers.flatten.reduceOption.Nodup := by
  obtain ⟨doc, hbuild, htest⟩ : ∃ doc,
      build "(\x7ba\x7d)".toList shorthandFile true = .ok doc ∧
        ((doc.node 4).slots == [("key", .one 5), ("value", .one 6)]) = true :=
    exists_build_of_any (by decide +kernel)
  have hsome : (shorthandFile.tree.drafts true none root)[4]?.isSome = true := by decide +kernel
  obtain ⟨draft, hdraft⟩ := Option.isSome_iff_exists.mp hsome
  obtain ⟨_, _, hsearch, _, answers, _, _, hslots, hnodup⟩ :=
    slots_filled_breadth_first hbuild hdraft
  exact ⟨doc, draft, hbuild, hdraft, eq_of_beq htest, hsearch _ _, answers, hslots, hnodup⟩

end Document

end ScriptLint

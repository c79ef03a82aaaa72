import ScriptLint.Proofs.Tree.Walks

/-!
Which trees are refused, and for what. A node fits if its span is in order, ends in the text and lies
in the span of its parent. While a tree is visited, a recorder notes the first node that does not fit
and goes on indexing; after any visits the note is what a look at the whole arena would give
(`Recorder.run_error`), because whatever is entered later changes neither span nor kind nor parent of
an earlier node. Documents are built exactly if all nodes fit, so the span of a node lies in those of
all nodes above it (`Document.Nested.covers_of_within`).
-/
namespace ScriptLint

theorem findSome?_range_eq_some_iff {β : Type} {n : Nat} {f : Nat → Option β} {b : β} :
    (List.range n).findSome? f = some b ↔
      ∃ i, i < n ∧ (∀ j, j < i → f j = none) ∧ f i = some b := by
  induction n with
  | zero => simp
  | succ n ih =>
    rw [List.range_succ, List.findSome?_append, Option.or_eq_some_iff, ih,
      List.findSome?_eq_none_iff]
    simp only [List.mem_range, List.findSome?_singleton]
    constructor
    · rintro (⟨i, hi, hbefore, hfound⟩ | ⟨hbefore, hfound⟩)
      · exact ⟨i, by omega, hbefore, hfound⟩
      · exact ⟨n, by omega, hbefore, hfound⟩
    · rintro ⟨i, hi, hbefore, hfound⟩
      by_cases hlast : i = n
      · subst hlast
        exact .inr ⟨hbefore, hfound⟩
      · exact .inl ⟨i, by omega, hbefore, hfound⟩

namespace Document

/-- The span of the node is in order, ends in a text of the width, and lies in that of its parent. -/
structure Fits (doc : Document) (width : Nat) (id : NodeId) : Prop where
  ordered : (doc.span id).start ≤ (doc.span id).stop
  bounded : (doc.span id).stop ≤ width
  nested : ∀ p, doc.parent id = some p → (doc.span p).covers (doc.span id) = true

/-- What is said of a node that does not fit. Where its span leaves the text, that is said and
nothing about its parent. -/
inductive Misfit (doc : Document) (width : Nat) (id : NodeId) : TreeError → Prop
  | outOfBounds (h : (doc.span id).start ≤ (doc.span id).stop → width < (doc.span id).stop) :
    Misfit doc width id (.outOfBounds (doc.span id) width)
  | outsideParent {p : NodeId} (hordered : (doc.span id).start ≤ (doc.span id).stop)
    (hbounded : (doc.span id).stop ≤ width) (hparent : doc.parent id = some p)
    (h : (doc.span p).covers (doc.span id) = false) :
    Misfit doc width id (.outsideParent (doc.kind id) (doc.span id) (doc.kind p) (doc.span p))

/-- What is wrong with the span of a node, if anything. -/
def fault? (doc : Document) (width : Nat) (id : NodeId) : Option TreeError :=
  Arena.fault? width doc.nodes (doc.node id)

/-- What is wrong with the first node that does not fit. -/
def firstFault? (doc : Document) (width : Nat) : Option TreeError :=
  doc.ids.findSome? (doc.fault? width)

variable {doc other : Document} {width : Nat} {id : Nat}

theorem fault?_eq (doc : Document) (width : Nat) (id : NodeId) :
    doc.fault? width id =
      if width < (doc.span id).stop ∨ (doc.span id).stop < (doc.span id).start then
        some (.outOfBounds (doc.span id) width)
      else (doc.parent id).bind fun p =>
        if (doc.span p).covers (doc.span id) then none
        else some (.outsideParent (doc.kind id) (doc.span id) (doc.kind p) (doc.span p)) := by
  rw [fault?, Arena.fault?]
  cases hp : doc.parent id with
  | none => simp only [parent] at hp; simp only [hp]; rfl
  | some p => simp only [parent] at hp; simp only [hp]; rfl

theorem fault?_eq_none_iff : doc.fault? width id = none ↔ doc.Fits width id := by
  rw [fault?_eq]
  split
  · rename_i hbounds
    refine iff_of_false (by simp) fun h => ?_
    have := h.ordered
    have := h.bounded
    omega
  · rename_i hbounds
    simp only [Option.bind_eq_none_iff, ite_eq_left_iff, reduceCtorEq, imp_false, Bool.not_eq_true,
      Bool.not_eq_false]
    exact ⟨fun h => ⟨by omega, by omega, h⟩, fun h => h.nested⟩

theorem fault?_eq_some_iff {error : TreeError} :
    doc.fault? width id = some error ↔ doc.Misfit width id error := by
  rw [fault?_eq]
  constructor
  · intro h
    split at h
    · cases h
      exact .outOfBounds (by omega)
    · obtain ⟨p, hp, h⟩ := Option.bind_eq_some_iff.mp h
      split at h
      · cases h
      · rename_i houtside
        cases h
        exact .outsideParent (by omega) (by omega) hp (by simpa using houtside)
  · intro h
    cases h with
    | outOfBounds h => rw [if_pos (by omega)]
    | outsideParent hordered hbounded hparent h => rw [if_neg (by omega), hparent]; simp [h]

theorem firstFault?_eq_none_iff :
    doc.firstFault? width = none ↔ ∀ id, id < doc.size → doc.Fits width id := by
  simp [firstFault?, ids, fault?_eq_none_iff]

theorem firstFault?_eq_some_iff {error : TreeError} :
    doc.firstFault? width = some error ↔
      ∃ id, id < doc.size ∧ (∀ earlier, earlier < id → doc.Fits width earlier) ∧
        doc.Misfit width id error := by
  simp only [firstFault?, ids, findSome?_range_eq_some_iff, fault?_eq_none_iff, fault?_eq_some_iff]

/-! What a fault depends on. -/

/-- The node has the same kind, span and parent in both documents. -/
structure AgreeAt (doc other : Document) (id : NodeId) : Prop where
  kind : doc.kind id = other.kind id
  span : doc.span id = other.span id
  parent : doc.parent id = other.parent id

theorem fault?_congr (hid : doc.AgreeAt other id)
    (hparent : ∀ p, other.parent id = some p → doc.AgreeAt other p) :
    doc.fault? width id = other.fault? width id := by
  rw [fault?_eq, fault?_eq, hid.kind, hid.span, hid.parent]
  cases hp : other.parent id with
  | none => rfl
  | some p => simp [(hparent p hp).kind, (hparent p hp).span]

theorem node_ofDrafts (drafts : List Draft) (id : Nat) :
    (ofDrafts drafts).node id = (drafts[id]?.map (·.node)).getD .absent := by
  simp only [node, Arena.get, ofDrafts, Array.getD_eq_getD_getElem?, List.getElem?_toArray,
    List.getElem?_map]

@[simp] theorem size_ofDrafts (drafts : List Draft) : (ofDrafts drafts).size = drafts.length := by
  simp [size, ofDrafts]

end Document

/-! Faults noted while a tree is visited. -/

namespace Indexer

variable {resolved : Bool} {indexer : Indexer}

/-- The nodes that have been entered so far. -/
def arena (indexer : Indexer) : Document := .ofDrafts indexer.drafts

/-- Nodes that are open, and parents, are among the nodes entered so far. -/
structure Linked (indexer : Indexer) : Prop where
  stack : ∀ entry ∈ indexer.stack, entry.1 < indexer.drafts.length
  parent : ∀ id p : Nat, indexer.arena.parent id = some p → p < indexer.drafts.length

theorem length_enter (resolved : Bool) (indexer : Indexer) (element : Element) :
    (indexer.enter resolved element).drafts.length = indexer.drafts.length + 1 := by
  simp [enter]

/-- The node that is entered last. -/
theorem parent_enter_last (resolved : Bool) (indexer : Indexer) (element : Element) :
    (indexer.enter resolved element).arena.parent indexer.drafts.length =
      indexer.stack.head?.map (·.1) := by
  have hlength := indexer.length_linked indexer.drafts.length
  rw [arena, Document.parent, Document.node_ofDrafts, enter]
  simp [hlength]

/-- Entering a node changes nothing about an earlier one but its children. -/
theorem agreeAt_enter (resolved : Bool) (element : Element) {id : Nat}
    (hid : id < indexer.drafts.length) :
    (indexer.enter resolved element).arena.AgreeAt indexer.arena id := by
  have hlength := indexer.length_linked indexer.drafts.length
  have hnode : (indexer.enter resolved element).arena.node id =
      (((indexer.linked indexer.drafts.length)[id]?).map (·.node)).getD .absent := by
    rw [arena, Document.node_ofDrafts, enter, List.getElem?_append_left (by omega)]
  have hsame : ∃ children, (indexer.enter resolved element).arena.node id =
      { indexer.arena.node id with children := children } := by
    rw [hnode, arena, Document.node_ofDrafts, linked]
    cases indexer.stack with
    | nil => exact ⟨_, rfl⟩
    | cons top stack =>
      simp only [List.getElem?_modify, List.getElem?_eq_getElem hid]
      by_cases htop : top.1 = id
      · exact ⟨(indexer.drafts[id]).node.children ++ [indexer.drafts.length], by
          simp [htop, Draft.addChildren]⟩
      · exact ⟨(indexer.drafts[id]).node.children, by simp [htop]⟩
  obtain ⟨children, hsame⟩ := hsame
  constructor
  · simp only [Document.kind, hsame]
  · simp only [Document.span, hsame]
  · simp only [Document.parent, hsame]

theorem Linked.enter (h : indexer.Linked) (element : Element) :
    (indexer.enter resolved element).Linked := by
  constructor
  · intro entry hentry
    rw [length_enter]
    rcases List.mem_cons.mp hentry with rfl | hentry
    · exact Nat.lt_succ_self _
    · exact Nat.lt_succ_of_lt (h.stack entry hentry)
  · intro id p hp
    rw [length_enter]
    have hid := Document.lt_size_of_parent hp
    rw [arena, Document.size_ofDrafts, length_enter] at hid
    -- the new node hangs under the top of the stack, every other one where it hung before
    by_cases hlast : id = indexer.drafts.length
    · subst hlast
      rw [parent_enter_last] at hp
      obtain ⟨entry, hentry, rfl⟩ := Option.map_eq_some_iff.mp hp
      exact Nat.lt_succ_of_lt (h.stack entry (List.mem_of_mem_head? hentry))
    · rw [(agreeAt_enter resolved element (by omega)).parent] at hp
      exact Nat.lt_succ_of_lt (h.parent id p hp)

theorem Linked.leave (h : indexer.Linked) : indexer.leave.Linked :=
  ⟨fun entry hentry => h.stack entry (List.mem_of_mem_tail hentry), h.parent⟩

/-- With one more node, the first fault is the one there was, or else that of the new node. -/
theorem firstFault?_enter (h : indexer.Linked) (width : Nat) (element : Element) :
    (indexer.enter resolved element).arena.firstFault? width =
      (indexer.arena.firstFault? width).or
        ((indexer.enter resolved element).arena.fault? width indexer.drafts.length) := by
  rw [Document.firstFault?, Document.firstFault?, Document.ids, Document.ids, arena, arena,
    Document.size_ofDrafts, Document.size_ofDrafts, length_enter, List.range_succ,
    List.findSome?_append, List.findSome?_singleton]
  congr 1
  -- an earlier node is judged as before: neither it nor its parent has changed
  rw [← List.head?_filterMap, ← List.head?_filterMap]
  congr 1
  refine List.filterMap_congr ?_
  intro id hid
  refine Document.fault?_congr (agreeAt_enter resolved element (List.mem_range.mp hid)) ?_
  intro p hp
  exact agreeAt_enter resolved element (h.parent id p hp)

end Indexer

/-- An indexer with the first fault that it came upon. -/
structure Recorder where
  indexer : Indexer
  error : Option TreeError

namespace Recorder

def empty : Recorder := ⟨.empty, none⟩

/-- A node is looked at when it is entered. A fault that is noted stays. -/
def step (resolved : Bool) (width : Nat) (recorder : Recorder) : Visit → Recorder
  | .enter element =>
    let indexer := recorder.indexer.enter resolved element
    let fault := indexer.arena.fault? width recorder.indexer.drafts.length
    ⟨indexer, recorder.error.or fault⟩
  | .leave => { recorder with indexer := recorder.indexer.leave }

def run (resolved : Bool) (width : Nat) (recorder : Recorder) (visits : List Visit) : Recorder :=
  visits.foldl (step resolved width) recorder

/-- The note is up to date. -/
structure Current (width : Nat) (recorder : Recorder) : Prop where
  linked : recorder.indexer.Linked
  error : recorder.error = recorder.indexer.arena.firstFault? width

theorem current_empty (width : Nat) : empty.Current width where
  linked := ⟨by simp [empty, Indexer.empty], by
    simp [empty, Indexer.empty, Indexer.arena, Document.parent, Document.node_ofDrafts,
      Node.absent]⟩
  error := rfl

variable {resolved : Bool} {width : Nat} {recorder : Recorder}

theorem step_indexer (visit : Visit) :
    (step resolved width recorder visit).indexer = recorder.indexer.step resolved visit := by
  cases visit <;> rfl

theorem Current.step (h : recorder.Current width) (visit : Visit) :
    (recorder.step resolved width visit).Current width := by
  cases visit with
  | enter element =>
    refine ⟨h.linked.enter element, ?_⟩
    rw [Recorder.step, h.error, Indexer.firstFault?_enter h.linked]
  | leave => exact ⟨h.linked.leave, h.error⟩

theorem run_indexer (visits : List Visit) :
    (run resolved width recorder visits).indexer = recorder.indexer.run resolved visits := by
  induction visits generalizing recorder with
  | nil => rfl
  | cons visit visits ih =>
    rw [run, List.foldl_cons, ← run, ih, step_indexer, Indexer.run_cons]

theorem Current.run (h : recorder.Current width) (visits : List Visit) :
    (recorder.run resolved width visits).Current width := by
  induction visits generalizing recorder with
  | nil => exact h
  | cons visit visits ih =>
    rw [Recorder.run, List.foldl_cons, ← Recorder.run]
    exact ih (h.step visit)

/-- After any visits, what is noted is the first fault among the nodes that were entered. -/
theorem run_error (resolved : Bool) (width : Nat) (visits : List Visit) :
    (run resolved width empty visits).error =
      (Indexer.run resolved .empty visits).arena.firstFault? width := by
  rw [((current_empty width).run visits).error, run_indexer]
  rfl

end Recorder

namespace Document

/-! Building. -/

variable {source : Text} {file : ParsedFile} {resolved : Bool} {doc : Document}

/-- The arena of a file before its slots are filled. -/
def skeleton (file : ParsedFile) (resolved : Bool) : Document :=
  ofDrafts (file.tree.drafts resolved none root)

theorem findSome?_fault?_nodes (doc : Document) (width : Nat) :
    doc.nodes.toList.findSome? (Arena.fault? width doc.nodes) = doc.firstFault? width := by
  have hnodes : doc.nodes.toList = doc.ids.map doc.node := by
    refine List.ext_getElem (by simp [ids, size]) ?_
    intro i hi _
    simp [ids, node, Arena.get, show i < doc.nodes.size by simpa using hi]
  rw [hnodes, List.findSome?_map]
  rfl

theorem build_eq_error_iff {error : TreeError} :
    build source file resolved = .error error ↔
      (skeleton file resolved).firstFault? (Text.width source) = some error := by
  have hnodes := findSome?_fault?_nodes (skeleton file resolved) (Text.width source)
  rw [build]
  dsimp only
  split
  · rename_i found hfound
    have hfirst := hnodes.symm.trans hfound
    simp [hfirst]
  · rename_i hfound
    have hfirst := hnodes.symm.trans hfound
    simp [hfirst]

theorem exists_build_iff :
    (∃ doc, build source file resolved = .ok doc) ↔
      ∀ id, id < (skeleton file resolved).size →
        (skeleton file resolved).Fits (Text.width source) id := by
  rw [← firstFault?_eq_none_iff]
  cases h : build source file resolved with
  | error error => simp [build_eq_error_iff.mp h]
  | ok doc =>
    refine iff_of_true ⟨doc, rfl⟩ (Option.eq_none_iff_forall_ne_some.mpr fun error herror => ?_)
    rw [build_eq_error_iff.mpr herror] at h
    cases h

/-- What is built are the nodes of the skeleton with their slots filled. -/
theorem build_node (h : build source file resolved = .ok doc) (id : Nat) :
    doc.node id = (((file.tree.drafts resolved none root)[id]?).map fun draft =>
      { draft.node with
        slots := Arena.fill (skeleton file resolved).nodes draft.node [] draft.pending }).getD
          .absent := by
  rw [build] at h
  dsimp only at h
  split at h
  · cases h
  · cases h
    simp only [node, Arena.get, Array.getD_eq_getD_getElem?, List.getElem?_toArray,
      List.getElem?_map]
    rfl

theorem agreeAt_skeleton (h : build source file resolved = .ok doc) (id : Nat) :
    doc.AgreeAt (skeleton file resolved) id := by
  have hnode := build_node h id
  have hbare := node_ofDrafts (file.tree.drafts resolved none root) id
  rw [← skeleton] at hbare
  cases hdraft : (file.tree.drafts resolved none root)[id]? with
  | none =>
    rw [hdraft] at hnode hbare
    constructor <;> simp [kind, span, parent, hnode, hbare]
  | some draft =>
    rw [hdraft] at hnode hbare
    constructor <;> simp [kind, span, parent, hnode, hbare]

/-- Spans of children lie in those of their parents. -/
def Nested (doc : Document) : Prop :=
  ∀ p c, doc.parent c = some p → (doc.span p).covers (doc.span c) = true

theorem build_nested (h : build source file resolved = .ok doc) : doc.Nested := by
  intro p c hp
  have hc := agreeAt_skeleton h c
  rw [hc.parent] at hp
  rw [hc.span, (agreeAt_skeleton h p).span]
  exact (exists_build_iff.mp ⟨doc, h⟩ c (lt_size_of_parent hp)).nested p hp

/-- The span of a node lies in that of every node in whose subtree it is. -/
theorem Nested.covers_of_within (hdoc : doc.Nested) {a id : Nat} (h : doc.Within id a) :
    (doc.span a).covers (doc.span id) = true := by
  induction h with
  | refl => exact Span.covers_refl _
  | tail _ hstep ih => exact Span.covers_trans ih (hdoc _ _ hstep)

/-- Of the visits of a tree, a document is built exactly if every node that is entered fits; else the
first node that does not fit is reported, as the recorder has it at the end of the visits. In what is
built, the span of a node lies in those of all nodes above it. -/
theorem build_refuses_first_misfit (visits : List Visit) (h : Visit.isBalanced visits = true)
    (resolved : Bool) (source : Text) :
    (∃ tree : Tree, tree.visits = visits) ∧
    ∀ (tree : Tree) (comments : List Comment), tree.visits = visits →
      ((∃ doc, build source ⟨tree, comments⟩ resolved = .ok doc) ↔
        ∀ id : Nat, id < (Indexer.run resolved .empty visits).arena.size →
          (Indexer.run resolved .empty visits).arena.Fits (Text.width source) id) ∧
      (∀ error, build source ⟨tree, comments⟩ resolved = .error error ↔
        ∃ id : Nat, id < (Indexer.run resolved .empty visits).arena.size ∧
          (∀ earlier : Nat, earlier < id →
            (Indexer.run resolved .empty visits).arena.Fits (Text.width source) earlier) ∧
          (Indexer.run resolved .empty visits).arena.Misfit (Text.width source) id error) ∧
      (∀ error, build source ⟨tree, comments⟩ resolved = .error error ↔
        (Recorder.run resolved (Text.width source) .empty visits).error = some error) ∧
      ∀ doc, build source ⟨tree, comments⟩ resolved = .ok doc →
        ∀ id, ∀ a ∈ doc.ancestors id, (doc.span a).covers (doc.span id) = true := by
  refine ⟨Visit.exists_tree h, ?_⟩
  rintro tree comments rfl
  have harena : (Indexer.run resolved .empty tree.visits).arena =
      skeleton ⟨tree, comments⟩ resolved := by
    rw [Indexer.arena, Indexer.run_visits]
    rfl
  rw [Recorder.run_error, harena]
  refine ⟨exists_build_iff, ?_, fun error => build_eq_error_iff, ?_⟩
  · intro error
    rw [build_eq_error_iff, firstFault?_eq_some_iff]
  · intro doc hdoc id a ha
    have hwithin := (build_wellFormed hdoc).mem_ancestors_iff.mp ha
    exact (build_nested hdoc).covers_of_within hwithin

/-- A statement that leaves both the text and the program, with a name that stands before it. -/
def strayVisits : List Visit :=
  [.enter ⟨"Program", ⟨0, 4⟩, []⟩,
    .enter ⟨"ExpressionStatement", ⟨2, 6⟩, []⟩,
      .enter ⟨"IdentifierReference", ⟨0, 1⟩, []⟩, .leave, .leave, .leave]

theorem build_refuses_first_misfit_strayVisits :
    Visit.isBalanced strayVisits = true ∧
    ∃ tree : Tree, tree.visits = strayVisits ∧
      build "a; b".toList ⟨tree, []⟩ true = .error (.outOfBounds ⟨2, 6⟩ 4) ∧
      (Recorder.run true 4 .empty strayVisits).error = some (.outOfBounds ⟨2, 6⟩ 4) ∧
      ¬∃ doc, build "a; b".toList ⟨tree, []⟩ true = .ok doc := by
  obtain ⟨⟨tree, htree⟩, hbuild⟩ :=
    build_refuses_first_misfit strayVisits (by decide) true "a; b".toList
  obtain ⟨_, hfirst, hnoted, _⟩ := hbuild tree [] htree
  have herror : build "a; b".toList ⟨tree, []⟩ true = .error (.outOfBounds ⟨2, 6⟩ 4) := by
    refine (hfirst _).mpr ⟨1, by decide +kernel, ?_, .outOfBounds (by decide +kernel)⟩
    intro earlier hearlier
    obtain rfl : earlier = 0 := by omega
    exact fault?_eq_none_iff.mp (by decide +kernel)
  refine ⟨by decide, tree, htree, herror, (hnoted _).mp herror, ?_⟩
  rintro ⟨doc, hdoc⟩
  rw [herror] at hdoc
  cases hdoc

end Document

end ScriptLint

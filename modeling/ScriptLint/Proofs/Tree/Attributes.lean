import Mathlib.Data.List.Perm.Subperm
import ScriptLint.Proofs.Number.Whole
import ScriptLint.Proofs.Tree.Slots
import ScriptLint.Selector.Match

/-!
Lists among the attributes of a node. The table of constructs decides what a name can stand for: where
no construct has a flag of the name and every slot of the name is one for many nodes
(`Layout.OnlyLists`), the attribute is the list in that slot, for every node of a document that was
built. The nodes in a list are distinct, so there are no more of them than nodes in the document
(`Document.length_slotNodes_le`), and a selector that compares the length of the list with a number
counts them (`Document.holds_length_iff`).
-/
namespace ScriptLint

def SlotRule.isMany : SlotRule → Bool
  | .many _ => true
  | _ => false

/-- Under the name there are only lists. -/
def Layout.OnlyLists (name : String) : Prop :=
  ∀ entry ∈ table, (∀ flag ∈ entry.2.flags, flag.1 ≠ name) ∧
    ∀ slot ∈ entry.2.slots, slot.1 = name → slot.2.isMany = true

instance (name : String) : Decidable (Layout.OnlyLists name) :=
  inferInstanceAs (Decidable (∀ entry ∈ _, (∀ flag ∈ _, _) ∧ ∀ slot ∈ _, _))

/-- The draft has the slots and the flags of some construct. -/
def Draft.Describes (resolved : Bool) (draft : Draft) : Prop :=
  ∃ (element : Element) (outer : Option Element),
    draft.pending = (element.describe resolved outer).pending ∧
      draft.node.flags = (element.describe resolved outer).flags

mutual

theorem Tree.describes_of_mem_drafts {resolved : Bool} {draft : Draft} :
    ∀ {outer : Option (NodeId × Element)} {id : NodeId} (t : Tree),
      draft ∈ t.drafts resolved outer id → draft.Describes resolved
  | outer, _, .node element children => by
    rw [Tree.drafts, List.mem_cons]
    intro h
    cases h with
    | inl h =>
      subst h
      exact ⟨element, outer.map (·.2), rfl, rfl⟩
    | inr h => exact Tree.describes_of_mem_draftsAll children h

theorem Tree.describes_of_mem_draftsAll {resolved : Bool} {draft : Draft} :
    ∀ {outer : NodeId × Element} {next : NodeId} (ts : List Tree),
      draft ∈ Tree.draftsAll resolved outer next ts → draft.Describes resolved
  | _, _, [] => by
    simp [Tree.draftsAll]
  | _, _, t :: ts => by
    rw [Tree.draftsAll, List.mem_append]
    intro h
    cases h with
    | inl h => exact Tree.describes_of_mem_drafts t h
    | inr h => exact Tree.describes_of_mem_draftsAll ts h

end

namespace Layout

variable {name : String} {resolved : Bool} {draft : Draft}

/-- What holds of the table holds of every construct, those that are not listed included. -/
theorem OnlyLists.ofConstruct (hname : OnlyLists name) (construct : String) :
    (∀ flag ∈ (ofConstruct construct).flags, flag.1 ≠ name) ∧
      ∀ slot ∈ (ofConstruct construct).slots, slot.1 = name → slot.2.isMany = true := by
  rw [Layout.ofConstruct]
  cases hlookup : table.lookup construct with
  | none => simp
  | some layout =>
    obtain ⟨before, after, htable, _⟩ := List.lookup_eq_some_iff.mp hlookup
    exact hname (construct, layout) (by simp [htable])

theorem OnlyLists.flag_ne (hname : OnlyLists name) (h : draft.Describes resolved) :
    ∀ flag ∈ draft.node.flags, flag.1 ≠ name := by
  obtain ⟨element, outer, _, hflags⟩ := h
  intro flag hflag
  rw [hflags] at hflag
  obtain ⟨entry, hentry, rfl⟩ := List.mem_map.mp hflag
  exact (hname.ofConstruct element.construct).1 entry hentry

theorem OnlyLists.eq_many (hname : OnlyLists name) (h : draft.Describes resolved) {p : Pending}
    (hp : (name, p) ∈ draft.pending) : ∃ spans, p = .many spans := by
  obtain ⟨element, outer, hpending, _⟩ := h
  rw [hpending] at hp
  obtain ⟨⟨key, rule⟩, hslot, hfound⟩ := List.mem_filterMap.mp hp
  have hmany := (hname.ofConstruct element.construct).2 (key, rule) hslot
  cases rule with
  | one member =>
    simp only [Element.pending?, Option.map_eq_some_iff, Prod.mk.injEq] at hfound
    obtain ⟨_, _, hkey, _⟩ := hfound
    exact absurd (hmany hkey) (by simp [SlotRule.isMany])
  | many member =>
    simp only [Element.pending?, Option.some.injEq, Prod.mk.injEq] at hfound
    exact ⟨_, hfound.2.symm⟩
  | childOf kind =>
    simp only [Element.pending?, Option.some.injEq, Prod.mk.injEq] at hfound
    exact absurd (hmany hfound.1) (by simp [SlotRule.isMany])

end Layout

namespace Arena

variable {nodes : Array Node} {owner : Node}

/-- What can come of a pending slot: one node, or as a list the nodes picked for the spans. -/
inductive Fills (nodes : Array Node) (owner : Node) : Pending → Slot → Prop
  | one (span : Span) (id : NodeId) : Fills nodes owner (.one span) (.one id)
  | many (spans : List Span) (taken : List NodeId) :
    Fills nodes owner (.many spans) (.many (pickAll nodes owner taken spans))
  | childOf (kind : NodeKind) (id : NodeId) : Fills nodes owner (.childOf kind) (.one id)

theorem exists_fills {name : String} {slot : Slot} {taken : List NodeId}
    {pending : List (String × Pending)} (h : (name, slot) ∈ fill nodes owner taken pending) :
    ∃ p, (name, p) ∈ pending ∧ Fills nodes owner p slot := by
  induction pending generalizing taken with
  | nil => cases h
  | cons first rest ih =>
    have hlater : ∀ {earlier : List NodeId}, (name, slot) ∈ fill nodes owner earlier rest →
        ∃ p, (name, p) ∈ first :: rest ∧ Fills nodes owner p slot := by
      intro earlier hrest
      obtain ⟨p, hmem, hfills⟩ := ih hrest
      exact ⟨p, .tail first hmem, hfills⟩
    obtain ⟨key, p⟩ := first
    cases p with
    | one span =>
      rw [fill] at h
      split at h
      · cases h with
        | head => exact ⟨_, List.mem_cons_self, .one span _⟩
        | tail _ h => exact hlater h
      · exact hlater h
    | many spans =>
      rw [fill] at h
      cases h with
      | head => exact ⟨_, List.mem_cons_self, .many spans taken⟩
      | tail _ h => exact hlater h
    | childOf kind =>
      rw [fill] at h
      split at h
      · cases h with
        | head => exact ⟨_, List.mem_cons_self, .childOf kind _⟩
        | tail _ h => exact hlater h
      · exact hlater h

end Arena

namespace Document

variable {doc : Document} {owner : NodeId}

/-- The nodes picked for a list are distinct and below the owner. -/
theorem pickAll_spec {nodes : Array Node} {node : Node}
    (hfind : ∀ taken span, Arena.below? nodes node taken span = doc.unclaimed? owner taken span)
    (taken : List NodeId) (spans : List Span) :
    (Arena.pickAll nodes node taken spans).Nodup ∧
      ∀ d ∈ Arena.pickAll nodes node taken spans, d ∉ taken ∧ d ∈ doc.breadthFirst owner := by
  induction spans generalizing taken with
  | nil => simp [Arena.pickAll]
  | cons span rest ih =>
    rw [Arena.pickAll, hfind]
    cases hfound : doc.unclaimed? owner taken span with
    | none => exact ih taken
    | some d =>
      -- what is picked is taken for the spans that follow
      obtain ⟨hnodup, hrest⟩ := ih (d :: taken)
      have hd : d ∉ taken ∧ d ∈ doc.breadthFirst owner :=
        ⟨not_mem_of_unclaimed? hfound, List.mem_of_find?_eq_some hfound⟩
      refine ⟨List.nodup_cons.mpr ⟨?_, hnodup⟩, List.forall_mem_cons.mpr ⟨hd, ?_⟩⟩
      · intro hmem
        exact (hrest d hmem).1 List.mem_cons_self
      · intro e he
        exact ⟨fun htaken => (hrest e he).1 (.tail d htaken), (hrest e he).2⟩

section Build

variable {source : Text} {file : ParsedFile} {resolved : Bool} {name : String}
  (h : build source file resolved = .ok doc) (id : Nat)

include h

theorem exists_draft : (doc.node id) = .absent ∨
    ∃ draft, (file.tree.drafts resolved none root)[id]? = some draft ∧
      draft.Describes resolved ∧ (doc.node id).flags = draft.node.flags ∧
      (doc.node id).slots =
        Arena.fill (skeleton file resolved).nodes draft.node [] draft.pending := by
  have hnode := build_node h id
  cases hdraft : (file.tree.drafts resolved none root)[id]? with
  | none =>
    rw [hdraft] at hnode
    exact .inl hnode
  | some draft =>
    rw [hdraft] at hnode
    have hdescribes := Tree.describes_of_mem_drafts file.tree (List.mem_of_getElem? hdraft)
    exact .inr ⟨draft, rfl, hdescribes, by rw [hnode]; rfl, by rw [hnode]; rfl⟩

theorem exists_fills_of_slot? {slot : Slot} (hslot : doc.slot? id name = some slot) :
    ∃ draft, (file.tree.drafts resolved none root)[id]? = some draft ∧
      draft.Describes resolved ∧ ∃ p, (name, p) ∈ draft.pending ∧
        Arena.Fills (skeleton file resolved).nodes draft.node p slot := by
  obtain ⟨before, after, hslots, _⟩ := List.lookup_eq_some_iff.mp hslot
  cases exists_draft h id with
  | inl habsent => simp [habsent, Node.absent] at hslots
  | inr hsome =>
    obtain ⟨draft, hdraft, hdescribes, _, hfill⟩ := hsome
    have hmem : (name, slot) ∈ (doc.node id).slots := by simp [hslots]
    rw [hfill] at hmem
    exact ⟨draft, hdraft, hdescribes, Arena.exists_fills hmem⟩

theorem flag?_eq_none (hname : Layout.OnlyLists name) : doc.flag? id name = none := by
  rw [flag?, List.lookup_eq_none_iff]
  cases exists_draft h id with
  | inl habsent => simp [habsent, Node.absent]
  | inr hsome =>
    obtain ⟨draft, _, hdescribes, hflags, _⟩ := hsome
    intro flag hflag
    rw [hflags] at hflag
    simpa using (hname.flag_ne hdescribes flag hflag).symm

theorem slot?_eq_many (hname : Layout.OnlyLists name) {slot : Slot}
    (hslot : doc.slot? id name = some slot) : ∃ ids, slot = .many ids := by
  obtain ⟨draft, _, hdescribes, p, hp, hfills⟩ := exists_fills_of_slot? h id hslot
  obtain ⟨spans, rfl⟩ := hname.eq_many hdescribes hp
  cases hfills with
  | many _ taken => exact ⟨_, rfl⟩

/-- A list has no more nodes than the document. -/
theorem length_slotNodes_le (name : String) : (doc.slotNodes id name).length ≤ doc.size := by
  rw [slotNodes]
  split
  · rename_i ids hslot
    obtain ⟨draft, hdraft, _, p, _, hfills⟩ := exists_fills_of_slot? h id hslot
    have hid : id < doc.size := by
      rw [(build_indexes h).2]
      exact (List.getElem?_eq_some_iff.mp hdraft).1
    cases hfills with
    | many spans taken =>
      -- distinct nodes below the owner are at most as many as there are below it
      obtain ⟨hnodup, hbelow⟩ := pickAll_spec (below?_skeleton h hdraft) taken spans
      have hsub := List.subperm_of_subset hnodup fun d hd => (hbelow d hd).2
      exact Nat.le_trans hsub.length_le ((build_wellFormed h).length_breadthFirst_le hid)
  · simp

/-- The attribute of such a name is the list in the slot. -/
theorem attribute?_of_onlyLists (hname : Layout.OnlyLists name)
    (hbuiltin : doc.builtin? id name = none) :
    doc.attribute? id name =
      (doc.slot? id name).map fun _ => .list (doc.slotNodes id name) := by
  rw [attribute?, hbuiltin, flag?_eq_none h id hname, slotNodes]
  cases hslot : doc.slot? id name with
  | none => rfl
  | some slot =>
    obtain ⟨ids, rfl⟩ := slot?_eq_many h id hname hslot
    rfl

/-- A selector that asks for more than so many nodes in a list counts them, as long as the count or
the number is one that doubles hold exactly. -/
theorem holds_length_iff (hname : Layout.OnlyLists name) (hbuiltin : doc.builtin? id name = none)
    {n : Nat} (hsmall : n < Binary64.twoPow 53 ∨ doc.size < Binary64.twoPow 53) :
    (Predicate.mk [name, "length"] (some (.gt, .number (.ofNat n)))).holds
        (doc.resolvePath? id [name, "length"]) = true ↔
      n < (doc.slotNodes id name).length := by
  have hle := length_slotNodes_le h id name
  have hpath : doc.resolvePath? id [name, "length"] =
      (doc.slot? id name).map fun _ => .number (.ofNat (doc.slotNodes id name).length) := by
    simp only [resolvePath?, List.foldlM_cons, List.foldlM_nil, step?,
      attribute?_of_onlyLists h id hname hbuiltin]
    cases doc.slot? id name <;> rfl
  rw [hpath]
  cases hslot : doc.slot? id name with
  | none => simp [slotNodes, hslot, Predicate.holds]
  | some slot =>
    have hcount := Binary64.lt_ofNat_iff (m := n) (n := (doc.slotNodes id name).length) (by omega)
    simpa [Predicate.holds, AttrValue.number?, Literal.number?, Operator.orders] using hcount

end Build

end Document

end ScriptLint

import Mathlib.Data.List.Chain
import Mathlib.Data.List.Perm.Subperm
import Mathlib.Data.Option.Basic
import Mathlib.Logic.Function.Iterate
import ScriptLint.Proofs.Scope.Declarations

/-!
Chains of aliases. `Document.StandsFor` says which declaration an alias leads to, and
`Document.Follows` what it is to go on from there, without a bound, until nothing follows or a
declaration repeats. The bounded walk does just that (`WellFormed.follows_aliasChain`): what it visits
are distinct nodes, so it ends before it runs out of steps. It reports a cycle exactly if the aliases
lead on forever (`Follows.cycle_iff_endless`).
-/
namespace ScriptLint.Document

variable {doc : Document} {start current next d : Nat} {before : List NodeId} {chain : AliasChain}

/-- The node is an alias, and all that it says is a reference, without arguments, to a name which has
the target as its declaration. -/
def StandsFor (doc : Document) (id target : NodeId) : Prop :=
  doc.kind id = .typeAlias ∧ ∃ type, doc.slotNode? id "typeAnnotation" = some type ∧
    doc.kind type = .typeReference ∧ (∀ c ∈ doc.children type, doc.kind c ≠ .typeArguments) ∧
    ∃ name, doc.slotNode? type "typeName" = some name ∧
      ∃ symbol, doc.symbol name = some symbol ∧ doc.declarationOf? symbol = some target

theorem aliased?_eq_some_iff : doc.aliased? d = some next ↔ doc.StandsFor d next := by
  simp [aliased?, StandsFor, firstChildOfKind?, Option.bind_eq_some_iff, guard]

theorem aliased?_eq_none_iff : doc.aliased? d = none ↔ ∀ next, ¬ doc.StandsFor d next := by
  simp [← aliased?_eq_some_iff, Option.eq_none_iff_forall_ne_some]

theorem StandsFor.unique {a b : Nat} (ha : doc.StandsFor d a) (hb : doc.StandsFor d b) : a = b := by
  rw [← aliased?_eq_some_iff] at ha hb
  exact Option.some.inj (ha.symm.trans hb)

theorem WellFormed.target_lt_size (hdoc : doc.WellFormed) (h : doc.StandsFor d next) :
    next < doc.size := by
  obtain ⟨_, _, _, _, _, _, _, symbol, _, hdeclaration⟩ := h
  obtain ⟨i, hi, _, rfl⟩ := declarationOf?_eq_some hdeclaration
  cases hdoc.enclosingDeclaration_cases i with
  | inl hnearest =>
    refine lt_size_of_kind ?_ rfl
    intro hunknown
    have := hnearest.isDeclaration
    rw [hunknown] at this
    cases this
  | inr hself =>
    rw [hself.1]
    exact lt_size_of_kind (by decide) ((mem_idsOfKind (by decide)).mp hi)

/-- The walk goes on from the current declaration, after those before it, last first, until there is
no next one or the next one was visited, and makes the chain of what it has visited. -/
inductive Follows (doc : Document) :
    (before : List NodeId) → (current : NodeId) → (chain : AliasChain) → Prop
  | ends {before : List NodeId} {current : NodeId} (last : ∀ next, ¬ doc.StandsFor current next) :
      Follows doc before current ⟨(current :: before).reverse, false⟩
  | repeats {before : List NodeId} {current next : NodeId} (link : doc.StandsFor current next)
      (visited : next ∈ current :: before) :
      Follows doc before current ⟨(current :: before).reverse, true⟩
  | onward {before : List NodeId} {current next : NodeId} {chain : AliasChain}
      (link : doc.StandsFor current next) (fresh : next ∉ current :: before)
      (rest : Follows doc (current :: before) next chain) : Follows doc before current chain

theorem Follows.unique {other : AliasChain} (h : doc.Follows before current chain)
    (h' : doc.Follows before current other) : chain = other := by
  induction h generalizing other with
  | ends last =>
    cases h' with
    | ends _ => rfl
    | repeats link _ => exact absurd link (last _)
    | onward link _ _ => exact absurd link (last _)
  | repeats link visited =>
    cases h' with
    | ends last => exact absurd link (last _)
    | repeats _ _ => rfl
    | onward link' fresh _ =>
      obtain rfl := link.unique link'
      exact absurd visited fresh
  | onward link fresh _ ih =>
    cases h' with
    | ends last => exact absurd link (last _)
    | repeats link' visited =>
      obtain rfl := link.unique link'
      exact absurd visited fresh
    | onward link' _ rest =>
      obtain rfl := link.unique link'
      exact ih rest

/-- With a step for every node not yet visited, the walk does not stop short. -/
theorem WellFormed.follows_followAliases (hdoc : doc.WellFormed) {fuel : Nat}
    (hdistinct : (current :: before).Nodup) (hnodes : ∀ id ∈ current :: before, id < doc.size)
    (hfuel : doc.size ≤ before.length + fuel) :
    doc.Follows before current (doc.followAliases before fuel current) := by
  induction fuel generalizing before current with
  | zero =>
    -- there would be more declarations than nodes
    have hsubset : current :: before ⊆ doc.ids := fun id hid => List.mem_range.mpr (hnodes id hid)
    have hlength := (hdistinct.subperm hsubset).length_le
    rw [List.length_cons, ids, List.length_range] at hlength
    omega
  | succ fuel ih =>
    rw [followAliases]
    cases hnext : doc.aliased? current with
    | none => exact .ends (aliased?_eq_none_iff.mp hnext)
    | some next =>
      have hlink := aliased?_eq_some_iff.mp hnext
      by_cases hvisited : next ∈ current :: before
      · simp only [if_pos hvisited]
        exact .repeats hlink hvisited
      · simp only [if_neg hvisited]
        refine .onward hlink hvisited (ih (List.nodup_cons.mpr ⟨hvisited, hdistinct⟩) ?_ ?_)
        · exact List.forall_mem_cons.mpr ⟨hdoc.target_lt_size hlink, hnodes⟩
        · rw [List.length_cons]
          omega

theorem WellFormed.follows_aliasChain (hdoc : doc.WellFormed) (d : Nat) :
    doc.Follows [] d (doc.aliasChain d) := by
  by_cases hd : d < doc.size
  · exact hdoc.follows_followAliases (List.nodup_singleton d) (by simpa using hd) (by simp)
  · -- what is not there is no alias
    have hnone : doc.aliased? d = none := by
      rw [aliased?_eq_none_iff]
      rintro next ⟨hkind, _⟩
      exact hd (lt_size_of_kind (by decide) hkind)
    rw [aliasChain, followAliases, hnone]
    exact .ends (aliased?_eq_none_iff.mp hnone)

/-- The declarations visited so far, last first: distinct, from the start on, each one what the one
before it stands for. -/
structure Visited (doc : Document) (start : NodeId) (seen : List NodeId) : Prop where
  starts : seen.getLast? = some start
  distinct : seen.Nodup
  linked : seen.IsChain fun later earlier => doc.StandsFor earlier later

theorem Visited.single (doc : Document) (start : Nat) : doc.Visited start [start] :=
  ⟨rfl, List.nodup_singleton _, .singleton _⟩

theorem Visited.cons (h : doc.Visited start (current :: before))
    (link : doc.StandsFor current next) (fresh : next ∉ current :: before) :
    doc.Visited start (next :: current :: before) where
  starts := by rw [List.getLast?_cons_cons, h.starts]
  distinct := List.nodup_cons.mpr ⟨fresh, h.distinct⟩
  linked := .cons_cons link h.linked

theorem Follows.visited (h : doc.Follows before current chain)
    (hseen : doc.Visited start (current :: before)) :
    doc.Visited start chain.declarations.reverse := by
  induction h with
  | ends _ => rwa [List.reverse_reverse]
  | repeats _ _ => rwa [List.reverse_reverse]
  | onward link fresh _ ih => exact ih (hseen.cons link fresh)

/-- Where the walk stops: at a last declaration that leads nowhere, or back into the chain. -/
theorem Follows.exists_last (h : doc.Follows before current chain) :
    ∃ last, chain.target? = some last ∧
      (chain.cycle = false ∧ (∀ next, ¬ doc.StandsFor last next) ∨
        chain.cycle = true ∧ ∃ next ∈ chain.declarations, doc.StandsFor last next) := by
  induction h with
  | @ends _ current last =>
    exact ⟨current, by simp [AliasChain.target?], .inl ⟨rfl, last⟩⟩
  | @repeats _ current next link visited =>
    refine ⟨current, by simp [AliasChain.target?], .inr ⟨rfl, next, ?_, link⟩⟩
    exact List.mem_reverse.mpr visited
  | onward _ _ _ ih => exact ih

/-! Aliases that lead on forever. -/

/-- There is a next declaration, and a next one after that, without end. -/
def Endless (doc : Document) (id : NodeId) : Prop :=
  ∃ walk : Nat → NodeId, walk 0 = id ∧ ∀ n, doc.StandsFor (walk n) (walk (n + 1))

/-- Where each declaration of some sort stands for another one of this sort, there is no end. -/
theorem Endless.of_closed {P : NodeId → Prop}
    (hnext : ∀ id, P id → ∃ next, doc.StandsFor id next ∧ P next) (h : P d) : doc.Endless d := by
  choose! next hlink hP using hnext
  have hall : ∀ n, P (next^[n] d) := by
    intro n
    induction n with
    | zero => exact h
    | succ n ih =>
      rw [Function.iterate_succ_apply']
      exact hP _ ih
  refine ⟨fun n => next^[n] d, rfl, fun n => ?_⟩
  simp only [Function.iterate_succ_apply']
  exact hlink _ (hall n)

theorem Endless.exists_next (h : doc.Endless d) : ∃ next, doc.StandsFor d next := by
  obtain ⟨walk, rfl, hwalk⟩ := h
  exact ⟨walk 1, hwalk 0⟩

theorem endless_iff_of_standsFor (h : doc.StandsFor d next) : doc.Endless d ↔ doc.Endless next := by
  constructor
  · rintro ⟨walk, rfl, hwalk⟩
    exact ⟨fun n => walk (n + 1), (hwalk 0).unique h, fun n => hwalk (n + 1)⟩
  · rintro ⟨walk, rfl, hwalk⟩
    refine ⟨fun n => n.casesOn d walk, rfl, fun n => ?_⟩
    cases n with
    | zero => exact h
    | succ n => exact hwalk n

theorem endless_of_transGen (h : Relation.TransGen doc.StandsFor d d) : doc.Endless d := by
  refine .of_closed (P := fun id => Relation.TransGen doc.StandsFor id d) ?_ h
  intro id hid
  obtain ⟨next, hlink, hrest⟩ := Relation.TransGen.head'_iff.mp hid
  refine ⟨next, hlink, ?_⟩
  rcases Relation.reflTransGen_iff_eq_or_transGen.mp hrest with rfl | hrest
  · exact h
  · exact hrest

/-- Every declaration visited but the last stands for one visited after it. -/
theorem exists_later {id : Nat} (hid : id ∈ before)
    (hlinked : (current :: before).IsChain fun later earlier => doc.StandsFor earlier later) :
    ∃ later, doc.StandsFor id later ∧ later ∈ current :: before := by
  induction before generalizing current with
  | nil => cases hid
  | cons previous earlier ih =>
    obtain ⟨hlink, hrest⟩ := List.isChain_cons_cons.mp hlinked
    rcases List.mem_cons.mp hid with rfl | hid
    · exact ⟨current, hlink, List.mem_cons_self⟩
    · obtain ⟨later, hlater, hmem⟩ := ih hid hrest
      exact ⟨later, hlater, List.mem_cons_of_mem current hmem⟩

theorem Follows.cycle_iff_endless (h : doc.Follows before current chain)
    (hseen : doc.Visited start (current :: before)) : chain.cycle = true ↔ doc.Endless current := by
  induction h with
  | ends last =>
    refine iff_of_false (by simp) fun hendless => ?_
    obtain ⟨next, hnext⟩ := hendless.exists_next
    exact last next hnext
  | @repeats before current next link visited =>
    -- what was visited leads nowhere else
    have hclosed : ∀ id, id ∈ current :: before →
        ∃ next, doc.StandsFor id next ∧ next ∈ current :: before := by
      intro id hid
      rcases List.mem_cons.mp hid with rfl | hid
      · exact ⟨next, link, visited⟩
      · exact exists_later hid hseen.linked
    exact iff_of_true rfl (.of_closed hclosed List.mem_cons_self)
  | onward link fresh _ ih => rw [ih (hseen.cons link fresh), endless_iff_of_standsFor link]

theorem WellFormed.cycle_iff_endless (hdoc : doc.WellFormed) (d : Nat) :
    (doc.aliasChain d).cycle = true ↔ doc.Endless d :=
  (hdoc.follows_aliasChain d).cycle_iff_endless (.single doc d)

variable {source : Text} {file : ParsedFile} {resolved : Bool}

/-- The walk along aliases ends, with one chain. What it has visited are distinct declarations, the
first of which is the one asked about and each of which is what the one before it stands for. It
reports no cycle exactly if the last one stands for nothing, and a cycle exactly if the last one leads
back to one that was visited, which is to say if the aliases lead on forever. -/
theorem alias_chain_follows_to_end (h : build source file resolved = .ok doc) (d : Nat) :
    (∀ chain, doc.Follows [] d chain ↔ chain = doc.aliasChain d) ∧
    (doc.aliasChain d).declarations.head? = some d ∧
    (doc.aliasChain d).declarations.Nodup ∧
    (doc.aliasChain d).declarations.IsChain doc.StandsFor ∧
    ∃ last, (doc.aliasChain d).target? = some last ∧
      ((doc.aliasChain d).cycle = false ↔ ∀ next, ¬ doc.StandsFor last next) ∧
      ((doc.aliasChain d).cycle = true ↔
        ∃ next ∈ (doc.aliasChain d).declarations, doc.StandsFor last next) ∧
      ((doc.aliasChain d).cycle = true ↔ doc.Endless d) := by
  have hdoc := build_wellFormed h
  have hfollows := hdoc.follows_aliasChain d
  have hseen := hfollows.visited (.single doc d)
  obtain ⟨last, htarget, hlast⟩ := hfollows.exists_last
  refine ⟨?_, by simpa using hseen.starts, List.nodup_reverse.mp hseen.distinct,
    List.isChain_reverse.mp hseen.linked, last, htarget, ?_, ?_, hdoc.cycle_iff_endless d⟩
  · intro chain
    constructor
    · exact fun h => h.unique hfollows
    · rintro rfl
      exact hfollows
  · rcases hlast with ⟨hcycle, hnone⟩ | ⟨hcycle, next, _, hlink⟩
    · exact iff_of_true hcycle hnone
    · exact iff_of_false (by simp [hcycle]) fun hnone => hnone next hlink
  · rcases hlast with ⟨hcycle, hnone⟩ | ⟨hcycle, hnext⟩
    · refine iff_of_false (by simp [hcycle]) ?_
      rintro ⟨next, _, hlink⟩
      exact hnone next hlink
    · exact iff_of_true hcycle hnext

/-- An alias with names of one letter, such as `type A = B;`, from the offset on. -/
def plainAlias (start symbol target : Nat) : Tree :=
  .node ⟨"TSTypeAliasDeclaration", ⟨start, start + 11⟩,
      [("id", .part ⟨start + 5, start + 6⟩), ("type_annotation", .part ⟨start + 9, start + 10⟩)]⟩
    [.node ⟨"BindingIdentifier", ⟨start + 5, start + 6⟩, [("symbol", .symbol symbol)]⟩ [],
      .node ⟨"TSTypeReference", ⟨start + 9, start + 10⟩,
          [("type_name", .part ⟨start + 9, start + 10⟩)]⟩
        [.node ⟨"IdentifierReference", ⟨start + 9, start + 10⟩, [("symbol", .symbol target)]⟩ []]]

/-- The first alias leads into a cycle of the other two. -/
def leadInText : Text := "type A = B; type B = C; type C = B;".toList

def leadIn : ParsedFile where
  tree :=
    .node ⟨"Program", ⟨0, 35⟩, [("body", .parts [⟨0, 11⟩, ⟨12, 23⟩, ⟨24, 35⟩])]⟩
      [plainAlias 0 0 1, plainAlias 12 1 2, plainAlias 24 2 1]
  comments := []

theorem alias_chain_follows_to_end_leadIn :
    ∃ doc, build leadInText leadIn true = .ok doc ∧ doc.aliasChain 1 = ⟨[1, 5, 9], true⟩ ∧
      doc.StandsFor 1 5 ∧ doc.StandsFor 5 9 ∧ (∃ next ∈ [1, 5, 9], doc.StandsFor 9 next) ∧
      doc.Endless 1 := by
  obtain ⟨doc, hbuild, htest⟩ : ∃ doc, build leadInText leadIn true = .ok doc ∧
      (doc.aliasChain 1 == ⟨[1, 5, 9], true⟩) = true :=
    exists_build_of_any (by decide +kernel)
  have hchain := beq_iff_eq.mp htest
  obtain ⟨_, _, _, hlinked, last, htarget, _, hreturns, hendless⟩ :=
    alias_chain_follows_to_end hbuild 1
  rw [hchain] at hlinked htarget hreturns hendless
  obtain rfl : 9 = last := Option.some.inj htarget
  simp only [List.isChain_cons_cons] at hlinked
  exact ⟨doc, hbuild, hchain, hlinked.1, hlinked.2.1, hreturns.mp rfl, hendless.mp rfl⟩

end ScriptLint.Document

import ScriptLint.StableSort

/-!
What makes a sort stable. `Reorders key` relates a list to its permutations that keep elements with
equal keys in their order, and `Orders key le` to the one among them that is in order: there is no
other (`OrderBy.sorted_ext`), and sorting by insertion finds it, whichever of the permutations is
sorted (`OrderBy.sortBy_eq`).
-/
namespace ScriptLint

variable {α κ : Type} [DecidableEq κ] {key : α → κ} {le : α → α → Bool} {xs ys : List α}

/-- The second list has the elements of the first, and those with equal keys in the same order. -/
structure Reorders (key : α → κ) (xs ys : List α) : Prop where
  perm : ys.Perm xs
  kept : ∀ k, ys.filter (fun a => key a = k) = xs.filter (fun a => key a = k)

/-- The second list is the first one put in order, elements with equal keys left as they stood. -/
structure Orders (key : α → κ) (le : α → α → Bool) (xs ys : List α) : Prop
    extends Reorders key xs ys where
  sorted : ys.Pairwise fun a b => le a b = true

/-- The order compares any two elements, and does not tell them apart exactly if they have the same
key. -/
structure OrderBy (key : α → κ) (le : α → α → Bool) : Prop where
  total : ∀ a b, le a b = true ∨ le b a = true
  trans : ∀ a b c, le a b = true → le b c = true → le a c = true
  tie : ∀ a b, le a b = true → le b a = true → key a = key b
  of_key_eq : ∀ a b, key a = key b → le a b = true

theorem mem_iff_of_filter_eq
    (h : ∀ k, xs.filter (fun a => key a = k) = ys.filter (fun a => key a = k)) (a : α) :
    a ∈ xs ↔ a ∈ ys := by
  have ha := congrArg (a ∈ ·) (h (key a))
  simpa using ha

namespace OrderBy

/-- Lists in order are equal if they have the same elements for every key, in the same order. -/
theorem sorted_ext (order : OrderBy key le) (hx : xs.Pairwise fun a b => le a b = true)
    (hy : ys.Pairwise fun a b => le a b = true)
    (h : ∀ k, xs.filter (fun a => key a = k) = ys.filter (fun a => key a = k)) : xs = ys := by
  induction xs generalizing ys with
  | nil =>
    cases ys with
    | nil => rfl
    | cons y ys => simpa using (mem_iff_of_filter_eq h y).mpr List.mem_cons_self
  | cons x xs ih =>
    cases ys with
    | nil => simpa using (mem_iff_of_filter_eq h x).mp List.mem_cons_self
    | cons y ys =>
      obtain ⟨hleast, hxs⟩ := List.pairwise_cons.mp hx
      obtain ⟨hleast', hys⟩ := List.pairwise_cons.mp hy
      -- either head comes before all of both lists, so the order does not tell them apart
      have hkey : key x = key y := by
        apply order.tie
        · rcases List.mem_cons.mp ((mem_iff_of_filter_eq h y).mpr List.mem_cons_self) with rfl | hmem
          · exact order.of_key_eq y y rfl
          · exact hleast y hmem
        · rcases List.mem_cons.mp ((mem_iff_of_filter_eq h x).mp List.mem_cons_self) with rfl | hmem
          · exact order.of_key_eq x x rfl
          · exact hleast' x hmem
      have hhead : x = y := by
        have hk := h (key y)
        simp only [List.filter_cons, hkey, decide_true, if_true] at hk
        exact (List.cons.inj hk).1
      subst hhead
      rw [ih hxs hys]
      intro k
      have hk := h k
      by_cases hx : key x = k
      · simpa [List.filter_cons, hx] using hk
      · simpa [List.filter_cons, hx] using hk

theorem orders_sortBy (order : OrderBy key le) (xs : List α) : Orders key le xs (sortBy le xs) := by
  refine ⟨⟨sortBy_perm le xs, fun k => ?_⟩, sortBy_pairwise order.total order.trans xs⟩
  rw [filter_sortBy order.total order.trans]
  -- elements with one key are in order whichever way they stand
  apply sortBy_of_pairwise
  apply List.pairwise_iff_getElem.mpr
  intro i j hi hj _
  have hkey : ∀ a ∈ xs.filter (fun a => key a = k), key a = k := by simp
  apply order.of_key_eq
  rw [hkey _ (List.getElem_mem hi), hkey _ (List.getElem_mem hj)]

theorem sortBy_eq (order : OrderBy key le) (h : Reorders key xs ys) :
    sortBy le ys = sortBy le xs := by
  have hxs := order.orders_sortBy xs
  have hys := order.orders_sortBy ys
  apply order.sorted_ext hys.sorted hxs.sorted
  intro k
  rw [hys.kept, hxs.kept, h.kept]

theorem eq_sortBy (order : OrderBy key le) (h : Orders key le xs ys) : ys = sortBy le xs := by
  rw [← order.sortBy_eq h.toReorders, sortBy_of_pairwise h.sorted]

end OrderBy

end ScriptLint

/-!
Stable sorting by insertion: elements that the order does not tell apart keep their places. The
order is a test that says whether one element may stand before another.
-/
namespace ScriptLint

/-- Put an element before the first one that it may precede. -/
def insertBy (le : α → α → Bool) (x : α) : List α → List α
  | [] => [x]
  | y :: ys => if le x y then x :: y :: ys else y :: insertBy le x ys

def sortBy (le : α → α → Bool) : List α → List α
  | [] => []
  | x :: xs => insertBy le x (sortBy le xs)

@[simp] theorem sortBy_nil (le : α → α → Bool) : sortBy le [] = [] := rfl

theorem insertBy_perm (le : α → α → Bool) (x : α) (xs : List α) :
    (insertBy le x xs).Perm (x :: xs) := by
  induction xs with
  | nil => exact .refl _
  | cons y ys ih =>
    unfold insertBy
    split
    · exact .refl _
    · exact (ih.cons y).trans (.swap x y ys)

theorem sortBy_perm (le : α → α → Bool) (xs : List α) : (sortBy le xs).Perm xs := by
  induction xs with
  | nil => exact .refl _
  | cons x xs ih => exact (insertBy_perm le x _).trans (ih.cons x)

@[simp] theorem mem_sortBy (le : α → α → Bool) (x : α) (xs : List α) :
    x ∈ sortBy le xs ↔ x ∈ xs :=
  (sortBy_perm le xs).mem_iff

@[simp] theorem length_sortBy (le : α → α → Bool) (xs : List α) :
    (sortBy le xs).length = xs.length :=
  (sortBy_perm le xs).length_eq

/-- Insertion keeps a list in order, for an order that compares any two elements. -/
theorem insertBy_pairwise {le : α → α → Bool} (total : ∀ a b, le a b = true ∨ le b a = true)
    (trans : ∀ a b c, le a b = true → le b c = true → le a c = true) (x : α) (xs : List α)
    (h : xs.Pairwise fun a b => le a b = true) :
    (insertBy le x xs).Pairwise fun a b => le a b = true := by
  induction xs with
  | nil => simp [insertBy]
  | cons y ys ih =>
    obtain ⟨hy, hys⟩ := List.pairwise_cons.mp h
    unfold insertBy
    split
    · rename_i hxy
      refine List.pairwise_cons.mpr ⟨?_, h⟩
      intro z hz
      rcases List.mem_cons.mp hz with rfl | hz
      · exact hxy
      · exact trans x y z hxy (hy z hz)
    · rename_i hxy
      have hyx : le y x = true := (total y x).resolve_right hxy
      refine List.pairwise_cons.mpr ⟨?_, ih hys⟩
      intro z hz
      rcases List.mem_cons.mp ((insertBy_perm le x ys).mem_iff.mp hz) with rfl | hz
      · exact hyx
      · exact hy z hz

theorem sortBy_pairwise {le : α → α → Bool} (total : ∀ a b, le a b = true ∨ le b a = true)
    (trans : ∀ a b c, le a b = true → le b c = true → le a c = true) (xs : List α) :
    (sortBy le xs).Pairwise fun a b => le a b = true := by
  induction xs with
  | nil => exact .nil
  | cons x xs ih => exact insertBy_pairwise total trans x _ ih

/-- A list that is in order already stays as it is. -/
theorem sortBy_of_pairwise {le : α → α → Bool} {xs : List α}
    (h : xs.Pairwise fun a b => le a b = true) : sortBy le xs = xs := by
  induction xs with
  | nil => rfl
  | cons x xs ih =>
    obtain ⟨hx, hxs⟩ := List.pairwise_cons.mp h
    rw [sortBy, ih hxs]
    cases xs with
    | nil => rfl
    | cons y ys => simp [insertBy, hx y (by simp)]

theorem insertBy_of_le {le : α → α → Bool} {x : α} {xs : List α}
    (h : ∀ y ∈ xs, le x y = true) : insertBy le x xs = x :: xs := by
  cases xs with
  | nil => rfl
  | cons y ys => rw [insertBy, if_pos (h y List.mem_cons_self)]

theorem filter_insertBy {le : α → α → Bool}
    (trans : ∀ a b c, le a b = true → le b c = true → le a c = true) (p : α → Bool) (x : α)
    {xs : List α} (h : xs.Pairwise fun a b => le a b = true) :
    (insertBy le x xs).filter p =
      if p x = true then insertBy le x (xs.filter p) else xs.filter p := by
  induction xs with
  | nil => simp [insertBy, List.filter_cons]
  | cons y ys ih =>
    obtain ⟨hy, hys⟩ := List.pairwise_cons.mp h
    by_cases hxy : le x y = true
    · have hall : ∀ z ∈ (y :: ys).filter p, le x z = true := by
        intro z hz
        rcases List.mem_cons.mp (List.mem_filter.mp hz).1 with rfl | hz
        · exact hxy
        · exact trans x y z hxy (hy z hz)
      rw [insertBy, if_pos hxy, List.filter_cons, insertBy_of_le hall]
    · rw [insertBy, if_neg hxy, List.filter_cons, List.filter_cons, ih hys]
      by_cases hx : p x = true <;> by_cases hpy : p y = true <;> simp [hx, hpy, insertBy, hxy]

/-- Sorting keeps the order of any part of the list as sorting that part alone would. -/
theorem filter_sortBy {le : α → α → Bool} (total : ∀ a b, le a b = true ∨ le b a = true)
    (trans : ∀ a b c, le a b = true → le b c = true → le a c = true) (p : α → Bool) (xs : List α) :
    (sortBy le xs).filter p = sortBy le (xs.filter p) := by
  induction xs with
  | nil => rfl
  | cons x xs ih =>
    rw [sortBy, filter_insertBy trans p x (sortBy_pairwise total trans xs), ih, List.filter_cons]
    split
    · rw [sortBy]
    · rfl

end ScriptLint

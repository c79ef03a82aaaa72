import ScriptLint.Proofs.Text.Cut
import ScriptLint.Text.Cell

/-!
Bytes and the characters they belong to. A cell that shows an ASCII character shows the one that
stands at that offset (`cells_getElem?_eq_some_iff`), so a text can be cut on either side of it. The
pieces of wider characters all look alike; a scanner that stops only beside ASCII characters or at
the end never cuts one of them (`CleanCut.isBoundary`).
-/
namespace ScriptLint.Text

/-- The character takes the bytes of the text from the offset on. -/
def StandsAt (s : Text) (offset : Nat) (c : Char) : Prop :=
  ∃ before after, s = before ++ c :: after ∧ width before = offset

theorem StandsAt.cons {s : Text} {offset : Nat} {c : Char} (h : StandsAt s offset c) (d : Char) :
    StandsAt (d :: s) (d.utf8Size + offset) c := by
  obtain ⟨before, after, rfl, rfl⟩ := h
  exact ⟨d :: before, after, rfl, rfl⟩

theorem StandsAt.isBoundary {s : Text} {offset : Nat} {c : Char} (h : StandsAt s offset c) :
    isBoundary s offset = true ∧ isBoundary s (offset + c.utf8Size) = true := by
  obtain ⟨before, after, rfl, rfl⟩ := h
  constructor
  · exact (isBoundary_iff _ _).mpr ⟨before, c :: after, rfl, rfl⟩
  · exact (isBoundary_iff _ _).mpr ⟨before ++ [c], after, by simp, by simp⟩

theorem StandsAt.add_size_le {s : Text} {offset n : Nat} {c : Char} (h : StandsAt s offset c)
    (hn : Text.isBoundary s n = true) (hlt : offset < n) : offset + c.utf8Size ≤ n := by
  obtain ⟨before, after, rfl, rfl⟩ := h
  obtain ⟨as, bs, hs, rfl⟩ := (isBoundary_iff _ n).mp hn
  rcases List.append_eq_append_iff.mp hs with ⟨more, rfl, hrest⟩ | ⟨more, rfl, _⟩
  · cases more with
    | nil => simp at hlt
    | cons d more =>
      obtain ⟨rfl, _⟩ := List.cons.inj hrest
      simp only [width_append, width_cons]
      omega
  · simp only [width_append] at hlt
    omega

/-- A character that stands between two boundaries is in the text between them. -/
theorem StandsAt.mem_slice {s : Text} {offset m n : Nat} {c : Char} (h : StandsAt s offset c)
    (hm : Text.isBoundary s m = true) (hn : Text.isBoundary s n = true) (hle : m ≤ offset)
    (hlt : offset < n) : c ∈ slice s ⟨m, n⟩ := by
  obtain ⟨hstart, hstop⟩ := h.isBoundary
  have hnext := h.add_size_le hn hlt
  have hself : slice s ⟨offset, offset + c.utf8Size⟩ = [c] := by
    obtain ⟨before, after, rfl, rfl⟩ := h
    exact slice_of_drop (drop_width_append before ([c] ++ after))
  rw [← slice_append_slice hm hstart hle (Nat.le_of_lt hlt),
    ← slice_append_slice hstart hstop (Nat.le_add_right _ _) hnext, hself]
  simp

@[simp] theorem cells_nil : cells [] = [] := rfl

@[simp] theorem cells_cons (c : Char) (s : Text) : cells (c :: s) = charCells c ++ cells s := rfl

@[simp] theorem cells_append (as bs : Text) : cells (as ++ bs) = cells as ++ cells bs :=
  List.flatMap_append

/-- Inside the bytes of one character, a cell shows a character only if there is just one byte. -/
theorem charCells_getElem?_eq_some {d c : Char} {i : Nat}
    (h : (charCells d)[i]? = some (some c)) : i = 0 ∧ c = d ∧ d.utf8Size = 1 := by
  unfold charCells at h
  split at h
  · rename_i hsize
    cases i with
    | zero => exact ⟨rfl, by simpa using h.symm, hsize⟩
    | succ i => simp at h
  · simp [List.getElem?_replicate] at h

theorem cells_getElem?_eq_some_iff {s : Text} {i : Nat} {c : Char} :
    (cells s)[i]? = some (some c) ↔ StandsAt s i c ∧ c.utf8Size = 1 := by
  constructor
  · intro h
    induction s generalizing i with
    | nil => simp at h
    | cons d s ih =>
      rw [cells_cons] at h
      rcases Nat.lt_or_ge i (charCells d).length with hlt | hge
      · rw [List.getElem?_append_left hlt] at h
        obtain ⟨rfl, rfl, hsize⟩ := charCells_getElem?_eq_some h
        exact ⟨⟨[], s, rfl, rfl⟩, hsize⟩
      · rw [List.getElem?_append_right hge] at h
        obtain ⟨hstands, hsize⟩ := ih h
        have hi : d.utf8Size + (i - (charCells d).length) = i := by
          rw [length_charCells] at hge ⊢
          omega
        exact ⟨hi ▸ hstands.cons d, hsize⟩
  · rintro ⟨⟨before, after, rfl, rfl⟩, hsize⟩
    rw [cells_append, ← length_cells before, List.getElem?_append_right (Nat.le_refl _),
      Nat.sub_self, cells_cons, charCells, if_pos hsize]
    rfl

/-- A number of cells that ends with the last of them, or before or after an ASCII character. -/
inductive CleanCut (cells : List Cell) : Nat → Prop
  | finish : CleanCut cells cells.length
  | before {n : Nat} {c : Char} (h : cells[n]? = some (some c)) : CleanCut cells n
  | after {n : Nat} {c : Char} (h : cells[n]? = some (some c)) : CleanCut cells (n + 1)

theorem CleanCut.le_length {cells : List Cell} {n : Nat} (h : CleanCut cells n) :
    n ≤ cells.length := by
  cases h with
  | finish => exact Nat.le_refl _
  | before h => exact Nat.le_of_lt (List.getElem?_eq_some_iff.mp h).1
  | after h => exact (List.getElem?_eq_some_iff.mp h).1

theorem CleanCut.cons {cells : List Cell} {n : Nat} (h : CleanCut cells n) (d : Cell) :
    CleanCut (d :: cells) (n + 1) := by
  cases h with
  | finish => exact .finish
  | before h => exact .before (by simpa using h)
  | after h => exact .after (by simpa using h)

theorem CleanCut.of_drop {cells : List Cell} {start n : Nat} (hstart : start ≤ cells.length)
    (h : CleanCut (cells.drop start) n) : CleanCut cells (start + n) := by
  cases h with
  | finish =>
    rw [List.length_drop, Nat.add_sub_cancel' hstart]
    exact .finish
  | before h => exact .before (by rwa [List.getElem?_drop] at h)
  | after h => exact .after (by rwa [List.getElem?_drop] at h)

theorem CleanCut.isBoundary {s : Text} {n : Nat} (h : CleanCut (cells s) n) :
    isBoundary s n = true := by
  cases h with
  | finish =>
    rw [length_cells]
    exact isBoundary_width s
  | before h => exact (cells_getElem?_eq_some_iff.mp h).1.isBoundary.1
  | after h =>
    obtain ⟨hstands, hsize⟩ := cells_getElem?_eq_some_iff.mp h
    have hnext := hstands.isBoundary.2
    rwa [hsize] at hnext

end ScriptLint.Text

import Mathlib.Data.List.Chain
import ScriptLint.Proofs.Token.Partition
import ScriptLint.Proofs.Tree.Exact
import ScriptLint.Text.Blank

/-!
Tokens and the blanks around them. Between two places that no token reaches over, a text is made of
the tokens that stand there and of blanks (`Token.Spaced.slice_eq`). The tokens follow one another
directly exactly if their texts alone make up the text from the first of them to the last
(`Token.spread_eq_flatMap_iff`).
-/
namespace ScriptLint

namespace Text

theorem slice_of_standsAt {s : Text} {offset : Nat} {c : Char} (h : StandsAt s offset c) :
    slice s ⟨offset, offset + c.utf8Size⟩ = [c] := by
  obtain ⟨before, after, rfl, rfl⟩ := h
  exact slice_of_drop (drop_width_append before ([c] ++ after))

theorem isBlank_of_mem_gapChars {c : Char} (h : c ∈ Token.gapChars) :
    isBlank c = true ∧ c.utf8Size = 1 := by
  have hall : Token.gapChars.all (fun c => isBlank c && c.utf8Size == 1) = true := by decide
  simpa using List.all_eq_true.mp hall c h

/-- Bytes that all show gap characters are blanks. -/
theorem allBlank_slice {s : Text} (length : Nat) {pos : Nat} (hpos : isBoundary s pos = true)
    (hgap : ∀ i, pos ≤ i → i < pos + length → ∃ c ∈ Token.gapChars, StandsAt s i c) :
    allBlank (slice s ⟨pos, pos + length⟩) = true := by
  induction length generalizing pos with
  | zero => simp [allBlank]
  | succ length ih =>
    obtain ⟨c, hc, hstands⟩ := hgap pos (Nat.le_refl _) (by omega)
    obtain ⟨hblank, hsize⟩ := isBlank_of_mem_gapChars hc
    have hnext := hstands.isBoundary.2
    have hself := slice_of_standsAt hstands
    rw [hsize] at hnext hself
    have hrest := ih hnext fun i hle hlt => hgap i (by omega) (by omega)
    rw [show pos + (length + 1) = pos + 1 + length by omega,
      ← slice_append_slice hpos hnext (Nat.le_succ pos) (Nat.le_add_right _ _), hself]
    simpa [allBlank, hblank] using hrest

end Text

namespace Token

open Text (allBlank slice isBlank)

variable {source : Text} {pos stop : Nat} {t : Token} {ts : List Token}

theorem filter_eq_nil_of_allBlank {p : Char → Bool} (hp : ∀ c, isBlank c = true → p c = false)
    {s : Text} (h : allBlank s = true) : s.filter p = [] := by
  simp only [allBlank, List.all_eq_true] at h
  simpa [List.filter_eq_nil_iff] using fun c hc => hp c (h c hc)

/-- The tokens stand between the two places, with blanks between and around them. -/
inductive Spaced (source : Text) : Nat → List Token → Nat → Prop
  | nil {pos stop : Nat} (hle : pos ≤ stop) (blank : allBlank (slice source ⟨pos, stop⟩) = true) :
    Spaced source pos [] stop
  | cons {pos stop : Nat} {t : Token} {ts : List Token} (hle : pos ≤ t.span.start)
    (blank : allBlank (slice source ⟨pos, t.span.start⟩) = true) (exact : t.span.Exact source)
    (hlt : t.span.start < t.span.stop) (next : Spaced source t.span.stop ts stop) :
    Spaced source pos (t :: ts) stop

/-- From a place on, the text up to the last of the tokens. -/
def spread (source : Text) : Nat → List Token → Text
  | _, [] => []
  | pos, t :: ts =>
    slice source ⟨pos, t.span.start⟩ ++ t.text source ++ spread source t.span.stop ts

theorem Spaced.le (h : Spaced source pos ts stop) : pos ≤ stop := by
  induction h with
  | nil hle => exact hle
  | cons => omega

/-- The text between the two places ends in blanks after the last token. -/
theorem Spaced.slice_eq (h : Spaced source pos ts stop)
    (hpos : Text.isBoundary source pos = true) :
    ∃ blanks, allBlank blanks = true ∧ slice source ⟨pos, stop⟩ = spread source pos ts ++ blanks := by
  induction h with
  | nil _ blank => exact ⟨_, blank, rfl⟩
  | @cons pos stop t ts hle _ exact hlt next ih =>
    obtain ⟨blanks, hblanks, hrest⟩ := ih exact.stop
    have hnext := next.le
    refine ⟨blanks, hblanks, ?_⟩
    rw [spread, List.append_assoc, List.append_assoc, ← hrest, text,
      Text.slice_append_slice exact.start exact.stop (Nat.le_of_lt hlt) hnext,
      Text.slice_append_slice hpos exact.start hle (by omega)]

/-- Blanks do not show where they are filtered out. -/
theorem Spaced.filter_spread {p : Char → Bool} (hp : ∀ c, isBlank c = true → p c = false)
    (h : Spaced source pos ts stop) :
    (spread source pos ts).filter p = ts.flatMap fun t => (t.text source).filter p := by
  induction h with
  | nil => rfl
  | cons _ blank _ _ _ ih =>
    have hnone : (slice source _).filter p = [] := filter_eq_nil_of_allBlank hp blank
    rw [spread, List.filter_append, List.filter_append, hnone, ih]
    rfl

theorem length_flatMap_text_le (source : Text) (pos : Nat) (ts : List Token) :
    (ts.flatMap (text · source)).length ≤ (spread source pos ts).length := by
  induction ts generalizing pos with
  | nil => simp [spread]
  | cons t ts ih =>
    have := ih t.span.stop
    simp only [List.flatMap_cons, List.length_append, spread]
    omega

/-- After a token, the texts of the others make up what follows exactly if each token starts where
the one before it ends. -/
theorem spread_eq_flatMap_iff (ht : Text.isBoundary source t.span.stop = true)
    (h : Spaced source t.span.stop ts stop) :
    spread source t.span.stop ts = ts.flatMap (text · source) ↔
      (t :: ts).IsChain fun a b => a.span.stop = b.span.start := by
  induction ts generalizing t with
  | nil => simp [spread]
  | cons u ts ih =>
    cases h with
    | cons hle _ exact hlt next =>
      rw [List.isChain_cons_cons, ← ih exact.stop next, spread, List.flatMap_cons]
      constructor
      · intro heq
        -- the texts of the later tokens are part of what follows, so nothing is left for the gap
        have hlength := congrArg List.length heq
        have hleast := length_flatMap_text_le source u.span.stop ts
        simp only [List.length_append] at hlength
        have hgap : slice source ⟨t.span.stop, u.span.start⟩ = [] :=
          List.length_eq_zero_iff.mp (by omega)
        have hwidth := Text.width_slice ht exact.start hle
        rw [hgap, Text.width_nil] at hwidth
        rw [hgap, List.nil_append] at heq
        exact ⟨by omega, List.append_cancel_left heq⟩
      · rintro ⟨htouch, hrest⟩
        rw [htouch, Text.slice_self, List.nil_append, hrest]

/-- The tokens lie between the two places and are all that is there but gap characters. -/
structure Tiling (source : Text) (pos : Nat) (ts : List Token) (stop : Nat) : Prop where
  ordered : ts.Pairwise fun a b => a.span.stop ≤ b.span.start
  inside : ∀ t ∈ ts, pos ≤ t.span.start ∧ t.span.start < t.span.stop ∧ t.span.stop ≤ stop
  exact : ∀ t ∈ ts, t.span.Exact source
  covers : ∀ i, pos ≤ i → i < stop →
    (∃ t ∈ ts, t.span.contains i = true) ∨ ∃ c ∈ gapChars, Text.StandsAt source i c

theorem Tiling.tail (h : Tiling source pos (t :: ts) stop) : Tiling source t.span.stop ts stop where
  ordered := (List.pairwise_cons.mp h.ordered).2
  inside u hu := ⟨(List.pairwise_cons.mp h.ordered).1 u hu, (h.inside u (.tail t hu)).2⟩
  exact u hu := h.exact u (.tail t hu)
  covers i hle hlt := by
    have hstart := (h.inside t List.mem_cons_self).1
    have hlength := (h.inside t List.mem_cons_self).2.1
    cases h.covers i (by omega) hlt with
    | inr hgap => exact .inr hgap
    | inl htoken =>
      obtain ⟨u, hu, hcontains⟩ := htoken
      cases hu with
      | head =>
        simp only [Span.contains, Bool.and_eq_true, decide_eq_true_eq] at hcontains
        omega
      | tail _ hu => exact .inl ⟨u, hu, hcontains⟩

theorem Tiling.allBlank_before (h : Tiling source pos ts stop)
    (hpos : Text.isBoundary source pos = true) {place : Nat} (hle : pos ≤ place)
    (hstop : place ≤ stop) (hplace : ∀ t ∈ ts, place ≤ t.span.start) :
    allBlank (slice source ⟨pos, place⟩) = true := by
  obtain ⟨length, rfl⟩ := Nat.exists_eq_add_of_le hle
  apply Text.allBlank_slice length hpos
  intro i hi hlt
  cases h.covers i hi (by omega) with
  | inr hgap => exact hgap
  | inl htoken =>
    obtain ⟨t, ht, hcontains⟩ := htoken
    have hstart := hplace t ht
    simp only [Span.contains, Bool.and_eq_true, decide_eq_true_eq] at hcontains
    omega

theorem Tiling.spaced (h : Tiling source pos ts stop) (hpos : Text.isBoundary source pos = true)
    (hle : pos ≤ stop) : Spaced source pos ts stop := by
  induction ts generalizing pos with
  | nil => exact .nil hle (h.allBlank_before hpos hle (Nat.le_refl _) (by simp))
  | cons t ts ih =>
    obtain ⟨hstart, hlt, hstop⟩ := h.inside t List.mem_cons_self
    have hexact := h.exact t List.mem_cons_self
    have hfirst : ∀ u ∈ t :: ts, t.span.start ≤ u.span.start := by
      intro u hu
      cases hu with
      | head => exact Nat.le_refl _
      | tail _ hu =>
        have := (h.tail.inside u hu).1
        omega
    exact .cons hstart (h.allBlank_before hpos hstart (by omega) hfirst) hexact hlt
      (ih h.tail hexact.stop hstop)

end Token

end ScriptLint

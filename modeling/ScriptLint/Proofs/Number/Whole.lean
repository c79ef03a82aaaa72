import Mathlib.Data.List.TakeWhile
import ScriptLint.Number.Reader

/-!
Whole numbers as doubles. Rounding does not take a number below a power of two that it has reached
(`Binary64.le_nearest`), and numbers below `2 ^ 53` are not rounded at all (`Binary64.nearest_exact`).
So two whole numbers, one of which is that small, compare as doubles the way they compare as numbers
(`Binary64.lt_ofNat_iff`). A number in decimal digits reads as the double of the number
(`Number.read?_toDigits`), be it too large to be held exactly, or at all.
-/
namespace ScriptLint

namespace Binary64

/-- The power of two, closed to evaluation: the powers here have thousands of digits. -/
@[irreducible] def twoPow (k : Nat) : Nat := Nat.pow 2 k

section
variable {k l m n : Nat}

theorem one_eq : one = twoPow 1074 := by decide +kernel

theorem bound_eq : bound = twoPow 2098 := by decide +kernel

theorem spacing_eq (units : Nat) : spacing units = twoPow (units.log2 - 52) := by
  rw [spacing, twoPow]

theorem twoPow_add (k l : Nat) : twoPow (k + l) = twoPow k * twoPow l := by
  unfold twoPow
  exact Nat.pow_add 2 k l

theorem twoPow_pos (k : Nat) : 0 < twoPow k := by
  unfold twoPow
  exact Nat.two_pow_pos k

theorem twoPow_mono (h : k ≤ l) : twoPow k ≤ twoPow l := by
  unfold twoPow
  exact Nat.pow_le_pow_right (by decide) h

theorem twoPow_dvd (h : k ≤ l) : twoPow k ∣ twoPow l := by
  unfold twoPow
  exact Nat.pow_dvd_pow 2 h

theorem log2_lt_iff (hn : n ≠ 0) : n.log2 < k ↔ n < twoPow k := by
  unfold twoPow
  exact Nat.log2_lt hn

theorem one_pos : 0 < one := by
  simp only [one_eq, twoPow_pos]

theorem mul_one_lt (h : n < twoPow k) : n * one < twoPow (k + 1074) := by
  rw [twoPow_add, ← one_eq]
  exact Nat.mul_lt_mul_of_pos_right h one_pos

theorem le_mul_one (h : twoPow k ≤ n) : twoPow (k + 1074) ≤ n * one := by
  rw [twoPow_add, ← one_eq]
  exact Nat.mul_le_mul_right one h

theorem spacing_pos (units : Nat) : 0 < spacing units := by
  simp only [spacing_eq, twoPow_pos]

theorem le_roundDiv (num den : Nat) : num / den ≤ roundDiv num den := by
  simp only [roundDiv]
  split <;> omega

theorem roundDiv_of_dvd (hpos : 0 < m) (h : m ∣ n) : roundDiv n m = n / m := by
  have hrest : n % m = 0 := Nat.mod_eq_zero_of_dvd h
  simp [roundDiv, hrest, hpos]

theorem nearest_one (units : Nat) :
    nearest units 1 = roundDiv units (spacing units) * spacing units := by
  simp [nearest]

/-- A count that is a multiple of its spacing is representable. -/
theorem nearest_of_spacing_dvd (h : spacing n ∣ n) : nearest n 1 = n := by
  rw [nearest_one, roundDiv_of_dvd (spacing_pos n) h, Nat.div_mul_cancel h]

theorem nearest_exact (h : n < twoPow 53) : nearest (n * one) 1 = n * one := by
  apply nearest_of_spacing_dvd
  by_cases hzero : n = 0
  · simp [hzero]
  · have hlog := (log2_lt_iff (Nat.mul_ne_zero hzero (Nat.ne_of_gt one_pos))).mpr (mul_one_lt h)
    have hone : spacing (n * one) ∣ one := by
      rw [spacing_eq]
      have hexp : (n * one).log2 - 52 ≤ 1074 := by omega
      exact Nat.dvd_trans (twoPow_dvd hexp) (one_eq ▸ Nat.dvd_refl _)
    exact Nat.dvd_trans hone (Nat.dvd_mul_left one n)

/-- The largest power of two up to a count is a multiple of its spacing, so rounding does not fall
below it. -/
theorem le_nearest (h : twoPow k ≤ n) : twoPow k ≤ nearest n 1 := by
  have hn : n ≠ 0 := Nat.ne_of_gt (Nat.lt_of_lt_of_le (twoPow_pos k) h)
  have hlog : k ≤ n.log2 := by
    have := (log2_lt_iff hn (k := k)).not
    omega
  have hdvd : spacing n ∣ twoPow n.log2 := by
    rw [spacing_eq]
    exact twoPow_dvd (Nat.sub_le _ _)
  have hle : twoPow n.log2 ≤ n := by
    have := (log2_lt_iff hn (k := n.log2)).not
    omega
  calc twoPow k ≤ twoPow n.log2 := twoPow_mono hlog
    _ = twoPow n.log2 / spacing n * spacing n := (Nat.div_mul_cancel hdvd).symm
    _ ≤ n / spacing n * spacing n := Nat.mul_le_mul_right _ (Nat.div_le_div_right hle)
    _ ≤ roundDiv n (spacing n) * spacing n := Nat.mul_le_mul_right _ (le_roundDiv _ _)
    _ = nearest n 1 := (nearest_one n).symm

theorem le_nearest_mul_one (h : twoPow k ≤ n) : twoPow (k + 1074) ≤ nearest (n * one) 1 :=
  le_nearest (le_mul_one h)

theorem ofNat_eq (n : Nat) : ofNat n = ofUnits false (nearest (n * one) 1) := by
  rw [ofNat, ofRatio]

theorem rank?_ofUnits_of_lt (h : n < bound) : (ofUnits false n).rank? = some (n : Int) := by
  simp [ofUnits, h, rank?]

theorem ofUnits_of_le (h : bound ≤ n) : ofUnits false n = .infinite false := by
  simp [ofUnits, Nat.not_lt.mpr h]

theorem mul_one_lt_bound (h : n < twoPow 53) : n * one < bound := by
  rw [bound_eq]
  exact Nat.lt_of_lt_of_le (mul_one_lt h) (twoPow_mono (by decide))

theorem rank?_ofNat_of_lt (h : n < twoPow 53) : (ofNat n).rank? = some ((n * one : Nat) : Int) := by
  rw [ofNat_eq, nearest_exact h, rank?_ofUnits_of_lt (mul_one_lt_bound h)]

theorem exists_rank?_ofNat (h : twoPow 53 ≤ n) :
    ∃ rank : Nat, (ofNat n).rank? = some (rank : Int) ∧ twoPow (53 + 1074) ≤ rank := by
  -- a number that is too large becomes infinite, which ranks at the bound
  by_cases hfinite : nearest (n * one) 1 < bound
  · exact ⟨_, by rw [ofNat_eq, rank?_ofUnits_of_lt hfinite], le_nearest_mul_one h⟩
  · have hbound : twoPow (53 + 1074) ≤ bound := by
      rw [bound_eq]
      exact twoPow_mono (by decide)
    exact ⟨bound, by rw [ofNat_eq, ofUnits_of_le (Nat.le_of_not_lt hfinite)]; rfl, hbound⟩

theorem lt_of_rank? {x y : Binary64} (hx : x.rank? = some (m : Int)) (hy : y.rank? = some (n : Int)) :
    x.lt y = true ↔ m < n := by
  simp [lt, compareBy, hx, hy]

/-- Whole numbers, one of them small, compare as their doubles do. -/
theorem lt_ofNat_iff (h : m < twoPow 53 ∨ n < twoPow 53) :
    (ofNat m).lt (ofNat n) = true ↔ m < n := by
  by_cases hm : m < twoPow 53
  · by_cases hn : n < twoPow 53
    · rw [lt_of_rank? (rank?_ofNat_of_lt hm) (rank?_ofNat_of_lt hn)]
      exact Nat.mul_lt_mul_right one_pos
    · obtain ⟨rank, hrank, hle⟩ := exists_rank?_ofNat (Nat.le_of_not_lt hn)
      have hlt := mul_one_lt hm
      rw [lt_of_rank? (rank?_ofNat_of_lt hm) hrank]
      omega
  · have hn : n < twoPow 53 := h.resolve_left hm
    obtain ⟨rank, hrank, hle⟩ := exists_rank?_ofNat (Nat.le_of_not_lt hm)
    have hlt := mul_one_lt hn
    rw [lt_of_rank? hrank (rank?_ofNat_of_lt hn)]
    omega

theorem ofNat_of_le (h : twoPow 1024 ≤ n) : ofNat n = .infinite false := by
  have hunits : bound ≤ nearest (n * one) 1 := by
    rw [bound_eq]
    exact le_nearest_mul_one h
  rw [ofNat_eq, ofUnits_of_le hunits]

end

end Binary64

namespace Number

section
variable {cs : Text} {c : Char} {d n : Nat}

theorem digitValue?_digitChar (h : d < 10) : digitValue? (Nat.digitChar d) = some d := by
  revert d
  decide

theorem digits?_concat (hcs : digits? 10 cs = some n) (h : d < 10) :
    digits? 10 (cs ++ [Nat.digitChar d]) = some (10 * n + d) := by
  unfold digits? at hcs ⊢
  rw [List.foldlM_append, hcs]
  simp [digitValue?_digitChar h, h]

theorem digits?_toDigits (n : Nat) : digits? 10 (Nat.toDigits 10 n) = some n := by
  induction n using Nat.strongRecOn with
  | ind n ih =>
    by_cases h : n < 10
    · rw [Nat.toDigits_of_lt_base h]
      have hnil : digits? 10 [] = some 0 := rfl
      simpa using digits?_concat hnil h
    · rw [Nat.toDigits_of_base_le (by decide) (Nat.le_of_not_lt h)]
      rw [digits?_concat (ih (n / 10) (by omega)) (Nat.mod_lt n (by decide)), Nat.div_add_mod]

theorem toLower_of_isDigit (h : c.isDigit = true) : c.toLower = c := by
  unfold Char.toLower Char.isDigit at *
  grind

theorem splitSign_of_isDigit (h : c.isDigit = true) (cs : Text) :
    splitSign (c :: cs) = (false, c :: cs) := by
  unfold splitSign
  split <;> simp_all

/-- A text of digits alone has no exponent and no point, and is none of the words. -/
theorem read?_of_digits (hne : cs ≠ []) (hcs : ∀ c ∈ cs, c.isDigit = true) :
    read? cs = (digits? 10 cs).map (ofDecimal false · 0) := by
  have hlower : cs.map Char.toLower = cs := by
    rw [List.map_congr_left fun c hc => toLower_of_isDigit (hcs c hc), List.map_id']
  have htake : cs.takeWhile Char.isDigit = cs := List.takeWhile_eq_self_iff.mpr hcs
  have hdrop : cs.dropWhile Char.isDigit = [] := List.dropWhile_eq_nil_iff.mpr hcs
  cases cs with
  | nil => contradiction
  | cons c rest =>
    have hc : c.isDigit = true := hcs c List.mem_cons_self
    have hword : ∀ w : String, w.toList.head? ∈ [some 'i', some 'n'] →
        String.ofList (c :: rest) ≠ w := by
      rintro w hw rfl
      rw [String.toList_ofList] at hw
      simp only [List.head?_cons, List.mem_cons, Option.some.injEq, List.not_mem_nil, or_false] at hw
      rcases hw with rfl | rfl <;> contradiction
    simp only [read?, splitSign_of_isDigit hc, hlower, hword "inf" (by decide),
      hword "infinity" (by decide), hword "nan" (by decide), or_self, if_false]
    simp only [unsigned?, htake, hdrop]
    cases hvalue : digits? 10 (c :: rest) <;> simp [exponent?, hvalue]

/-- The shortcut for numbers with very many digits gives what rounding would. -/
theorem ofDecimal_zero (n : Nat) : ofDecimal false n 0 = Binary64.ofNat n := by
  by_cases hn : n = 0
  · subst hn
    decide +kernel
  · by_cases htop : (Nat.toDigits 10 n).length ≤ 310
    · simp only [ofDecimal]
      rw [if_neg (by omega), if_neg (by omega)]
      simp [Binary64.ofNat]
    · have hlarge : Binary64.twoPow 1024 ≤ n := by
        have hdigits := mt (Nat.length_toDigits_le_iff (by decide) (by decide)).mpr htop
        have hpow : Binary64.twoPow 1024 ≤ 10 ^ 310 := by decide +kernel
        omega
      rw [Binary64.ofNat_of_le hlarge]
      simp only [ofDecimal]
      rw [if_neg (by omega), if_pos (by omega)]

/-- A whole number in decimal reads as its double. -/
theorem read?_toDigits (n : Nat) : read? (Nat.toDigits 10 n) = some (Binary64.ofNat n) := by
  rw [read?_of_digits Nat.toDigits_ne_nil fun c hc =>
    Nat.isDigit_of_mem_toDigits (by decide) (by decide) hc]
  rw [digits?_toDigits, Option.map_some, ofDecimal_zero]

end

end Number

end ScriptLint

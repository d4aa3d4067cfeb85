import Dialogue.Binary.Magnitude
import Mathlib.Tactic.LinearCombination
import Mathlib.Tactic.Linarith
import Mathlib.Tactic.Zify
import Mathlib.Tactic.Ring
import Mathlib.Algebra.Order.Ring.Abs

/-!
# Multiples of two numbers that come close

How close a multiple `C * a` comes to a multiple `M * b` is a question about fractions near `a / b`. Two
neighbouring fractions with `a / b` between them span all pairs of factors, and the pairs with both
coefficients positive lie beyond the sum of the denominators. So up to that bound the two fractions
decide how close multiples come (`Bracket.check_spec`), which is checked by a few products. How the
fractions are found (`Bracket.search`) is of no account.
-/

namespace Dialogue.Binary

/-- Numbers are far from each other when they differ by more than one part in so many. -/
def accuracy : Nat := 4 * 10 ^ 15

/-- Two fractions, one from below and one from above. -/
structure Bracket where
  lowNum : Nat
  lowDen : Nat
  highNum : Nat
  highDen : Nat

namespace Bracket

/-! ### Checking a bracket -/

def lowGap (s : Bracket) (a b : Nat) : Nat := s.lowDen * a - s.lowNum * b

def highGap (s : Bracket) (a b : Nat) : Nat := s.highNum * b - s.highDen * a

/-- Whether the multiples on one side are far from each other: those of the fraction itself by its gap,
or else all others by the gap of the other side, while the fraction is either exact or, unless it is
beyond the numbers of twenty-five bits, known as a tie. -/
def sideFar (tie : Nat → Bool) (a bound num den gap other : Nat) : Bool :=
  den * a < accuracy * gap ||
    (bound * a < accuracy * other &&
      (gap == 0 || (twoTo 25 ≤ 2 * num && (twoTo 25 ≤ num || tie num))))

/-- Whether the fractions are neighbours with the quotient between them, reach the bound, and keep
multiples far from each other on both sides. -/
def check (s : Bracket) (tie : Nat → Bool) (a b bound : Nat) : Bool :=
  s.lowDen * s.highNum == s.lowNum * s.highDen + 1 &&
    (s.lowNum * b ≤ s.lowDen * a && s.highDen * a ≤ s.highNum * b) &&
    bound < s.lowDen + s.highDen &&
    sideFar tie a bound s.lowNum s.lowDen (s.lowGap a b) (s.highGap a b) &&
    sideFar tie a bound s.highNum s.highDen (s.highGap a b) (s.lowGap a b)

variable {tie : Nat → Bool} {a b bound : Nat}

theorem sideFar_spec {num den gap other num' den' : Nat}
    (h : sideFar tie a bound num den gap other = true) {C M i l : Nat} (hi : 0 < i)
    (hC : C + l * den' = i * den) (hbound : C ≤ bound) (hM : M + l * num' = i * num)
    (hbelow : M < twoTo 25) (hne : i * gap + l * other ≠ 0) :
    C * a < accuracy * (i * gap + l * other) ∨ tie M = true := by
  simp only [sideFar, Bool.or_eq_true, Bool.and_eq_true, decide_eq_true_eq, beq_iff_eq] at h
  rcases h with hgap | ⟨hother, hties⟩
  · refine .inl ?_
    calc C * a ≤ i * den * a := Nat.mul_le_mul_right a (by omega)
      _ = i * (den * a) := Nat.mul_assoc _ _ _
      _ < i * (accuracy * gap) := Nat.mul_lt_mul_of_pos_left hgap hi
      _ = accuracy * (i * gap) := Nat.mul_left_comm _ _ _
      _ ≤ _ := Nat.mul_le_mul_left _ (Nat.le_add_right _ _)
  · rcases Nat.eq_zero_or_pos l with rfl | hl
    · -- a multiple of the fraction itself, which is the fraction
      rw [Nat.zero_mul, Nat.add_zero] at hM hne
      obtain ⟨hdouble, htie⟩ := hties.resolve_left (fun hgap => hne (by rw [hgap, Nat.mul_zero]))
      have hone : i = 1 := by
        by_contra hmore
        have hmul := Nat.mul_le_mul_right num (show 2 ≤ i by omega)
        omega
      rw [hone, Nat.one_mul] at hM
      rw [hM] at hbelow ⊢
      exact .inr (htie.resolve_left (Nat.not_le_of_lt hbelow))
    · refine .inl ?_
      calc C * a ≤ bound * a := Nat.mul_le_mul_right a hbound
        _ < accuracy * other := hother
        _ ≤ accuracy * (l * other) := Nat.mul_le_mul_left _ (Nat.le_mul_of_pos_left _ hl)
        _ ≤ _ := Nat.mul_le_mul_left _ (Nat.le_add_left _ _)

theorem far_of_sideFar {num den gap other num' den' : Nat}
    (h : sideFar tie a bound num den gap other = true) {C M : Nat} {i l : ℤ} (hi : 0 < i) (hl : l ≤ 0)
    (hC : (C : ℤ) = i * den + l * den') (hbound : C ≤ bound) (hM : (M : ℤ) = i * num + l * num')
    (hbelow : M < twoTo 25) (hne : i * gap - l * other ≠ 0) :
    (C * a : ℤ) < accuracy * |i * gap - l * other| ∨ tie M = true := by
  obtain ⟨i, rfl⟩ := Int.eq_ofNat_of_zero_le hi.le
  obtain ⟨k, hk⟩ := Int.eq_ofNat_of_zero_le (neg_nonneg.mpr hl)
  obtain rfl : l = -(k : ℤ) := by omega
  have hdifference : (i : ℤ) * gap - -(k : ℤ) * other = (i * gap + k * other : Nat) := by
    push_cast
    ring
  have hfactor : C + k * den' = i * den := by
    zify
    linarith
  have hother : M + k * num' = i * num := by
    zify
    linarith
  rw [hdifference] at hne ⊢
  rw [Nat.abs_cast]
  exact_mod_cast sideFar_spec h (by exact_mod_cast hi) hfactor hbound hother hbelow
    (by exact_mod_cast hne)

/-- **Multiples of two numbers are far from each other**, up to the bound of a bracket. -/
theorem check_spec {s : Bracket} (h : s.check tie a b bound = true) {C M : Nat} (hC : 0 < C)
    (hbound : C ≤ bound) (hM : M < twoTo 25) (hne : C * a ≠ M * b) :
    (C * a : ℤ) < accuracy * |(C * a : ℤ) - M * b| ∨ tie M = true := by
  simp only [check, Bool.and_eq_true, decide_eq_true_eq, beq_iff_eq] at h
  obtain ⟨⟨⟨⟨hdet, hlow, hhigh⟩, hsum⟩, hlowFar⟩, hhighFar⟩ := h
  have hdet' : (s.lowDen : ℤ) * s.highNum = s.lowNum * s.highDen + 1 := by exact_mod_cast hdet
  have hsum' : (bound : ℤ) < s.lowDen + s.highDen := by exact_mod_cast hsum
  have hC' : (0 : ℤ) < C := by exact_mod_cast hC
  have hbound' : (C : ℤ) ≤ bound := by exact_mod_cast hbound
  -- the factors lie in the lattice that the two fractions span
  obtain ⟨i, hi⟩ : ∃ i : ℤ, i = C * s.highNum - M * s.highDen := ⟨_, rfl⟩
  obtain ⟨l, hl⟩ : ∃ l : ℤ, l = M * s.lowDen - C * s.lowNum := ⟨_, rfl⟩
  have hfactor : (C : ℤ) = i * s.lowDen + l * s.highDen := by
    rw [hi, hl]
    linear_combination (-(C : ℤ)) * hdet'
  have hother : (M : ℤ) = i * s.lowNum + l * s.highNum := by
    rw [hi, hl]
    linear_combination (-(M : ℤ)) * hdet'
  have hlowGap : (s.lowGap a b : ℤ) = s.lowDen * a - s.lowNum * b := by
    rw [lowGap, Nat.cast_sub hlow]
    push_cast
    rfl
  have hhighGap : (s.highGap a b : ℤ) = s.highNum * b - s.highDen * a := by
    rw [highGap, Nat.cast_sub hhigh]
    push_cast
    rfl
  have hdifference : (C * a : ℤ) - M * b = i * s.lowGap a b - l * s.highGap a b := by
    rw [hlowGap, hhighGap, hfactor, hother]
    ring
  have hdifferent : (C * a : ℤ) - M * b ≠ 0 := by
    rw [sub_ne_zero]
    exact_mod_cast hne
  rcases lt_or_ge 0 i with hpos | hneg
  · have hl' : l ≤ 0 := by
      by_contra hpos'
      have hlow' : (s.lowDen : ℤ) ≤ i * s.lowDen := le_mul_of_one_le_left (Int.natCast_nonneg _) hpos
      have hhigh' : (s.highDen : ℤ) ≤ l * s.highDen :=
        le_mul_of_one_le_left (Int.natCast_nonneg _) (not_le.mp hpos')
      linarith
    rw [hdifference] at hdifferent ⊢
    exact far_of_sideFar hlowFar hpos hl' hfactor hbound hother hM hdifferent
  · have hl' : 0 < l := by
      by_contra hneg'
      have hlow' := mul_nonpos_of_nonpos_of_nonneg hneg (Int.natCast_nonneg s.lowDen)
      have hhigh' := mul_nonpos_of_nonpos_of_nonneg (not_lt.mp hneg') (Int.natCast_nonneg s.highDen)
      linarith
    have hflip : (C * a : ℤ) - M * b = -(l * s.highGap a b - i * s.lowGap a b) := by
      rw [hdifference]
      ring
    rw [hflip, neg_ne_zero] at hdifferent
    rw [hflip, abs_neg]
    exact far_of_sideFar hhighFar hl' hneg (hfactor.trans (add_comm _ _)) hbound
      (hother.trans (add_comm _ _)) hM hdifferent

/-! ### Finding a bracket -/

/-- As many steps towards the other side as do not pass the quotient or the bound. -/
def steps (gap other room den : Nat) : Nat :=
  if other = 0 then room / den else min (room / den) (gap / other)

/-- Both sides move on in turn until their denominators pass the bound together. -/
def search (a b bound : Nat) : (fuel : Nat) → Bracket → Bracket
  | 0, s => s
  | fuel + 1, s =>
    if bound < s.lowDen + s.highDen then s
    else
      let t := steps (s.lowGap a b) (s.highGap a b) (bound - s.lowDen) s.highDen
      if t = 0 then
        let u := steps (s.highGap a b) (s.lowGap a b) (bound - s.highDen) s.lowDen
        search a b bound fuel
          { s with highNum := s.highNum + u * s.lowNum, highDen := s.highDen + u * s.lowDen }
      else
        search a b bound fuel
          { s with lowNum := s.lowNum + t * s.highNum, lowDen := s.lowDen + t * s.highDen }

/-- The bracket of a quotient up to a bound. -/
def find (a b bound : Nat) : Bracket := search a b bound 40 ⟨a / b, 1, a / b + 1, 1⟩

end Bracket

end Dialogue.Binary

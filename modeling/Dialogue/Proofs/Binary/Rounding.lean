import Dialogue.Binary.Shortest
import Mathlib.Algebra.Order.Field.Power
import Mathlib.Tactic.Linarith
import Mathlib.Tactic.Positivity
import Mathlib.Tactic.FieldSimp
import Mathlib.Tactic.Ring
import Mathlib.Data.Rat.Cast.Order

/-!
# What rounding does to a number

Numbers are rationals here. The numbers that are rounded to a magnitude of a format are those of its
rounding interval (`Format.round_of_roundsTo`). Rounding is off by half a place at most, which is one
part in the greatest coefficient (`Format.round_near`), and a number that needs no more places than the
format has stays as it is (`Format.round_exact`).
-/

namespace Dialogue.Binary

/-! ### Powers of two -/

theorem cast_twoTo (n : Nat) : (twoTo n : ℚ) = 2 ^ n := by
  simp [twoTo]

theorem twoTo_pos (n : Nat) : 0 < twoTo n := Nat.pow_pos (by decide)

theorem two_zpow_eq (q : ℤ) : (2 : ℚ) ^ q = twoTo q.toNat / twoTo (-q).toNat := by
  rw [cast_twoTo, cast_twoTo]
  rcases le_total 0 q with hq | hq
  · rw [show (-q).toNat = 0 by omega, pow_zero, div_one, ← zpow_natCast, Int.toNat_of_nonneg hq]
  · rw [show q.toNat = 0 by omega, pow_zero, one_div, ← zpow_natCast,
      Int.toNat_of_nonneg (by omega), ← zpow_neg, neg_neg]

theorem two_zpow_pos (e : ℤ) : (0 : ℚ) < 2 ^ e := zpow_pos (by norm_num) e

theorem two_zpow_add (q : ℤ) (n : Nat) : (2 : ℚ) ^ (q + n) = twoTo n * 2 ^ q := by
  rw [zpow_add₀ two_ne_zero, zpow_natCast, cast_twoTo, mul_comm]

theorem two_zpow_halves (q : ℤ) : (2 : ℚ) ^ q = 2 * 2 ^ (q - 1) := by
  rw [mul_comm, ← zpow_add_one₀ two_ne_zero, sub_add_cancel]

theorem two_zpow_quarters (q : ℤ) : (2 : ℚ) ^ q = 4 * 2 ^ (q - 2) := by
  rw [two_zpow_halves q, two_zpow_halves (q - 1), ← mul_assoc, sub_sub]
  norm_num

namespace Magnitude

/-- The number that a magnitude stands for. -/
def value (m : Magnitude) : ℚ := m.coefficient * 2 ^ m.exponent

theorem value_eq (m : Magnitude) : m.value = m.numerator / m.denominator := by
  rw [value, two_zpow_eq, numerator, denominator, Nat.cast_mul, mul_div_assoc]

theorem denominator_pos (m : Magnitude) : 0 < m.denominator := twoTo_pos _

end Magnitude

/-! ### Quotients -/

theorem roundQuotient_near (num : Nat) {den : Nat} (hden : 0 < den) :
    2 * (roundQuotient num den : ℚ) ≤ 2 * (num / den) + 1 ∧
      2 * (num / den : ℚ) ≤ 2 * roundQuotient num den + 1 := by
  have hden' : (0 : ℚ) < den := by exact_mod_cast hden
  have hsplit := Nat.div_add_mod num den
  have hmod := Nat.mod_lt num hden
  have hcomm : num / den * den = den * (num / den) := Nat.mul_comm _ _
  have hnear : 2 * (roundQuotient num den * den) ≤ 2 * num + den ∧
      2 * num ≤ 2 * (roundQuotient num den * den) + den := by
    unfold roundQuotient
    simp only
    split
    · omega
    · split
      · rw [Nat.add_one_mul (num / den)]
        omega
      · split
        · omega
        · rw [Nat.add_one_mul (num / den)]
          omega
  have hlow : 2 * ((roundQuotient num den : ℚ) * den) ≤ 2 * num + den := by
    exact_mod_cast hnear.1
  have hhigh : 2 * (num : ℚ) ≤ 2 * (roundQuotient num den * den) + den := by
    exact_mod_cast hnear.2
  have hnum : (num / den : ℚ) * den = num := div_mul_cancel₀ _ hden'.ne'
  constructor
  · refine le_of_mul_le_mul_right ?_ hden'
    linarith
  · refine le_of_mul_le_mul_right ?_ hden'
    linarith

/-- A number within half a unit of a quotient is the rounded quotient; at just half a unit it has to be
even. -/
theorem roundQuotient_eq {num den n : Nat} (hden : 0 < den)
    (hlow : 2 * (n : ℚ) ≤ 2 * (num / den) + 1) (hhigh : 2 * (num / den : ℚ) ≤ 2 * n + 1)
    (htie : 2 * (n : ℚ) = 2 * (num / den) + 1 ∨ 2 * (num / den : ℚ) = 2 * n + 1 → n % 2 = 0) :
    roundQuotient num den = n := by
  have hden' : (0 : ℚ) < den := by exact_mod_cast hden
  have hnum : (num / den : ℚ) * den = num := div_mul_cancel₀ _ hden'.ne'
  have hlow' : 2 * (n * den) ≤ 2 * num + den := by
    have hmul := mul_le_mul_of_nonneg_right hlow hden'.le
    have hcast : 2 * ((n : ℚ) * den) ≤ 2 * num + den := by linarith
    exact_mod_cast hcast
  have hhigh' : 2 * num ≤ 2 * (n * den) + den := by
    have hmul := mul_le_mul_of_nonneg_right hhigh hden'.le
    have hcast : 2 * (num : ℚ) ≤ 2 * (n * den) + den := by linarith
    exact_mod_cast hcast
  have htie' : 2 * (n * den) = 2 * num + den ∨ 2 * num = 2 * (n * den) + den → n % 2 = 0 := by
    rintro (heq | heq)
    · have hcast : 2 * ((n : ℚ) * den) = 2 * num + den := by exact_mod_cast heq
      refine htie (.inl (mul_right_cancel₀ hden'.ne' ?_))
      linarith
    · have hcast : 2 * (num : ℚ) = 2 * (n * den) + den := by exact_mod_cast heq
      refine htie (.inr (mul_right_cancel₀ hden'.ne' ?_))
      linarith
  have hsplit := Nat.div_add_mod num den
  have hmod := Nat.mod_lt num hden
  have hcomm : num / den * den = den * (num / den) := Nat.mul_comm _ _
  have hle : num / den ≤ n := by
    by_contra hlt
    have hmul := Nat.mul_le_mul_right den (show n + 1 ≤ num / den by omega)
    rw [Nat.add_one_mul n] at hmul
    omega
  have hge : n ≤ num / den + 1 := by
    by_contra hlt
    have hmul := Nat.mul_le_mul_right den (show num / den + 2 ≤ n by omega)
    rw [Nat.add_mul] at hmul
    omega
  unfold roundQuotient
  simp only
  rcases Nat.eq_or_lt_of_le hle with heq | hlt
  · rw [← heq] at hlow' hhigh' htie' ⊢
    split
    · rfl
    · split
      · omega
      · rw [if_pos (htie' (.inr (by omega)))]
  · have heq : n = num / den + 1 := by omega
    rw [heq, Nat.add_one_mul (num / den)] at hlow' hhigh' htie'
    rw [heq]
    split
    · omega
    · split
      · rfl
      · have heven := htie' (.inl (by omega))
        rw [if_neg (by omega)]

/-! ### Binary logarithms -/

theorem two_zpow_le_iff {e : ℤ} {num den : Nat} (hden : 0 < den) :
    (2 : ℚ) ^ e ≤ num / den ↔ den * twoTo e.toNat ≤ num * twoTo (-e).toNat := by
  have hscale : (0 : ℚ) < twoTo (-e).toNat := by exact_mod_cast twoTo_pos _
  have hden' : (0 : ℚ) < den := by exact_mod_cast hden
  rw [two_zpow_eq, div_le_div_iff₀ hscale hden', mul_comm (twoTo e.toNat : ℚ)]
  exact_mod_cast Iff.rfl

theorem floorLog2_spec {num den : Nat} (hnum : 0 < num) (hden : 0 < den) :
    (2 : ℚ) ^ floorLog2 num den ≤ num / den ∧ (num / den : ℚ) < 2 ^ (floorLog2 num den + 1) := by
  have hden' : (0 : ℚ) < den := by exact_mod_cast hden
  have hnumLow : (2 : ℚ) ^ (num.log2 : ℤ) ≤ num := by
    rw [zpow_natCast]
    exact_mod_cast Nat.log2_self_le (Nat.ne_of_gt hnum)
  have hnumHigh : (num : ℚ) < 2 ^ ((num.log2 : ℤ) + 1) := by
    have hlt : (num : ℚ) < 2 ^ (num.log2 + 1) := by exact_mod_cast Nat.lt_log2_self
    exact_mod_cast hlt
  have hdenLow : (2 : ℚ) ^ (den.log2 : ℤ) ≤ den := by
    rw [zpow_natCast]
    exact_mod_cast Nat.log2_self_le (Nat.ne_of_gt hden)
  have hdenHigh : (den : ℚ) < 2 ^ ((den.log2 : ℤ) + 1) := by
    have hlt : (den : ℚ) < 2 ^ (den.log2 + 1) := by exact_mod_cast Nat.lt_log2_self
    exact_mod_cast hlt
  -- the logarithms of numerator and denominator fix the quotient up to a factor of four
  have hhigh : (num / den : ℚ) < 2 ^ ((num.log2 : ℤ) - den.log2 + 1) := by
    rw [div_lt_iff₀ hden']
    calc (num : ℚ) < 2 ^ ((num.log2 : ℤ) + 1) := hnumHigh
      _ = 2 ^ ((num.log2 : ℤ) - den.log2 + 1) * 2 ^ (den.log2 : ℤ) := by
        rw [← zpow_add₀ two_ne_zero]
        congr 1
        ring
      _ ≤ _ := mul_le_mul_of_nonneg_left hdenLow (two_zpow_pos _).le
  have hlow : (2 : ℚ) ^ ((num.log2 : ℤ) - den.log2 - 1) ≤ num / den := by
    rw [le_div_iff₀ hden']
    calc (2 : ℚ) ^ ((num.log2 : ℤ) - den.log2 - 1) * den ≤
        2 ^ ((num.log2 : ℤ) - den.log2 - 1) * 2 ^ ((den.log2 : ℤ) + 1) :=
          mul_le_mul_of_nonneg_left hdenHigh.le (two_zpow_pos _).le
      _ = 2 ^ (num.log2 : ℤ) := by
        rw [← zpow_add₀ two_ne_zero]
        congr 1
        ring
      _ ≤ _ := hnumLow
  unfold floorLog2
  simp only
  split
  · rename_i hle
    exact ⟨(two_zpow_le_iff hden).mpr hle, hhigh⟩
  · rename_i hnot
    rw [← two_zpow_le_iff hden, not_le] at hnot
    refine ⟨hlow, ?_⟩
    rwa [sub_add_cancel]

theorem exponent_unique {x : ℚ} {a b : ℤ} (ha : (2 : ℚ) ^ a ≤ x) (hb : x < 2 ^ (b + 1)) : a ≤ b := by
  have hlt := ha.trans_lt hb
  have := (zpow_lt_zpow_iff_right₀ (by norm_num : (1 : ℚ) < 2)).mp hlt
  omega

/-! ### Rounding -/

namespace Format

/-- The exponent of the last place of a quotient. -/
def lastPlace (f : Format) (num den : Nat) : Int :=
  max (floorLog2 num den - (f.precision - 1 : Nat)) f.leastExponent

/-- A quotient in units of its last place, rounded. -/
def places (f : Format) (num den : Nat) : Nat :=
  roundQuotient (num * twoTo (-f.lastPlace num den).toNat) (den * twoTo (f.lastPlace num den).toNat)

/-- The places with their exponent; a carry out of the leading place moves the last one. -/
def rounded (f : Format) (num den : Nat) : Magnitude :=
  if f.places num den = twoTo f.precision then
    ⟨twoTo (f.precision - 1), f.lastPlace num den + 1⟩
  else ⟨f.places num den, f.lastPlace num den⟩

theorem round_eq (f : Format) {num den : Nat} (hnum : 0 < num) :
    f.round num den =
      if f.mostExponent < (f.rounded num den).exponent then none else some (f.rounded num den) := by
  rw [round, if_neg (Nat.ne_of_gt hnum)]
  rfl

section

variable {f : Format} {num den : Nat}

theorem value_rounded (hp : 0 < f.precision) :
    (f.rounded num den).value = f.places num den * 2 ^ f.lastPlace num den := by
  unfold rounded
  split
  · rename_i hcarry
    obtain ⟨p, hprecision⟩ := Nat.exists_eq_succ_of_ne_zero (Nat.ne_of_gt hp)
    rw [Magnitude.value, hcarry, hprecision, cast_twoTo, cast_twoTo, zpow_add_one₀ two_ne_zero,
      Nat.succ_sub_one, pow_succ]
    ring
  · rfl

theorem exponent_rounded_le (f : Format) (num den : Nat) :
    (f.rounded num den).exponent ≤ f.lastPlace num den + 1 := by
  unfold rounded
  split
  · exact le_rfl
  · simp

theorem scaled_eq (num : Nat) (hden : 0 < den) (q : ℤ) :
    ((num * twoTo (-q).toNat : Nat) : ℚ) / (den * twoTo q.toNat : Nat) = num / den / 2 ^ q := by
  have hden' : (den : ℚ) ≠ 0 := by exact_mod_cast Nat.ne_of_gt hden
  have hup : (twoTo q.toNat : ℚ) ≠ 0 := by exact_mod_cast Nat.ne_of_gt (twoTo_pos _)
  have hdown : (twoTo (-q).toNat : ℚ) ≠ 0 := by exact_mod_cast Nat.ne_of_gt (twoTo_pos _)
  rw [two_zpow_eq]
  push_cast
  field_simp

theorem places_near (f : Format) (num : Nat) (hden : 0 < den) :
    2 * (f.places num den : ℚ) ≤ 2 * (num / den / 2 ^ f.lastPlace num den) + 1 ∧
      2 * (num / den / 2 ^ f.lastPlace num den : ℚ) ≤ 2 * f.places num den + 1 := by
  rw [← scaled_eq num hden]
  exact roundQuotient_near _ (Nat.mul_pos hden (twoTo_pos _))

theorem places_eq {x : ℚ} (hden : 0 < den) (hx : num / den / 2 ^ f.lastPlace num den = x) {n : Nat}
    (hlow : 2 * (n : ℚ) ≤ 2 * x + 1) (hhigh : 2 * x ≤ 2 * n + 1)
    (htie : 2 * (n : ℚ) = 2 * x + 1 ∨ 2 * x = 2 * n + 1 → n % 2 = 0) : f.places num den = n := by
  subst hx
  rw [← scaled_eq num hden] at hlow hhigh htie
  exact roundQuotient_eq (Nat.mul_pos hden (twoTo_pos _)) hlow hhigh htie

theorem lastPlace_eq (f : Format) (hnum : 0 < num) (hden : 0 < den) {e : ℤ}
    (hlow : (2 : ℚ) ^ e ≤ num / den) (hhigh : (num / den : ℚ) < 2 ^ (e + 1)) :
    f.lastPlace num den = max (e - (f.precision - 1 : Nat)) f.leastExponent := by
  obtain ⟨hlow', hhigh'⟩ := floorLog2_spec hnum hden
  have heq : floorLog2 num den = e :=
    le_antisymm (exponent_unique hlow' hhigh) (exponent_unique hlow hhigh')
  rw [lastPlace, heq]

/-! ### The rounding interval -/

/-- The magnitudes of a format, but for zero: the leading place is taken unless the last place is the
least. -/
structure Normal (f : Format) (m : Magnitude) : Prop where
  positive : 0 < m.coefficient
  below : m.coefficient < twoTo f.precision
  least : f.leastExponent ≤ m.exponent
  most : m.exponent ≤ f.mostExponent
  leading : f.leastExponent < m.exponent → twoTo (f.precision - 1) ≤ m.coefficient

theorem high_roundingInterval (f : Format) (m : Magnitude) :
    (f.roundingInterval m).high = 4 * m.coefficient + 2 := rfl

theorem low_roundingInterval (f : Format) {m : Magnitude} (hm : 0 < m.coefficient) :
    0 < (f.roundingInterval m).low ∧ (f.roundingInterval m).low < 4 * m.coefficient := by
  simp only [roundingInterval]
  split <;> omega

/-- One of the two ends of the rounding interval of a magnitude. -/
def IsEnd (f : Format) (m : Magnitude) (b : ℚ) : Prop :=
  b = (f.roundingInterval m).low * 2 ^ (m.exponent - 2) ∨
    b = (f.roundingInterval m).high * 2 ^ (m.exponent - 2)

/-- A number that lies in the rounding interval of a magnitude. -/
structure RoundsTo (f : Format) (m : Magnitude) (x : ℚ) : Prop where
  low : (f.roundingInterval m).low * 2 ^ (m.exponent - 2) ≤ x
  high : x ≤ (f.roundingInterval m).high * 2 ^ (m.exponent - 2)
  ends : f.IsEnd m x → m.coefficient % 2 = 0

theorem RoundsTo.of_lt {m : Magnitude} {x : ℚ}
    (hlow : (f.roundingInterval m).low * 2 ^ (m.exponent - 2) < x)
    (hhigh : x < (f.roundingInterval m).high * 2 ^ (m.exponent - 2)) : f.RoundsTo m x := by
  refine ⟨hlow.le, hhigh.le, ?_⟩
  rintro (heq | heq)
  · exact absurd heq.symm hlow.ne
  · exact absurd heq hhigh.ne

theorem round_of_places (hnum : 0 < num) {c : Nat} {q : Int} (hplace : f.lastPlace num den = q)
    (hplaces : f.places num den = c) (hbelow : c < twoTo f.precision) (hmost : q ≤ f.mostExponent) :
    f.round num den = some ⟨c, q⟩ := by
  have hrounded : f.rounded num den = ⟨c, q⟩ := by
    rw [rounded, hplaces, hplace, if_neg (Nat.ne_of_lt hbelow)]
  rw [round_eq f hnum, hrounded, if_neg (not_lt.mpr hmost)]

theorem round_of_carry (hnum : 0 < num) {q : Int} (hplace : f.lastPlace num den = q - 1)
    (hplaces : f.places num den = twoTo f.precision) (hmost : q ≤ f.mostExponent) :
    f.round num den = some ⟨twoTo (f.precision - 1), q⟩ := by
  have hrounded : f.rounded num den = ⟨twoTo (f.precision - 1), q⟩ := by
    rw [rounded, hplaces, hplace, if_pos rfl, sub_add_cancel]
  rw [round_eq f hnum, hrounded, if_neg (not_lt.mpr hmost)]

theorem twoTo_precision (f : Format) (hp : 0 < f.precision) :
    twoTo f.precision = 2 * twoTo (f.precision - 1) := by
  obtain ⟨p, hprecision⟩ := Nat.exists_eq_succ_of_ne_zero (Nat.ne_of_gt hp)
  rw [hprecision, Nat.succ_sub_one]
  exact Nat.pow_succ'

/-- Just below a power of two the places are twice as fine, and a number nearer than a quarter of the
coarser place is carried up to the power. -/
theorem round_below_power (hp : 2 ≤ f.precision) {q : Int} (hleast : f.leastExponent < q)
    (hmost : q ≤ f.mostExponent) (hnum : 0 < num) (hden : 0 < den) {y : ℚ}
    (hy : (num / den : ℚ) = y * 2 ^ (q - 2)) (hlow : 4 * (twoTo (f.precision - 1) : ℚ) - 1 ≤ y)
    (hhigh : y < 4 * twoTo (f.precision - 1)) :
    f.round num den = some ⟨twoTo (f.precision - 1), q⟩ := by
  have hunit := two_zpow_pos (q - 2)
  have hone : (1 : ℚ) ≤ twoTo (f.precision - 1) := by exact_mod_cast twoTo_pos _
  have hfine : (2 : ℚ) ^ (q - 1) = 2 * 2 ^ (q - 2) := by
    rw [two_zpow_halves, sub_sub, one_add_one_eq_two]
  have hexponent : q - 1 + (f.precision - 1 : Nat) + 1 = q + (f.precision - 1 : Nat) := by ring
  have hplace : f.lastPlace num den = q - 1 := by
    rw [lastPlace_eq f hnum hden (e := q - 1 + (f.precision - 1 : Nat))]
    · omega
    · rw [two_zpow_add, hfine, hy, ← mul_assoc]
      exact mul_le_mul_of_nonneg_right (by linarith) hunit.le
    · rw [hexponent, two_zpow_add, two_zpow_quarters, hy, ← mul_assoc]
      exact mul_lt_mul_of_pos_right (by linarith) hunit
  have hscaled : (num / den / 2 ^ f.lastPlace num den : ℚ) = y / 2 := by
    rw [hplace, hfine, hy]
    field_simp
  have hprecision : (twoTo f.precision : ℚ) = 2 * twoTo (f.precision - 1) := by
    exact_mod_cast twoTo_precision f (by omega)
  have hcarry : f.places num den = twoTo f.precision := by
    refine places_eq hden hscaled (by linarith) (by linarith) fun _ => ?_
    rw [twoTo_precision f (by omega)]
    omega
  exact round_of_carry hnum hplace hcarry hmost

/-- A number within half a place of a coefficient, and not below the leading power of two, is rounded
in the places of that coefficient. -/
theorem round_in_place {m : Magnitude} (hm : f.Normal m) (hp : 0 < f.precision) (hnum : 0 < num)
    (hden : 0 < den) {y : ℚ} (hy : (num / den : ℚ) = y * 2 ^ (m.exponent - 2))
    (hleading : f.leastExponent < m.exponent → 4 * (twoTo (f.precision - 1) : ℚ) ≤ y)
    (hlow : 4 * (m.coefficient : ℚ) - 2 ≤ y) (hhigh : y ≤ 4 * m.coefficient + 2)
    (hends : y = 4 * m.coefficient - 2 ∨ y = 4 * m.coefficient + 2 → m.coefficient % 2 = 0) :
    f.round num den = some m := by
  have hunit := two_zpow_pos (m.exponent - 2)
  have hprecision : (twoTo f.precision : ℚ) = 2 * twoTo (f.precision - 1) := by
    exact_mod_cast twoTo_precision f hp
  have hbelow : (m.coefficient : ℚ) + 1 ≤ twoTo f.precision := by exact_mod_cast hm.below
  -- the number lies below the next power of two
  have htop : (num / den : ℚ) < 2 ^ (m.exponent + (f.precision - 1 : Nat) + 1) := by
    rw [zpow_add_one₀ two_ne_zero, two_zpow_add, two_zpow_quarters, hy]
    nlinarith
  have hplace : f.lastPlace num den = m.exponent := by
    rcases eq_or_lt_of_le hm.least with hleast | hleast
    · have hexponent := exponent_unique (floorLog2_spec hnum hden).1 htop
      rw [lastPlace]
      omega
    · rw [lastPlace_eq f hnum hden (e := m.exponent + (f.precision - 1 : Nat)) _ htop]
      · omega
      · rw [two_zpow_add, two_zpow_quarters, hy, ← mul_assoc]
        exact mul_le_mul_of_nonneg_right (by linarith [hleading hleast]) hunit.le
  have hscaled : (num / den / 2 ^ f.lastPlace num den : ℚ) = y / 4 := by
    rw [hplace, two_zpow_quarters, hy]
    field_simp
  have hplaces : f.places num den = m.coefficient := by
    refine places_eq hden hscaled (by linarith) (by linarith) fun htie => hends ?_
    rcases htie with htie | htie
    · exact .inl (by linarith)
    · exact .inr (by linarith)
  exact round_of_places hnum hplace hplaces hm.below hm.most

/-- **The numbers of its rounding interval are rounded to a magnitude.** -/
theorem round_of_roundsTo (hp : 2 ≤ f.precision) {m : Magnitude} (hm : f.Normal m)
    (hnum : 0 < num) (hden : 0 < den) (h : f.RoundsTo m (num / den)) :
    f.round num den = some m := by
  have hunit := two_zpow_pos (m.exponent - 2)
  obtain ⟨y, hy⟩ : ∃ y : ℚ, (num / den : ℚ) = y * 2 ^ (m.exponent - 2) :=
    ⟨num / den / 2 ^ (m.exponent - 2), (div_mul_cancel₀ _ hunit.ne').symm⟩
  obtain ⟨hlow, hhigh, hends⟩ := h
  rw [hy] at hlow hhigh hends
  have hlow' := le_of_mul_le_mul_right hlow hunit
  have hhigh' := le_of_mul_le_mul_right hhigh hunit
  have hends' : y = (f.roundingInterval m).low ∨ y = (f.roundingInterval m).high →
      m.coefficient % 2 = 0 := fun hy => hends (hy.imp (congrArg (· * _)) (congrArg (· * _)))
  have hhighest : ((f.roundingInterval m).high : ℚ) = 4 * m.coefficient + 2 := by
    exact_mod_cast high_roundingInterval f m
  have hpos := hm.positive
  by_cases hpower : m.coefficient = twoTo (f.precision - 1) ∧ f.leastExponent < m.exponent
  · have hlowest : ((f.roundingInterval m).low : ℚ) = 4 * m.coefficient - 1 := by
      rw [roundingInterval, if_pos hpower, Nat.cast_sub (by omega)]
      push_cast
      ring
    rw [hlowest] at hlow' hends'
    rw [hhighest] at hhigh' hends'
    rcases lt_or_ge y (4 * m.coefficient) with hbelow | habove
    · obtain ⟨c, q⟩ := m
      obtain rfl : c = twoTo (f.precision - 1) := hpower.1
      exact round_below_power hp hpower.2 hm.most hnum hden hy hlow' hbelow
    · refine round_in_place hm (by omega) hnum hden hy (fun _ => ?_) (by linarith) hhigh' ?_
      · rw [← hpower.1]
        exact habove
      · rintro (heq | heq)
        · linarith
        · exact hends' (.inr heq)
  · have hlowest : ((f.roundingInterval m).low : ℚ) = 4 * m.coefficient - 2 := by
      rw [roundingInterval, if_neg hpower, Nat.cast_sub (by omega)]
      push_cast
      ring
    rw [hlowest] at hlow' hends'
    rw [hhighest] at hhigh' hends'
    refine round_in_place hm (by omega) hnum hden hy (fun hleast => ?_) hlow' hhigh' hends'
    -- above the least exponent the coefficient is greater than the leading power of two
    have hgreater : twoTo (f.precision - 1) + 1 ≤ m.coefficient := by
      have hleading := hm.leading hleast
      have hne : m.coefficient ≠ twoTo (f.precision - 1) := fun heq => hpower ⟨heq, hleast⟩
      omega
    have hcast : (twoTo (f.precision - 1) : ℚ) + 1 ≤ m.coefficient := by exact_mod_cast hgreater
    linarith

/-! ### Errors of rounding -/

/-- **Rounding changes a number of the normal range by less than one part in the greatest
coefficient.** -/
theorem round_near (hp : 0 < f.precision) (hnum : 0 < num) (hden : 0 < den)
    (hlow : (2 : ℚ) ^ (f.leastExponent + (f.precision - 1 : Nat)) ≤ num / den)
    (hhigh : (num / den : ℚ) < 2 ^ (f.mostExponent + (f.precision - 1 : Nat))) :
    ∃ w, f.round num den = some w ∧
      |w.value - num / den| * twoTo f.precision ≤ num / den := by
  obtain ⟨hfloor, hceil⟩ := floorLog2_spec hnum hden
  have hleast := exponent_unique hlow hceil
  have hmost : floorLog2 num den < f.mostExponent + (f.precision - 1 : Nat) :=
    (zpow_lt_zpow_iff_right₀ (by norm_num : (1 : ℚ) < 2)).mp (hfloor.trans_lt hhigh)
  have hplace : f.lastPlace num den = floorLog2 num den - (f.precision - 1 : Nat) := by
    rw [lastPlace]
    omega
  have hexponent := exponent_rounded_le f num den
  refine ⟨f.rounded num den, ?_, ?_⟩
  · rw [round_eq f hnum, if_neg (by omega)]
  · have hunit := two_zpow_pos (f.lastPlace num den)
    have hleading : (twoTo (f.precision - 1) : ℚ) * 2 ^ f.lastPlace num den ≤ num / den := by
      rw [← two_zpow_add, hplace, sub_add_cancel]
      exact hfloor
    obtain ⟨hbelow, habove⟩ := places_near f num hden
    have hnear : |(f.places num den : ℚ) - num / den / 2 ^ f.lastPlace num den| ≤ 1 / 2 :=
      abs_le.mpr ⟨by linarith, by linarith⟩
    have herror : (f.rounded num den).value - num / den =
        (f.places num den - num / den / 2 ^ f.lastPlace num den) * 2 ^ f.lastPlace num den := by
      rw [value_rounded hp, sub_mul, div_mul_cancel₀ _ hunit.ne']
    have hprecision : (twoTo f.precision : ℚ) = 2 * twoTo (f.precision - 1) := by
      exact_mod_cast twoTo_precision f hp
    rw [herror, abs_mul, abs_of_pos hunit, hprecision]
    calc |(f.places num den : ℚ) - num / den / 2 ^ f.lastPlace num den| *
          2 ^ f.lastPlace num den * (2 * twoTo (f.precision - 1)) ≤
        1 / 2 * 2 ^ f.lastPlace num den * (2 * twoTo (f.precision - 1)) := by gcongr
      _ = twoTo (f.precision - 1) * 2 ^ f.lastPlace num den := by ring
      _ ≤ num / den := hleading

/-- **A number that is a multiple of few enough places is rounded to itself.** -/
theorem round_exact (hp : 0 < f.precision) (hrange : f.leastExponent < f.mostExponent)
    (hnum : 0 < num) (hden : 0 < den) {M : Nat} {j : ℤ} (hvalue : (num / den : ℚ) = M * 2 ^ j)
    (hM : M < twoTo f.precision) (hj : f.leastExponent ≤ j)
    (hhigh : (num / den : ℚ) < 2 ^ (f.mostExponent + (f.precision - 1 : Nat))) :
    ∃ w, f.round num den = some w ∧ w.value = num / den := by
  obtain ⟨hfloor, -⟩ := floorLog2_spec hnum hden
  have htop : (num / den : ℚ) < 2 ^ (j + (f.precision - 1 : Nat) + 1) := by
    have hM' : (M : ℚ) < 2 * twoTo (f.precision - 1) := by
      rw [twoTo_precision f hp] at hM
      exact_mod_cast hM
    rw [hvalue, zpow_add_one₀ two_ne_zero, two_zpow_add]
    nlinarith [two_zpow_pos j]
  have hexponent := exponent_unique hfloor htop
  have hmost : floorLog2 num den < f.mostExponent + (f.precision - 1 : Nat) :=
    (zpow_lt_zpow_iff_right₀ (by norm_num : (1 : ℚ) < 2)).mp (hfloor.trans_lt hhigh)
  have hplace : f.lastPlace num den ≤ j := by
    rw [lastPlace]
    omega
  have hplaceMost : f.lastPlace num den < f.mostExponent := by
    rw [lastPlace]
    omega
  have hwhole : (num / den / 2 ^ f.lastPlace num den : ℚ) =
      (M * twoTo (j - f.lastPlace num den).toNat : Nat) := by
    rw [hvalue, Nat.cast_mul, cast_twoTo, ← zpow_natCast, Int.toNat_of_nonneg (by omega),
      zpow_sub₀ two_ne_zero, mul_div_assoc]
  have hplaces := places_eq (f := f) hden hwhole (by linarith) (by linarith)
    (fun htie => by rcases htie with htie | htie <;> linarith)
  have hrounded := exponent_rounded_le f num den
  refine ⟨f.rounded num den, ?_, ?_⟩
  · rw [round_eq f hnum, if_neg (by omega)]
  · rw [value_rounded hp, hplaces, ← hwhole, div_mul_cancel₀ _ (two_zpow_pos _).ne']

end

end Format

end Dialogue.Binary

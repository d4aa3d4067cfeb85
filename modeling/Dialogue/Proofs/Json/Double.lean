import Dialogue.Json.Numeral
import Dialogue.Proofs.Binary.Separation

/-!
# Numerals in double precision

The digits of a numeral that fit are taken as one number, which is then multiplied or divided by a power
of ten (`Numeral.toDouble?_eq`). That rounds twice, so the result is near to the number that is written
(`Numeral.timesPowerOfTen_spec`). A decimal is laid out by its own digits, or with zeros up to the first
digit after the point (`Layout.significand_numeral`).
-/

namespace Dialogue.Json

open Binary

namespace Numeral

/-! ### Digits -/

theorem absorb_of_lt (ds : List Digit) (s : Nat)
    (h : s * 10 ^ ds.length + Digit.value ds < 0x10000000000000000) :
    absorb s ds = (s * 10 ^ ds.length + Digit.value ds, []) := by
  induction ds generalizing s with
  | nil => simp [absorb, Digit.value]
  | cons d ds ih =>
    have hvalue : s * 10 ^ (d :: ds).length + Digit.value (d :: ds) =
        (10 * s + d.val) * 10 ^ ds.length + Digit.value ds := by
      have happend := Digit.value_append [d] ds
      rw [List.singleton_append] at happend
      rw [happend, List.length_cons]
      simp only [Digit.value, List.foldl_cons, List.foldl_nil]
      ring
    rw [hvalue] at h ⊢
    have hone : 1 ≤ 10 ^ ds.length := Nat.one_le_pow _ _ (by decide)
    have hle : 10 * s + d.val ≤ (10 * s + d.val) * 10 ^ ds.length := Nat.le_mul_of_pos_right _ hone
    rw [absorb, if_pos (by omega), ih _ h]

/-- The digits of a numeral as one number. -/
def significand (n : Numeral) : Nat := Digit.value (n.whole ++ n.fraction)

/-- The power of ten of the last digit. -/
def scale (n : Numeral) : ℤ := n.exponent.getD 0 - n.fraction.length

theorem toDouble?_eq {n : Numeral} (h : n.significand < 0x10000000000000000) :
    n.toDouble? = (Format.double.round n.significand 1).bind fun m => timesPowerOfTen m n.scale := by
  have hvalue : n.significand =
      Digit.value n.whole * 10 ^ n.fraction.length + Digit.value n.fraction := Digit.value_append _ _
  have hone : 1 ≤ 10 ^ n.fraction.length := Nat.one_le_pow _ _ (by decide)
  have hle : Digit.value n.whole ≤ Digit.value n.whole * 10 ^ n.fraction.length :=
    Nat.le_mul_of_pos_right _ hone
  have hwhole := absorb_of_lt n.whole 0 (by omega)
  have hfraction := absorb_of_lt n.fraction (Digit.value n.whole) (by omega)
  rw [Nat.zero_mul, Nat.zero_add] at hwhole
  rw [← hvalue] at hfraction
  have hscale : (([] : List Digit).length : ℤ) -
      (n.fraction.length - ([] : List Digit).length : Nat) + n.exponent.getD 0 = n.scale := by
    simp only [List.length_nil, scale]
    omega
  unfold toDouble?
  simp only [hwhole, hfraction, hscale]

/-! ### Powers of ten in double precision -/

/-- One rounding to double precision changes a number by less than one part in so many. -/
def doubleAccuracy : ℚ := 9 * 10 ^ 15

theorem twoTo_precision_double : (twoTo 53 : ℚ) = 9007199254740992 := by
  rw [cast_twoTo]
  norm_num

/-- A number that is rounded to double precision twice stays near to itself. -/
theorem near_of_near {v a w : ℚ} (hfirst : doubleAccuracy * |a - v| ≤ v)
    (hsecond : |w - a| * twoTo 53 ≤ a) : accuracy * |w - v| ≤ v := by
  have hsplit := abs_sub_le w a v
  have hle := le_abs_self (a - v)
  have hnonneg := abs_nonneg (w - a)
  have hnonneg' := abs_nonneg (a - v)
  rw [twoTo_precision_double] at hsecond
  simp only [accuracy, doubleAccuracy] at hfirst ⊢
  push_cast
  linarith

theorem exists_double {num den : Nat} (hnum : 0 < num) (hden : 0 < den)
    (hlow : (2 : ℚ) ^ (-250 : ℤ) ≤ num / den) (hhigh : (num / den : ℚ) < 2 ^ (250 : ℤ)) :
    ∃ w, Format.double.round num den = some w ∧ |w.value - num / den| * twoTo 53 ≤ num / den ∧
      ∀ {M : Nat} {j : ℤ}, (num / den : ℚ) = M * 2 ^ j → M < twoTo 53 → -1074 ≤ j →
        w.value = num / den := by
  have hlow' : (2 : ℚ) ^ (-1022 : ℤ) ≤ num / den :=
    (zpow_le_zpow_right₀ (by norm_num) (by norm_num)).trans hlow
  have hhigh' : (num / den : ℚ) < 2 ^ (1023 : ℤ) :=
    hhigh.trans (zpow_lt_zpow_right₀ (by norm_num) (by norm_num))
  obtain ⟨w, hw, hnear⟩ := Format.round_near (f := Format.double) (by decide) hnum hden hlow' hhigh'
  refine ⟨w, hw, hnear, fun hvalue hM hj => ?_⟩
  obtain ⟨w', hw', hexact⟩ := Format.round_exact (f := Format.double) (by decide) (by decide) hnum
    hden hvalue hM hj hhigh'
  rw [hw] at hw'
  cases hw'
  exact hexact

theorem exists_double_nat {n : Nat} (hn : 0 < n) (htop : n ≤ 10 ^ 60) :
    ∃ w, Format.double.round n 1 = some w ∧ |w.value - n| * twoTo 53 ≤ n ∧
      ∀ {M : Nat} {j : ℤ}, (n : ℚ) = M * 2 ^ j → M < twoTo 53 → -1074 ≤ j → w.value = n := by
  have hquotient : (n : ℚ) / (1 : Nat) = n := by
    rw [Nat.cast_one, div_one]
  have hone : (1 : ℚ) ≤ n := by exact_mod_cast hn
  have htop' : (n : ℚ) ≤ 10 ^ 60 := by exact_mod_cast htop
  have hrounds := exists_double hn Nat.one_pos
    (by rw [hquotient]; exact le_trans (by norm_num) hone)
    (by rw [hquotient]; exact htop'.trans_lt (by norm_num))
  simpa only [hquotient] using hrounds

theorem powerOfTen_spec {n : Nat} (hn : n ≤ 60) :
    |(powerOfTen n).value - 10 ^ n| * twoTo 53 ≤ 10 ^ n ∧
      (n ≤ 22 → (powerOfTen n).value = 10 ^ n) := by
  obtain ⟨w, hw, hnear, hexact⟩ := exists_double_nat (tenTo_pos n)
    (Nat.pow_le_pow_right (by decide) hn)
  rw [cast_tenTo] at hnear hexact
  rw [powerOfTen, hw, Option.getD_some]
  refine ⟨hnear, fun hsmall => hexact (M := 5 ^ n) (j := n) ?_ ?_ (by omega)⟩
  · rw [zpow_natCast, Nat.cast_pow, ← mul_pow]
    norm_num
  · calc 5 ^ n ≤ 5 ^ 22 := Nat.pow_le_pow_right (by decide) hsmall
      _ < twoTo 53 := by decide

theorem timesPowerOfTen_eq {m : Magnitude} {e : ℤ} (he : e.natAbs ≤ 308) :
    ∃ num den, timesPowerOfTen m e = Format.double.round num den ∧
      (num / den : ℚ) = if 0 ≤ e then m.value * (powerOfTen e.natAbs).value
        else m.value / (powerOfTen e.natAbs).value := by
  rw [timesPowerOfTen, if_pos he]
  split
  · refine ⟨_, _, rfl, ?_⟩
    rw [Magnitude.value_eq, Magnitude.value_eq, div_mul_div_comm]
    push_cast
    rfl
  · refine ⟨_, _, rfl, ?_⟩
    rw [Magnitude.value_eq, Magnitude.value_eq, div_div_div_eq]
    push_cast
    rfl

theorem near_of_factor {x p t : ℚ} (hx : 0 < x) (ht : 0 < t) (hp : |p - t| * twoTo 53 ≤ t) :
    doubleAccuracy * |x * p - x * t| ≤ x * t ∧ doubleAccuracy * |x / p - x / t| ≤ x / t := by
  have hle := neg_abs_le (p - t)
  have hnonneg := abs_nonneg (p - t)
  rw [twoTo_precision_double] at hp
  rw [doubleAccuracy]
  have hpos : 0 < p := by linarith
  constructor
  · rw [← mul_sub, abs_mul, abs_of_pos hx, mul_left_comm]
    exact mul_le_mul_of_nonneg_left (by linarith) hx.le
  · have hdifference : x / p - x / t = x / t * ((t - p) / p) := by
      field_simp
    have hratio : 9 * 10 ^ 15 * |(t - p) / p| ≤ 1 := by
      rw [abs_div, abs_of_pos hpos, ← mul_div_assoc, div_le_one hpos, abs_sub_comm]
      linarith
    have hquotient : 0 < x / t := div_pos hx ht
    rw [hdifference, abs_mul, abs_of_pos hquotient, mul_left_comm]
    exact mul_le_of_le_one_right hquotient.le hratio

/-- **A magnitude times a power of ten** is rounded twice, and not at all when a small power of ten has
an exact product. -/
theorem timesPowerOfTen_spec {m : Magnitude} {e : ℤ} {v : ℚ} (hm : 0 < m.value) (he : e.natAbs ≤ 60)
    (hv : v = m.value * 10 ^ e) (hlow : (2 : ℚ) ^ (-200 : ℤ) ≤ v) (hhigh : v < 2 ^ (200 : ℤ)) :
    ∃ w, timesPowerOfTen m e = some w ∧ accuracy * |w.value - v| ≤ v ∧
      ∀ {M : Nat} {j : ℤ}, v = M * 2 ^ j → M < twoTo 53 → -1074 ≤ j → e.natAbs ≤ 22 → w.value = v := by
  obtain ⟨hpower, hexact⟩ := powerOfTen_spec he
  obtain ⟨num, den, hround, hquotient⟩ := timesPowerOfTen_eq (m := m) (e := e) (by omega)
  have hten : (0 : ℚ) < 10 ^ e.natAbs := by positivity
  have hfactor := near_of_factor hm hten hpower
  have hvalue : v = if 0 ≤ e then m.value * 10 ^ e.natAbs else m.value / 10 ^ e.natAbs := by
    rw [hv]
    split
    · rw [← zpow_natCast, Int.natAbs_of_nonneg ‹_›]
    · rw [div_eq_mul_inv, ← zpow_natCast, ← zpow_neg]
      congr 2
      omega
  have hfirst : doubleAccuracy * |(num / den : ℚ) - v| ≤ v := by
    rw [hquotient, hvalue]
    split
    · exact hfactor.1
    · exact hfactor.2
  have hsmall : e.natAbs ≤ 22 → (num / den : ℚ) = v := by
    intro hsmall
    rw [hquotient, hvalue, hexact hsmall]
  have hpos : 0 < v := (two_zpow_pos _).trans_le hlow
  have hbelow := neg_abs_le ((num / den : ℚ) - v)
  have habove := le_abs_self ((num / den : ℚ) - v)
  have hquotientPos : (0 : ℚ) < num / den := by
    rw [doubleAccuracy] at hfirst
    linarith
  have hnum : 0 < num := by
    refine Nat.pos_of_ne_zero ?_
    rintro rfl
    simp at hquotientPos
  have hden : 0 < den := by
    refine Nat.pos_of_ne_zero ?_
    rintro rfl
    simp at hquotientPos
  obtain ⟨w, hw, hnear, hwhole⟩ := exists_double hnum hden
    (by rw [doubleAccuracy] at hfirst; norm_num at hlow ⊢; linarith)
    (by rw [doubleAccuracy] at hfirst; norm_num at hhigh ⊢; linarith)
  refine ⟨w, hround.trans hw, near_of_near hfirst hnear, fun hv' hM hj hsmall' => ?_⟩
  rw [hwhole ((hsmall hsmall').trans hv') hM hj, hsmall hsmall']

end Numeral

/-! ### Layout -/

namespace Layout

variable (l : Layout) (negative : Bool) (d : Decimal)

/-- The four ways of laying out a decimal: all digits after the point, all before it, the point within
them, or the point after the first digit and an exponent. -/
theorem numeral_cases :
    (d.leadingExponent < 0 ∧ l.numeral negative d =
      ⟨negative, [0], List.replicate (-d.leadingExponent - 1).toNat 0 ++ d.digits, none⟩) ∨
    (0 ≤ d.exponent ∧ d.leadingExponent ≤ l.mostPlain ∧ l.numeral negative d =
      ⟨negative, d.digits ++ List.replicate d.exponent.toNat 0, [0], none⟩) ∨
    (∃ n, n < d.digits.length ∧ d.leadingExponent = n - 1 ∧ l.numeral negative d =
      ⟨negative, d.digits.take n, d.digits.drop n, none⟩) ∨
    l.numeral negative d = ⟨negative, d.digits.take 1, d.digits.drop 1, some d.leadingExponent⟩ := by
  have hleading : d.leadingExponent = d.exponent + d.digits.length - 1 := rfl
  unfold numeral
  simp only
  by_cases hplain : l.leastPlain ≤ d.leadingExponent ∧ d.leadingExponent ≤ l.mostPlain
  · rw [if_pos hplain]
    by_cases hneg : d.leadingExponent < 0
    · rw [if_pos hneg]
      exact .inl ⟨hneg, rfl⟩
    · rw [if_neg hneg]
      rcases Nat.lt_or_ge (d.leadingExponent.toNat + 1) d.digits.length with hwithin | hbefore
      · have hafter : d.digits.drop (d.leadingExponent.toNat + 1) ≠ [] := by
          rw [ne_eq, List.drop_eq_nil_iff]
          omega
        have hzeros : d.leadingExponent.toNat + 1 - d.digits.length = 0 := by omega
        rw [if_neg hafter, hzeros, List.replicate_zero, List.append_nil]
        exact .inr (.inr (.inl ⟨_, hwithin, by omega, rfl⟩))
      · have hzeros : d.leadingExponent.toNat + 1 - d.digits.length = d.exponent.toNat := by omega
        rw [List.take_of_length_le hbefore, List.drop_eq_nil_of_le hbefore, if_pos rfl, hzeros]
        exact .inr (.inl ⟨by omega, hplain.2, rfl⟩)
  · rw [if_neg hplain]
    exact .inr (.inr (.inr rfl))

theorem negative_numeral : (l.numeral negative d).negative = negative := by
  rcases numeral_cases l negative d with ⟨-, h⟩ | ⟨-, -, h⟩ | ⟨n, -, -, h⟩ | h <;> rw [h]

theorem isInteger_numeral : (l.numeral negative d).isInteger = false := by
  have hdigits : d.digits ≠ [] := Digit.ofNat_ne_nil _
  rcases numeral_cases l negative d with ⟨-, h⟩ | ⟨-, -, h⟩ | ⟨n, hn, -, h⟩ | h <;>
    rw [h, Numeral.isInteger]
  · simp [hdigits]
  · simp
  · simp [hn]
  · simp

theorem significand_numeral :
    ((l.numeral negative d).significand = d.coefficient ∧ (l.numeral negative d).scale = d.exponent) ∨
      (0 ≤ d.exponent ∧ d.leadingExponent ≤ l.mostPlain ∧
        (l.numeral negative d).significand = d.coefficient * 10 ^ (d.exponent.toNat + 1) ∧
        (l.numeral negative d).scale = -1) := by
  have hlength : 0 < d.digits.length := List.length_pos_iff.mpr (Digit.ofNat_ne_nil _)
  have hleading : d.leadingExponent = d.exponent + d.digits.length - 1 := rfl
  have hvalue : Digit.value d.digits = d.coefficient := Digit.value_ofNat _
  rcases numeral_cases l negative d with ⟨hneg, h⟩ | ⟨hwhole, hplain, h⟩ | ⟨n, hn, hpoint, h⟩ | h <;>
    rw [h, Numeral.significand, Numeral.scale]
  · left
    refine ⟨?_, ?_⟩
    · simp only [Digit.value_append, Digit.value_replicate_zero, hvalue, Nat.zero_mul, Nat.zero_add]
      simp [Digit.value]
    · simp only [List.length_append, List.length_replicate, Option.getD_none]
      omega
  · right
    refine ⟨hwhole, hplain, ?_, rfl⟩
    simp only [Digit.value_append, Digit.value_replicate_zero, hvalue, List.length_replicate]
    simp [Digit.value]
    ring
  · left
    refine ⟨?_, ?_⟩
    · rw [List.take_append_drop, hvalue]
    · simp only [List.length_drop, Option.getD_none]
      omega
  · left
    refine ⟨?_, ?_⟩
    · rw [List.take_append_drop, hvalue]
    · simp only [List.length_drop, Option.getD_some]
      omega

end Layout

end Dialogue.Json

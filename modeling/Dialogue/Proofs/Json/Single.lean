import Dialogue.Proofs.Json.Codec
import Dialogue.Proofs.Json.Double
import Dialogue.Proofs.Binary.Single

/-!
# Coordinates that are read back

A coordinate is written as the numeral of its shortest decimal. In double precision that numeral is near
to the decimal, and the decimal is far from the numbers that are rounded to another coordinate, so the
coordinate is read back (`Numeral.ofSingle?_of_finite`). A coordinate that is not finite is written as
null, which is no number.
-/

namespace Dialogue.Json

open Binary

/-! ### Reading a shortest decimal -/

namespace Layout

theorem read_hardMagnitudes : hardMagnitudes.all (fun m => [true, false].all fun negative =>
    (Format.single.shortest? 9 m).all fun d => decide
      ((coordinate.numeral negative d).toSingle? = some (Single.pack negative (some m)))) =
        true := by
  decide +kernel

variable {m : Magnitude} {d : Decimal}

theorem significand_numeral_of_written (h : Format.Written m d) (negative : Bool) :
    ((coordinate.numeral negative d).significand *
        10 ^ (coordinate.numeral negative d).scale : ℚ) = d.value ∧
      0 < (coordinate.numeral negative d).significand ∧
      (coordinate.numeral negative d).significand < twoTo 53 ∧
      ((coordinate.numeral negative d).scale = d.exponent ∨
        (coordinate.numeral negative d).scale = -1) := by
  have hpos := h.positive
  have htop : 10 ^ 14 < twoTo 53 := by decide
  rcases coordinate.significand_numeral negative d with
    ⟨hsignificand, hscale⟩ | ⟨hwhole, hplain, hsignificand, hscale⟩ <;> rw [hsignificand, hscale]
  · have hshort := h.short
    exact ⟨rfl, hpos, by omega, .inl rfl⟩
  · refine ⟨?_, by positivity, ?_, .inr rfl⟩
    · rw [Decimal.value]
      push_cast
      rw [mul_assoc, ← zpow_natCast, ← zpow_add₀ (by norm_num)]
      congr 2
      omega
    · have hdigits : d.coefficient < 10 ^ d.digits.length := Digit.lt_ten_pow_length _
      have hleading : d.leadingExponent = d.exponent + d.digits.length - 1 := rfl
      have hmost : coordinate.mostPlain = 12 := rfl
      calc d.coefficient * 10 ^ (d.exponent.toNat + 1) ≤
            10 ^ d.digits.length * 10 ^ (d.exponent.toNat + 1) := Nat.mul_le_mul_right _ hdigits.le
        _ = 10 ^ (d.digits.length + (d.exponent.toNat + 1)) := (Nat.pow_add _ _ _).symm
        _ ≤ 10 ^ 14 := Nat.pow_le_pow_right (by decide) (by omega)
        _ < twoTo 53 := htop

theorem toDouble?_numeral_of_written (h : Format.Written m d) (hm : Format.single.Normal m)
    (negative : Bool) :
    ∃ w, (coordinate.numeral negative d).toDouble? = some w ∧
      accuracy * |w.value - d.value| ≤ d.value ∧
      (Format.single.IsEnd m d.value → w.value = d.value) := by
  obtain ⟨hvalue, hpos, hfit, hscale⟩ := significand_numeral_of_written h negative
  set n := coordinate.numeral negative d
  have hexponent := h.natAbs_exponent_le
  have hspos : (0 : ℚ) < n.significand := by exact_mod_cast hpos
  -- the digits are taken exactly
  obtain ⟨s, hs, -, hexact⟩ := Numeral.exists_double_nat hpos (hfit.le.trans (by decide))
  have hsvalue : s.value = n.significand :=
    hexact (M := n.significand) (j := 0) (by simp) hfit (by decide)
  obtain ⟨w, hw, hnear, hwhole⟩ := Numeral.timesPowerOfTen_spec (m := s) (e := n.scale) (v := d.value)
    (hsvalue ▸ hspos) (by omega) (by rw [hsvalue, hvalue]) (le_trans (by norm_num) h.above)
    (h.below.trans_le (by norm_num))
  have hlimit : twoTo 53 ≤ 0x10000000000000000 := by decide
  refine ⟨w, ?_, hnear, fun hend => ?_⟩
  · rw [Numeral.toDouble?_eq (by omega), hs]
    exact hw
  · obtain ⟨j, M, hM⟩ := Format.exists_endAt hm hend
    have hMpos : 0 < M := by
      have hvpos := (two_zpow_pos _).trans_le h.above
      rw [hM.value] at hvpos
      exact_mod_cast pos_of_mul_pos_left hvpos (two_zpow_pos _).le
    have hfew := natAbs_le_of_few_bits h.positive hMpos h.short hM.below hM.value
    have hmore : twoTo 25 < twoTo 53 := by decide
    refine hwhole hM.value (hM.below.trans hmore) (by linarith [hM.least]) ?_
    rcases hscale with hscale | hscale <;> rw [hscale]
    · exact hfew
    · decide

/-- **A shortest decimal is read back as the number that it is written for.** -/
theorem toSingle?_numeral (hm : Format.single.Normal m) (hd : Format.single.shortest? 9 m = some d)
    (negative : Bool) :
    (coordinate.numeral negative d).toSingle? = some (Single.pack negative (some m)) := by
  by_cases hhard : m ∈ hardMagnitudes
  · have hread := List.all_eq_true.mp (List.all_eq_true.mp read_hardMagnitudes m hhard) negative
      (by cases negative <;> simp)
    rw [hd] at hread
    simpa using hread
  have hwritten := Format.written_of_shortest? hm hd
  obtain ⟨w, hw, hnear, hexact⟩ := toDouble?_numeral_of_written hwritten hm negative
  have hrounds : Format.single.RoundsTo m w.value := by
    refine Format.roundsTo_of_near hwritten.rounds hnear hexact fun b hb => ?_
    rcases Format.shortest?_far hm hd hb with heq | hfar | hlisted
    · exact .inl heq
    · exact .inr hfar
    · exact absurd hlisted hhard
  have hpos := hrounds.pos hm.positive
  have hnum : 0 < w.numerator := by
    refine Nat.mul_pos ?_ (twoTo_pos _)
    rw [Magnitude.value] at hpos
    exact_mod_cast pos_of_mul_pos_left hpos (two_zpow_pos _).le
  rw [Magnitude.value_eq] at hrounds
  have hround := Format.round_of_roundsTo (by decide) hm hnum w.denominator_pos hrounds
  unfold Numeral.toSingle?
  simp only [Layout.isInteger_numeral, Bool.false_and, Bool.false_eq_true, if_false,
    Layout.negative_numeral, hw, Option.map_some, Single.ofMagnitude, Single.ofQuotient, hround]

theorem toSingle?_numeral_zero (negative : Bool) :
    (coordinate.numeral negative ⟨0, 0⟩).toSingle? =
      some (Single.pack negative (some ⟨0, -149⟩)) := by
  cases negative <;> decide +kernel

end Layout

/-! ### Coordinates -/

namespace Numeral

theorem wellFormed_ofSingle? {x : Single} {n : Numeral} (h : ofSingle? x = some n) :
    n.WellFormed := by
  obtain ⟨d, hd, rfl⟩ := Option.map_eq_some_iff.mp h
  exact Layout.wellFormed_numeral _ _ (Single.exponent_of_shortest? hd)

theorem ofSingle?_of_finite {x : Single} (hx : x.isFinite = true) :
    ∃ n, ofSingle? x = some n ∧ n.toSingle? = some x := by
  obtain ⟨m, hm⟩ := Single.exists_magnitude hx
  have hpack := Single.pack_magnitude? hm
  by_cases hzero : m.coefficient = 0
  · obtain ⟨c, e⟩ := m
    obtain rfl : c = 0 := hzero
    have hshortest : x.shortest? = some ⟨0, 0⟩ := by
      rw [Single.shortest?, hm]
      rfl
    obtain rfl : e = -149 := by
      rcases Single.magnitude?_eq_some hm with ⟨-, h⟩ | ⟨-, -, h⟩
      · exact congrArg Magnitude.exponent h
      · have hcoefficient := congrArg Magnitude.coefficient h
        simp only at hcoefficient
        omega
    refine ⟨_, by rw [ofSingle?, hshortest, Option.map_some], ?_⟩
    rw [Layout.toSingle?_numeral_zero, hpack]
  · have hnormal := Single.normal_of_magnitude? hm hzero
    obtain ⟨d, hd⟩ := Format.exists_shortest?_single hnormal
    have hshortest : x.shortest? = some d := by
      obtain ⟨_ | c, e⟩ := m
      · exact absurd rfl hzero
      · rw [Single.shortest?, hm]
        exact hd
    refine ⟨_, by rw [ofSingle?, hshortest, Option.map_some], ?_⟩
    rw [Layout.toSingle?_numeral hnormal hd, hpack]

theorem ofSingle?_of_not_finite {x : Single} (hx : x.isFinite = false) :
    ofSingle? x = none := by
  have hfield : x.exponentField = 255 := by simpa [Single.isFinite] using hx
  simp [ofSingle?, Single.shortest?, Single.magnitude?, hfield]

end Numeral

instance : Codec.Lawful Single where
  kept := Single.isFinite
  legible x := by
    intro t ht
    cases hx : x.isFinite with
    | true =>
      obtain ⟨n, hn, -⟩ := Numeral.ofSingle?_of_finite hx
      simp only [encode, hn, Value.tokens, List.mem_singleton] at ht
      rw [ht]
      exact Numeral.wellFormed_ofSingle? hn
    | false =>
      simp only [encode, Numeral.ofSingle?_of_not_finite hx, Value.tokens,
        List.mem_singleton] at ht
      rw [ht]
      trivial
  decode?_encode x := by
    cases hx : x.isFinite with
    | true =>
      obtain ⟨n, hn, hread⟩ := Numeral.ofSingle?_of_finite hx
      simp only [encode, hn]
      exact hread
    | false =>
      simp only [encode, Numeral.ofSingle?_of_not_finite hx]
      rfl

end Dialogue.Json

import Dialogue.Proofs.Binary.Bracket
import Dialogue.Proofs.Binary.Shortest

/-!
# Shortest decimals are far from the ends of the rounding interval

A shortest decimal that is not an end of the rounding interval of its magnitude is far from the ends
(`Format.shortest?_far`), so a number that is near to the decimal is still rounded to the magnitude
(`Format.roundsTo_of_near`).

An end is a number of twenty-five bits times a power of two, and the decimal a number of steps of a
decimal grid. On a fine grid the decimal is close to the magnitude itself. On a coarse one the two are
multiples of a power of two and of a power of ten; only some hundred pairs of powers come together, and
for each of them a bracket is found and checked (`certified_all`). A decimal does come close to an end of
ten magnitudes, which are listed (`hardMagnitudes`).
-/

namespace Dialogue.Binary

/-! ### Pairs of powers -/

/-- The ends that a decimal of few steps comes close to. -/
def hardEnds : List (Int × Nat) :=
  [(-108, 22841339), (-107, 22841339), (-106, 22841339), (-50, 28874659), (50, 25645849)]

/-- More steps than this are so fine that a decimal is close to its magnitude. -/
def mostSteps : Nat := 34000000

/-- The magnitudes with an end in units of a power of two are not below this power of two. -/
def leastPower (j : Int) : Int := if j = -150 then -149 else j + 24

/-- The power of ten next below, or a lower one. -/
def leastDecade (j : Int) : Int := if j = -150 then -45 else (j + 24) * 30103 / 100000

/-- How many powers of ten there are from there up to the magnitudes that may have such an end. -/
def decades (j : Int) : Nat := if j = -150 then 8 else 2

/-- Whether the powers of ten are as they are said to be. -/
def decadesFit (j : Int) : Bool :=
  unitsOfTen (leastPower j) (leastDecade j) ≤ unitsOfTwo (leastPower j) (leastDecade j) &&
    unitsOfTwo (j + 25) (leastDecade j + decades j) < unitsOfTen (j + 25) (leastDecade j + decades j)

/-- The steps of a grid up to the greatest number of twenty-five bits. -/
def reach (j k : Int) : Nat := min mostSteps (twoTo 25 * unitsOfTwo j k / unitsOfTen j k)

/-- Whether steps of the power of ten keep far from the ends. -/
def separates (j k : Int) : Bool :=
  (Bracket.find (unitsOfTen j k) (unitsOfTwo j k) (reach j k)).check
    (fun M => hardEnds.contains (j, M)) (unitsOfTen j k) (unitsOfTwo j k) (reach j k)

/-- Whether all steps of the decimals with an end in units of a power of two keep far from it. -/
def certified (j : Int) : Bool :=
  decadesFit j && (List.range (decades j + 1)).all fun n => separates j (leastDecade j - 7 + n)

theorem certified_all : (List.range 254).all (fun i => certified (i - 150)) = true := by
  decide +kernel

theorem certified_of_range {j : ℤ} (hlow : -150 ≤ j) (hhigh : j ≤ 103) : certified j = true := by
  obtain ⟨i, hi⟩ := Int.eq_ofNat_of_zero_le (a := j + 150) (by omega)
  have hcertified := List.all_eq_true.mp certified_all i (List.mem_range.mpr (by omega))
  rwa [show (i : ℤ) - 150 = j by omega] at hcertified

/-- **A decimal of few steps that is not an end is far from it**, unless the end is listed. -/
theorem steps_far {j k : ℤ} (hlow : -150 ≤ j) (hhigh : j ≤ 103) (hk : leastDecade j - 7 ≤ k)
    (hk' : k ≤ leastDecade j - 7 + decades j) {C M : Nat} (hC : 0 < C) (hsteps : C ≤ mostSteps)
    (hM : M < twoTo 25) (hne : (C * 10 ^ k : ℚ) ≠ M * 2 ^ j) :
    (C * 10 ^ k : ℚ) < accuracy * |(C * 10 ^ k : ℚ) - M * 2 ^ j| ∨ (j, M) ∈ hardEnds := by
  obtain ⟨n, hn⟩ := Int.eq_ofNat_of_zero_le (a := k - (leastDecade j - 7)) (by omega)
  have hcertified := certified_of_range hlow hhigh
  simp only [certified, Bool.and_eq_true] at hcertified
  have hcheck := List.all_eq_true.mp hcertified.2 n (List.mem_range.mpr (by omega))
  rw [show leastDecade j - 7 + n = k by omega] at hcheck
  obtain ⟨t, ht, htwo, hten⟩ := exists_unit j k
  have hpoint : ((C * unitsOfTen j k : ℤ) : ℚ) = t * (C * 10 ^ k) := by
    push_cast
    rw [hten]
    ring
  have hend : ((M * unitsOfTwo j k : ℤ) : ℚ) = t * (M * 2 ^ j) := by
    push_cast
    rw [htwo]
    ring
  have hfar : (C * unitsOfTen j k : ℤ) <
      accuracy * |(C * unitsOfTen j k : ℤ) - M * unitsOfTwo j k| ∨ (j, M) ∈ hardEnds := by
    rcases Nat.lt_or_ge (twoTo 25 * unitsOfTwo j k / unitsOfTen j k) C with hbeyond | hwithin
    · -- beyond all numbers of twenty-five bits
      left
      have hbeyond' := (Nat.div_lt_iff_lt_mul (unitsOfTen_pos j k)).mp hbeyond
      have hmul := Nat.mul_le_mul_right (unitsOfTwo j k) (Nat.le_sub_one_of_lt hM)
      have htop : twoTo 25 = 33554432 := rfl
      rw [htop] at hbeyond' hmul
      zify at hbeyond' hmul
      have hle := le_abs_self ((C * unitsOfTen j k : ℤ) - M * unitsOfTwo j k)
      rw [accuracy]
      push_cast at hmul ⊢
      linarith
    · refine (Bracket.check_spec hcheck hC (le_min hsteps hwithin) hM fun heq => hne ?_).imp_right
        fun htie => by simpa using htie
      have heq' : ((C * unitsOfTen j k : ℤ) : ℚ) = ((M * unitsOfTwo j k : ℤ) : ℚ) := by
        exact_mod_cast heq
      rw [hpoint, hend] at heq'
      exact mul_left_cancel₀ ht.ne' heq'
  refine hfar.imp_left fun hfar => ?_
  have hcast : ((C * unitsOfTen j k : ℤ) : ℚ) <
      accuracy * |((C * unitsOfTen j k : ℤ) : ℚ) - (M * unitsOfTwo j k : ℤ)| := by
    exact_mod_cast hfar
  rw [hpoint, hend, ← mul_sub, abs_mul, abs_of_pos ht] at hcast
  refine lt_of_mul_lt_mul_left ?_ ht.le
  linarith

theorem decade_range {m : Magnitude} (hm : 0 < m.coefficient) {j : ℤ} (hlow : -150 ≤ j)
    (hhigh : j ≤ 103) (hleast : (2 : ℚ) ^ leastPower j ≤ m.value) (hmost : m.value ≤ 2 ^ (j + 25)) :
    leastDecade j ≤ Format.decade m ∧ Format.decade m < leastDecade j + decades j := by
  have hcertified := certified_of_range hlow hhigh
  simp only [certified, decadesFit, Bool.and_eq_true, decide_eq_true_eq] at hcertified
  obtain ⟨⟨hfit, hfit'⟩, -⟩ := hcertified
  rw [← ten_zpow_le_two_zpow_iff] at hfit
  rw [← two_zpow_lt_ten_zpow_iff] at hfit'
  obtain ⟨hfloor, hceil⟩ := Format.decade_spec hm
  have hten : (1 : ℚ) < 10 := by norm_num
  have hbelow := (zpow_lt_zpow_iff_right₀ hten).mp ((hfit.trans hleast).trans_lt hceil)
  have habove := (zpow_lt_zpow_iff_right₀ hten).mp ((hfloor.trans hmost).trans_lt hfit')
  exact ⟨by omega, habove⟩

/-! ### Ends of rounding intervals -/

/-- The magnitudes with a listed end. -/
def hardMagnitudes : List Magnitude :=
  hardEnds.flatMap fun p => [⟨p.2 / 2, p.1 + 1⟩, ⟨p.2 / 2 + 1, p.1 + 1⟩]

namespace Format

/-- An end as a number of units of a power of two, and where it is from the magnitude. -/
structure EndAt (m : Magnitude) (b : ℚ) (j : ℤ) (M : Nat) : Prop where
  value : b = M * 2 ^ j
  below : M < twoTo 25
  least : -150 ≤ j
  most : j ≤ 103
  above : (2 : ℚ) ^ leastPower j ≤ m.value
  upTo : m.value ≤ 2 ^ (j + 25)
  apart : m.value ≤ 2 ^ 25 * |m.value - b|
  hard : (j, M) ∈ hardEnds → m ∈ hardMagnitudes

variable {m : Magnitude}

theorem endAt_half (hm : single.Normal m) {b : ℚ} {M : Nat} (hvalue : b = M * 2 ^ (m.exponent - 1))
    (hM : M = 2 * m.coefficient + 1 ∨ M + 1 = 2 * m.coefficient) :
    EndAt m b (m.exponent - 1) M := by
  obtain ⟨c, q⟩ := m
  obtain ⟨hpos, hbelow, hleast, hmost, hleading⟩ := hm
  simp only [single] at hpos hbelow hleast hmost hleading hvalue hM ⊢
  have hhalf := two_zpow_halves q
  have hunit := two_zpow_pos (q - 1)
  have hbelow' : (c : ℚ) + 1 ≤ 2 ^ 24 := by
    rw [← cast_twoTo]
    exact_mod_cast hbelow
  have hM' : (M : ℚ) = 2 * c + 1 ∨ (M : ℚ) = 2 * c - 1 := by
    rcases hM with hM | hM
    · exact .inl (by exact_mod_cast hM)
    · refine .inr ?_
      rw [eq_sub_iff_add_eq]
      exact_mod_cast hM
  have hdifference : |(⟨c, q⟩ : Magnitude).value - b| = 2 ^ (q - 1) := by
    rw [hvalue, Magnitude.value, hhalf, ← mul_assoc, ← sub_mul, abs_mul, abs_of_pos hunit]
    rcases hM' with hM' | hM' <;> rw [hM'] <;> ring_nf <;> simp
  refine ⟨hvalue, ?_, by omega, by omega, ?_, ?_, ?_, ?_⟩
  · have hdouble : twoTo 25 = 2 * twoTo 24 := rfl
    omega
  · rw [leastPower, Magnitude.value]
    split
    · have hone : (1 : ℚ) ≤ c := by exact_mod_cast hpos
      rw [show q = -149 by omega]
      exact le_mul_of_one_le_left (two_zpow_pos _).le hone
    · have hlead : (2 : ℚ) ^ 23 ≤ c := by
        have hcast : (twoTo 23 : ℚ) ≤ c := by exact_mod_cast hleading (by omega)
        rwa [cast_twoTo] at hcast
      rw [show q - 1 + 24 = (23 : ℕ) + q by ring, zpow_add₀ two_ne_zero, zpow_natCast]
      exact mul_le_mul_of_nonneg_right hlead (two_zpow_pos _).le
  · have htop : (2 : ℚ) ^ (q - 1 + 25) = twoTo 25 * 2 ^ (q - 1) := two_zpow_add _ 25
    rw [Magnitude.value, hhalf, htop, cast_twoTo]
    nlinarith
  · rw [hdifference, Magnitude.value, hhalf]
    nlinarith
  · intro hmem
    refine List.mem_flatMap.mpr ⟨_, hmem, ?_⟩
    simp only [List.mem_cons, Magnitude.mk.injEq, List.not_mem_nil, or_false]
    omega

theorem endAt_quarter {q : ℤ} (hleast : -149 < q) (hmost : q ≤ 104) {b : ℚ}
    (hvalue : b = (twoTo 25 - 1 : Nat) * 2 ^ (q - 2)) :
    EndAt ⟨twoTo 23, q⟩ b (q - 2) (twoTo 25 - 1) := by
  have hmagnitude : (⟨twoTo 23, q⟩ : Magnitude).value = 2 ^ 25 * 2 ^ (q - 2) := by
    rw [Magnitude.value, two_zpow_quarters, cast_twoTo]
    ring
  have hunit := two_zpow_pos (q - 2)
  have hM : ((twoTo 25 - 1 : Nat) : ℚ) = 2 ^ 25 - 1 := by norm_num [twoTo]
  have hdifference : |(⟨twoTo 23, q⟩ : Magnitude).value - b| = 2 ^ (q - 2) := by
    rw [hvalue, hmagnitude, hM, ← sub_mul, abs_mul, abs_of_pos hunit]
    norm_num
  refine ⟨hvalue, by decide, by omega, by omega, ?_, ?_, ?_, ?_⟩
  · rw [leastPower, hmagnitude]
    split
    · rw [show q - 2 = -150 by omega]
      norm_num
    · rw [show q - 2 + 24 = (24 : ℕ) + (q - 2) by ring, zpow_add₀ two_ne_zero, zpow_natCast]
      exact mul_le_mul_of_nonneg_right (by norm_num) hunit.le
  · have htop : (2 : ℚ) ^ (q - 2 + 25) = twoTo 25 * 2 ^ (q - 2) := two_zpow_add _ 25
    rw [hmagnitude, htop, cast_twoTo]
  · rw [hdifference, hmagnitude]
  · intro hmem
    simp [hardEnds, twoTo] at hmem

/-- Every end is a number of twenty-five bits times a power of two. -/
theorem exists_endAt (hm : single.Normal m) {b : ℚ} (hb : single.IsEnd m b) :
    ∃ j M, EndAt m b j M := by
  have hpos := hm.positive
  have hquarters : (2 : ℚ) ^ (m.exponent - 1) = 2 * 2 ^ (m.exponent - 2) := by
    rw [two_zpow_halves, sub_sub, one_add_one_eq_two]
  rcases hb with hlow | hhigh
  · by_cases hpower : m.coefficient = twoTo (single.precision - 1) ∧ single.leastExponent < m.exponent
    · obtain ⟨c, q⟩ := m
      obtain rfl : c = twoTo 23 := hpower.1
      refine ⟨_, _, endAt_quarter hpower.2 hm.most ?_⟩
      have hend : 4 * twoTo 23 - 1 = twoTo 25 - 1 := rfl
      rw [hlow, roundingInterval, if_pos hpower, hend]
    · refine ⟨_, 2 * m.coefficient - 1, endAt_half hm ?_ (.inr (by omega))⟩
      rw [hlow, roundingInterval, if_neg hpower, hquarters, Nat.cast_sub (by omega),
        Nat.cast_sub (by omega)]
      push_cast
      ring
  · refine ⟨_, 2 * m.coefficient + 1, endAt_half hm ?_ (.inl rfl)⟩
    rw [hhigh, roundingInterval, hquarters]
    push_cast
    ring

/-! ### Shortest decimals -/

/-- A grid of more steps is so fine that its point is close to the magnitude and far from an end. -/
theorem far_of_fine {x v b step : ℚ} (hnear : |v - x| ≤ step) (hfine : mostSteps * step < v)
    (hapart : x ≤ 2 ^ 25 * |x - b|) : v < accuracy * |v - b| := by
  have hsplit := abs_sub_le x v b
  rw [abs_sub_comm x v] at hsplit
  have hle := (abs_le.mp hnear).2
  have hstep := (abs_nonneg _).trans hnear
  simp only [mostSteps, accuracy] at hfine ⊢
  push_cast at hfine ⊢
  linarith

theorem exists_steps {d : Decimal} {n : Nat} (hn : n ≤ 7) (hfew : d.coefficient ≤ mostSteps)
    (hshort : d.coefficient ≤ 10 ^ (n + 1)) {e : ℤ} (he : d.exponent = e - n) :
    ∃ (C : Nat) (k : ℤ), d.value = C * 10 ^ k ∧ C ≤ mostSteps ∧ (0 < d.coefficient → 0 < C) ∧
      e - 7 ≤ k ∧ k ≤ e - 6 := by
  rcases Nat.lt_or_ge n 7 with hlt | hge
  · refine ⟨d.coefficient * 10 ^ (6 - n), e - 6, ?_, ?_, ?_, by omega, le_rfl⟩
    · rw [Decimal.value, he, Nat.cast_mul, Nat.cast_pow, mul_assoc, Nat.cast_ofNat, ← zpow_natCast,
        ← zpow_add₀ (by norm_num), Nat.cast_sub (by omega)]
      congr 2
      push_cast
      ring
    · calc d.coefficient * 10 ^ (6 - n) ≤ 10 ^ (n + 1) * 10 ^ (6 - n) :=
            Nat.mul_le_mul_right _ hshort
        _ = 10 ^ 7 := by
          rw [← Nat.pow_add]
          congr 1
          omega
        _ ≤ mostSteps := by decide
    · intro hpos
      positivity
  · refine ⟨d.coefficient, d.exponent, rfl, hfew, id, ?_, ?_⟩ <;> omega

/-- **A shortest decimal is an end of the rounding interval or far from it**, unless the magnitude is
listed. -/
theorem shortest?_far (hm : single.Normal m) {d : Decimal} (hd : single.shortest? 9 m = some d)
    {b : ℚ} (hb : single.IsEnd m b) :
    d.value = b ∨ d.value < accuracy * |d.value - b| ∨ m ∈ hardMagnitudes := by
  obtain ⟨n, hn, g, hg, rfl⟩ := shortest?_eq_some hd
  obtain ⟨j, M, hend⟩ := exists_endAt hm hb
  obtain ⟨hdecade, hdecade'⟩ := decade_range hm.positive hend.least hend.most hend.above hend.upTo
  obtain ⟨hexponent, -, -⟩ := gridPoint?_eq_some hg
  have hshort := coefficient_le_of_gridPoint? (decade_spec hm.positive).2 hg
  have hnear := near_of_gridPoint? hg
  rw [Decimal.value_strip]
  by_cases heq : g.value = b
  · exact .inl heq
  right
  by_cases hfew : n ≤ 7 ∧ g.coefficient ≤ mostSteps
  · obtain ⟨C, k, hvalue, hC, hpos, hk, hk'⟩ := exists_steps hfew.1 hfew.2 hshort hexponent
    rw [hend.value, hvalue] at heq ⊢
    refine (steps_far hend.least hend.most (by omega) (by omega)
      (hpos (coefficient_pos_of_gridPoint? hm.positive hg)) hC hend.below heq).imp_right hend.hard
  · refine .inl (far_of_fine hnear ?_ hend.apart)
    have hstep := ten_zpow_pos (decade m - n)
    rcases Nat.lt_or_ge 7 n with hlong | hmany
    · -- the magnitude itself has that many steps
      obtain rfl : n = 8 := by omega
      have hfloor := (decade_spec hm.positive).1
      have hle := (abs_le.mp hnear).1
      rw [ten_zpow_eq_mul _ 8] at hfloor
      simp only [mostSteps]
      push_cast at hle hstep hfloor ⊢
      linarith
    · have hmore : mostSteps < g.coefficient := by omega
      rw [Decimal.value, hexponent]
      exact mul_lt_mul_of_pos_right (by exact_mod_cast hmore) hstep

/-- **A number near to one that is rounded to a magnitude is rounded to it as well**, if the ends of the
rounding interval are far or hit. -/
theorem roundsTo_of_near {f : Format} {v w : ℚ} (h : f.RoundsTo m v)
    (hnear : accuracy * |w - v| ≤ v) (hexact : f.IsEnd m v → w = v)
    (hfar : ∀ b, f.IsEnd m b → v = b ∨ v < accuracy * |v - b|) : f.RoundsTo m w := by
  have hle := neg_abs_le (w - v)
  have hge := le_abs_self (w - v)
  have haccuracy : (0 : ℚ) < accuracy := by norm_num [accuracy]
  by_cases hend : f.IsEnd m v
  · rwa [hexact hend]
  have hlow : (f.roundingInterval m).low * 2 ^ (m.exponent - 2) < w := by
    have hfar' := (hfar _ (.inl rfl)).resolve_left fun heq => hend (.inl heq)
    rw [abs_of_nonneg (sub_nonneg.mpr h.low)] at hfar'
    have hlt := lt_of_mul_lt_mul_left (hnear.trans_lt hfar') haccuracy.le
    linarith
  have hhigh : w < (f.roundingInterval m).high * 2 ^ (m.exponent - 2) := by
    have hfar' := (hfar _ (.inr rfl)).resolve_left fun heq => hend (.inr heq)
    rw [abs_sub_comm, abs_of_nonneg (sub_nonneg.mpr h.high)] at hfar'
    have hlt := lt_of_mul_lt_mul_left (hnear.trans_lt hfar') haccuracy.le
    linarith
  exact .of_lt hlow hhigh

end Format

end Dialogue.Binary

import Dialogue.Proofs.Binary.Rounding
import Dialogue.Proofs.Text.Digits

/-!
# Shortest decimals lie in the rounding interval

The decimal that is found for a magnitude is the point of a grid next to it that lies in its rounding
interval (`Format.roundsTo_of_gridPoint?`), without its trailing zeros, which changes no value
(`Decimal.value_strip`). A grid that is as fine as the places of the format has such a point
(`Format.gridPoint?_of_fine`), so nine digits suffice for a single (`Format.exists_shortest?_single`).
-/

namespace Dialogue.Binary

/-! ### Powers of ten -/

theorem cast_tenTo (n : Nat) : (tenTo n : ℚ) = 10 ^ n := by
  simp [tenTo]

theorem tenTo_pos (n : Nat) : 0 < tenTo n := Nat.pow_pos (by decide)

theorem ten_zpow_pos (e : ℤ) : (0 : ℚ) < 10 ^ e := zpow_pos (by norm_num) e

theorem ten_zpow_eq_mul (e : ℤ) (n : Nat) : (10 : ℚ) ^ e = 10 ^ n * 10 ^ (e - n) := by
  rw [← zpow_natCast, ← zpow_add₀ (by norm_num), add_sub_cancel]

theorem ten_zpow_eq (k : ℤ) : (10 : ℚ) ^ k = tenTo k.toNat / tenTo (-k).toNat := by
  rw [cast_tenTo, cast_tenTo]
  rcases le_total 0 k with hk | hk
  · rw [show (-k).toNat = 0 by omega, pow_zero, div_one, ← zpow_natCast, Int.toNat_of_nonneg hk]
  · rw [show k.toNat = 0 by omega, pow_zero, one_div, ← zpow_natCast,
      Int.toNat_of_nonneg (by omega), ← zpow_neg, neg_neg]

theorem floorLog10_spec {num den : Nat} (hnum : 0 < num) (hden : 0 < den) :
    (10 : ℚ) ^ floorLog10 num den ≤ num / den ∧
      (num / den : ℚ) < 10 ^ (floorLog10 num den + 1) := by
  have hden' : (0 : ℚ) < den := by exact_mod_cast hden
  have hnum' : (0 : ℚ) < num := by exact_mod_cast hnum
  unfold floorLog10
  split
  · rename_i hle
    have hpos : 0 < num / den := Nat.div_pos hle hden
    have hlength : 0 < (Digit.ofNat (num / den)).length :=
      List.length_pos_iff.mpr (Digit.ofNat_ne_nil _)
    have hlow := Digit.ten_pow_length_le hpos
    have hhigh := Digit.lt_ten_pow_length (num / den)
    rw [Nat.le_div_iff_mul_le hden] at hlow
    rw [Nat.div_lt_iff_lt_mul hden] at hhigh
    constructor
    · rw [← Nat.cast_pred hlength, zpow_natCast, le_div_iff₀ hden']
      exact_mod_cast hlow
    · rw [sub_add_cancel, zpow_natCast, div_lt_iff₀ hden']
      exact_mod_cast hhigh
  · rename_i hlt
    -- the quotient is below one, so its inverse is rounded up
    set t := (den + num - 1) / num - 1 with ht
    have htwo : 2 ≤ (den + num - 1) / num := (Nat.le_div_iff_mul_le hnum).mpr (by omega)
    have hceil : den ≤ (t + 1) * num := by
      have hmod := Nat.lt_mul_div_succ (den + num - 1) hnum
      rw [ht, Nat.sub_add_cancel (by omega)]
      rw [Nat.mul_comm, Nat.add_mul, Nat.one_mul] at hmod
      omega
    have hfloor : t * num < den := by
      have hmul := Nat.div_mul_le_self (den + num - 1) num
      rw [ht, Nat.sub_mul, Nat.one_mul]
      omega
    have hlow := Digit.ten_pow_length_le (n := t) (by omega)
    have hhigh := Digit.lt_ten_pow_length t
    have hlength : 0 < (Digit.ofNat t).length := List.length_pos_iff.mpr (Digit.ofNat_ne_nil _)
    constructor
    · rw [zpow_neg, zpow_natCast, inv_eq_one_div, div_le_div_iff₀ (by positivity) hden', one_mul]
      have hmul := Nat.mul_le_mul_right num (Nat.succ_le_of_lt hhigh)
      calc (den : ℚ) ≤ ((t + 1) * num : Nat) := by exact_mod_cast hceil
        _ ≤ (10 ^ (Digit.ofNat t).length * num : Nat) := by exact_mod_cast hmul
        _ = num * 10 ^ (Digit.ofNat t).length := by push_cast; ring
    · rw [show -((Digit.ofNat t).length : ℤ) + 1 = -(((Digit.ofNat t).length - 1 : Nat) : ℤ) by omega,
        zpow_neg, zpow_natCast, inv_eq_one_div, div_lt_div_iff₀ hden' (by positivity), one_mul]
      have hmul := Nat.mul_le_mul_right num hlow
      calc (num : ℚ) * 10 ^ ((Digit.ofNat t).length - 1) =
            (10 ^ ((Digit.ofNat t).length - 1) * num : Nat) := by push_cast; ring
        _ ≤ (t * num : Nat) := by exact_mod_cast hmul
        _ < den := by exact_mod_cast hfloor

/-! ### Decimals -/

/-- The number that a decimal stands for. -/
def Decimal.value (d : Decimal) : ℚ := d.coefficient * 10 ^ d.exponent

namespace Decimal

theorem value_strip (d : Decimal) : d.strip.value = d.value := by
  fun_induction strip d with
  | case1 d h ih =>
    rw [ih]
    have hten : (d.coefficient : ℚ) = 10 * (d.coefficient / 10 : ℕ) := by
      exact_mod_cast (Nat.mul_div_cancel' (Nat.dvd_of_mod_eq_zero h.2)).symm
    rw [value, value, hten, zpow_add_one₀ (by norm_num)]
    ring
  | case2 d h => rfl

theorem coefficient_strip_pos {d : Decimal} (h : 0 < d.coefficient) : 0 < d.strip.coefficient := by
  fun_induction strip d with
  | case1 d hd ih => exact ih (by simp only; omega)
  | case2 d hd => exact h

theorem coefficient_strip_le (d : Decimal) : d.strip.coefficient ≤ d.coefficient := by
  fun_induction strip d with
  | case1 d hd ih => exact ih.trans (Nat.div_le_self _ _)
  | case2 d hd => exact le_rfl

end Decimal

/-! ### A common unit of a power of two and a power of ten -/

/-- A power of two in a unit of which a power of ten is a multiple as well. -/
def unitsOfTwo (j k : Int) : Nat := twoTo j.toNat * tenTo (-k).toNat

/-- The power of ten in that unit. -/
def unitsOfTen (j k : Int) : Nat := twoTo (-j).toNat * tenTo k.toNat

theorem unitsOfTen_pos (j k : Int) : 0 < unitsOfTen j k := Nat.mul_pos (twoTo_pos _) (tenTo_pos _)

theorem exists_unit (j k : Int) : ∃ t : ℚ, 0 < t ∧
    (unitsOfTwo j k : ℚ) = t * 2 ^ j ∧ (unitsOfTen j k : ℚ) = t * 10 ^ k := by
  have htwo : (0 : ℚ) < twoTo (-j).toNat := by exact_mod_cast twoTo_pos _
  have hten : (0 : ℚ) < tenTo (-k).toNat := by exact_mod_cast tenTo_pos _
  refine ⟨twoTo (-j).toNat * tenTo (-k).toNat, mul_pos htwo hten, ?_, ?_⟩
  · rw [two_zpow_eq, unitsOfTwo]
    push_cast
    field_simp
  · rw [ten_zpow_eq, unitsOfTen]
    push_cast
    field_simp

theorem ten_zpow_le_two_zpow_iff {j k : ℤ} :
    (10 : ℚ) ^ k ≤ 2 ^ j ↔ unitsOfTen j k ≤ unitsOfTwo j k := by
  obtain ⟨t, ht, htwo, hten⟩ := exists_unit j k
  rw [← Nat.cast_le (α := ℚ), htwo, hten, mul_le_mul_iff_right₀ ht]

theorem two_zpow_lt_ten_zpow_iff {j k : ℤ} :
    (2 : ℚ) ^ j < 10 ^ k ↔ unitsOfTwo j k < unitsOfTen j k := by
  rw [← not_le, ten_zpow_le_two_zpow_iff, not_le]

theorem le_of_mul_tenTo_eq {a b n N : Nat} (hN : 0 < N) (hlt : N < 5 ^ 23)
    (h : a * tenTo n = N * twoTo b) : n ≤ 22 := by
  have hten : tenTo n = 5 ^ n * 2 ^ n := Nat.mul_pow 5 2 n
  have hdvd : 5 ^ n ∣ N * twoTo b := by
    rw [← h, hten]
    exact Dvd.dvd.mul_left (Nat.dvd_mul_right _ _) a
  have hcoprime : Nat.Coprime (5 ^ n) (twoTo b) := Nat.Coprime.pow n b (by decide)
  have hle := Nat.le_of_dvd hN (hcoprime.dvd_of_dvd_mul_right hdvd)
  by_contra hmore
  have hpow := Nat.pow_le_pow_right (show 0 < 5 by decide) (show 23 ≤ n by omega)
  omega

theorem natAbs_le_of_few_bits {C M : Nat} {E j : ℤ} (hC : 0 < C) (hM : 0 < M) (hshort : C ≤ 10 ^ 9)
    (hfew : M < twoTo 25) (h : (C * 10 ^ E : ℚ) = M * 2 ^ j) : E.natAbs ≤ 22 := by
  obtain ⟨t, ht, htwo, hten⟩ := exists_unit j E
  have heq : C * unitsOfTen j E = M * unitsOfTwo j E := by
    have hcast : (C * unitsOfTen j E : ℚ) = M * unitsOfTwo j E := by
      rw [hten, htwo, mul_left_comm, h]
      ring
    exact_mod_cast hcast
  have hone : tenTo 0 = 1 := rfl
  rw [unitsOfTen, unitsOfTwo, ← Nat.mul_assoc, ← Nat.mul_assoc] at heq
  rcases le_total 0 E with hE | hE
  · rw [show (-E).toNat = 0 by omega, hone, Nat.mul_one] at heq
    have hle := le_of_mul_tenTo_eq hM (hfew.trans (by decide)) heq
    omega
  · rw [show E.toNat = 0 by omega, hone, Nat.mul_one] at heq
    have hle := le_of_mul_tenTo_eq hC (hshort.trans_lt (by norm_num)) heq.symm
    omega

/-! ### Points of a decimal grid -/

namespace Format

/-- A quarter of the last place of a magnitude. -/
def gridQuarter (m : Magnitude) (k : Int) : Nat := unitsOfTwo (m.exponent - 2) k

/-- A step of the decimal grid in the same unit. -/
def gridStep (m : Magnitude) (k : Int) : Nat := unitsOfTen (m.exponent - 2) k

theorem exists_gridUnit (m : Magnitude) (k : Int) : ∃ t : ℚ, 0 < t ∧
    (gridQuarter m k : ℚ) = t * 2 ^ (m.exponent - 2) ∧ (gridStep m k : ℚ) = t * 10 ^ k :=
  exists_unit (m.exponent - 2) k

/-- The last grid point that is not above the magnitude, in steps. -/
def gridFloor (m : Magnitude) (k : Int) : Nat :=
  4 * m.coefficient * gridQuarter m k / gridStep m k

/-- The nearer one of the two grid points next to the magnitude. -/
def gridNearer (m : Magnitude) (k : Int) : Nat :=
  if 4 * m.coefficient * gridQuarter m k - gridFloor m k * gridStep m k <
      (gridFloor m k + 1) * gridStep m k - 4 * m.coefficient * gridQuarter m k then gridFloor m k
  else if (gridFloor m k + 1) * gridStep m k - 4 * m.coefficient * gridQuarter m k <
      4 * m.coefficient * gridQuarter m k - gridFloor m k * gridStep m k then gridFloor m k + 1
  else if gridFloor m k % 2 = 0 then gridFloor m k else gridFloor m k + 1

theorem gridNearer_eq (m : Magnitude) (k : Int) :
    gridNearer m k = gridFloor m k ∨ gridNearer m k = gridFloor m k + 1 := by
  unfold gridNearer
  split
  · exact .inl rfl
  · split
    · exact .inr rfl
    · split
      · exact .inl rfl
      · exact .inr rfl

variable {f : Format} {m : Magnitude} {k : Int}

/-- Whether a grid point lies in the rounding interval. -/
def gridContains (f : Format) (m : Magnitude) (k : Int) (c : Nat) : Bool :=
  ((f.roundingInterval m).scale (gridQuarter m k)).contains (c * gridStep m k)

theorem gridPoint?_eq (f : Format) (m : Magnitude) (k : Int) : f.gridPoint? m k =
    match f.gridContains m k (gridFloor m k), f.gridContains m k (gridFloor m k + 1) with
    | true, true => some ⟨gridNearer m k, k⟩
    | true, false => some ⟨gridFloor m k, k⟩
    | false, true => some ⟨gridFloor m k + 1, k⟩
    | false, false => none := by
  unfold gridPoint?
  simp only [Magnitude.numerator, Magnitude.denominator, one_mul]
  rfl

theorem gridPoint?_eq_some {d : Decimal} (h : f.gridPoint? m k = some d) :
    d.exponent = k ∧ (d.coefficient = gridFloor m k ∨ d.coefficient = gridFloor m k + 1) ∧
      f.gridContains m k d.coefficient = true := by
  rw [gridPoint?_eq] at h
  split at h
  · rename_i hbelow habove
    cases h
    refine ⟨rfl, gridNearer_eq m k, ?_⟩
    rcases gridNearer_eq m k with heq | heq <;> simp only [heq, hbelow, habove]
  · rename_i hbelow _
    cases h
    exact ⟨rfl, .inl rfl, hbelow⟩
  · rename_i _ habove
    cases h
    exact ⟨rfl, .inr rfl, habove⟩
  · cases h

theorem gridPoint?_isSome (h : f.gridContains m k (gridFloor m k) = true) :
    (f.gridPoint? m k).isSome := by
  rw [gridPoint?_eq, h]
  split <;> first | rfl | contradiction

theorem gridFloor_spec (m : Magnitude) (k : Int) :
    (gridFloor m k : ℚ) * 10 ^ k ≤ m.value ∧ m.value < (gridFloor m k + 1) * 10 ^ k := by
  obtain ⟨t, ht, hquarter, hstep⟩ := exists_gridUnit m k
  have hvalue : m.value = 4 * m.coefficient * 2 ^ (m.exponent - 2) := by
    rw [Magnitude.value, two_zpow_quarters]
    ring
  have hlow : (gridFloor m k : ℚ) * gridStep m k ≤ 4 * m.coefficient * gridQuarter m k := by
    exact_mod_cast Nat.div_mul_le_self (4 * m.coefficient * gridQuarter m k) (gridStep m k)
  have hhigh : 4 * (m.coefficient : ℚ) * gridQuarter m k < (gridFloor m k + 1) * gridStep m k := by
    rw [mul_comm _ (gridStep m k : ℚ)]
    exact_mod_cast Nat.lt_mul_div_succ (4 * m.coefficient * gridQuarter m k) (unitsOfTen_pos _ _)
  rw [hquarter, hstep] at hlow hhigh
  rw [hvalue]
  constructor
  · refine le_of_mul_le_mul_left ?_ ht
    linarith
  · refine lt_of_mul_lt_mul_left ?_ ht.le
    linarith

theorem gridContains_iff {c : Nat} :
    f.gridContains m k c = true ↔ f.RoundsTo m (c * 10 ^ k) := by
  obtain ⟨t, ht, hquarter, hstep⟩ := exists_gridUnit m k
  have hpoint : ((c * gridStep m k : Nat) : ℚ) = t * (c * 10 ^ k) := by
    rw [Nat.cast_mul, hstep]
    ring
  have hend : ∀ n : Nat, ((n * gridQuarter m k : Nat) : ℚ) = t * (n * 2 ^ (m.exponent - 2)) := by
    intro n
    rw [Nat.cast_mul, hquarter]
    ring
  have hle : ∀ n : Nat, n * gridQuarter m k ≤ c * gridStep m k ↔
      (n * 2 ^ (m.exponent - 2) : ℚ) ≤ c * 10 ^ k := by
    intro n
    rw [← Nat.cast_le (α := ℚ), hpoint, hend, mul_le_mul_iff_right₀ ht]
  have hge : ∀ n : Nat, c * gridStep m k ≤ n * gridQuarter m k ↔
      (c * 10 ^ k : ℚ) ≤ n * 2 ^ (m.exponent - 2) := by
    intro n
    rw [← Nat.cast_le (α := ℚ), hpoint, hend, mul_le_mul_iff_right₀ ht]
  unfold gridContains Interval.contains Interval.scale
  simp only
  split
  · rename_i heven
    rw [Bool.and_eq_true, decide_eq_true_eq, decide_eq_true_eq, hle, hge]
    have heven' : m.coefficient % 2 = 0 := by simpa [roundingInterval] using heven
    exact ⟨fun h => ⟨h.1, h.2, fun _ => heven'⟩, fun h => ⟨h.low, h.high⟩⟩
  · rename_i hodd
    rw [Bool.and_eq_true, decide_eq_true_eq, decide_eq_true_eq, ← Nat.not_le, ← Nat.not_le, hle, hge,
      not_le, not_le]
    have hodd' : m.coefficient % 2 ≠ 0 := by simpa [roundingInterval] using hodd
    constructor
    · rintro ⟨hlow, hhigh⟩
      exact .of_lt hlow hhigh
    · rintro ⟨hlow, hhigh, hends⟩
      exact ⟨hlow.lt_of_ne fun heq => hodd' (hends (.inl heq.symm)),
        hhigh.lt_of_ne fun heq => hodd' (hends (.inr heq))⟩

theorem roundsTo_of_gridPoint? {d : Decimal} (h : f.gridPoint? m k = some d) :
    f.RoundsTo m d.value := by
  obtain ⟨rfl, -, hcontains⟩ := gridPoint?_eq_some h
  exact gridContains_iff.mp hcontains

theorem gridPoint?_of_fine (hpos : 0 < m.coefficient) (hfine : (10 : ℚ) ^ k ≤ 2 ^ (m.exponent - 2)) :
    (f.gridPoint? m k).isSome := by
  obtain ⟨hfloor, hnext⟩ := gridFloor_spec m k
  have hunit := two_zpow_pos (m.exponent - 2)
  rw [Magnitude.value, two_zpow_quarters] at hfloor hnext
  have hlow : ((f.roundingInterval m).low : ℚ) * 2 ^ (m.exponent - 2) < gridFloor m k * 10 ^ k := by
    have hlowest : ((f.roundingInterval m).low : ℚ) + 1 ≤ 4 * m.coefficient := by
      exact_mod_cast (low_roundingInterval f hpos).2
    nlinarith
  have hhigh : gridFloor m k * 10 ^ k < ((f.roundingInterval m).high : ℚ) * 2 ^ (m.exponent - 2) := by
    rw [high_roundingInterval]
    push_cast
    linarith
  exact gridPoint?_isSome (gridContains_iff.mpr (.of_lt hlow hhigh))

/-! ### Points next to a magnitude -/

theorem near_of_gridPoint? {d : Decimal} (h : f.gridPoint? m k = some d) :
    |d.value - m.value| ≤ 10 ^ k := by
  obtain ⟨rfl, hpoint, -⟩ := gridPoint?_eq_some h
  obtain ⟨hfloor, hnext⟩ := gridFloor_spec m d.exponent
  have hstep := ten_zpow_pos d.exponent
  rw [Decimal.value, abs_le]
  rcases hpoint with hpoint | hpoint <;> rw [hpoint] <;> push_cast <;>
    constructor <;> linarith

theorem coefficient_le_of_gridPoint? {d : Decimal} {e : ℤ} {n : Nat} (hm : m.value < 10 ^ (e + 1))
    (h : f.gridPoint? m (e - n) = some d) : d.coefficient ≤ 10 ^ (n + 1) := by
  obtain ⟨-, hpoint, -⟩ := gridPoint?_eq_some h
  obtain ⟨hfloor, -⟩ := gridFloor_spec m (e - n)
  have hlt : gridFloor m (e - n) < 10 ^ (n + 1) := by
    have hmul := hfloor.trans_lt hm
    rw [ten_zpow_eq_mul (e + 1) (n + 1), Nat.cast_succ, add_sub_add_right_eq_sub] at hmul
    exact_mod_cast lt_of_mul_lt_mul_right hmul (ten_zpow_pos _).le
  omega

theorem RoundsTo.pos {x : ℚ} (hm : 0 < m.coefficient) (h : f.RoundsTo m x) : 0 < x := by
  have hlow : (0 : ℚ) < (f.roundingInterval m).low := by
    exact_mod_cast (low_roundingInterval f hm).1
  exact (mul_pos hlow (two_zpow_pos _)).trans_le h.low

theorem coefficient_pos_of_gridPoint? {d : Decimal} (hm : 0 < m.coefficient)
    (h : f.gridPoint? m k = some d) : 0 < d.coefficient := by
  have hvalue := (roundsTo_of_gridPoint? h).pos hm
  rw [Decimal.value] at hvalue
  exact_mod_cast pos_of_mul_pos_left hvalue (ten_zpow_pos _).le

/-! ### Shortest decimals -/

/-- The power of ten of the leading digit of a magnitude. -/
def decade (m : Magnitude) : ℤ := floorLog10 m.numerator m.denominator

theorem decade_spec (hm : 0 < m.coefficient) :
    (10 : ℚ) ^ decade m ≤ m.value ∧ m.value < 10 ^ (decade m + 1) := by
  rw [Magnitude.value_eq]
  exact floorLog10_spec (Nat.mul_pos hm (twoTo_pos _)) m.denominator_pos

theorem shortest?_eq_some {limit : Nat} {d : Decimal} (h : f.shortest? limit m = some d) :
    ∃ n < limit, ∃ g, f.gridPoint? m (decade m - n) = some g ∧ g.strip = d := by
  obtain ⟨n, hn, hd⟩ := List.exists_of_findSome?_eq_some h
  obtain ⟨g, hg, rfl⟩ := Option.map_eq_some_iff.mp hd
  exact ⟨n, List.mem_range.mp hn, g, hg, rfl⟩

theorem exists_shortest? {limit n : Nat} (hn : n < limit)
    (h : (f.gridPoint? m (decade m - n)).isSome) : ∃ d, f.shortest? limit m = some d := by
  refine Option.isSome_iff_exists.mp ?_
  rw [shortest?, List.findSome?_isSome_iff]
  exact ⟨n, List.mem_range.mpr hn, by rwa [Option.isSome_map]⟩

/-- **Nine digits suffice for a magnitude of single precision.** -/
theorem exists_shortest?_single (hm : single.Normal m) : ∃ d, single.shortest? 9 m = some d := by
  refine exists_shortest? (n := 8) (by decide) (gridPoint?_of_fine hm.positive ?_)
  have hbelow : (m.coefficient : ℚ) ≤ 2 ^ 24 := by exact_mod_cast hm.below.le
  have hunit := two_zpow_pos (m.exponent - 2)
  have hle := (decade_spec hm.positive).1
  rw [ten_zpow_eq_mul _ 8, Magnitude.value, two_zpow_quarters] at hle
  nlinarith

/-! ### Decimals of single precision -/

variable {d : Decimal}

/-- What is written for a magnitude: a decimal of nine digits and of moderate size that is rounded to
it. -/
structure Written (m : Magnitude) (d : Decimal) : Prop where
  rounds : single.RoundsTo m d.value
  positive : 0 < d.coefficient
  short : d.coefficient ≤ 10 ^ 9
  above : (2 : ℚ) ^ (-151 : ℤ) ≤ d.value
  below : d.value < 2 ^ (128 : ℤ)

theorem roundsTo_range (hm : single.Normal m) {x : ℚ} (h : single.RoundsTo m x) :
    (2 : ℚ) ^ (-151 : ℤ) ≤ x ∧ x < 2 ^ (128 : ℤ) := by
  have hunit := two_zpow_pos (m.exponent - 2)
  constructor
  · have hlow : (1 : ℚ) ≤ (single.roundingInterval m).low := by
      exact_mod_cast (low_roundingInterval single hm.positive).1
    have hleast : (-149 : ℤ) ≤ m.exponent := hm.least
    calc (2 : ℚ) ^ (-151 : ℤ) ≤ 2 ^ (m.exponent - 2) := zpow_le_zpow_right₀ (by norm_num) (by omega)
      _ ≤ (single.roundingInterval m).low * 2 ^ (m.exponent - 2) :=
        le_mul_of_one_le_left hunit.le hlow
      _ ≤ x := h.low
  · have hbelow : m.coefficient < twoTo 24 := hm.below
    have htwo : twoTo 26 = 4 * twoTo 24 := rfl
    have hhigh : ((single.roundingInterval m).high : ℚ) < 2 ^ (26 : ℤ) := by
      have hlt : (single.roundingInterval m).high < twoTo 26 := by
        rw [high_roundingInterval]
        omega
      have hcast : ((single.roundingInterval m).high : ℚ) < twoTo 26 := by exact_mod_cast hlt
      rwa [cast_twoTo] at hcast
    have hmost : m.exponent ≤ 104 := hm.most
    calc x ≤ (single.roundingInterval m).high * 2 ^ (m.exponent - 2) := h.high
      _ < 2 ^ (26 : ℤ) * 2 ^ (m.exponent - 2) := mul_lt_mul_of_pos_right hhigh hunit
      _ = 2 ^ (26 + (m.exponent - 2)) := (zpow_add₀ two_ne_zero _ _).symm
      _ ≤ 2 ^ (128 : ℤ) := zpow_le_zpow_right₀ (by norm_num) (by omega)

theorem written_of_shortest? (hm : single.Normal m) (hd : single.shortest? 9 m = some d) :
    Written m d := by
  obtain ⟨n, hn, g, hg, rfl⟩ := shortest?_eq_some hd
  have hrounds := roundsTo_of_gridPoint? hg
  have hpos := coefficient_pos_of_gridPoint? hm.positive hg
  have hshort := coefficient_le_of_gridPoint? (decade_spec hm.positive).2 hg
  rw [← Decimal.value_strip] at hrounds
  obtain ⟨habove, hbelow⟩ := roundsTo_range hm hrounds
  refine ⟨hrounds, Decimal.coefficient_strip_pos hpos, ?_, habove, hbelow⟩
  calc g.strip.coefficient ≤ g.coefficient := g.coefficient_strip_le
    _ ≤ 10 ^ (n + 1) := hshort
    _ ≤ 10 ^ 9 := Nat.pow_le_pow_right (by decide) hn

theorem Written.natAbs_exponent_le (h : Written m d) : d.exponent.natAbs ≤ 60 := by
  have hten : (1 : ℚ) < 10 := by norm_num
  have hstep := ten_zpow_pos d.exponent
  have hpos : (1 : ℚ) ≤ d.coefficient := by exact_mod_cast h.positive
  have hshort : (d.coefficient : ℚ) ≤ 10 ^ (9 : ℤ) := by exact_mod_cast h.short
  have hlow : (10 : ℚ) ^ (-46 : ℤ) ≤ 10 ^ (9 + d.exponent) := by
    calc (10 : ℚ) ^ (-46 : ℤ) ≤ 2 ^ (-151 : ℤ) := by norm_num
      _ ≤ d.coefficient * 10 ^ d.exponent := h.above
      _ ≤ 10 ^ (9 : ℤ) * 10 ^ d.exponent := mul_le_mul_of_nonneg_right hshort hstep.le
      _ = 10 ^ (9 + d.exponent) := (zpow_add₀ (by norm_num) _ _).symm
  have hhigh : (10 : ℚ) ^ d.exponent < 10 ^ (39 : ℤ) := by
    calc (10 : ℚ) ^ d.exponent ≤ d.coefficient * 10 ^ d.exponent :=
          le_mul_of_one_le_left hstep.le hpos
      _ < 2 ^ (128 : ℤ) := h.below
      _ < 10 ^ (39 : ℤ) := by norm_num
  have hleast := (zpow_le_zpow_iff_right₀ hten).mp hlow
  have hmost := (zpow_lt_zpow_iff_right₀ hten).mp hhigh
  omega

end Format

namespace Single

theorem exponent_of_shortest? {x : Single} {d : Decimal} (h : x.shortest? = some d)
    (hd : d.coefficient = 0) : d.exponent = 0 := by
  unfold shortest? at h
  split at h
  · cases h
  · cases h
    rfl
  · rename_i m hzero hm
    obtain ⟨n, -, g, hg, rfl⟩ := Format.shortest?_eq_some h
    have hpos : 0 < m.coefficient := by
      rcases m with ⟨_ | c, e⟩
      · exact absurd rfl (hzero e)
      · exact Nat.succ_pos c
    have hstrip := Decimal.coefficient_strip_pos (Format.coefficient_pos_of_gridPoint? hpos hg)
    omega

end Single

end Dialogue.Binary

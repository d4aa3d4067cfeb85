import Dialogue.Text.Digits
import Mathlib.Tactic.Ring

/-!
# Digits that are read back

A digit is read from the character that it is written as and from no other (`Digit.run?_text`,
`Digit.text_of_run?`), so a run of digits is read from its text up to the first character that is no
digit (`Digit.span_text`). The digits of a number have its value
(`Digit.value_ofNat`), no leading zero, and as many places as the number passes powers of ten
(`Digit.lt_ten_pow_length`, `Digit.ten_pow_length_le`).
-/

namespace Dialogue

/-! ### Decimal digits -/

namespace Digit

theorem ofChar?_toChar : ∀ d : Digit, ofChar? (toChar d) = some d := by
  decide

theorem run?_text (ds : List Digit) : run? (text ds) = some ds := by
  unfold run? text
  induction ds with
  | nil => rfl
  | cons d ds ih => simp [ofChar?_toChar, ih]

theorem toChar_of_ofChar? {c : Char} {d : Digit} (h : ofChar? c = some d) : toChar d = c := by
  unfold ofChar? at h
  split at h
  · rename_i hc
    rw [← Option.some.inj h]
    show Char.ofNat (48 + (c.toNat - 48)) = c
    rw [Nat.add_sub_cancel' hc.1, Char.ofNat_toNat]
  · cases h

theorem text_of_run? {cs : List Char} {ds : List Digit} (h : run? cs = some ds) : text ds = cs := by
  unfold run? at h
  induction cs generalizing ds with
  | nil =>
    obtain rfl : [] = ds := Option.some.inj h
    rfl
  | cons c cs ih =>
    rw [List.mapM_cons] at h
    obtain ⟨d, hd, h⟩ := Option.bind_eq_some_iff.mp h
    obtain ⟨es, hes, h⟩ := Option.bind_eq_some_iff.mp h
    obtain rfl : d :: es = ds := Option.some.inj h
    exact congrArg₂ List.cons (toChar_of_ofChar? hd) (ih hes)

theorem span_text (ds : List Digit) {r : List Char} (h : ∀ c ∈ r.head?, ofChar? c = none) :
    span (text ds ++ r) = (ds, r) := by
  induction ds with
  | nil =>
    cases r with
    | nil => rfl
    | cons c cs =>
      have hc : ofChar? c = none := h c rfl
      simp [text, span, hc]
  | cons d ds ih =>
    show span (toChar d :: (text ds ++ r)) = (d :: ds, r)
    simp only [span, ofChar?_toChar, ih]

theorem value_append (ds es : List Digit) :
    value (ds ++ es) = value ds * 10 ^ es.length + value es := by
  have hfold : ∀ (es : List Digit) (n : Nat),
      es.foldl (fun n d => 10 * n + d.val) n = n * 10 ^ es.length + value es := by
    intro es
    induction es with
    | nil => intro n; simp [value]
    | cons e es ih =>
      intro n
      have hvalue : value (e :: es) = (10 * 0 + e.val) * 10 ^ es.length + value es := ih _
      rw [List.foldl_cons, ih, hvalue, List.length_cons, Nat.pow_succ]
      ring
  unfold value
  rw [List.foldl_append, hfold]
  rfl

theorem value_replicate_zero (n : Nat) : value (List.replicate n 0) = 0 := by
  induction n with
  | zero => rfl
  | succ n ih =>
    have happend := value_append [0] (List.replicate n 0)
    rw [List.singleton_append, ih] at happend
    rw [List.replicate_succ, happend]
    simp [value]

theorem value_ofNat (n : Nat) : value (ofNat n) = n := by
  induction n using Nat.strongRecOn with
  | ind n ih =>
    unfold ofNat
    split
    · rename_i hn
      simp [value]
    · rename_i hn
      rw [value_append, ih (n / 10) (by omega)]
      simp only [value, List.length_singleton, List.foldl_cons, List.foldl_nil]
      omega

theorem ofNat_ne_nil (n : Nat) : ofNat n ≠ [] := by
  unfold ofNat
  split <;> simp

theorem ofNat_of_head_zero (n : Nat) (h : (ofNat n).head? = some 0) : ofNat n = [0] := by
  have hpos : ∀ n : Nat, 0 < n → (ofNat n).head? ≠ some 0 := by
    intro n
    induction n using Nat.strongRecOn with
    | ind n ih =>
      intro hn
      unfold ofNat
      split
      · rename_i hlt
        simp only [List.head?_cons, ne_eq, Option.some.injEq]
        intro h
        have := congrArg Fin.val h
        simp at this
        omega
      · rename_i hge
        rw [List.head?_append, Option.or_of_isSome (by simpa using ofNat_ne_nil _)]
        exact ih (n / 10) (by omega) (by omega)
  rcases Nat.eq_zero_or_pos n with rfl | hn
  · rw [ofNat, dif_pos (by decide)]
    rfl
  · exact absurd h (hpos n hn)

theorem lt_ten_pow_length (n : Nat) : n < 10 ^ (ofNat n).length := by
  induction n using Nat.strongRecOn with
  | ind n ih =>
    unfold ofNat
    split
    · simpa using ‹n < 10›
    · have hlt := ih (n / 10) (by omega)
      rw [List.length_append, List.length_singleton, Nat.pow_succ]
      omega

theorem ten_pow_length_le {n : Nat} (hn : 0 < n) : 10 ^ ((ofNat n).length - 1) ≤ n := by
  induction n using Nat.strongRecOn with
  | ind n ih =>
    unfold ofNat
    split
    · exact hn
    · have hle := ih (n / 10) (by omega) (by omega)
      have hlength : 0 < (ofNat (n / 10)).length := List.length_pos_iff.mpr (ofNat_ne_nil _)
      rw [List.length_append, List.length_singleton, Nat.add_sub_cancel]
      obtain ⟨l, hl⟩ := Nat.exists_eq_succ_of_ne_zero (Nat.ne_of_gt hlength)
      rw [hl, Nat.succ_sub_one] at hle
      rw [hl, Nat.pow_succ]
      omega

end Digit

/-! ### Hexadecimal digits -/

theorem HexDigit.ofChar?_toChar : ∀ d : HexDigit, ofChar? (toChar d) = some d := by
  decide

end Dialogue

import Dialogue.Binary.Single
import Dialogue.Proofs.Binary.Rounding

/-!
# Numbers of single precision and their magnitudes

A finite number is packed from its sign and its magnitude (`Single.pack_magnitude?`), which is one of
the format unless it is zero (`Single.normal_of_magnitude?`).
-/

namespace Dialogue.Binary.Single

theorem bits_eq (x : Single) : x.bits.toNat =
    (if x.isNegative then 0x80000000 else 0) + (x.exponentField * 0x800000 + x.fractionField) := by
  have hlt := x.bits.toNat_lt
  unfold isNegative exponentField fractionField
  split <;> simp_all <;> omega

theorem magnitude?_eq_some {x : Single} {m : Magnitude} (h : x.magnitude? = some m) :
    (x.exponentField = 0 ∧ m = ⟨x.fractionField, -149⟩) ∨
      (0 < x.exponentField ∧ x.exponentField < 255 ∧
        m = ⟨0x800000 + x.fractionField, (x.exponentField : Int) - 150⟩) := by
  have hfield : x.exponentField < 256 := Nat.mod_lt _ (by decide)
  unfold magnitude? at h
  split at h
  · cases h
  · split at h
    · cases h
      exact .inl ⟨‹_›, rfl⟩
    · cases h
      exact .inr ⟨by omega, by omega, rfl⟩

/-- **A finite number is made up of its sign and its magnitude.** -/
theorem pack_magnitude? {x : Single} {m : Magnitude} (h : x.magnitude? = some m) :
    pack x.isNegative (some m) = x := by
  have hbits := x.bits_eq
  have hbody : (m.exponent + 149).toNat * 0x800000 + m.coefficient =
      x.exponentField * 0x800000 + x.fractionField := by
    rcases magnitude?_eq_some h with ⟨hzero, rfl⟩ | ⟨hpos, hlt, rfl⟩
    · simp [hzero]
    · simp only
      omega
  unfold pack
  simp only
  rw [hbody, ← hbits, UInt32.ofNat_toNat]

theorem normal_of_magnitude? {x : Single} {m : Magnitude} (h : x.magnitude? = some m)
    (hm : m.coefficient ≠ 0) : Format.single.Normal m := by
  have hfraction : x.fractionField < 0x800000 := Nat.mod_lt _ (by decide)
  have htwo : twoTo 24 = 0x1000000 := rfl
  have htwo' : twoTo (24 - 1) = 0x800000 := rfl
  rcases magnitude?_eq_some h with ⟨hzero, rfl⟩ | ⟨hpos, hlt, rfl⟩
  · refine ⟨Nat.pos_of_ne_zero hm, ?_, le_rfl, ?_, fun hleast => ?_⟩
    · simp only [Format.single]
      omega
    · simp only [Format.single]
      omega
    · exact absurd hleast (lt_irrefl _)
  · refine ⟨Nat.add_pos_left (by decide) _, ?_, ?_, ?_, fun _ => ?_⟩ <;> simp only [Format.single] <;>
      omega

theorem exists_magnitude {x : Single} (h : x.isFinite = true) : ∃ m, x.magnitude? = some m := by
  have hfield : x.exponentField ≠ 255 := by simpa [isFinite] using h
  unfold magnitude?
  rw [if_neg hfield]
  split <;> exact ⟨_, rfl⟩

end Dialogue.Binary.Single

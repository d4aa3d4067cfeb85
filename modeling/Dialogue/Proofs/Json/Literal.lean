import Dialogue.Json.Literal
import Dialogue.Proofs.Text.Digits

/-!
# Written strings are read back

A piece is legible when it is read as it is written: what stands for itself may be no quote, no
backslash and no control character, and a short escape must exist. Legible pieces are scanned back up
to the closing quote (`Literal.scan_legible`). The pieces that a text is written with are legible and
stand for that text (`Literal.text?_ofText`), whatever characters it has.
-/

namespace Dialogue.Json

namespace Piece

/-- Read back as it is written. -/
def Legible : Piece → Prop
  | plain c => c ≠ '"' ∧ c ≠ '\\' ∧ 0x20 ≤ c.toNat
  | short c => (letter? c).isSome
  | unit .. => True

theorem ofLetter?_of_letter? {c e : Char} (h : letter? c = some e) :
    ofLetter? e = some c ∧ e ≠ 'u' := by
  unfold letter? at h
  split at h
  case h_8 => cases h
  all_goals
    rename_i hc
    cases h
    exact ⟨congrArg some (Char.toNat_inj.mp hc.symm), by decide⟩

theorem legible_ofChar (c : Char) : (ofChar c).Legible := by
  unfold ofChar
  split
  · assumption
  · rename_i hshort
    split
    · trivial
    · rename_i hcontrol
      refine ⟨?_, ?_, by omega⟩
      · rintro rfl
        exact hshort rfl
      · rintro rfl
        exact hshort rfl

end Piece

namespace Literal

/-! ### Scanning -/

def Legible (l : Literal) : Prop := ∀ p ∈ l, p.Legible

theorem scan_piece {p : Piece} (hp : p.Legible) (r : List Char) :
    scan (p.text ++ r) = (scan r).map fun t => (p :: t.1, t.2) := by
  cases p with
  | plain c =>
    obtain ⟨hquote, hbackslash, hcontrol⟩ := hp
    have hsmall : ¬ c.toNat < 0x20 := by omega
    simp [Piece.text, scan, hbackslash, hsmall]
  | short c =>
    obtain ⟨e, he⟩ := Option.isSome_iff_exists.mp hp
    obtain ⟨hread, hu⟩ := Piece.ofLetter?_of_letter? he
    simp [Piece.text, he, scan, hread, hu]
  | unit a b c d => simp [Piece.text, HexDigit.text, scan, HexDigit.ofChar?_toChar]

theorem scan_legible {l : Literal} (hl : l.Legible) (r : List Char) :
    scan (l.flatMap Piece.text ++ '"' :: r) = some (l, r) := by
  induction l with
  | nil => simp [scan]
  | cons p l ih =>
    rw [List.flatMap_cons, List.append_assoc, scan_piece (hl p List.mem_cons_self),
      ih fun q hq => hl q (List.mem_cons_of_mem p hq)]
    rfl

/-! ### Meaning -/

theorem chars?_unit {a b c d : HexDigit} (h : HexDigit.value [a, b, c, d] < 0xD800) (l : Literal) :
    chars? (.unit a b c d :: l) =
      (chars? l).map (Char.ofNat (HexDigit.value [a, b, c, d]) :: ·) := by
  rcases l with _ | ⟨_ | _ | _, l⟩ <;> simp only [chars?, h, true_or, if_true]

theorem chars?_ofChar (c : Char) (l : Literal) :
    chars? (Piece.ofChar c :: l) = (chars? l).map (c :: ·) := by
  unfold Piece.ofChar
  split
  · rfl
  · split
    · rename_i hcontrol
      -- the code unit of a control character is far below the surrogates
      have hvalue : HexDigit.value [0, 0, ⟨c.toNat / 16 % 16, Nat.mod_lt _ (by decide)⟩,
          ⟨c.toNat % 16, Nat.mod_lt _ (by decide)⟩] = c.toNat := by
        simp [HexDigit.value]
        omega
      rw [chars?_unit (by rw [hvalue]; omega), hvalue, Char.ofNat_toNat]
    · rfl

theorem chars?_map_ofChar (cs : List Char) : chars? (cs.map Piece.ofChar) = some cs := by
  induction cs with
  | nil => rfl
  | cons c cs ih => rw [List.map_cons, chars?_ofChar, ih, Option.map_some]

theorem legible_ofText (s : String) : (ofText s).Legible := by
  intro p hp
  obtain ⟨c, -, rfl⟩ := List.mem_map.mp hp
  exact Piece.legible_ofChar c

/-- **Every text is the meaning of the literal that it is written as.** -/
theorem text?_ofText (s : String) : (ofText s).text? = some s := by
  rw [text?, ofText, chars?_map_ofChar, Option.map_some, String.ofList_toList]

theorem unescaped?_plain (cs : List Char) : unescaped? (cs.map .plain) = some cs := by
  induction cs with
  | nil => rfl
  | cons c cs ih => rw [List.map_cons, unescaped?, ih, Option.map_some]

end Literal

end Dialogue.Json

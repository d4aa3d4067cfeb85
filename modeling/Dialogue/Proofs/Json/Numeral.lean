import Dialogue.Json.Token
import Dialogue.Proofs.Text.Digits

/-!
# Written numerals are read back

A well-formed numeral is read back from its text (`Numeral.ofText?_text`), which is one word of JSON
text (`Numeral.ofWord?_text`). The numeral of an integer is well-formed and has that integer
(`Numeral.int?_ofInt`); a decimal that is laid out is well-formed (`Layout.wellFormed_numeral`).
-/

namespace Dialogue

/-! ### Characters -/

theorem Digit.isWordChar_toChar : ∀ d : Digit, Json.Token.isWordChar d.toChar = true := by
  decide

theorem Digit.toChar_not_mem : ∀ d : Digit, d.toChar ∉ ['-', 'n', 't', 'f'] := by
  decide

namespace Json

namespace Numeral

/-! ### Reading the parts -/

/-- The end of a numeral: its exponent, if it has one. -/
def tailText (e : Option Int) : List Char := e.elim [] exponentText

/-- What follows the whole part of a numeral. -/
def fractionText (ds : List Digit) (e : Option Int) : List Char :=
  (if ds = [] then [] else '.' :: Digit.text ds) ++ tailText e

theorem text_eq (n : Numeral) :
    n.text = (if n.negative then ['-'] else []) ++
      (Digit.text n.whole ++ fractionText n.fraction n.exponent) := by
  unfold text fractionText tailText
  cases n.exponent <;> simp

theorem readTail?_tailText (e : Option Int) : readTail? (tailText e) = some e := by
  cases e with
  | none => rfl
  | some e =>
    have hdigits : Digit.run? (Digit.text (Digit.ofNat e.natAbs)) = some (Digit.ofNat e.natAbs) :=
      Digit.run?_text _
    have hread : readExponent? ((if e < 0 then '-' else '+') :: Digit.text (Digit.ofNat e.natAbs)) =
        some e := by
      split
      · simp only [readExponent?, hdigits, Option.bind_some, Digit.ofNat_ne_nil, if_false,
          Digit.value_ofNat, Option.some.injEq]
        omega
      · simp only [readExponent?, hdigits, Option.bind_some, Digit.ofNat_ne_nil, if_false,
          Digit.value_ofNat, Option.some.injEq]
        omega
    show (readExponent? _).map some = _
    rw [hread, Option.map_some]

theorem head_tailText {e : Option Int} : ∀ c ∈ (tailText e).head?, Digit.ofChar? c = none := by
  cases e with
  | none => intro c hc; cases hc
  | some e => intro c hc; cases hc; decide

theorem readFraction?_fractionText (ds : List Digit) (e : Option Int) :
    readFraction? (fractionText ds e) = some (ds, e) := by
  unfold fractionText
  cases ds with
  | nil =>
    have htail := readTail?_tailText e
    unfold readFraction?
    split
    · rename_i heq
      cases e with
      | none => cases heq
      | some e => cases heq
    · rw [if_pos rfl, List.nil_append, htail, Option.map_some]
  | cons d ds =>
    have hspan := Digit.span_text (d :: ds) (head_tailText (e := e))
    rw [if_neg (List.cons_ne_nil d ds), List.cons_append, readFraction?, hspan]
    simp only [readTail?_tailText, Option.map_some]

theorem head_fractionText {ds : List Digit} {e : Option Int} :
    ∀ c ∈ (fractionText ds e).head?, Digit.ofChar? c = none := by
  cases ds with
  | nil => exact head_tailText
  | cons d ds => intro c hc; cases hc; decide

/-! ### Reading a numeral -/

theorem readUnsigned?_text {n : Numeral} (hn : n.WellFormed) :
    readUnsigned? n.negative (Digit.text n.whole ++ fractionText n.fraction n.exponent) =
      some n := by
  obtain ⟨hwhole, hzero⟩ := hn
  obtain ⟨d, ds, hds⟩ := List.exists_cons_of_ne_nil hwhole
  have hleading : ¬ (d = 0 ∧ ds ≠ []) := by
    rintro ⟨rfl, hne⟩
    rw [hds] at hzero
    exact hne (List.cons.inj (hzero rfl)).2
  rw [readUnsigned?, Digit.span_text n.whole head_fractionText, hds]
  simp only [hleading, if_false, readFraction?_fractionText, Option.map_some, ← hds]

/-- **A well-formed numeral is read back from its text.** -/
theorem ofText?_text {n : Numeral} (hn : n.WellFormed) : ofText? n.text = some n := by
  have hread := readUnsigned?_text hn
  rw [text_eq]
  cases hneg : n.negative with
  | true =>
    rw [hneg] at hread
    exact hread
  | false =>
    rw [hneg] at hread
    obtain ⟨d, ds, hds⟩ := List.exists_cons_of_ne_nil hn.1
    unfold ofText?
    split
    · rename_i heq
      rw [hds] at heq
      exact absurd (by rw [(List.cons.inj heq).1]; exact List.mem_cons_self) d.toChar_not_mem
    · exact hread

/-! ### Numerals as words -/

theorem head_text {n : Numeral} (hn : n.WellFormed) :
    ∃ c cs, n.text = c :: cs ∧ (c = '-' ∨ ∃ d : Digit, c = d.toChar) := by
  obtain ⟨d, ds, hds⟩ := List.exists_cons_of_ne_nil hn.1
  rw [text_eq, hds]
  cases n.negative with
  | true => exact ⟨_, _, rfl, .inl rfl⟩
  | false => exact ⟨_, _, rfl, .inr ⟨d, rfl⟩⟩

theorem isWordChar_of_mem_text {n : Numeral} {c : Char} (hc : c ∈ n.text) :
    Token.isWordChar c = true := by
  have hdigits : ∀ {ds : List Digit}, c ∈ Digit.text ds → Token.isWordChar c = true := by
    intro ds hc
    obtain ⟨d, -, rfl⟩ := List.mem_map.mp hc
    exact d.isWordChar_toChar
  have hmark : ∀ {d : Char}, c = d → Token.isWordChar d = true → Token.isWordChar c = true := by
    rintro d rfl hd
    exact hd
  rw [text_eq] at hc
  simp only [fractionText, List.mem_append] at hc
  rcases hc with hc | hc | hc | hc
  · split at hc
    · exact hmark (List.mem_singleton.mp hc) rfl
    · cases hc
  · exact hdigits hc
  · split at hc
    · cases hc
    · rcases List.mem_cons.mp hc with hc | hc
      · exact hmark hc rfl
      · exact hdigits hc
  · cases he : n.exponent with
    | none => rw [he] at hc; cases hc
    | some e =>
      rw [he] at hc
      rcases List.mem_cons.mp hc with hc | hc
      · exact hmark hc rfl
      · rcases List.mem_cons.mp hc with hc | hc
        · refine hmark hc ?_
          split <;> rfl
        · exact hdigits hc

theorem ofWord?_text {n : Numeral} (hn : n.WellFormed) :
    Token.ofWord? n.text = some (.number n) := by
  obtain ⟨c, cs, htext, hc⟩ := head_text hn
  have hletter : ∀ l : Char, l ∈ ['n', 't', 'f'] → c ≠ l := by
    intro l hl
    rcases hc with rfl | ⟨d, rfl⟩
    · rintro rfl
      simp at hl
    · rintro rfl
      exact d.toChar_not_mem (List.mem_cons_of_mem '-' hl)
  have hne : ∀ {l : Char} {w : List Char}, l ∈ ['n', 't', 'f'] → n.text ≠ l :: w := by
    intro l w hl heq
    exact hletter l hl (List.cons.inj (htext.symm.trans heq)).1
  rw [Token.ofWord?, if_neg (hne (by decide)), if_neg (hne (by decide)), if_neg (hne (by decide)),
    ofText?_text hn, Option.map_some]

/-! ### Integers -/

theorem wellFormed_ofInt (i : Int) : (ofInt i).WellFormed :=
  ⟨Digit.ofNat_ne_nil _, Digit.ofNat_of_head_zero _⟩

theorem int?_ofInt (i : Int) : (ofInt i).int? = some i := by
  simp only [int?, ofInt, isInteger, decide_true, Bool.and_self, if_true, Digit.value_ofNat]
  rcases lt_or_ge i 0 with hi | hi
  · have hne : i.natAbs ≠ 0 := by omega
    simp only [hi, decide_true, if_true, hne, if_false, Option.some.injEq]
    omega
  · have hlt : ¬ i < 0 := by omega
    simp only [hlt, decide_false, if_false, Option.some.injEq, Bool.false_eq_true]
    omega

theorem intWithin?_ofInt {low high i : Int} (hlow : low ≤ i) (hhigh : i ≤ high) :
    (ofInt i).intWithin? low high = some i := by
  rw [intWithin?, int?_ofInt, Option.filter_some, if_pos (by simp [hlow, hhigh])]

end Numeral

/-! ### Decimals -/

/-- The digits of a decimal are laid out without a leading zero; only zero itself, which has to have
the exponent zero, starts with one. -/
theorem Layout.wellFormed_numeral (l : Layout) (negative : Bool) {d : Binary.Decimal}
    (hd : d.coefficient = 0 → d.exponent = 0) : (l.numeral negative d).WellFormed := by
  obtain ⟨c, ds, hds⟩ := List.exists_cons_of_ne_nil (Digit.ofNat_ne_nil d.coefficient)
  have hzero : c = 0 → ds = [] ∧ d.leadingExponent = 0 := by
    rintro rfl
    have hone : Digit.ofNat d.coefficient = [0] := Digit.ofNat_of_head_zero _ (by rw [hds]; rfl)
    have hcoefficient : d.coefficient = 0 := by
      have hvalue := Digit.value_ofNat d.coefficient
      rw [hone] at hvalue
      exact hvalue.symm
    refine ⟨(List.cons.inj (hds.symm.trans hone)).2, ?_⟩
    rw [Binary.Decimal.leadingExponent, Binary.Decimal.digits, hone, hd hcoefficient]
    rfl
  have hdigits : d.digits = c :: ds := hds
  unfold Layout.numeral
  simp only [hdigits]
  split
  · split
    · exact ⟨by simp, fun _ => rfl⟩
    · refine ⟨by simp, fun hhead => ?_⟩
      obtain ⟨rfl, hexponent⟩ := hzero (by simpa using hhead)
      have hc : c = 0 := by simpa using hhead
      simp [hexponent, hc]
  · refine ⟨by simp, fun hhead => ?_⟩
    have hc : c = 0 := by simpa using hhead
    simp [hc]

end Json

end Dialogue

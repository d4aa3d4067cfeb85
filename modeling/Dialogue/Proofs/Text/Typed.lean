import Mathlib.Data.List.TakeWhile
import Dialogue.Proofs.Text.Digits
import Dialogue.Text.Typed

/-!
# Numbers that are typed

What is typed denotes a number when it is a run of digits, after a plus sign or none, between blanks
(`Text.Denotes`). Taking the blanks off both ends leaves what begins and ends with other characters
(`trim_between`), and loses nothing but blanks (`exists_between_trim`); so the numbers that are read
from typed lines are just those that the lines denote (`word32?_trim_eq_some_iff`).
-/

namespace Dialogue.Text

/-- What is typed is a number of thirty-two bits: one or more digits, after a plus sign or none, with
blanks around them. -/
def Denotes (cs : List Char) (n : UInt32) : Prop :=
  ∃ left sign ds right, cs = left ++ (sign ++ Digit.text ds ++ right) ∧
    (∀ c ∈ left, isBlank c = true) ∧ (∀ c ∈ right, isBlank c = true) ∧
    (sign = [] ∨ sign = ['+']) ∧ ds ≠ [] ∧ Digit.value ds = n.toNat

/-! ### Blanks at the ends -/

theorem trim_between {left body right : List Char} (hleft : ∀ c ∈ left, isBlank c = true)
    (hright : ∀ c ∈ right, isBlank c = true) (hne : body ≠ [])
    (hhead : isBlank (body.head hne) = false) (hlast : isBlank (body.getLast hne) = false) :
    trim (left ++ (body ++ right)) = body := by
  have hfront : (left ++ (body ++ right)).dropWhile isBlank = body ++ right := by
    rw [List.dropWhile_append_of_pos hleft]
    cases body with
    | nil => exact absurd rfl hne
    | cons c cs => exact List.dropWhile_cons_of_neg (by simpa using hhead)
  have hback : (right.reverse ++ body.reverse).dropWhile isBlank = body.reverse := by
    rw [List.dropWhile_append_of_pos fun c hc => hright c (List.mem_reverse.mp hc)]
    obtain ⟨init, c, rfl⟩ : ∃ init c, body = init ++ [c] :=
      ⟨_, _, (List.dropLast_concat_getLast hne).symm⟩
    rw [List.reverse_append]
    exact List.dropWhile_cons_of_neg (by simpa using hlast)
  rw [trim, hfront, List.reverse_append, hback, List.reverse_reverse]

theorem exists_between_trim (cs : List Char) : ∃ left right, cs = left ++ (trim cs ++ right) ∧
    (∀ c ∈ left, isBlank c = true) ∧ ∀ c ∈ right, isBlank c = true := by
  let rest := cs.dropWhile isBlank
  refine ⟨cs.takeWhile isBlank, (rest.reverse.takeWhile isBlank).reverse, ?_,
    fun c hc => List.mem_takeWhile_imp hc,
    fun c hc => List.mem_takeWhile_imp (List.mem_reverse.mp hc)⟩
  have hback : trim cs ++ (rest.reverse.takeWhile isBlank).reverse = rest := by
    rw [trim, ← List.reverse_append, List.takeWhile_append_dropWhile, List.reverse_reverse]
  rw [hback, List.takeWhile_append_dropWhile]

/-! ### Numbers -/

theorem isBlank_toChar : ∀ d : Digit, isBlank d.toChar = false := by
  decide

theorem toChar_ne_plus : ∀ d : Digit, d.toChar ≠ '+' := by
  decide

theorem text_ne_nil {ds : List Digit} (h : ds ≠ []) : Digit.text ds ≠ [] :=
  fun hnil => h (List.map_eq_nil_iff.mp hnil)

/-- The number of the digits that were found, if there are any and the number fits. -/
def fitting? : Option (List Digit) → Option UInt32
  | none | some [] => none
  | some ds => if Digit.value ds < 0x100000000 then some (UInt32.ofNat (Digit.value ds)) else none

theorem word32?_plus (cs : List Char) : word32? ('+' :: cs) = fitting? (Digit.run? cs) := rfl

theorem word32?_of_head {cs : List Char} (h : cs.head? ≠ some '+') :
    word32? cs = fitting? (Digit.run? cs) := by
  unfold word32?
  split
  · exact absurd rfl h
  · rfl

theorem fitting?_eq_some_iff {ds? : Option (List Digit)} {n : UInt32} : fitting? ds? = some n ↔
    ∃ ds, ds? = some ds ∧ ds ≠ [] ∧ Digit.value ds = n.toNat := by
  have hn := n.toNat_lt
  constructor
  · intro h
    unfold fitting? at h
    split at h
    · cases h
    · cases h
    · rename_i ds hne
      split at h
      · rename_i hfits
        refine ⟨ds, rfl, hne, ?_⟩
        rw [← Option.some.inj h, UInt32.toNat_ofNat_of_lt' hfits]
      · cases h
  · rintro ⟨ds, rfl, hne, hvalue⟩
    obtain ⟨d, es, rfl⟩ := List.exists_cons_of_ne_nil hne
    rw [fitting?, hvalue, if_pos hn, UInt32.ofNat_toNat]
    exact hne

theorem run?_eq_some_iff {cs : List Char} {ds : List Digit} :
    Digit.run? cs = some ds ↔ cs = Digit.text ds :=
  ⟨fun h => (Digit.text_of_run? h).symm, fun h => h ▸ Digit.run?_text ds⟩

/-- A number is read from its digits, whether a plus sign stands before them or not. -/
theorem word32?_eq_some_iff {cs : List Char} {n : UInt32} : word32? cs = some n ↔
    ∃ sign ds, cs = sign ++ Digit.text ds ∧ (sign = [] ∨ sign = ['+']) ∧ ds ≠ [] ∧
      Digit.value ds = n.toNat := by
  constructor
  · intro h
    by_cases hplus : cs.head? = some '+'
    · obtain ⟨body, rfl⟩ := List.head?_eq_some_iff.mp hplus
      rw [word32?_plus, fitting?_eq_some_iff] at h
      obtain ⟨ds, hrun, hne, hvalue⟩ := h
      exact ⟨['+'], ds, congrArg _ (run?_eq_some_iff.mp hrun), Or.inr rfl, hne, hvalue⟩
    · rw [word32?_of_head hplus, fitting?_eq_some_iff] at h
      obtain ⟨ds, hrun, hne, hvalue⟩ := h
      exact ⟨[], ds, run?_eq_some_iff.mp hrun, Or.inl rfl, hne, hvalue⟩
  · rintro ⟨sign, ds, rfl, rfl | rfl, hne, hvalue⟩
    · obtain ⟨d, es, rfl⟩ := List.exists_cons_of_ne_nil hne
      have hhead : (Digit.text (d :: es)).head? ≠ some '+' :=
        fun h => toChar_ne_plus d (Option.some.inj h)
      rw [List.nil_append, word32?_of_head hhead]
      exact fitting?_eq_some_iff.mpr ⟨_, Digit.run?_text _, hne, hvalue⟩
    · rw [List.singleton_append, word32?_plus]
      exact fitting?_eq_some_iff.mpr ⟨ds, Digit.run?_text ds, hne, hvalue⟩

/-- **The number that is read from a typed line is the one that the line denotes.** -/
theorem word32?_trim_eq_some_iff {cs : List Char} {n : UInt32} :
    word32? (trim cs) = some n ↔ Denotes cs n := by
  rw [word32?_eq_some_iff]
  constructor
  · rintro ⟨sign, ds, htrim, hsign, hne, hvalue⟩
    obtain ⟨left, right, hcs, hleft, hright⟩ := exists_between_trim cs
    rw [htrim] at hcs
    exact ⟨left, sign, ds, right, by rw [hcs, List.append_assoc], hleft, hright, hsign, hne, hvalue⟩
  · rintro ⟨left, sign, ds, right, rfl, hleft, hright, hsign, hne, hvalue⟩
    refine ⟨sign, ds, ?_, hsign, hne, hvalue⟩
    have hbody : sign ++ Digit.text ds ≠ [] := List.append_ne_nil_of_right_ne_nil _ (text_ne_nil hne)
    apply trim_between hleft hright hbody
    · obtain ⟨d, es, rfl⟩ := List.exists_cons_of_ne_nil hne
      rcases hsign with rfl | rfl
      · exact isBlank_toChar d
      · rfl
    · rw [List.getLast_append_of_ne_nil _ (text_ne_nil hne)]
      obtain ⟨d, -, hd⟩ := List.mem_map.mp (List.getLast_mem (text_ne_nil hne))
      rw [← hd]
      exact isBlank_toChar d

end Dialogue.Text

import Dialogue.Json.Writer
import Dialogue.Proofs.Json.Literal
import Dialogue.Proofs.Json.Numeral
import Mathlib.Data.List.Chain

/-!
# Tokens that are written out are scanned back

A text is written token by token, with white space before some of them. Scanning it finds the tokens
again (`Token.scan_spaced`) when each one is legible and no word, that is no constant or numeral, stands
right beside another: without a space between them two words would run into one.
-/

namespace Dialogue.Json

namespace Token

/-- A token made of word characters. -/
def isWord : Token → Bool
  | null | bool _ | number _ => true
  | _ => false

/-- Read back as it is written. -/
def Legible : Token → Prop
  | number n => n.WellFormed
  | string l => l.Legible
  | _ => True

/-! ### One token -/

theorem text_of_isWord {t : Token} (hword : t.isWord = true) (ht : t.Legible) :
    ofWord? t.text = some t ∧ (∀ c ∈ t.text, isWordChar c = true) ∧ t.text ≠ [] := by
  cases t with
  | null => exact ⟨rfl, List.all_eq_true.mp rfl, List.cons_ne_nil _ _⟩
  | bool b => cases b <;> exact ⟨rfl, List.all_eq_true.mp rfl, List.cons_ne_nil _ _⟩
  | number n =>
    obtain ⟨c, cs, htext, -⟩ := Numeral.head_text ht
    refine ⟨Numeral.ofWord?_text ht, fun c => Numeral.isWordChar_of_mem_text, ?_⟩
    show n.text ≠ []
    rw [htext]
    exact List.cons_ne_nil c cs
  | _ => cases hword

theorem of_isWordChar {c : Char} (hc : isWordChar c = true) :
    c ≠ '"' ∧ ofMark? c = none ∧ isSpace c = false := by
  have hne : ∀ d : Char, isWordChar d = false → c ≠ d := by
    rintro d hd rfl
    rw [hc] at hd
    cases hd
  refine ⟨hne _ (by decide), ?_, ?_⟩
  · unfold ofMark?
    split
    all_goals first
      | rfl
      | exact absurd rfl (hne _ (by decide))
  · simp [isSpace, hne ' ' (by decide), hne '\t' (by decide), hne '\n' (by decide),
      hne '\x0d' (by decide)]

theorem first?_text {t : Token} (ht : t.Legible) {r : List Char}
    (hr : t.isWord = true → ∀ c ∈ r.head?, isWordChar c = false) :
    ∃ c cs, t.text = c :: cs ∧ isSpace c = false ∧ first? c (cs ++ r) = some (t, r) := by
  by_cases hword : t.isWord = true
  · obtain ⟨hofWord, hchars, hne⟩ := text_of_isWord hword ht
    obtain ⟨c, cs, htext⟩ := List.exists_cons_of_ne_nil hne
    rw [htext] at hofWord hchars
    obtain ⟨hquote, hmark, hspace⟩ := of_isWordChar (hchars c List.mem_cons_self)
    have htail : ∀ d ∈ cs, isWordChar d = true := fun d hd => hchars d (List.mem_cons_of_mem c hd)
    have htake : (cs ++ r).takeWhile isWordChar = cs := by
      rw [List.takeWhile_append_of_pos htail]
      cases r with
      | nil => simp
      | cons d r => simp [hr hword d rfl]
    have hdrop : (cs ++ r).dropWhile isWordChar = r := by
      rw [List.dropWhile_append_of_pos htail]
      cases r with
      | nil => rfl
      | cons d r => simp [hr hword d rfl]
    refine ⟨c, cs, htext, hspace, ?_⟩
    simp only [first?, hquote, if_false, hmark, htake, hdrop, hofWord, Option.map_some]
  · cases t with
    | string l =>
      refine ⟨'"', l.flatMap Piece.text ++ ['"'], rfl, by decide, ?_⟩
      rw [List.append_assoc, List.singleton_append]
      simp [first?, Literal.scan_legible ht]
    | null | bool | number => exact absurd rfl hword
    | _ => exact ⟨_, [], rfl, by decide, rfl⟩

/-! ### Texts of tokens -/

/-- Nothing but white space. -/
def Blank (space : List Char) : Prop := ∀ c ∈ space, isSpace c = true

theorem scanOnto_blank {space : List Char} (hspace : Blank space)
    (found : List Token) (r : List Char) : scanOnto found (space ++ r) = scanOnto found r := by
  induction space with
  | nil => rfl
  | cons c cs ih =>
    rw [List.cons_append, scanOnto, if_pos (hspace c List.mem_cons_self),
      ih fun d hd => hspace d (List.mem_cons_of_mem c hd)]

theorem scanOnto_text {t : Token} (ht : t.Legible) (found : List Token) {r : List Char}
    (hr : t.isWord = true → ∀ c ∈ r.head?, isWordChar c = false) :
    scanOnto found (t.text ++ r) = scanOnto (t :: found) r := by
  obtain ⟨c, cs, htext, hspace, hfirst⟩ := first?_text ht hr
  rw [htext, List.cons_append, scanOnto, if_neg (by rw [hspace]; decide)]
  split
  · rename_i hnone
    rw [hfirst] at hnone
    cases hnone
  · rename_i u hsome
    rw [hfirst] at hsome
    cases hsome
    rfl

theorem head_spaced {s : Spaced} (hspace : Blank s.space)
    (hword : s.token.isWord = false) (r : List Char) :
    ∀ c ∈ (s.text ++ r).head?, isWordChar c = false := by
  intro c hc
  cases hs : s.space with
  | cons d ds =>
    have hd : isSpace d = true := hspace d (by rw [hs]; exact List.mem_cons_self)
    rw [Spaced.text, hs] at hc
    cases hc
    by_contra hchar
    rw [(of_isWordChar (by simpa using hchar)).2.2] at hd
    cases hd
  | nil =>
    rw [Spaced.text, hs] at hc
    cases ht : s.token with
    | null | bool | number =>
      rw [ht] at hword
      cases hword
    | _ =>
      rw [ht] at hc
      cases hc
      decide

/-- Only white space stands between the tokens, and no word beside another. -/
structure Separate (ss : List Spaced) : Prop where
  space : ∀ s ∈ ss, Blank s.space
  words : ss.IsChain fun a b => a.token.isWord = true → b.token.isWord = false

theorem scanOnto_spaced {ss : List Spaced} (hss : Separate ss)
    (hlegible : ∀ s ∈ ss, s.token.Legible) (found : List Token) :
    scanOnto found (ss.flatMap Spaced.text) = some (found.reverse ++ ss.map Spaced.token) := by
  induction ss generalizing found with
  | nil => simp [scanOnto]
  | cons s ss ih =>
    have htail : Separate ss :=
      ⟨fun t ht => hss.space t (List.mem_cons_of_mem s ht), hss.words.tail⟩
    have hnext : s.token.isWord = true →
        ∀ c ∈ (ss.flatMap Spaced.text).head?, isWordChar c = false := by
      intro hword
      cases ss with
      | nil => intro c hc; cases hc
      | cons t ts =>
        have hchain := List.isChain_cons_cons.mp hss.words
        rw [List.flatMap_cons]
        exact head_spaced (htail.space t List.mem_cons_self) (hchain.1 hword) _
    rw [List.flatMap_cons, Spaced.text, List.append_assoc,
      scanOnto_blank (hss.space s List.mem_cons_self),
      scanOnto_text (hlegible s List.mem_cons_self) found hnext,
      ih htail fun t ht => hlegible t (List.mem_cons_of_mem s ht)]
    simp

/-- **Legible tokens are scanned back**, with any white space between them. -/
theorem scan_spaced {ss : List Spaced} (hss : Separate ss)
    (hlegible : ∀ s ∈ ss, s.token.Legible) :
    scan (ss.flatMap Spaced.text) = some (ss.map Spaced.token) :=
  scanOnto_spaced hss hlegible []

end Token

end Dialogue.Json

import Dialogue.Proofs.Template.Tokens

/-!
# Rendering as substitution

Rendering puts values in the place of tokens, all at once: what comes out for a place of a text
depends on the tokens of the text only, never on what was put in (`Template.Substitution`). There
is one way to do so (`substitution_unique`), and rendering does it (`render_substitutes`). The proof
goes segment by segment, since no token crosses from one segment to the rest
(`Substitution.append`).
-/

namespace Dialogue.Template

open Segment

/-! ### What comes out for each place -/

/-- A token that stands for a text occurs at a place. -/
structure KnownAt (t : Template) (cs : List Char) (i : Nat) (name : List Char) (text : String) :
    Prop where
  token : TokenAt cs i name
  known : t.replacement? (String.ofList name) = some text

/-- What comes out for each place of a text: for a known token its value, all at the opening brace
and nothing at its other places, and for a place outside of known tokens the character there. -/
structure Substitution (t : Template) (cs : List Char) (image : List (List Char)) : Prop where
  length : image.length = cs.length
  value : ∀ {i name text}, t.KnownAt cs i name text → image[i]? = some text.toList
  dropped : ∀ {i name text j}, t.KnownAt cs i name text → i < j → j < i + name.length + 2 →
    image[j]? = some []
  kept : ∀ {j c}, cs[j]? = some c →
    (∀ i name text, t.KnownAt cs i name text → j < i ∨ i + name.length + 2 ≤ j) →
      image[j]? = some [c]

section

variable {t : Template} {cs xs ys : List Char} {image as bs : List (List Char)}

theorem substitution_unique (ha : t.Substitution cs as) (hb : t.Substitution cs bs) : as = bs := by
  refine List.ext_getElem? fun j => ?_
  by_cases hcovered : ∃ i name text, t.KnownAt cs i name text ∧ i ≤ j ∧ j < i + name.length + 2
  · obtain ⟨i, name, text, hknown, hij, hj⟩ := hcovered
    rcases Nat.lt_or_eq_of_le hij with hij | rfl
    · rw [ha.dropped hknown hij hj, hb.dropped hknown hij hj]
    · rw [ha.value hknown, hb.value hknown]
  · cases hc : cs[j]? with
    | none =>
      have hlen := List.getElem?_eq_none_iff.mp hc
      rw [List.getElem?_eq_none (ha.length ▸ hlen), List.getElem?_eq_none (hb.length ▸ hlen)]
    | some c =>
      have houtside : ∀ i name text, t.KnownAt cs i name text →
          j < i ∨ i + name.length + 2 ≤ j := by
        intro i name text hknown
        by_contra hinside
        exact hcovered ⟨i, name, text, hknown, by omega, by omega⟩
      rw [ha.kept hc houtside, hb.kept hc houtside]

/-! ### Texts in two parts -/

theorem knownAt_shift (i : Nat) (name : List Char) (text : String) :
    t.KnownAt (xs ++ ys) (xs.length + i) name text ↔ t.KnownAt ys i name text :=
  ⟨fun h => ⟨(tokenAt_shift xs ys i name).mp h.token, h.known⟩,
    fun h => ⟨(tokenAt_shift xs ys i name).mpr h.token, h.known⟩⟩

theorem KnownAt.part {i : Nat} {name : List Char} {text : String}
    (h : t.KnownAt (xs ++ ys) i name text) (hparts : Uncrossed xs ys) :
    (i + name.length + 2 ≤ xs.length ∧ t.KnownAt xs i name text) ∨
      ∃ k, i = xs.length + k ∧ t.KnownAt ys k name text := by
  by_cases hi : i < xs.length
  · have hle := hparts i name h.token hi
    exact .inl ⟨hle, h.token.of_append hle, h.known⟩
  · obtain ⟨k, rfl⟩ : ∃ k, i = xs.length + k := ⟨i - xs.length, by omega⟩
    exact .inr ⟨k, rfl, (knownAt_shift k name text).mp h⟩

theorem Substitution.append (hx : t.Substitution xs as) (hy : t.Substitution ys bs)
    (hparts : Uncrossed xs ys) : t.Substitution (xs ++ ys) (as ++ bs) where
  length := by rw [List.length_append, List.length_append, hx.length, hy.length]
  value {i name text} h := by
    rcases h.part hparts with ⟨hle, hpart⟩ | ⟨k, rfl, hpart⟩
    · rw [List.getElem?_append_left (by rw [hx.length]; omega)]
      exact hx.value hpart
    · rw [← hx.length, List.getElem?_append_right (by omega), Nat.add_sub_cancel_left]
      exact hy.value hpart
  dropped {i name text j} h hij hj := by
    rcases h.part hparts with ⟨hle, hpart⟩ | ⟨k, rfl, hpart⟩
    · rw [List.getElem?_append_left (by rw [hx.length]; omega)]
      exact hx.dropped hpart hij hj
    · rw [List.getElem?_append_right (by rw [hx.length]; omega), hx.length]
      exact hy.dropped hpart (by omega) (by omega)
  kept {j c} hc houtside := by
    by_cases hj : j < xs.length
    · rw [List.getElem?_append_left hj] at hc
      rw [List.getElem?_append_left (by rwa [hx.length])]
      refine hx.kept hc fun i name text h => houtside i name text ?_
      exact ⟨h.token.append ys, h.known⟩
    · rw [List.getElem?_append_right (by omega)] at hc
      rw [List.getElem?_append_right (by rw [hx.length]; omega), hx.length]
      refine hy.kept hc fun i name text h => ?_
      have hplace := houtside (xs.length + i) name text ((knownAt_shift i name text).mpr h)
      omega

theorem substitution_of_unknown (h : ∀ i name text, ¬ t.KnownAt cs i name text) :
    t.Substitution cs (cs.map fun c => [c]) where
  length := List.length_map _
  value hknown := absurd hknown (h _ _ _)
  dropped hknown := absurd hknown (h _ _ _)
  kept hc _ := by rw [List.getElem?_map, hc, Option.map_some]

/-! ### Segments -/

/-- What comes out for each place of a segment. -/
def images (t : Template) : Segment → List (List Char)
  | .plain c => [[c]]
  | .token name =>
    match t.replacement? (String.ofList name) with
    | some text => text.toList :: List.replicate (name.length + 1) []
    | none => (Segment.token name).source.map fun c => [c]

theorem flatten_images (t : Template) (s : Segment) : (t.images s).flatten = t.expand s := by
  cases s with
  | plain c => rfl
  | token name =>
    simp only [images, expand]
    cases t.replacement? (String.ofList name) with
    | none => rw [← List.flatMap_def, List.flatMap_singleton']
    | some text => simp

theorem substitution_plain (t : Template) (c : Char) :
    t.Substitution [c] (t.images (.plain c)) := by
  refine substitution_of_unknown fun i name text h => ?_
  have hle := h.token.length_le
  rw [List.length_singleton] at hle
  omega

theorem substitution_token (t : Template) {name : List Char} (h : Bare name) :
    t.Substitution (Segment.token name).source (t.images (.token name)) := by
  rw [images]
  split
  · rename_i text hknown
    have hname : ∀ {i name' text'}, t.KnownAt (Segment.token name).source i name' text' →
        i = 0 ∧ name' = name ∧ text' = text := by
      intro i name' text' h'
      obtain ⟨rfl, rfl⟩ := TokenAt.of_source h h'.token
      exact ⟨rfl, rfl, Option.some.inj (h'.known.symm.trans hknown)⟩
    have hwhole : t.KnownAt (Segment.token name).source 0 name text :=
      ⟨by simpa using tokenAt_token h [], hknown⟩
    refine ⟨?_, fun h' => ?_, fun h' hij hj => ?_, fun hc houtside => ?_⟩
    · rw [length_source_token, List.length_cons, List.length_replicate]
    · obtain ⟨rfl, rfl, rfl⟩ := hname h'
      rfl
    · obtain ⟨rfl, rfl, rfl⟩ := hname h'
      rw [List.getElem?_cons, if_neg (by omega), List.getElem?_replicate, if_pos (by omega)]
    · -- every place is in the token
      obtain ⟨hj, -⟩ := List.getElem?_eq_some_iff.mp hc
      rw [length_source_token] at hj
      have hplace := houtside 0 name text hwhole
      omega
  · rename_i hunknown
    refine substitution_of_unknown fun i name' text h' => ?_
    obtain ⟨rfl, rfl⟩ := TokenAt.of_source h h'.token
    exact absurd h'.known (by rw [hunknown]; simp)

/-- **The segments of a text give its substitution.** -/
theorem substitution_segments (t : Template) (cs : List Char) :
    t.Substitution cs ((ofChars cs).flatMap t.images) := by
  induction cs using segments_induction with
  | nil =>
    rw [ofChars, List.flatMap_nil]
    refine substitution_of_unknown fun i name text h => ?_
    have hle := h.token.length_le
    rw [List.length_nil] at hle
    omega
  | token name rest hbare ih =>
    rw [ofChars_token hbare, List.flatMap_cons]
    exact (t.substitution_token hbare).append ih (uncrossed_token hbare rest)
  | plain c cs hnone ih =>
    rw [ofChars_plain hnone, List.flatMap_cons]
    exact (t.substitution_plain c).append ih (uncrossed_plain hnone)

end

/-! ### Rendering -/

/-- The characters that characters render as. -/
def rendered (t : Template) (cs : List Char) : List Char := (ofChars cs).flatMap t.expand

theorem toList_render (t : Template) (text : String) :
    (t.render text).toList = t.rendered text.toList :=
  String.toList_ofList

theorem Substitution.rendered {t : Template} {cs : List Char} {image : List (List Char)}
    (h : t.Substitution cs image) : t.rendered cs = image.flatten := by
  rw [substitution_unique h (t.substitution_segments cs)]
  show (ofChars cs).flatMap t.expand = _
  induction ofChars cs with
  | nil => rfl
  | cons s segments ih =>
    rw [List.flatMap_cons, List.flatMap_cons, List.flatten_append, ← ih, flatten_images]

/-- **Rendering is simultaneous substitution.** The tokens of a text do not overlap. They leave one
way to put values in their place, all at once, and keep every other character, and rendering is what
comes out for the places of the text in their order. -/
theorem render_substitutes (t : Template) (text : String) :
    (∀ i j name name', TokenAt text.toList i name → TokenAt text.toList j name' →
      (i = j ∧ name = name') ∨ i + name.length + 2 ≤ j ∨ j + name'.length + 2 ≤ i) ∧
    (∃! image, t.Substitution text.toList image) ∧
    ∀ image, t.Substitution text.toList image → (t.render text).toList = image.flatten := by
  have himages := t.substitution_segments text.toList
  refine ⟨fun i j name name' h h' => h.disjoint h', ⟨_, himages, fun image h => ?_⟩,
    fun image h => ?_⟩
  · exact substitution_unique h himages
  · rw [toList_render, h.rendered]

end Dialogue.Template

import Dialogue.Proofs.Graph.Building
import Dialogue.Proofs.Story.Live
import Dialogue.Proofs.Template.Substitution

/-!
# Rendering twice

Where no value has a brace, a text renders as itself just if no known token occurs in it
(`rendered_eq_self_iff`), since putting in a value takes away two braces. So a second rendering
changes nothing unless the first one forms a known token, and it forms one only from braces around
other tokens: an opening brace, a text with known tokens and no other braces, and a closing brace
(`exists_knownAt_rendered_iff`). `render_twice_iff` says this of the template of a graph, and
`second_rendering_shows_more` has such braces.
-/

namespace Dialogue.Template

open Segment

theorem rendered_append (t : Template) {xs ys : List Char} (h : Uncrossed xs ys) :
    t.rendered (xs ++ ys) = t.rendered xs ++ t.rendered ys := by
  rw [rendered, ofChars_append h, List.flatMap_append]
  rfl

theorem rendered_plain (t : Template) {c : Char} {cs : List Char}
    (h : ∀ name, ¬ TokenAt (c :: cs) 0 name) : t.rendered (c :: cs) = c :: t.rendered cs := by
  rw [rendered, ofChars_plain h, List.flatMap_cons]
  rfl

/-- No value that is put in has a brace. -/
def BareValues (t : Template) : Prop :=
  ∀ name text, t.replacement? name = some text → Bare text.toList

section

variable {t : Template} {cs : List Char}

/-! ### Texts that render as themselves -/

theorem rendered_eq_self (h : ∀ i name text, ¬ t.KnownAt cs i name text) : t.rendered cs = cs := by
  rw [(substitution_of_unknown h).rendered, ← List.flatMap_def, List.flatMap_singleton']

theorem braces_of_bare {xs : List Char} (h : Bare xs) : xs.countP isBrace = 0 :=
  List.countP_eq_zero.mpr fun c hc => by simp [h c hc]

theorem braces_expand_le (ht : t.BareValues) (s : Segment) :
    (t.expand s).countP isBrace ≤ s.source.countP isBrace := by
  cases s with
  | plain c => exact Nat.le_refl _
  | token name =>
    rw [expand]
    split
    · rename_i text hknown
      rw [braces_of_bare (ht _ text hknown)]
      exact Nat.zero_le _
    · exact Nat.le_refl _

theorem braces_rendered_le (ht : t.BareValues) (cs : List Char) :
    (t.rendered cs).countP isBrace ≤ cs.countP isBrace := by
  conv => rhs; rw [← source_ofChars cs]
  rw [rendered]
  induction ofChars cs with
  | nil => exact Nat.le_refl _
  | cons s segments ih =>
    rw [List.flatMap_cons, List.flatMap_cons, List.countP_append, List.countP_append]
    exact Nat.add_le_add (braces_expand_le ht s) ih

theorem braces_rendered_lt (ht : t.BareValues) {i : Nat} {name : List Char} {text : String}
    (h : t.KnownAt cs i name text) : (t.rendered cs).countP isBrace < cs.countP isBrace := by
  obtain ⟨before, after, hcs, hsegments⟩ := ofChars_of_tokenAt h.token
  have hrendered : t.rendered cs = t.rendered before ++ (text.toList ++ t.rendered after) := by
    rw [rendered, hsegments, List.flatMap_append, List.flatMap_cons, expand, h.known]
    rfl
  have hzero := braces_of_bare (ht _ text h.known)
  have htoken : (Segment.token name).source.countP isBrace = name.countP isBrace + 2 := by
    rw [source, List.countP_cons, List.countP_append]
    rfl
  have hbefore := braces_rendered_le ht before
  have hafter := braces_rendered_le ht after
  rw [hrendered, hcs]
  simp only [List.countP_append]
  omega

/-- **A text renders as itself just if no known token occurs in it.** -/
theorem rendered_eq_self_iff (ht : t.BareValues) :
    t.rendered cs = cs ↔ ∀ i name text, ¬ t.KnownAt cs i name text := by
  refine ⟨fun hself i name text hknown => ?_, rendered_eq_self⟩
  have hlt := braces_rendered_lt ht hknown
  rw [hself] at hlt
  exact Nat.lt_irrefl _ hlt

/-! ### Known tokens in a rendering -/

theorem flatMap_eq_append_cons {α β : Type} {f : α → List β} {b : β} {xs ys : List β} {l : List α}
    (h : l.flatMap f = xs ++ b :: ys) : ∃ l₁ a l₂ us vs, l = l₁ ++ a :: l₂ ∧
      f a = us ++ b :: vs ∧ xs = l₁.flatMap f ++ us ∧ ys = vs ++ l₂.flatMap f := by
  obtain ⟨parts₁, us, vs, parts₂, hparts, hxs, hys⟩ : ∃ parts₁ us vs parts₂,
      l.map f = parts₁ ++ (us ++ b :: vs) :: parts₂ ∧ xs = parts₁.flatten ++ us ∧
        ys = vs ++ parts₂.flatten := by
    rw [List.flatMap_def, List.flatten_eq_append_iff] at h
    obtain ⟨parts₁, rest, hl, hxs, hrest⟩ | ⟨parts₁, us, c, vs, parts₂, hl, hxs, hys⟩ := h
    · -- the parts passed over before the character are empty
      obtain ⟨empties, vs, parts₂, rfl, hempty, hys⟩ := List.flatten_eq_cons_iff.mp hrest.symm
      refine ⟨parts₁ ++ empties, [], vs, parts₂, by simp [hl], ?_, hys⟩
      rw [hxs, List.flatten_append, List.flatten_eq_nil_iff.mpr hempty]
      simp
    · obtain ⟨rfl, rfl⟩ := List.cons.inj hys
      exact ⟨parts₁, us, vs, parts₂, hl, hxs, rfl⟩
  obtain ⟨l₁, rest, rfl, rfl, hrest⟩ := List.map_eq_append_iff.mp hparts
  obtain ⟨a, l₂, rfl, ha, rfl⟩ := List.map_eq_cons_iff.mp hrest
  exact ⟨l₁, a, l₂, us, vs, rfl, ha, hxs, hys⟩

/-- Braces in a text that come to hold a name: the text between them has a brace itself, and renders
as the name, which has none. -/
def Holds (t : Template) (cs : List Char) (name : List Char) : Prop :=
  ∃ before inner after, cs = before ++ '\x7b' :: (inner ++ '\x7d' :: after) ∧ ¬ Bare inner ∧
    Bare name ∧ t.rendered inner = name

theorem uncrossed_of_bare_rendered {xs : List Char} (ys : List Char) :
    Bare (t.rendered xs) → Uncrossed xs ys := by
  induction xs using segments_induction with
  | nil => exact fun _ i name _ hi => absurd hi (Nat.not_lt_zero _)
  | token name rest hbare ih =>
    intro h
    rw [t.rendered_append (uncrossed_token hbare rest), bare_append] at h
    exact (uncrossed_token hbare (rest ++ ys)).append (ih h.2)
  | plain c cs hnone ih =>
    intro h
    rw [t.rendered_plain hnone, bare_cons] at h
    have hfirst : Uncrossed [c] (cs ++ ys) := uncrossed_bare (bare_cons.mpr ⟨h.1, bare_nil⟩) _
    exact hfirst.append (ih h.2)

theorem not_tokenAt_around {inner after : List Char} (hinner : ¬ Bare inner)
    (h : Bare (t.rendered inner)) (name : List Char) :
    ¬ TokenAt ('\x7b' :: (inner ++ '\x7d' :: after)) 0 name := by
  rintro ⟨hname, rest, hrest⟩
  have hsame : name ++ '\x7d' :: rest = inner ++ '\x7d' :: after := by
    simpa [source] using hrest
  rcases List.append_eq_append_iff.mp hsame with ⟨zs, hzs, hafter⟩ | ⟨zs, hzs, -⟩
  · cases zs with
    | nil => exact hinner (by simpa [hzs] using hname)
    | cons z zs =>
      -- the closing brace after the name is inside, and stays where it is
      obtain ⟨rfl, -⟩ := List.cons.inj hafter
      have hclose : ∀ name, ¬ TokenAt ('\x7d' :: zs) 0 name := fun name htoken =>
        absurd htoken.head_eq (by decide)
      rw [hzs, t.rendered_append (uncrossed_bare hname _), t.rendered_plain hclose, bare_append,
        bare_cons] at h
      exact absurd h.2.1 (by decide)
  · exact hinner (bare_append.mp (hzs ▸ hname)).1

theorem rendered_around {before inner after : List Char} (hinner : ¬ Bare inner)
    (h : Bare (t.rendered inner)) :
    t.rendered (before ++ '\x7b' :: (inner ++ '\x7d' :: after)) =
      t.rendered before ++ '\x7b' :: (t.rendered inner ++ '\x7d' :: t.rendered after) := by
  have hclose : ∀ name, ¬ TokenAt ('\x7d' :: after) 0 name := fun name htoken =>
    absurd htoken.head_eq (by decide)
  rw [t.rendered_append (uncrossed_open _ _), t.rendered_plain (not_tokenAt_around hinner h),
    t.rendered_append (uncrossed_of_bare_rendered _ h), t.rendered_plain hclose]

theorem expand_brace (ht : t.BareValues) {s : Segment} {c : Char} {us vs : List Char}
    (hc : isBrace c = true) (h : t.expand s = us ++ c :: vs) :
    (s = .plain c ∧ us = [] ∧ vs = []) ∨
      ∃ name, s = .token name ∧ t.replacement? (String.ofList name) = none ∧
        us ++ c :: vs = '\x7b' :: (name ++ ['\x7d']) := by
  cases s with
  | plain c' =>
    obtain ⟨rfl, hsame⟩ | ⟨-, hsame⟩ := List.append_eq_singleton_iff.mp h.symm
    · obtain ⟨rfl, rfl⟩ := List.cons.inj hsame
      exact .inl ⟨rfl, rfl, rfl⟩
    · cases hsame
  | token name =>
    rw [expand] at h
    split at h
    · rename_i text hknown
      have hbare := bare_append.mp (h ▸ ht _ text hknown)
      have hc' := (bare_cons.mp hbare.2).1
      rw [hc] at hc'
      cases hc'
    · rename_i hunknown
      exact .inr ⟨name, rfl, hunknown, h.symm⟩

theorem expand_opens (ht : t.BareValues) {s : Segment} {us vs : List Char}
    (hname : ∀ name, s = .token name → Bare name) (h : t.expand s = us ++ '\x7b' :: vs) :
    (s = .plain '\x7b' ∧ vs = []) ∨ ∃ name, s = .token name ∧
      t.replacement? (String.ofList name) = none ∧ vs = name ++ ['\x7d'] := by
  obtain ⟨hs, -, hvs⟩ | ⟨name, hs, hunknown, hsource⟩ := expand_brace ht (by decide) h
  · exact .inl ⟨hs, hvs⟩
  · refine .inr ⟨name, hs, hunknown, ?_⟩
    cases us with
    | nil => exact (List.cons.inj hsource).2
    | cons u us =>
      have hmem : '\x7b' ∈ name ++ ['\x7d'] := by
        rw [← (List.cons.inj hsource).2]
        exact List.mem_append_right _ List.mem_cons_self
      rcases List.mem_append.mp hmem with hmem | hmem
      · exact absurd (hname name hs _ hmem) (by decide)
      · simp at hmem

theorem expand_closes (ht : t.BareValues) {s : Segment} {us vs : List Char} (hus : Bare us)
    (h : t.expand s = us ++ '\x7d' :: vs) : s = .plain '\x7d' ∧ us = [] ∧ vs = [] := by
  obtain hplain | ⟨name, -, -, hsource⟩ := expand_brace ht (by decide) h
  · exact hplain
  · cases us with
    | nil => exact absurd (List.cons.inj hsource).1 (by decide)
    | cons u us =>
      obtain ⟨rfl, -⟩ := List.cons.inj hsource
      exact absurd (bare_cons.mp hus).1 (by decide)

/-- Single braces around segments that render without braces hold what these render as. -/
theorem holds_of_segments {l₁ m l₃ : List Segment}
    (hcut : ofChars cs = l₁ ++ .plain '\x7b' :: (m ++ .plain '\x7d' :: l₃))
    (hm : Bare (m.flatMap t.expand)) : t.Holds cs (m.flatMap t.expand) := by
  have hbareNames : ∀ name, Segment.token name ∈ m → Bare name := by
    intro name hmem
    have hwhole : Segment.token name ∈ ofChars cs := by simp [hcut, hmem]
    exact bare_of_mem_ofChars hwhole
  have hopen : Segment.plain '\x7b' ∉ m := by
    intro hmem
    have hbrace : '\x7b' ∈ m.flatMap t.expand :=
      List.mem_flatMap.mpr ⟨_, hmem, List.mem_singleton_self _⟩
    exact absurd (hm _ hbrace) (by decide)
  refine ⟨l₁.flatMap source, m.flatMap source, l₃.flatMap source, ?_, fun hinner => ?_, hm, ?_⟩
  · rw [← source_ofChars cs, hcut]
    simp [source]
  · -- without a brace inside, the braces would be a token
    have hsuffix := ofChars_suffix hcut
    have htext : (Segment.plain '\x7b' :: (m ++ .plain '\x7d' :: l₃)).flatMap source =
        (Segment.token (m.flatMap source)).source ++ l₃.flatMap source := by
      simp [source]
    rw [htext, ofChars_token hinner] at hsuffix
    cases hsuffix
  · rw [rendered, ofChars_source hopen hbareNames]

/-- **A known token occurs in a rendering just if braces come to hold its name.** -/
theorem exists_knownAt_rendered_iff (ht : t.BareValues) :
    (∃ i name text, t.KnownAt (t.rendered cs) i name text) ↔
      ∃ name text, t.Holds cs name ∧ t.replacement? (String.ofList name) = some text := by
  constructor
  · rintro ⟨i, name, text, ⟨hbare, rest, hrest⟩, hknown⟩
    have hbareNames : ∀ name, Segment.token name ∈ ofChars cs → Bare name :=
      fun name => bare_of_mem_ofChars
    have hrendered : (ofChars cs).flatMap t.expand =
        (t.rendered cs).take i ++ '\x7b' :: (name ++ '\x7d' :: rest) := by
      have hopen : '\x7b' :: (name ++ '\x7d' :: rest) = (t.rendered cs).drop i := by
        simpa [source] using hrest
      rw [hopen, List.take_append_drop]
      rfl
    obtain ⟨l₁, s, l₂, us, vs, hl, hs, -, hafter⟩ := flatMap_eq_append_cons hrendered
    obtain ⟨rfl, rfl⟩ | ⟨name', rfl, hunknown, rfl⟩ :=
      expand_opens ht (fun name hname => hbareNames name (by simp [hl, hname])) hs
    · obtain ⟨m, s', l₃, us', vs', rfl, hs', hname, -⟩ := flatMap_eq_append_cons hafter.symm
      obtain ⟨rfl, rfl, rfl⟩ := expand_closes ht (bare_append.mp (hname ▸ hbare)).2 hs'
      rw [List.append_nil] at hname
      rw [hname] at hbare hknown
      exact ⟨_, text, holds_of_segments hl hbare, hknown⟩
    · -- an unknown token stays unknown
      have hsame : name ++ '\x7d' :: rest = name' ++ '\x7d' :: l₂.flatMap t.expand := by
        simpa using hafter
      obtain ⟨rfl, -⟩ := bare_cut hbare (hbareNames name' (by simp [hl])) hsame
      rw [hunknown] at hknown
      cases hknown
  · rintro ⟨name, text, ⟨before, inner, after, rfl, hinner, hbare, rfl⟩, hknown⟩
    refine ⟨(t.rendered before).length, t.rendered inner, text, ⟨hbare, ?_⟩, hknown⟩
    rw [rendered_around hinner hbare, List.drop_left]
    exact ⟨t.rendered after, by simp [source]⟩

end

/-! ### Templates of graphs -/

theorem replacement?_ofGraph (g : Graph) (name : String) :
    (ofGraph g).replacement? name = g.shown? name := by
  rw [replacement?, replacements_ofGraph, lookup_replacements]
  rfl

theorem exists_replacement?_iff {g : Graph} {name : String} :
    (∃ text, (ofGraph g).replacement? name = some text) ↔ ∃ p ∈ g.properties, p.name = name := by
  rw [replacement?_ofGraph, ← Option.isSome_iff_exists, Graph.shown?, Option.isSome_map,
    List.find?_isSome]
  simp

theorem bareValues_ofGraph {g : Graph} (h : ∀ p ∈ g.properties, Bare p.value.display.toList) :
    (ofGraph g).BareValues := by
  intro name text hknown
  rw [replacement?_ofGraph, Graph.shown?, Option.map_eq_some_iff] at hknown
  obtain ⟨p, hp, rfl⟩ := hknown
  exact h p (List.mem_of_find?_eq_some hp)

/-- **When a second rendering changes nothing.** Where no displayed value of a graph has a brace,
the template of the graph renders a rendered text as itself, unless the text has braces around
tokens that come to hold the name of a property: the text between the braces has a brace, is
rendered without one, and is rendered as the name. -/
theorem render_twice_iff {g : Graph} (hvalues : ∀ p ∈ g.properties, Bare p.value.display.toList)
    (text : String) :
    (ofGraph g).render ((ofGraph g).render text) = (ofGraph g).render text ↔
      ¬ ∃ before inner after : String, text = before ++ "\x7b" ++ inner ++ "\x7d" ++ after ∧
        ¬ Bare inner.toList ∧ Bare ((ofGraph g).render inner).toList ∧
        ∃ p ∈ g.properties, p.name = (ofGraph g).render inner := by
  have ht := bareValues_ofGraph hvalues
  have hself : (ofGraph g).render ((ofGraph g).render text) = (ofGraph g).render text ↔
      (ofGraph g).rendered ((ofGraph g).rendered text.toList) =
        (ofGraph g).rendered text.toList := by
    rw [← String.toList_inj, toList_render, toList_render]
  rw [hself, rendered_eq_self_iff ht]
  simp only [← not_exists, exists_knownAt_rendered_iff ht]
  refine not_congr ⟨?_, ?_⟩
  · rintro ⟨name, value, ⟨before, inner, after, htext, hinner, hbare, rfl⟩, hknown⟩
    refine ⟨String.ofList before, String.ofList inner, String.ofList after, ?_, ?_, ?_, ?_⟩
    · rw [← String.toList_inj, htext]
      simp
    · rwa [String.toList_ofList]
    · rwa [toList_render, String.toList_ofList]
    · rw [render, String.toList_ofList]
      exact exists_replacement?_iff.mp ⟨value, hknown⟩
  · rintro ⟨before, inner, after, rfl, hinner, hbare, hname⟩
    rw [toList_render] at hbare
    obtain ⟨value, hknown⟩ := exists_replacement?_iff.mpr hname
    refine ⟨_, value, ⟨before.toList, inner.toList, after.toList, ?_, hinner, hbare, rfl⟩, hknown⟩
    simp

/-- A text that names another property. -/
def masquerade : Graph :=
  (Graph.new ⟨24⟩ ⟨"start"⟩).edited
    [.property ⟨⟨"p1"⟩, "mask", .string "guest"⟩, .property ⟨⟨"p2"⟩, "guest", .string "Ava"⟩]

/-- Braces around the guest come to hold no name. -/
theorem render_twice_iff_masquerade :
    (∀ p ∈ masquerade.properties, Bare p.value.display.toList) ∧
      (ofGraph masquerade).render "\x7b\x7bguest\x7d\x7d" = "\x7bAva\x7d" ∧
      ¬ ∃ before inner after : String,
        "\x7b\x7bguest\x7d\x7d" = before ++ "\x7b" ++ inner ++ "\x7d" ++ after ∧
          ¬ Bare inner.toList ∧ Bare ((ofGraph masquerade).render inner).toList ∧
          ∃ p ∈ masquerade.properties, p.name = (ofGraph masquerade).render inner := by
  have hvalues : ∀ p ∈ masquerade.properties, Bare p.value.display.toList := by decide +kernel
  refine ⟨hvalues, by decide +kernel, (render_twice_iff hvalues _).mp ?_⟩
  decide +kernel

/-- Braces around the mask come to hold the guest, whom the second rendering shows. -/
theorem second_rendering_shows_more :
    (∀ p ∈ masquerade.properties, Bare p.value.display.toList) ∧
      (ofGraph masquerade).render "\x7b\x7bmask\x7d\x7d" = "\x7bguest\x7d" ∧
      (ofGraph masquerade).render ((ofGraph masquerade).render "\x7b\x7bmask\x7d\x7d") ≠
        (ofGraph masquerade).render "\x7b\x7bmask\x7d\x7d" :=
  ⟨by decide +kernel, by decide +kernel, by decide +kernel⟩

end Dialogue.Template

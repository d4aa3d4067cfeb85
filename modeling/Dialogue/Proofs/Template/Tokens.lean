import Dialogue.Template
import Mathlib.Data.List.TakeWhile

/-!
# Where tokens stand

A token occurs at a place of a text if an opening brace stands there, then a name without braces and
a closing brace (`TokenAt`). Occurrences do not overlap (`TokenAt.disjoint`). Cutting a text into
segments finds exactly them: a text is cut off a token where one stands and off a single character
elsewhere (`ofChars_token`, `ofChars_plain`), and `segments_induction` goes through a text this way.
-/

namespace Dialogue

open Segment

/-! ### Names -/

/-- No brace is among the characters. -/
def Bare (cs : List Char) : Prop := ∀ c ∈ cs, isBrace c = false

instance (cs : List Char) : Decidable (Bare cs) :=
  List.decidableBAll (fun c => isBrace c = false) cs

theorem bare_cons {c : Char} {cs : List Char} : Bare (c :: cs) ↔ isBrace c = false ∧ Bare cs :=
  List.forall_mem_cons

theorem bare_nil : Bare [] := fun _ h => absurd h List.not_mem_nil

theorem bare_append {xs ys : List Char} : Bare (xs ++ ys) ↔ Bare xs ∧ Bare ys :=
  List.forall_mem_append

theorem bare_cut {xs xs' ys ys' : List Char} (hxs : Bare xs) (hxs' : Bare xs')
    (h : xs ++ '\x7d' :: ys = xs' ++ '\x7d' :: ys') : xs = xs' ∧ ys = ys' := by
  induction xs generalizing xs' with
  | nil =>
    cases xs' with
    | nil => exact ⟨rfl, (List.cons.inj h).2⟩
    | cons c xs' =>
      obtain ⟨rfl, -⟩ := List.cons.inj h
      exact absurd (bare_cons.mp hxs').1 (by decide)
  | cons c xs ih =>
    cases xs' with
    | nil =>
      obtain ⟨rfl, -⟩ := List.cons.inj h
      exact absurd (bare_cons.mp hxs).1 (by decide)
    | cons c' xs' =>
      obtain ⟨rfl, hrest⟩ := List.cons.inj h
      obtain ⟨rfl, rfl⟩ := ih (bare_cons.mp hxs).2 (bare_cons.mp hxs').2 hrest
      exact ⟨rfl, rfl⟩

namespace Segment

theorem name?_token {name : List Char} (h : Bare name) (rest : List Char) :
    name? (name ++ '\x7d' :: rest) = some (name, rest) := by
  have hall : ∀ c ∈ name, (!isBrace c) = true := fun c hc => by simp [h c hc]
  have hstop : ¬ (!isBrace '\x7d') = true := by decide
  have hdrop : (name ++ '\x7d' :: rest).dropWhile (fun c => !isBrace c) = '\x7d' :: rest := by
    rw [List.dropWhile_append_of_pos hall]
    exact List.dropWhile_cons_of_neg hstop
  have htake : (name ++ '\x7d' :: rest).takeWhile (fun c => !isBrace c) = name := by
    rw [List.takeWhile_append_of_pos hall,
      List.takeWhile_cons_of_neg (p := fun c => !isBrace c) hstop, List.append_nil]
  rw [name?, hdrop, htake]
  rfl

theorem eq_of_name? {cs name rest : List Char} (h : name? cs = some (name, rest)) :
    Bare name ∧ cs = name ++ '\x7d' :: rest := by
  unfold name? at h
  split at h
  · rename_i rest' hdrop
    cases h
    refine ⟨fun c hc => ?_, ?_⟩
    · simpa using List.mem_takeWhile_imp hc
    · rw [← hdrop, List.takeWhile_append_dropWhile]
  · cases h

end Segment

/-! ### Occurrences -/

/-- A token of the name occurs at a place of a text. -/
structure TokenAt (cs : List Char) (i : Nat) (name : List Char) : Prop where
  bare : Bare name
  stands : (token name).source <+: cs.drop i

theorem length_source_token (name : List Char) : (token name).source.length = name.length + 2 := by
  simp [source]

section

variable {cs xs ys name name' : List Char} {i j : Nat}

theorem tokenAt_shift (xs ys : List Char) (i : Nat) (name : List Char) :
    TokenAt (xs ++ ys) (xs.length + i) name ↔ TokenAt ys i name := by
  have hdrop : (xs ++ ys).drop (xs.length + i) = ys.drop i := by
    rw [List.drop_append]
    simp
  exact ⟨fun h => ⟨h.bare, hdrop ▸ h.stands⟩, fun h => ⟨h.bare, hdrop ▸ h.stands⟩⟩

theorem tokenAt_token (h : Bare name) (rest : List Char) :
    TokenAt ((token name).source ++ rest) 0 name :=
  ⟨h, List.prefix_append _ _⟩

namespace TokenAt

theorem getElem?_eq (h : TokenAt cs i name) {k : Nat} (hk : k < name.length + 2) :
    cs[i + k]? = (token name).source[k]? := by
  obtain ⟨rest, hrest⟩ := h.stands
  rw [← List.getElem?_drop, ← hrest, List.getElem?_append_left (by rwa [length_source_token])]

theorem opens (h : TokenAt cs i name) : cs[i]? = some '\x7b' :=
  h.getElem?_eq (Nat.zero_lt_succ _)

theorem length_le (h : TokenAt cs i name) : i + name.length + 2 ≤ cs.length := by
  have hlast := h.getElem?_eq (Nat.lt_succ_self (name.length + 1))
  have hsome : (token name).source[name.length + 1]? = some '\x7d' := by
    simp [source]
  obtain ⟨hlt, -⟩ := List.getElem?_eq_some_iff.mp (hlast.trans hsome)
  omega

theorem not_opens (h : TokenAt cs i name) (hij : i < j) (hj : j < i + name.length + 2) :
    cs[j]? ≠ some '\x7b' := by
  obtain ⟨k, rfl⟩ : ∃ k, j = i + (k + 1) := ⟨j - i - 1, by omega⟩
  rw [h.getElem?_eq (by omega), source, List.getElem?_cons_succ]
  intro hopen
  rcases List.mem_append.mp (List.mem_of_getElem? hopen) with hmem | hmem
  · exact absurd (h.bare _ hmem) (by decide)
  · simp at hmem

theorem name_eq (h : TokenAt cs i name) (h' : TokenAt cs i name') : name = name' := by
  obtain ⟨rest, hrest⟩ := h.stands
  obtain ⟨rest', hrest'⟩ := h'.stands
  have hsame : name ++ '\x7d' :: rest = name' ++ '\x7d' :: rest' := by
    simpa [source] using hrest.trans hrest'.symm
  exact (bare_cut h.bare h'.bare hsame).1

/-- **Occurrences of tokens do not overlap.** -/
theorem disjoint (h : TokenAt cs i name) (h' : TokenAt cs j name') :
    (i = j ∧ name = name') ∨ i + name.length + 2 ≤ j ∨ j + name'.length + 2 ≤ i := by
  rcases Nat.lt_trichotomy i j with hij | rfl | hij
  · refine .inr (.inl (Nat.not_lt.mp fun hj => ?_))
    exact h.not_opens hij hj h'.opens
  · exact .inl ⟨rfl, h.name_eq h'⟩
  · refine .inr (.inr (Nat.not_lt.mp fun hi => ?_))
    exact h'.not_opens hij hi h.opens

theorem head_eq {c : Char} (h : TokenAt (c :: cs) 0 name) : c = '\x7b' := by
  simpa using h.opens

theorem of_append (h : TokenAt (xs ++ ys) i name) (hi : i + name.length + 2 ≤ xs.length) :
    TokenAt xs i name := by
  refine ⟨h.bare, ?_⟩
  have hstands := h.stands
  rw [List.drop_append_of_le_length (by omega)] at hstands
  refine List.prefix_of_prefix_length_le hstands (List.prefix_append _ _) ?_
  rw [length_source_token, List.length_drop]
  omega

theorem of_source (h : Bare name) (h' : TokenAt (token name).source i name') :
    i = 0 ∧ name' = name := by
  have hwhole : TokenAt (token name).source 0 name := by simpa using tokenAt_token h []
  have hle := h'.length_le
  rw [length_source_token] at hle
  rcases hwhole.disjoint h' with ⟨rfl, rfl⟩ | hafter | hbefore
  · exact ⟨rfl, rfl⟩
  · omega
  · omega

theorem append (h : TokenAt xs i name) (ys : List Char) : TokenAt (xs ++ ys) i name := by
  refine ⟨h.bare, ?_⟩
  have hle := h.length_le
  rw [List.drop_append_of_le_length (by omega)]
  exact h.stands.trans (List.prefix_append _ _)

end TokenAt

end

/-! ### Cutting -/

namespace Segment

theorem ofChars_token {name : List Char} (h : Bare name) (rest : List Char) :
    ofChars ((token name).source ++ rest) = token name :: ofChars rest := by
  have htext : (token name).source ++ rest = '\x7b' :: (name ++ '\x7d' :: rest) := by simp [source]
  rw [htext, ofChars, if_pos rfl]
  split
  · rename_i t ht
    rw [name?_token h] at ht
    cases ht
    rfl
  · rename_i hnone
    rw [name?_token h] at hnone
    cases hnone

theorem ofChars_plain {c : Char} {cs : List Char} (h : ∀ name, ¬ TokenAt (c :: cs) 0 name) :
    ofChars (c :: cs) = plain c :: ofChars cs := by
  rw [ofChars]
  split
  · rename_i hopen
    subst hopen
    split
    · rename_i t ht
      obtain ⟨hbare, rfl⟩ := eq_of_name? ht
      refine absurd (tokenAt_token hbare t.2) ?_
      simpa [source] using h t.1
    · rfl
  · rfl

/-- A text is gone through by taking off the token that stands in front, or else one character. -/
@[elab_as_elim]
theorem segments_induction {motive : List Char → Prop} (nil : motive [])
    (token : ∀ name rest, Bare name → motive rest → motive ((Segment.token name).source ++ rest))
    (plain : ∀ c cs, (∀ name, ¬ TokenAt (c :: cs) 0 name) → motive cs → motive (c :: cs))
    (cs : List Char) : motive cs := by
  induction hn : cs.length using Nat.strongRecOn generalizing cs with
  | _ n ih =>
    cases cs with
    | nil => exact nil
    | cons c cs =>
      by_cases h : ∃ name, TokenAt (c :: cs) 0 name
      · obtain ⟨name, hbare, rest, hrest⟩ := h
        rw [List.drop_zero] at hrest
        rw [← hrest] at hn ⊢
        refine token name rest hbare (ih rest.length ?_ rest rfl)
        rw [List.length_append, length_source_token] at hn
        omega
      · refine plain c cs (not_exists.mp h) (ih cs.length ?_ cs rfl)
        rw [List.length_cons] at hn
        omega

theorem source_ofChars (cs : List Char) : (ofChars cs).flatMap source = cs := by
  induction cs using segments_induction with
  | nil => simp [ofChars]
  | token name rest hbare ih => rw [ofChars_token hbare, List.flatMap_cons, ih]
  | plain c cs hnone ih =>
    rw [ofChars_plain hnone, List.flatMap_cons, ih, source, List.singleton_append]

theorem bare_of_mem_ofChars {cs name : List Char} : token name ∈ ofChars cs → Bare name := by
  induction cs using segments_induction with
  | nil => simp [ofChars]
  | token name' rest hbare ih =>
    rw [ofChars_token hbare, List.mem_cons]
    rintro (hname | hmem)
    · cases hname
      exact hbare
    · exact ih hmem
  | plain c cs hnone ih =>
    rw [ofChars_plain hnone, List.mem_cons]
    rintro (hname | hmem)
    · cases hname
    · exact ih hmem

end Segment

/-! ### Texts in two parts -/

/-- No token begins in the first part of a text and ends in the second. -/
def Uncrossed (xs ys : List Char) : Prop :=
  ∀ i name, TokenAt (xs ++ ys) i name → i < xs.length → i + name.length + 2 ≤ xs.length

theorem Uncrossed.of_append {xs ys zs : List Char} (h : Uncrossed (xs ++ ys) zs) :
    Uncrossed ys zs := by
  intro i name htoken hi
  have hwhole : TokenAt (xs ++ ys ++ zs) (xs.length + i) name := by
    rw [List.append_assoc]
    exact (tokenAt_shift xs (ys ++ zs) i name).mpr htoken
  have hle := h (xs.length + i) name hwhole (by rw [List.length_append]; omega)
  rw [List.length_append] at hle
  omega

theorem uncrossed_plain {c : Char} {cs : List Char} (h : ∀ name, ¬ TokenAt (c :: cs) 0 name) :
    Uncrossed [c] cs := by
  intro i name htoken hi
  obtain rfl : i = 0 := by simpa using hi
  exact absurd htoken (h name)

theorem uncrossed_token {name : List Char} (h : Bare name) (rest : List Char) :
    Uncrossed (token name).source rest := by
  intro i name' htoken hi
  rw [length_source_token] at hi ⊢
  rcases (tokenAt_token h rest).disjoint htoken with ⟨rfl, rfl⟩ | hafter | hbefore
  · omega
  · omega
  · omega

theorem Uncrossed.append {xs ys zs : List Char} (hx : Uncrossed xs (ys ++ zs))
    (hy : Uncrossed ys zs) : Uncrossed (xs ++ ys) zs := by
  intro i name htoken hi
  rw [List.append_assoc] at htoken
  rw [List.length_append] at hi ⊢
  by_cases hfirst : i < xs.length
  · have hle := hx i name htoken hfirst
    omega
  · obtain ⟨k, rfl⟩ : ∃ k, i = xs.length + k := ⟨i - xs.length, by omega⟩
    have hle := hy k name ((tokenAt_shift xs (ys ++ zs) k name).mp htoken) (by omega)
    omega

theorem uncrossed_open (xs ys : List Char) : Uncrossed xs ('\x7b' :: ys) := by
  intro i name htoken hi
  refine Nat.not_lt.mp fun hlong => ?_
  refine htoken.not_opens hi hlong ?_
  rw [List.getElem?_append_right (Nat.le_refl _), Nat.sub_self, List.getElem?_cons_zero]

theorem uncrossed_bare {xs : List Char} (h : Bare xs) (ys : List Char) : Uncrossed xs ys := by
  intro i name htoken hi
  have hopen := htoken.opens
  rw [List.getElem?_append_left hi] at hopen
  exact absurd (h _ (List.mem_of_getElem? hopen)) (by decide)

theorem Segment.ofChars_append {xs ys : List Char} (h : Uncrossed xs ys) :
    ofChars (xs ++ ys) = ofChars xs ++ ofChars ys := by
  induction xs using segments_induction with
  | nil => simp [ofChars]
  | token name rest hbare ih =>
    rw [List.append_assoc, ofChars_token hbare, ofChars_token hbare, ih h.of_append,
      List.cons_append]
  | plain c cs hnone ih =>
    have hwhole : ∀ name, ¬ TokenAt (c :: (cs ++ ys)) 0 name := by
      intro name htoken
      have hle := h 0 name htoken (by simp)
      exact hnone name (@TokenAt.of_append (c :: cs) ys _ _ htoken hle)
    rw [List.cons_append, ofChars_plain hwhole, ofChars_plain hnone,
      ih (@Uncrossed.of_append [c] cs ys h), List.cons_append]

namespace Segment

theorem ofChars_of_tokenAt {cs name : List Char} {i : Nat} (h : TokenAt cs i name) :
    ∃ before after, cs = before ++ ((token name).source ++ after) ∧
      ofChars cs = ofChars before ++ token name :: ofChars after := by
  obtain ⟨after, hafter⟩ := h.stands
  have hcs : cs = cs.take i ++ ((token name).source ++ after) := by
    rw [hafter, List.take_append_drop]
  have hparts : Uncrossed (cs.take i) ((token name).source ++ after) := uncrossed_open _ _
  refine ⟨cs.take i, after, hcs, ?_⟩
  rw [← ofChars_token h.bare, ← ofChars_append hparts]
  exact congrArg ofChars hcs

theorem ofChars_suffix {segments rest : List Segment} {cs : List Char} :
    ofChars cs = segments ++ rest → ofChars (rest.flatMap source) = rest := by
  induction segments generalizing cs with
  | nil =>
    rintro rfl
    exact congrArg ofChars (source_ofChars cs)
  | cons s segments ih =>
    have htail : ∀ {cs' : List Char} {s' : Segment}, s' :: ofChars cs' = s :: (segments ++ rest) →
        ofChars (rest.flatMap source) = rest := fun h => ih (List.cons.inj h).2
    induction cs using segments_induction with
    | nil => simp [ofChars]
    | token name cs' hbare _ =>
      rw [ofChars_token hbare]
      exact htail
    | plain c cs' hnone _ =>
      rw [ofChars_plain hnone]
      exact htail

theorem ofChars_source {segments : List Segment} (hopen : plain '\x7b' ∉ segments) :
    (∀ name, token name ∈ segments → Bare name) →
      ofChars (segments.flatMap source) = segments := by
  intro hbare
  induction segments with
  | nil => simp [ofChars]
  | cons s segments ih =>
    have hrest := ih (fun h => hopen (List.mem_cons_of_mem _ h))
      fun name h => hbare name (List.mem_cons_of_mem _ h)
    cases s with
    | plain c =>
      have hnone : ∀ name, ¬ TokenAt (c :: segments.flatMap source) 0 name := by
        intro name htoken
        exact hopen (htoken.head_eq ▸ List.mem_cons_self)
      rw [List.flatMap_cons, source, List.singleton_append, ofChars_plain hnone, hrest]
    | token name =>
      rw [List.flatMap_cons, ofChars_token (hbare name List.mem_cons_self), hrest]

end Segment

end Dialogue

import Dialogue.Json.Reader
import Dialogue.Proofs.Json.Token

/-!
# Written values are read back

From the state in which a value must follow, a reader takes the tokens of a value to the state in which
that value was just completed, whatever is open around it (`Reader.read_tokens`). The indented form of a
value has the tokens of its compact form (`Value.map_token_spaced`). So a value whose tokens are legible
is parsed back from either text (`Value.parse_compact`, `Value.parse_pretty`).
-/

namespace Dialogue.Json

/-! ### Reading tokens -/

namespace Value

theorem tokens_ne_closeBracket (v : Value) :
    ∃ t ts, v.tokens = t :: ts ∧ t ≠ .closeBracket := by
  rcases v with _ | _ | _ | _ | (_ | ⟨v, vs⟩) | (_ | ⟨⟨k, v⟩, ms⟩) <;>
    exact ⟨_, _, rfl, nofun⟩

end Value

namespace Reader

/-- The states after a run of tokens. -/
def run (r : Reader) (ts : List Token) : Option Reader := ts.foldlM step r

theorem run_cons (r : Reader) (t : Token) (ts : List Token) :
    r.run (t :: ts) = (r.step t).bind fun r' => r'.run ts := rfl

theorem run_firstItem (v : Value) (opened : List Frame) (ts : List Token) :
    (firstItem opened).run (v.tokens ++ ts) = (value (.array [] :: opened)).run (v.tokens ++ ts) := by
  obtain ⟨t, us, hv, ht⟩ := v.tokens_ne_closeBracket
  rw [hv, List.cons_append, run_cons, run_cons]
  congr 1
  cases t <;> first | rfl | exact absurd rfl ht

mutual

/-- **The tokens of a value lead from where a value must follow to where it is completed.** -/
theorem read_tokens (opened : List Frame) (ts : List Token) :
    (v : Value) → (value opened).run (v.tokens ++ ts) = (done v opened).run ts
  | .null => rfl
  | .bool _ => rfl
  | .number _ => rfl
  | .string _ => rfl
  | .array [] => rfl
  | .array (v :: vs) => by
    simp only [Value.tokens, List.cons_append, List.append_assoc]
    show (firstItem opened).run _ = _
    rw [run_firstItem, read_tokens _ _ v, read_items opened [] v ts vs]
    rfl
  | .object [] => rfl
  | .object ((k, v) :: ms) => by
    simp only [Value.tokens, List.cons_append, List.append_assoc]
    show (value (.object [] k :: opened)).run _ = _
    rw [read_tokens _ _ v, read_members opened [] k v ts ms]
    rfl

theorem read_items (opened : List Frame) (items : List Value) (v : Value) (ts : List Token) :
    (vs : List Value) → (done v (.array items :: opened)).run (Value.itemTokens vs ++ ts) =
      (done (.array (items.reverse ++ v :: vs)) opened).run ts
  | [] => by
    show (done (.array (v :: items).reverse) opened).run ts = _
    rw [List.reverse_cons]
  | w :: vs => by
    simp only [Value.itemTokens, List.cons_append, List.append_assoc]
    show (value (.array (v :: items) :: opened)).run _ = _
    rw [read_tokens _ _ w, read_items opened (v :: items) w ts vs, List.reverse_cons,
      List.append_assoc, List.singleton_append]

theorem read_members (opened : List Frame) (members : List (Literal × Value)) (k : Literal)
    (v : Value) (ts : List Token) :
    (ms : List (Literal × Value)) →
      (done v (.object members k :: opened)).run (Value.memberTokens ms ++ ts) =
        (done (.object (members.reverse ++ (k, v) :: ms)) opened).run ts
  | [] => by
    show (done (.object ((k, v) :: members).reverse) opened).run ts = _
    rw [List.reverse_cons]
  | (l, w) :: ms => by
    simp only [Value.memberTokens, List.cons_append, List.append_assoc]
    show (value (.object ((k, v) :: members) l :: opened)).run _ = _
    rw [read_tokens _ _ w, read_members opened ((k, v) :: members) l w ts ms, List.reverse_cons,
      List.append_assoc, List.singleton_append]

end

theorem done_of_step_word {r r' : Reader} {t : Token} (hword : t.isWord = true)
    (h : r.step t = some r') : ∃ v opened, r' = done v opened := by
  cases t with
  | null | bool | number =>
    cases r with
    | value | firstItem => exact ⟨_, _, (Option.some.inj h).symm⟩
    | firstName | nextName | colon => cases h
    | done v opened => rcases opened with _ | ⟨_ | _, _⟩ <;> cases h
  | _ => cases hword

theorem step_done_word {t : Token} (hword : t.isWord = true) (v : Value) (opened : List Frame) :
    (done v opened).step t = none := by
  cases t with
  | null | bool | number => rcases opened with _ | ⟨_ | _, _⟩ <;> rfl
  | _ => cases hword

theorem words_of_run {r : Reader} {ts : List Token} (h : (r.run ts).isSome) :
    ts.IsChain fun a b => a.isWord = true → b.isWord = false := by
  induction ts generalizing r with
  | nil => exact .nil
  | cons t ts ih =>
    rw [run_cons] at h
    cases hstep : r.step t with
    | none => rw [hstep] at h; cases h
    | some r' =>
      rw [hstep, Option.bind_some] at h
      cases ts with
      | nil => exact .singleton t
      | cons u us =>
        refine List.isChain_cons_cons.mpr ⟨fun hword => ?_, ih h⟩
        obtain ⟨v, opened, rfl⟩ := done_of_step_word hword hstep
        by_contra hnext
        rw [run_cons, step_done_word (by simpa using hnext)] at h
        cases h

end Reader

namespace Value

theorem ofTokens?_tokens (v : Value) : ofTokens? v.tokens = some v := by
  have hread := Reader.read_tokens [] [] v
  rw [List.append_nil] at hread
  show ((Reader.value []).run v.tokens).bind Reader.finish? = some v
  rw [hread]
  rfl

theorem words_tokens (v : Value) :
    v.tokens.IsChain fun a b => a.isWord = true → b.isWord = false := by
  have hread := Reader.read_tokens [] [] v
  rw [List.append_nil] at hread
  exact Reader.words_of_run (by rw [hread]; rfl)

/-! ### Layouts -/

open Token (Blank)

mutual

theorem map_token_spaced (depth : Nat) (space : List Char) :
    (v : Value) → (v.spaced depth space).map Spaced.token = v.tokens
  | .null => rfl
  | .bool _ => rfl
  | .number _ => rfl
  | .string _ => rfl
  | .array [] => rfl
  | .array (v :: vs) => by
    simp only [spaced, tokens, List.map_append, List.map_cons, map_token_spaced _ _ v,
      map_token_spacedItems depth vs]
  | .object [] => rfl
  | .object ((k, v) :: ms) => by
    simp only [spaced, tokens, List.map_append, List.map_cons, map_token_spaced _ _ v,
      map_token_spacedMembers depth ms]

theorem map_token_spacedItems (depth : Nat) :
    (vs : List Value) → (spacedItems depth vs).map Spaced.token = itemTokens vs
  | [] => rfl
  | v :: vs => by
    simp only [spacedItems, itemTokens, List.map_append, List.map_cons, map_token_spaced _ _ v,
      map_token_spacedItems depth vs]

theorem map_token_spacedMembers (depth : Nat) :
    (ms : List (Literal × Value)) → (spacedMembers depth ms).map Spaced.token = memberTokens ms
  | [] => rfl
  | (k, v) :: ms => by
    simp only [spacedMembers, memberTokens, List.map_append, List.map_cons,
      map_token_spaced _ _ v, map_token_spacedMembers depth ms]

end

theorem blank_nil : Blank [] := nofun

theorem blank_space : Blank [' '] := List.all_eq_true.mp rfl

theorem blank_newLine (depth : Nat) : Blank (newLine depth) := by
  intro c hc
  rcases List.mem_cons.mp hc with rfl | hc
  · rfl
  · rw [List.eq_of_mem_replicate hc]
    rfl

mutual

theorem blank_spaced (depth : Nat) {space : List Char} (hspace : Blank space) :
    (v : Value) → ∀ s ∈ v.spaced depth space, Blank s.space
  | .null => by simpa [spaced] using hspace
  | .bool _ => by simpa [spaced] using hspace
  | .number _ => by simpa [spaced] using hspace
  | .string _ => by simpa [spaced] using hspace
  | .array [] => by simpa [spaced, blank_nil] using hspace
  | .array (v :: vs) => by
    have hv := blank_spaced (depth + 1) (blank_newLine (depth + 1)) v
    have hvs := blank_spacedItems depth vs
    simp only [spaced, List.mem_append, List.mem_cons]
    rintro s ((rfl | hs) | hs)
    · exact hspace
    · exact hv s hs
    · exact hvs s hs
  | .object [] => by simpa [spaced, blank_nil] using hspace
  | .object ((k, v) :: ms) => by
    have hv := blank_spaced (depth + 1) blank_space v
    have hms := blank_spacedMembers depth ms
    simp only [spaced, List.mem_append, List.mem_cons]
    rintro s ((rfl | rfl | rfl | hs) | hs)
    · exact hspace
    · exact blank_newLine _
    · exact blank_nil
    · exact hv s hs
    · exact hms s hs

theorem blank_spacedItems (depth : Nat) :
    (vs : List Value) → ∀ s ∈ spacedItems depth vs, Blank s.space
  | [] => by simpa [spacedItems] using blank_newLine depth
  | v :: vs => by
    have hv := blank_spaced (depth + 1) (blank_newLine (depth + 1)) v
    have hvs := blank_spacedItems depth vs
    simp only [spacedItems, List.mem_append, List.mem_cons]
    rintro s ((rfl | hs) | hs)
    · exact blank_nil
    · exact hv s hs
    · exact hvs s hs

theorem blank_spacedMembers (depth : Nat) :
    (ms : List (Literal × Value)) → ∀ s ∈ spacedMembers depth ms, Blank s.space
  | [] => by simpa [spacedMembers] using blank_newLine depth
  | (k, v) :: ms => by
    have hv := blank_spaced (depth + 1) blank_space v
    have hms := blank_spacedMembers depth ms
    simp only [spacedMembers, List.mem_append, List.mem_cons]
    rintro s ((rfl | rfl | rfl | hs) | hs)
    · exact blank_nil
    · exact blank_newLine _
    · exact blank_nil
    · exact hv s hs
    · exact hms s hs

end

/-! ### Parsing -/

/-- All tokens of the value are read back as they are written. -/
def Legible (v : Value) : Prop := ∀ t ∈ v.tokens, t.Legible

/-- A legible value is parsed from its tokens, whatever white space is written between them. -/
theorem parse_spaced {v : Value} (hv : v.Legible) {ss : List Spaced}
    (htokens : ss.map Spaced.token = v.tokens) (hblank : ∀ s ∈ ss, Blank s.space) :
    parse (String.ofList (ss.flatMap Spaced.text)) = some v := by
  have hwords : ss.IsChain fun a b => a.token.isWord = true → b.token.isWord = false := by
    have hchain := v.words_tokens
    rw [← htokens, List.isChain_map] at hchain
    exact hchain
  have hlegible : ∀ s ∈ ss, s.token.Legible := by
    intro s hs
    refine hv s.token ?_
    rw [← htokens]
    exact List.mem_map_of_mem hs
  rw [parse, String.toList_ofList, Token.scan_spaced ⟨hblank, hwords⟩ hlegible, htokens,
    Option.bind_some, ofTokens?_tokens]

theorem parse_compact {v : Value} (hv : v.Legible) : parse v.compact = some v := by
  have htext : v.tokens.flatMap Token.text =
      (v.tokens.map fun t => (⟨[], t⟩ : Spaced)).flatMap Spaced.text := by
    rw [List.flatMap_map]
    rfl
  rw [compact, htext]
  refine parse_spaced hv (by simp [Function.comp_def]) fun s hs => ?_
  obtain ⟨t, -, rfl⟩ := List.mem_map.mp hs
  exact blank_nil

theorem parse_pretty {v : Value} (hv : v.Legible) : parse v.pretty = some v :=
  parse_spaced hv (map_token_spaced 0 [] v) (blank_spaced 0 blank_nil v)

end Value

end Dialogue.Json

import Dialogue.Json.Codec
import Dialogue.Proofs.Json.Value

/-!
# Types whose JSON form is read back

A JSON form is lawful when what is written is always JSON text, and when exactly the values that it
keeps are read back, unchanged, from what is written for them (`Codec.Lawful`). Nearly every type keeps
all its values. Lists keep those whose items are kept, and records those whose fields are
(`Fields.required_bind`, `Fields.withDefault_bind`).
-/

namespace Dialogue.Json

/-! ### Legible values -/

namespace Value

theorem legible_int (i : Int) : (int i).Legible := by
  intro t ht
  rw [List.mem_singleton.mp ht]
  exact Numeral.wellFormed_ofInt i

theorem legible_text (s : String) : (text s).Legible := by
  intro t ht
  rw [List.mem_singleton.mp ht]
  exact Literal.legible_ofText s

theorem legible_items {vs : List Value} (hvs : ∀ v ∈ vs, v.Legible) :
    ∀ t ∈ itemTokens vs, t.Legible := by
  induction vs with
  | nil =>
    intro t ht
    rw [List.mem_singleton.mp ht]
    trivial
  | cons v vs ih =>
    intro t ht
    simp only [itemTokens, List.mem_append, List.mem_cons] at ht
    rcases ht with (rfl | ht) | ht
    · trivial
    · exact hvs v List.mem_cons_self t ht
    · exact ih (fun w hw => hvs w (List.mem_cons_of_mem v hw)) t ht

theorem legible_array {vs : List Value} (hvs : ∀ v ∈ vs, v.Legible) : (array vs).Legible := by
  intro t ht
  cases vs with
  | nil =>
    simp only [tokens, List.mem_cons, List.not_mem_nil, or_false] at ht
    rcases ht with rfl | rfl <;> trivial
  | cons v vs =>
    simp only [tokens, List.cons_append, List.mem_cons] at ht
    rcases ht with rfl | ht
    · trivial
    · refine legible_items hvs t ?_
      simp only [itemTokens, List.cons_append, List.mem_cons]
      exact .inr ht

theorem legible_members {ms : List (Literal × Value)}
    (hms : ∀ m ∈ ms, m.1.Legible ∧ m.2.Legible) : ∀ t ∈ memberTokens ms, t.Legible := by
  induction ms with
  | nil =>
    intro t ht
    rw [List.mem_singleton.mp ht]
    trivial
  | cons m ms ih =>
    obtain ⟨hname, hvalue⟩ := hms m List.mem_cons_self
    intro t ht
    simp only [memberTokens, List.mem_append, List.mem_cons] at ht
    rcases ht with (rfl | rfl | rfl | ht) | ht
    · trivial
    · exact hname
    · trivial
    · exact hvalue t ht
    · exact ih (fun n hn => hms n (List.mem_cons_of_mem m hn)) t ht

theorem legible_object {ms : List (Literal × Value)}
    (hms : ∀ m ∈ ms, m.1.Legible ∧ m.2.Legible) : (object ms).Legible := by
  intro t ht
  cases ms with
  | nil =>
    simp only [tokens, List.mem_cons, List.not_mem_nil, or_false] at ht
    rcases ht with rfl | rfl <;> trivial
  | cons m ms =>
    simp only [tokens, List.cons_append, List.mem_cons] at ht
    rcases ht with rfl | ht
    · trivial
    · refine legible_members hms t ?_
      simp only [memberTokens, List.cons_append, List.mem_cons]
      exact .inr ht

theorem legible_record {fields : List (String × Value)} (hfields : ∀ f ∈ fields, f.2.Legible) :
    (record fields).Legible := by
  refine legible_object fun m hm => ?_
  obtain ⟨f, hf, rfl⟩ := List.mem_map.mp hm
  exact ⟨Literal.legible_ofText f.1, hfields f hf⟩

theorem fields?_record {fields : List (String × Value)} {names : List String}
    (hnames : fields.map (·.1) = names) (hdistinct : names.Nodup) :
    (record fields).fields? names = some ⟨fields, true⟩ := by
  have hnamed : ∀ fs : List (String × Value),
      (fs.map fun f => (Literal.ofText f.1, f.2)).mapM
        (fun m => (Literal.text? m.1).map fun name => (name, m.2)) = some fs := by
    intro fs
    induction fs with
    | nil => rfl
    | cons f fs ih => simp [Literal.text?_ofText, ih]
  have hknown : (fields.filter fun f => names.contains f.1) = fields := by
    rw [List.filter_eq_self, ← hnames]
    intro f hf
    simpa using ⟨f.2, hf⟩
  show ((fields.map _).mapM _ >>= _) = _
  rw [hnamed]
  show (if _ then _ else _) = _
  rw [hknown, if_pos (hnames ▸ hdistinct)]

theorem fields?_bind {β : Type} {fields : List (String × Value)} {names : List String}
    {next : Fields → Option β} (hnames : fields.map (·.1) = names) (hdistinct : names.Nodup) :
    ((record fields).fields? names >>= next) = next ⟨fields, true⟩ := by
  rw [fields?_record hnames hdistinct]
  rfl

end Value

/-! ### Lawful forms -/

/-- What is written is legible, and just the values that are kept are read back from it. -/
class Codec.Lawful (α : Type) [Codec α] where
  kept : α → Bool
  legible (a : α) : (encode a).Legible
  decode?_encode (a : α) : decode? (encode a) = if kept a then some a else none

export Codec.Lawful (kept legible decode?_encode)

namespace Codec

variable {α : Type} [Codec α] [Lawful α]

/-- **The compact text of a value reads back just when the value is kept.** -/
theorem ofText?_compact (a : α) :
    ofText? (encode a).compact = if kept a then some a else none := by
  rw [ofText?, Value.parse_compact (legible a), Option.bind_some, decode?_encode]

theorem ofText?_pretty (a : α) :
    ofText? (encode a).pretty = if kept a then some a else none := by
  rw [ofText?, Value.parse_pretty (legible a), Option.bind_some, decode?_encode]

/-! ### Plain values -/

instance : Lawful String where
  kept _ := true
  legible := Value.legible_text
  decode?_encode := Literal.text?_ofText

instance : Lawful Bool where
  kept _ := true
  legible b := by
    intro t ht
    rw [List.mem_singleton.mp ht]
    trivial
  decode?_encode _ := rfl

instance : Lawful UInt32 where
  kept _ := true
  legible n := Value.legible_int n.toNat
  decode?_encode n := by
    have hread : (Numeral.ofInt n.toNat).intWithin? 0 0xFFFFFFFF = some (n.toNat : Int) :=
      Numeral.intWithin?_ofInt (by omega) (by have := n.toNat_lt; omega)
    show ((Numeral.ofInt n.toNat).intWithin? 0 0xFFFFFFFF).map _ = _
    rw [hread]
    simp

instance : Lawful Int32 where
  kept _ := true
  legible n := Value.legible_int n.toInt
  decode?_encode n := by
    have hread : (Numeral.ofInt n.toInt).intWithin? (-0x80000000) 0x7FFFFFFF = some n.toInt :=
      Numeral.intWithin?_ofInt n.le_toInt (by have := n.toInt_lt; omega)
    show ((Numeral.ofInt n.toInt).intWithin? (-0x80000000) 0x7FFFFFFF).map _ = _
    rw [hread]
    simp

instance : Lawful (List α) where
  kept as := as.all kept
  legible as := by
    refine Value.legible_array fun v hv => ?_
    obtain ⟨a, -, rfl⟩ := List.mem_map.mp hv
    exact legible a
  decode?_encode as := by
    show (as.map encode).mapM decode? = _
    induction as with
    | nil => rfl
    | cons a as ih =>
      rw [List.map_cons, List.mapM_cons, ih, decode?_encode, List.all_cons]
      cases kept a <;> cases as.all kept <;> rfl

end Codec

/-! ### Records -/

namespace Fields

open Codec

variable {α β : Type} [Codec α] [Lawful α] {fs : Fields} {name : String} {a : α}
  {next : α → Option β} {rest : Bool} {b : β}

theorem required_bind (hname : fs.get? name = some (encode a))
    (hnext : next a = if rest then some b else none) :
    (fs.required name >>= next) = if kept a && rest then some b else none := by
  rw [required, hname, Option.bind_some, decode?_encode]
  cases kept a
  · rfl
  · exact hnext

theorem withDefault_bind {default : α} (hname : fs.get? name = some (encode a))
    (hnext : next a = if rest then some b else none) :
    (fs.withDefault name default >>= next) = if kept a && rest then some b else none := by
  have hread : fs.withDefault name default = fs.required name := by
    rw [withDefault, required, hname, Option.bind_some]
  rw [hread, required_bind hname hnext]

end Fields

end Dialogue.Json

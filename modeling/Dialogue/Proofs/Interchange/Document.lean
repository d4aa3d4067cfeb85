import Dialogue.Interchange.Document
import Dialogue.Proofs.Json.Single

/-!
# Documents are read back

The JSON form of every record is lawful. What a record keeps is decided by its coordinates alone, since
all other fields keep every value: texts with any characters, numbers of thirty-two bits, options under
any ports. So a document is read back just when all its positions are finite
(`Document.kept_iff`).
-/

namespace Dialogue

open Json

/-! ### Names and places -/

namespace Codec

instance : Codec.Lawful Guid where
  kept _ := true
  legible g := legible g.text
  decode?_encode g := by
    show (decode? (encode g.text)).map Guid.mk = some g
    rw [decode?_encode]
    rfl

instance : Codec.Lawful Position where
  kept p := kept p.x && kept p.y
  legible p := Value.legible_array (by simp [legible])
  decode?_encode p := by
    show ((decode? (encode p.x)).bind fun x => (decode? (encode p.y)).bind fun y =>
      some (⟨x, y⟩ : Position)) = _
    rw [decode?_encode, decode?_encode]
    cases kept p.x <;> cases kept p.y <;> rfl

end Codec

/-! ### Options -/

theorem nameOfPort_eq (port : PortIndex) :
    nameOfPort port = (Digit.text (Digit.ofNat port.toNat)).map .plain := by
  simp [nameOfPort, Numeral.text, Numeral.ofInt]

theorem legible_nameOfPort (port : PortIndex) : (nameOfPort port).Legible := by
  have hdigit : ∀ d : Digit, d.toChar ≠ '"' ∧ d.toChar ≠ '\\' ∧ 0x20 ≤ d.toChar.toNat := by decide
  intro p hp
  rw [nameOfPort_eq] at hp
  obtain ⟨c, hc, rfl⟩ := List.mem_map.mp hp
  obtain ⟨d, -, rfl⟩ := List.mem_map.mp hc
  exact hdigit d

theorem portOfName?_nameOfPort (port : PortIndex) : portOfName? (nameOfPort port) = some port := by
  rw [portOfName?, nameOfPort, Literal.unescaped?_plain, Option.bind_some,
    Numeral.ofText?_text (Numeral.wellFormed_ofInt _), Option.bind_some]
  exact decode?_encode port

namespace Choices

theorem insertEntry_of_greatest {port : PortIndex} {label : String}
    {es : List (PortIndex × String)} (hes : ∀ e ∈ es, e.1 < port) :
    insertEntry port label es = es ++ [(port, label)] := by
  induction es with
  | nil => rfl
  | cons e es ih =>
    have he : e.1 < port := hes e List.mem_cons_self
    rw [insertEntry, if_neg (UInt32.lt_asymm he), if_neg (UInt32.ne_of_lt he).symm,
      ih fun f hf => hes f (List.mem_cons_of_mem e hf), List.cons_append]

theorem entries_foldl_insert (cs : Choices) (es : List (PortIndex × String))
    (h : (cs.entries ++ es).Pairwise fun a b => a.1 < b.1) :
    (es.foldl (fun cs e => cs.insert e.1 e.2) cs).entries = cs.entries ++ es := by
  induction es generalizing cs with
  | nil => simp
  | cons e es ih =>
    have hgreatest : ∀ f ∈ cs.entries, f.1 < e.1 := fun f hf =>
      (List.pairwise_append.mp h).2.2 f hf e List.mem_cons_self
    have hentries : (cs.insert e.1 e.2).entries = cs.entries ++ [e] :=
      insertEntry_of_greatest hgreatest
    rw [List.foldl_cons, ih _ (by rwa [hentries, List.append_assoc]), hentries, List.append_assoc]
    rfl

theorem eq_of_entries {cs ds : Choices} (h : cs.entries = ds.entries) : cs = ds := by
  cases cs
  cases ds
  cases h
  rfl

theorem ofList_entries (cs : Choices) : ofList cs.entries = cs :=
  eq_of_entries (entries_foldl_insert empty cs.entries cs.ascending)

end Choices

theorem mapM_optionOfMember? (es : List (PortIndex × String)) :
    (es.map fun e => (nameOfPort e.1, encode e.2)).mapM optionOfMember? = some es := by
  induction es with
  | nil => rfl
  | cons e es ih =>
    have hmember : optionOfMember? (nameOfPort e.1, encode e.2) = some e := by
      rw [optionOfMember?, portOfName?_nameOfPort, decode?_encode]
      rfl
    rw [List.map_cons, List.mapM_cons, hmember, ih]
    rfl

namespace Codec

instance : Codec.Lawful Choices where
  kept _ := true
  legible cs := by
    refine Value.legible_object fun m hm => ?_
    obtain ⟨e, -, rfl⟩ := List.mem_map.mp hm
    exact ⟨legible_nameOfPort e.1, legible e.2⟩
  decode?_encode cs := by
    show ((cs.entries.map fun e => (nameOfPort e.1, encode e.2)).mapM optionOfMember?).map _ = _
    rw [mapM_optionOfMember?, Option.map_some, Choices.ofList_entries]
    rfl

/-! ### Records -/

open Fields (required_bind withDefault_bind)

instance : Codec.Lawful Link where
  kept l := kept l.outNode && (kept l.inNode && (kept l.port && true))
  legible l := Value.legible_record (by simp [legible])
  decode?_encode _ := (Value.fields?_bind rfl (by simp)).trans
    (required_bind rfl (required_bind rfl (required_bind rfl rfl)))

instance : Codec.Lawful BasicRecord where
  kept r := kept r.guid && (kept r.text && (kept r.position && (kept r.focusChoice && true)))
  legible r := Value.legible_record (by simp [legible])
  decode?_encode _ := (Value.fields?_bind rfl (by simp)).trans
    (required_bind rfl (withDefault_bind rfl (withDefault_bind rfl (withDefault_bind rfl rfl))))

instance : Codec.Lawful ChoiceRecord where
  kept r := kept r.guid && (kept r.text && (kept r.position && (kept r.choices && true)))
  legible r := Value.legible_record (by simp [legible])
  decode?_encode _ := (Value.fields?_bind rfl (by simp)).trans
    (required_bind rfl (withDefault_bind rfl (withDefault_bind rfl (withDefault_bind rfl rfl))))

instance : Codec.Lawful ConditionRecord where
  kept r := kept r.guid && (kept r.text && (kept r.position && (kept r.variableName && true)))
  legible r := Value.legible_record (by simp [legible])
  decode?_encode _ := (Value.fields?_bind rfl (by simp)).trans
    (required_bind rfl (withDefault_bind rfl (withDefault_bind rfl (required_bind rfl rfl))))

instance : Codec.Lawful FocusRecord where
  kept r := kept r.guid && (kept r.text && (kept r.position && (kept r.focusChoice && true)))
  legible r := Value.legible_record (by simp [legible])
  decode?_encode _ := (Value.fields?_bind rfl (by simp)).trans
    (required_bind rfl (withDefault_bind rfl (withDefault_bind rfl (withDefault_bind rfl rfl))))

instance : Codec.Lawful EventRecord where
  kept r := kept r.guid && (kept r.text && (kept r.position && (kept r.eventName && true)))
  legible r := Value.legible_record (by simp [legible])
  decode?_encode _ := (Value.fields?_bind rfl (by simp)).trans
    (required_bind rfl (withDefault_bind rfl (withDefault_bind rfl (required_bind rfl rfl))))

instance : Codec.Lawful ExitRecord where
  kept r := kept r.guid && (kept r.position && true)
  legible r := Value.legible_record (by simp [legible])
  decode?_encode _ := (Value.fields?_bind rfl (by simp)).trans
    (required_bind rfl (withDefault_bind rfl rfl))

instance {α : Type} [Codec α] [Codec.Lawful α] : Codec.Lawful (PropertyRecord α) where
  kept r := kept r.guid && (kept r.propertyName && (kept r.value && true))
  legible r := Value.legible_record (by simp [legible])
  decode?_encode _ := (Value.fields?_bind rfl (by simp)).trans
    (required_bind rfl (required_bind rfl (required_bind rfl rfl)))

instance : Codec.Lawful Document where
  kept d := kept d.entryGuid && (kept d.entryPosition && (kept d.basicNodes &&
    (kept d.choiceNodes && (kept d.conditionNodes && (kept d.focusNodes && (kept d.eventNodes &&
    (kept d.exitNodes && (kept d.links && (kept d.intProperties && (kept d.stringProperties &&
    (kept d.boolProperties && true)))))))))))
  legible d := Value.legible_record (by simp [legible])
  decode?_encode _ := (Value.fields?_bind rfl (by simp)).trans
    (required_bind rfl <| withDefault_bind rfl <| withDefault_bind rfl <|
      withDefault_bind rfl <| withDefault_bind rfl <| withDefault_bind rfl <|
      withDefault_bind rfl <| withDefault_bind rfl <| withDefault_bind rfl <|
      withDefault_bind rfl <| withDefault_bind rfl <| withDefault_bind rfl rfl)

theorem kept_list {α : Type} [Codec α] [Codec.Lawful α] (h : ∀ a : α, kept a = true)
    (as : List α) : kept as = true :=
  List.all_eq_true.mpr fun a _ => h a

end Codec

theorem Document.kept_iff (d : Document) :
    kept d = true ↔ kept d.entryPosition = true ∧ kept d.basicNodes = true ∧
      kept d.choiceNodes = true ∧ kept d.conditionNodes = true ∧ kept d.focusNodes = true ∧
      kept d.eventNodes = true ∧ kept d.exitNodes = true := by
  have hlinks : kept d.links = true := Codec.kept_list (fun _ => rfl) _
  have hints : kept d.intProperties = true := Codec.kept_list (fun _ => rfl) _
  have hstrings : kept d.stringProperties = true := Codec.kept_list (fun _ => rfl) _
  have hbools : kept d.boolProperties = true := Codec.kept_list (fun _ => rfl) _
  show (kept d.entryGuid && (kept d.entryPosition && (kept d.basicNodes && (kept d.choiceNodes &&
    (kept d.conditionNodes && (kept d.focusNodes && (kept d.eventNodes && (kept d.exitNodes &&
    (kept d.links && (kept d.intProperties && (kept d.stringProperties &&
    (kept d.boolProperties && true)))))))))))) = true ↔ _
  have hguid : kept d.entryGuid = true := rfl
  simp only [hguid, hlinks, hints, hstrings, hbools, Bool.and_eq_true, and_true, true_and]

end Dialogue

/-!
# Options of a choice

The labels of a choice by output port, in ascending order of the ports. Inserting a label under a
port that has one replaces it.
-/

namespace Dialogue

/-- Index of an output of a node. -/
abbrev PortIndex := UInt32

/-- Labels by port, each port at most once, ascending. -/
structure Choices where
  entries : List (PortIndex × String)
  ascending : entries.Pairwise fun a b => a.1 < b.1
deriving DecidableEq

namespace Choices

/-- No option at all. -/
def empty : Choices := ⟨[], .nil⟩

instance : Inhabited Choices := ⟨empty⟩

/-- A label put into ascending entries. -/
def insertEntry (port : PortIndex) (label : String) :
    List (PortIndex × String) → List (PortIndex × String)
  | [] => [(port, label)]
  | e :: es =>
    if port < e.1 then (port, label) :: e :: es
    else if port = e.1 then (port, label) :: es
    else e :: insertEntry port label es

theorem mem_of_mem_insertEntry {port : PortIndex} {label : String}
    {es : List (PortIndex × String)} {x : PortIndex × String}
    (h : x ∈ insertEntry port label es) : x = (port, label) ∨ x ∈ es := by
  induction es with
  | nil => simpa [insertEntry] using h
  | cons e es ih =>
    unfold insertEntry at h
    split at h
    · simpa using h
    · split at h
      · rcases List.mem_cons.1 h with h | h
        · exact .inl h
        · exact .inr (List.mem_cons_of_mem _ h)
      · rcases List.mem_cons.1 h with h | h
        · exact .inr (h ▸ List.mem_cons_self)
        · exact (ih h).imp id (List.mem_cons_of_mem _)

theorem pairwise_insertEntry {port : PortIndex} {label : String} {es : List (PortIndex × String)}
    (h : es.Pairwise fun a b => a.1 < b.1) :
    (insertEntry port label es).Pairwise fun a b => a.1 < b.1 := by
  induction es with
  | nil => simp [insertEntry]
  | cons e es ih =>
    obtain ⟨he, hes⟩ := List.pairwise_cons.1 h
    unfold insertEntry
    split
    · rename_i hlt
      refine List.pairwise_cons.2 ⟨fun x hx => ?_, h⟩
      rcases List.mem_cons.1 hx with rfl | hx
      · exact hlt
      · exact UInt32.lt_trans hlt (he x hx)
    · split
      · rename_i heq
        exact List.pairwise_cons.2 ⟨fun x hx => heq ▸ he x hx, hes⟩
      · rename_i hlt hne
        refine List.pairwise_cons.2 ⟨fun x hx => ?_, ih hes⟩
        rcases mem_of_mem_insertEntry hx with rfl | hx
        · exact UInt32.lt_of_le_of_ne (UInt32.not_lt.1 hlt) (Ne.symm hne)
        · exact he x hx

/-- The choices with a label under a port. -/
def insert (cs : Choices) (port : PortIndex) (label : String) : Choices :=
  ⟨insertEntry port label cs.entries, pairwise_insertEntry cs.ascending⟩

/-- The choices of a list of labels; the last one given for a port counts. -/
def ofList (es : List (PortIndex × String)) : Choices :=
  es.foldl (fun cs e => cs.insert e.1 e.2) empty

end Choices

end Dialogue

import Dialogue.Graph.Arena
import Dialogue.Proofs.Graph.FirstFault
import Dialogue.Proofs.Graph.Persistence

/-!
# Table and index in step

An arena holds a graph when its table has the nodes of the graph and its index finds their places
(`Arena.Holds`). What is done to an arena and to the graph that it holds goes the same way, and
afterwards the one holds the other again (`ofDocument_holds`, `Holds.change`). So after any history
the index has exactly the guids of the table, each with its place, the start stands first, and no
access is a fault (`index_in_step`).
-/

namespace Dialogue

/-! ### Places in a graph -/

namespace Graph

variable {g : Graph} {u : Guid}

theorem isSome_index? (g : Graph) (u : Guid) : (g.index? u).isSome = g.contains u := by
  rw [index?, contains, List.findIdx?_isSome]

theorem index?_eq_none_iff : g.index? u = none ↔ g.contains u = false := by
  rw [← isSome_index?, Option.isSome_eq_false_iff, Option.isNone_iff_eq_none]

theorem getElem?_of_index? {i : Nat} (h : g.index? u = some i) :
    ∃ n, g.nodes[i]? = some n ∧ n.guid = u := by
  obtain ⟨hi, hguid, -⟩ := List.findIdx?_eq_some_iff_getElem.mp h
  exact ⟨g.nodes[i], List.getElem?_eq_getElem hi, by simpa using hguid⟩

theorem WellFormed.index?_eq_some_iff (h : g.WellFormed) {i : Nat} :
    g.index? u = some i ↔ ∃ n, g.nodes[i]? = some n ∧ n.guid = u := by
  refine ⟨getElem?_of_index?, ?_⟩
  rintro ⟨n, hn, rfl⟩
  have hmem : n ∈ g.nodes := List.mem_of_getElem? hn
  obtain ⟨j, hj⟩ : ∃ j, g.index? n.guid = some j := by
    rw [← Option.isSome_iff_exists, isSome_index?, contains_iff_mem]
    exact List.mem_map_of_mem hmem
  obtain ⟨m, hm, hguid⟩ := getElem?_of_index? hj
  -- both places have the guid, and no two places have the same one
  have hsame : (g.nodes.map Node.guid)[j]? = (g.nodes.map Node.guid)[i]? := by
    rw [List.getElem?_map, List.getElem?_map, hm, hn, Option.map_some, Option.map_some, hguid]
  have hlt : j < (g.nodes.map Node.guid).length := by
    rw [List.length_map]
    exact (List.getElem?_eq_some_iff.mp hm).1
  rw [hj, (List.getElem?_inj hlt h.distinct).mp hsame]

theorem WellFormed.node?_of_index? (h : g.WellFormed) {i : Nat} (hi : g.index? u = some i) :
    g.nodes[i]? = g.node? u := by
  obtain ⟨n, hn, hguid⟩ := getElem?_of_index? hi
  rw [hn, eq_comm, h.node?_eq_some_iff]
  exact ⟨List.mem_of_getElem? hn, hguid⟩

theorem index?_entry (g : Graph) : g.index? g.entryGuid = some 0 := by
  rw [index?, nodes, List.findIdx?_cons, if_pos (by simp [entry])]

theorem index?_congr {g' : Graph} (hentry : g'.entryGuid = g.entryGuid) (hbody : g'.body = g.body)
    (u : Guid) : g'.index? u = g.index? u := by
  simp only [index?, nodes, List.findIdx?_cons, hbody, entry, hentry]

theorem index?_concat {n : Node} (hfresh : g.contains n.guid = false) (u : Guid) :
    ({ g with body := g.body ++ [n] } : Graph).index? u =
      if n.guid = u then some g.nodes.length else g.index? u := by
  show (g.nodes ++ [n]).findIdx? (fun m => m.guid = u) = _
  rw [List.findIdx?_append, List.findIdx?_singleton]
  by_cases hguid : n.guid = u
  · have hnone : g.nodes.findIdx? (fun m => m.guid = u) = none :=
      index?_eq_none_iff.mpr (hguid ▸ hfresh)
    rw [hnone]
    simp [hguid]
  · simp [hguid, index?]

end Graph

namespace Arena

/-! ### What an arena holds -/

theorem place?_of_index {a : Arena} {v : Guid} {i : Nat} {rest : List (Guid × Nat)}
    (h : a.index = (v, i) :: rest) (u : Guid) :
    a.place? u = if v = u then some i else rest.lookup u := by
  rw [place?, h, List.lookup_cons]
  by_cases hguid : v = u
  · subst hguid
    simp
  · have hne : (u == v) = false := by simpa using Ne.symm hguid
    rw [hne, if_neg hguid]

/-- The table has the nodes of a graph, and the index their places. -/
structure Holds (a : Arena) (g : Graph) : Prop where
  id : a.id = g.id
  entryGuid : a.entryGuid = g.entryGuid
  nodes : a.nodes = g.nodes
  place : ∀ u, a.place? u = g.index? u
  links : a.links = g.links
  properties : a.properties = g.properties

/-- Both fail alike, or the arena holds the graph. -/
inductive HoldsResult : Except GraphError Arena → Except GraphError Graph → Prop
  | ok {a : Arena} {g : Graph} (h : a.Holds g) : HoldsResult (.ok a) (.ok g)
  | error (e : GraphError) : HoldsResult (.error e) (.error e)

theorem HoldsResult.eq_ok {r : Except GraphError Arena} {g : Graph} (h : HoldsResult r (.ok g)) :
    ∃ a, r = .ok a ∧ a.Holds g := by
  cases h with
  | ok h => exact ⟨_, rfl, h⟩

theorem HoldsResult.eq_error {r : Except GraphError Arena} {e : GraphError}
    (h : HoldsResult r (.error e)) : r = .error e := by
  cases h
  rfl

namespace Holds

variable {a : Arena} {g : Graph}

theorem contains (h : a.Holds g) (u : Guid) : a.contains u = g.contains u := by
  rw [Arena.contains, h.place, Graph.isSome_index?]

theorem node (h : a.Holds g) (hg : g.WellFormed) (u : Guid) : a.node u = .ok (g.node? u) := by
  rw [Arena.node, h.place]
  cases hi : g.index? u with
  | none =>
    have hnone : g.node? u = none := by
      rw [Graph.index?_eq_none_iff, Graph.contains_eq, Option.isSome_eq_false_iff] at hi
      exact Option.isNone_iff_eq_none.mp hi
    rw [hnone]
  | some i =>
    obtain ⟨n, hn, -⟩ := Graph.getElem?_of_index? hi
    rw [← hg.node?_of_index? hi, hn]
    simp only [nodeAt, h.nodes, hn]
    rfl

theorem entryPlace (h : a.Holds g) : a.entryPlace = .ok 0 := by
  rw [Arena.entryPlace, h.place, h.entryGuid, Graph.index?_entry]

theorem nodeAt_zero (h : a.Holds g) : a.nodeAt 0 = .ok g.entry := by
  rw [nodeAt, h.nodes]
  rfl

theorem entry (h : a.Holds g) : a.entry = .ok g.entry := by
  rw [Arena.entry, h.entryPlace]
  exact h.nodeAt_zero

theorem graph (h : a.Holds g) : a.graph = .ok g := by
  rw [Arena.graph, h.entry, h.id, h.entryGuid, h.nodes, h.links, h.properties]
  rfl

/-! ### Building -/

theorem withEntryPosition (h : a.Holds g) (p : Position) :
    a.withEntryPosition p = .ok { a with nodes := { g.entry with position := p } :: g.body } := by
  rw [Arena.withEntryPosition, h.entryPlace]
  show (a.nodeAt 0).map _ = _
  rw [h.nodeAt_zero, h.nodes]
  rfl

theorem of_withEntryPosition (h : a.Holds g) {a' : Arena} {p : Position}
    (hmoved : a.withEntryPosition p = .ok a') : a'.Holds (g.withEntryPosition p) := by
  rw [h.withEntryPosition] at hmoved
  cases hmoved
  refine ⟨h.id, h.entryGuid, rfl, fun u => ?_, h.links, h.properties⟩
  exact (h.place u).trans (Graph.index?_congr rfl rfl u).symm

theorem insertNode_ok (h : a.Holds g) {n : Node} {g' : Graph} (hok : g.insertNode n = .ok g') :
    (a.insertNode n).1 = .ok () ∧ (a.insertNode n).2.Holds g' := by
  obtain ⟨hentry, hfresh, rfl⟩ := Graph.insertNode_ok hok
  have hinsert : a.insertNode n = (.ok (), { a with
      index := (n.guid, a.nodes.length) :: a.index, nodes := a.nodes ++ [n] }) := by
    rw [Arena.insertNode, hentry, h.contains, hfresh]
    rfl
  rw [hinsert]
  refine ⟨rfl, h.id, h.entryGuid, ?_, fun u => ?_, h.links, h.properties⟩
  · exact congrArg (· ++ [n]) h.nodes
  · rw [Graph.index?_concat hfresh, ← h.place, ← h.nodes]
    exact place?_of_index rfl u

theorem insertNode_error (h : a.Holds g) {n : Node} {e : GraphError}
    (herror : g.insertNode n = .error e) : a.insertNode n = (.error e, a) := by
  rw [Arena.insertNode, h.contains]
  unfold Graph.insertNode at herror
  split at herror
  · rename_i hentry
    cases herror
    rw [if_pos hentry]
  · rename_i hentry
    split at herror
    · rename_i hused
      cases herror
      rw [if_neg hentry, if_pos hused]
    · cases herror

theorem withNode (h : a.Holds g) (n : Node) : (a.withNode n).Holds (g.withNode n) := by
  rw [Arena.withNode, Graph.withNode]
  cases hn : g.insertNode n with
  | ok g' => exact (h.insertNode_ok hn).2
  | error e =>
    rw [h.insertNode_error hn]
    exact h

theorem addLink (h : a.Holds g) (l : Link) : (a.addLink l).Holds (g.addLink l) :=
  ⟨h.id, h.entryGuid, h.nodes, h.place, congrArg (· ++ [l]) h.links, h.properties⟩

theorem addProperty (h : a.Holds g) (p : Property) : (a.addProperty p).Holds (g.addProperty p) :=
  ⟨h.id, h.entryGuid, h.nodes, h.place, h.links, congrArg (· ++ [p]) h.properties⟩

theorem setValueAt (h : a.Holds g) (i : Nat) (v : PropertyValue) :
    (a.setValueAt i v).Holds (g.setValueAt i v) :=
  ⟨h.id, h.entryGuid, h.nodes, h.place, h.links, congrArg (List.modify · i _) h.properties⟩

theorem setPropertyAt (h : a.Holds g) (i : Nat) (p : Property) :
    (a.setPropertyAt i p).Holds { g with properties := g.properties.set i p } :=
  ⟨h.id, h.entryGuid, h.nodes, h.place, h.links, congrArg (List.set · i p) h.properties⟩

end Holds

/-! ### Loading -/

theorem holds_new (id : GraphId) (entryGuid : Guid) :
    (new id entryGuid).Holds (Graph.new id entryGuid) := by
  refine ⟨rfl, rfl, rfl, fun u => ?_, rfl, rfl⟩
  rw [place?_of_index rfl u, Graph.index?, Graph.nodes, List.findIdx?_cons]
  by_cases hguid : entryGuid = u
  · simp [hguid, Graph.entry, Graph.new]
  · simp [hguid, Graph.entry, Graph.new]

theorem Holds.insertNodes {a : Arena} {g : Graph} (h : a.Holds g)
    (ns : List (Except GraphError Node)) : HoldsResult (a.insertNodes ns) (g.insertNodes ns) := by
  induction ns generalizing a g with
  | nil => exact .ok h
  | cons x ns ih =>
    cases x with
    | error e => exact .error e
    | ok n =>
      rw [Arena.insertNodes, Graph.insertNodes]
      cases hn : g.insertNode n with
      | ok g' =>
        obtain ⟨hok, hafter⟩ := h.insertNode_ok hn
        rw [show a.insertNode n = (.ok (), (a.insertNode n).2) from Prod.ext hok rfl]
        exact ih hafter
      | error e =>
        rw [h.insertNode_error hn]
        exact .error e

theorem Holds.addLinks {a : Arena} {g : Graph} (h : a.Holds g) (ls : List Link) :
    (ls.foldl Arena.addLink a).Holds { g with links := g.links ++ ls } := by
  induction ls generalizing a g with
  | nil => rwa [List.append_nil]
  | cons l ls ih =>
    have hrest := ih (h.addLink l)
    rwa [Graph.addLink, List.append_assoc, List.singleton_append] at hrest

theorem Holds.addProperties {a : Arena} {g : Graph} (h : a.Holds g) (ps : List Property) :
    (ps.foldl Arena.addProperty a).Holds { g with properties := g.properties ++ ps } := by
  induction ps generalizing a g with
  | nil => rwa [List.append_nil]
  | cons p ps ih =>
    have hrest := ih (h.addProperty p)
    rwa [Graph.addProperty, List.append_assoc, List.singleton_append] at hrest

/-- **Loading an arena is no fault, and goes as loading the graph.** -/
theorem ofDocument_holds (id : GraphId) (d : Document) :
    ∃ r, ofDocument id d = .ok r ∧ HoldsResult r (Graph.ofDocument id d) := by
  rw [ofDocument, Graph.ofDocument]
  split
  · exact ⟨_, rfl, .error _⟩
  · have hnew := holds_new id d.entryGuid
    have hmoved := hnew.withEntryPosition d.entryPosition
    have hinsert := (hnew.of_withEntryPosition hmoved).insertNodes d.nodes
    rw [hmoved]
    refine ⟨_, rfl, ?_⟩
    show HoldsResult ((Arena.insertNodes _ d.nodes).map _) _
    cases hr : Graph.insertNodes _ d.nodes with
    | error e =>
      rw [hr] at hinsert
      rw [hinsert.eq_error]
      exact .error e
    | ok g =>
      rw [hr] at hinsert
      obtain ⟨a, ha, h⟩ := hinsert.eq_ok
      -- the nodes came to a start without links and properties
      obtain ⟨ms, -, -, rfl⟩ := Graph.insertNodes_ok hr
      rw [ha]
      exact .ok ((h.addLinks d.links).addProperties d.properties)

theorem ofText_holds (id : GraphId) (s : String) :
    ∃ r, ofText id s = .ok r ∧ HoldsResult r (Graph.ofText id s) := by
  rw [ofText, Graph.ofText]
  cases (Json.Codec.ofText? s : Option Document) with
  | none => exact ⟨_, rfl, .error _⟩
  | some d => exact ofDocument_holds id d

theorem Holds.reloaded {a : Arena} {g : Graph} (h : a.Holds g) (indented : Bool) (id : GraphId) :
    ∃ r, a.reloaded indented id = .ok r ∧
      HoldsResult r (Graph.ofText id (g.text indented)) := by
  rw [Arena.reloaded, h.graph]
  exact ofText_holds id _

end Arena

/-! ### Histories -/

namespace Graph

/-- One thing that is done to a graph while it is in use. -/
inductive Change where
  | edit (e : Edit)
  /-- Another property, of any name, over the one at a place. -/
  | overwrite (place : Nat) (p : Property)
  | clone
  /-- Saving as a text, indented or not, and loading under a new id; when that fails, the old graph
  stays. -/
  | reload (indented : Bool) (id : GraphId)

def change (g : Graph) : Change → Graph
  | .edit e => g.edit e
  | .overwrite place p => { g with properties := g.properties.set place p }
  | .clone => g
  | .reload indented id =>
    match ofText id (g.text indented) with
    | .ok g' => g'
    | .error _ => g

def changed (g : Graph) (cs : List Change) : Graph := cs.foldl change g

theorem WellFormed.eq_regrouped {g g' : Graph} (h : g.WellFormed) {indented : Bool} {id : GraphId}
    (hload : ofText id (g.text indented) = .ok g') : g' = g.regrouped id := by
  have hread : Json.Codec.ofText? (g.text indented) =
      if g.isPlaced then some (Document.ofGraph g) else none := by
    cases indented with
    | false => exact ofText?_compactText h
    | true => exact ofText?_prettyText h
  rw [ofText, hread] at hload
  cases hplaced : g.isPlaced with
  | false =>
    rw [hplaced] at hload
    cases hload
  | true =>
    rw [hplaced] at hload
    exact (eq_regrouped_of_load h hload).2

theorem WellFormed.change_reload {g : Graph} (h : g.WellFormed) (indented : Bool) (id : GraphId) :
    g.change (.reload indented id) = g.regrouped id ∨ g.change (.reload indented id) = g := by
  rw [Graph.change]
  split
  · rename_i g' hload
    exact .inl (h.eq_regrouped hload)
  · exact .inr rfl

theorem WellFormed.change {g : Graph} (h : g.WellFormed) (c : Change) :
    (g.change c).WellFormed := by
  cases c with
  | edit e => exact h.edit e
  | overwrite place p => exact h.of_body rfl rfl
  | clone => exact h
  | reload indented id =>
    obtain hback | hkept := h.change_reload indented id
    · rw [hback]
      exact h.regrouped id
    · rwa [hkept]

theorem WellFormed.changed {g : Graph} (h : g.WellFormed) (cs : List Change) :
    (g.changed cs).WellFormed := by
  unfold Graph.changed
  induction cs generalizing g with
  | nil => exact h
  | cons c cs ih => exact ih (h.change c)

theorem WellFormed.entryGuid_change {g : Graph} (h : g.WellFormed) (c : Change) :
    (g.change c).entryGuid = g.entryGuid := by
  cases c with
  | edit e => exact g.entryGuid_edit e
  | overwrite place p => rfl
  | clone => rfl
  | reload indented id =>
    obtain hback | hkept := h.change_reload indented id
    · rw [hback]
      rfl
    · rw [hkept]

theorem WellFormed.entryGuid_changed {g : Graph} (h : g.WellFormed) (cs : List Change) :
    (g.changed cs).entryGuid = g.entryGuid := by
  unfold Graph.changed
  induction cs generalizing g with
  | nil => rfl
  | cons c cs ih => exact (ih (h.change c)).trans (h.entryGuid_change c)

end Graph

namespace Arena

def edit (a : Arena) : Graph.Edit → Except Fault Arena
  | .node n => .ok (a.withNode n)
  | .link l => .ok (a.addLink l)
  | .property p => .ok (a.addProperty p)
  | .entryPosition p => a.withEntryPosition p
  | .value place v => .ok (a.setValueAt place v)

def change (a : Arena) : Graph.Change → Except Fault Arena
  | .edit e => a.edit e
  | .overwrite place p => .ok (a.setPropertyAt place p)
  | .clone => .ok a
  | .reload indented id => (a.reloaded indented id).map fun
    | .ok a' => a'
    | .error _ => a

def changed (a : Arena) : List Graph.Change → Except Fault Arena
  | [] => .ok a
  | c :: cs => (a.change c).bind fun a' => a'.changed cs

/-- How many nodes a change inserts. -/
def admits (a : Arena) : Graph.Change → Nat
  | .edit (.node n) => if (a.insertNode n).1.isOk then 1 else 0
  | _ => 0

/-- How many nodes are inserted in the course of changes. -/
def admitted (a : Arena) : List Graph.Change → Nat
  | [] => 0
  | c :: cs =>
    match a.change c with
    | .ok a' => a.admits c + a'.admitted cs
    | .error _ => a.admits c

section

variable {a : Arena} {g : Graph}

theorem Holds.edit (h : a.Holds g) (e : Graph.Edit) :
    ∃ a', a.edit e = .ok a' ∧ a'.Holds (g.edit e) := by
  cases e with
  | node n => exact ⟨_, rfl, h.withNode n⟩
  | link l => exact ⟨_, rfl, h.addLink l⟩
  | property p => exact ⟨_, rfl, h.addProperty p⟩
  | entryPosition p =>
    exact ⟨_, h.withEntryPosition p, h.of_withEntryPosition (h.withEntryPosition p)⟩
  | value place v => exact ⟨_, rfl, h.setValueAt place v⟩

/-- **No change is a fault, and an arena and the graph that it holds change alike.** -/
theorem Holds.change (h : a.Holds g) (c : Graph.Change) :
    ∃ a', a.change c = .ok a' ∧ a'.Holds (g.change c) := by
  cases c with
  | edit e => exact h.edit e
  | overwrite place p => exact ⟨_, rfl, h.setPropertyAt place p⟩
  | clone => exact ⟨_, rfl, h⟩
  | reload indented id =>
    obtain ⟨r, hr, hresult⟩ := h.reloaded indented id
    rw [Arena.change, Graph.change, hr]
    refine ⟨_, rfl, ?_⟩
    cases hload : Graph.ofText id (g.text indented) with
    | ok g' =>
      rw [hload] at hresult
      obtain ⟨a', rfl, h'⟩ := hresult.eq_ok
      exact h'
    | error e =>
      rw [hload] at hresult
      rw [hresult.eq_error]
      exact h

theorem Holds.changed (h : a.Holds g) (cs : List Graph.Change) :
    ∃ a', a.changed cs = .ok a' ∧ a'.Holds (g.changed cs) := by
  induction cs generalizing a g with
  | nil => exact ⟨a, rfl, h⟩
  | cons c cs ih =>
    obtain ⟨a₁, hchange, h₁⟩ := h.change c
    rw [Arena.changed, hchange]
    exact ih h₁

theorem Holds.nodeCount_change (h : a.Holds g) (hg : g.WellFormed) (c : Graph.Change) :
    (g.change c).nodeCount = g.nodeCount + a.admits c := by
  cases c with
  | edit e =>
    cases e with
    | node n =>
      rw [Graph.change, Graph.edit, Graph.withNode, admits]
      cases hn : g.insertNode n with
      | ok g' =>
        obtain ⟨-, -, rfl⟩ := Graph.insertNode_ok hn
        rw [(h.insertNode_ok hn).1]
        simp [Graph.nodeCount, Graph.nodes, Except.isOk, Except.toBool]
      | error e =>
        rw [h.insertNode_error hn]
        rfl
    | _ => rfl
  | overwrite place p => rfl
  | clone => rfl
  | reload indented id =>
    obtain hback | hkept := hg.change_reload indented id
    · have hbody := (Graph.body_regrouped_perm hg id).length_eq
      rw [List.length_map] at hbody
      rw [hback]
      exact congrArg (· + 1) hbody
    · rw [hkept]
      rfl

theorem Holds.nodeCount_changed (h : a.Holds g) (hg : g.WellFormed) (cs : List Graph.Change) :
    (g.changed cs).nodeCount = g.nodeCount + a.admitted cs := by
  induction cs generalizing a g with
  | nil => rfl
  | cons c cs ih =>
    obtain ⟨a₁, hchange, h₁⟩ := h.change c
    have hrest : (g.changed (c :: cs)).nodeCount = (g.change c).nodeCount + a₁.admitted cs :=
      ih h₁ (hg.change c)
    rw [hrest, h.nodeCount_change hg c, admitted, hchange, Nat.add_assoc]

end

/-! ### The invariant -/

/-- The guids of the nodes are distinct, the index has exactly these guids, each with its place, and
the start comes first and is the only start. -/
structure InStep (a : Arena) : Prop where
  distinct : (a.nodes.map Node.guid).Nodup
  placed : ∀ u i, a.place? u = some i ↔ ∃ n, a.nodes[i]? = some n ∧ n.guid = u
  entryFirst : ∃ e body, a.nodes = e :: body ∧ e.guid = a.entryGuid ∧ e.isEntry = true ∧
    ∀ n ∈ body, n.isEntry = false

theorem Holds.inStep {a : Arena} {g : Graph} (h : a.Holds g) (hg : g.WellFormed) : a.InStep where
  distinct := by
    rw [h.nodes]
    exact hg.distinct
  placed u i := by
    rw [h.place, h.nodes]
    exact hg.index?_eq_some_iff
  entryFirst := ⟨g.entry, g.body, h.nodes, h.entryGuid.symm, rfl, hg.oneEntry⟩

/-- An arena as it is first had, a start alone or loaded from a document, with the number of records
that became nodes. -/
inductive Opened : Arena → Nat → Prop
  | new (id : GraphId) (entryGuid : Guid) : Opened (new id entryGuid) 0
  | loaded {id : GraphId} {d : Document} {a : Arena} (h : ofDocument id d = .ok (.ok a)) :
    Opened a d.records.length

theorem Opened.holds {a : Arena} {k : Nat} (h : Opened a k) :
    ∃ g, a.Holds g ∧ g.WellFormed ∧ g.nodeCount = 1 + k := by
  cases h with
  | new id entryGuid => exact ⟨_, holds_new id entryGuid, Graph.wellFormed_new id entryGuid, rfl⟩
  | @loaded id d _ h =>
    obtain ⟨r, hr, hresult⟩ := ofDocument_holds id d
    rw [h] at hr
    cases hr
    cases hload : Graph.ofDocument id d with
    | error e =>
      rw [hload] at hresult
      exact absurd hresult.eq_error (by simp)
    | ok g =>
      rw [hload] at hresult
      obtain ⟨a', ha, hholds⟩ := hresult.eq_ok
      cases ha
      have hcount := congrArg List.length (Graph.ofDocument_ok hload).2.1
      rw [Document.nodes_eq, List.length_map, List.length_map] at hcount
      refine ⟨g, hholds, Graph.wellFormed_ofDocument hload, ?_⟩
      rw [Graph.nodeCount, Graph.nodes, List.length_cons, ← hcount, Nat.add_comm]

/-- **Table and index stay in step.** Loading is no fault. However an arena was first had and
whatever was done to it since, nothing was a fault, and table and index are in step: a guid leads to
the one node that has it, the start is found and can be moved, the nodes are the start, those loaded
and those accepted, and a node is refused just if it is a start or else has a guid in use, which
changes nothing. -/
theorem index_in_step :
    (∀ id d, ∃ r, ofDocument id d = .ok r) ∧
    ∀ a₀ k, Opened a₀ k → ∀ cs, ∃ a, a₀.changed cs = .ok a ∧ a.InStep ∧
      a.entryGuid = a₀.entryGuid ∧ a.nodeCount = 1 + k + a₀.admitted cs ∧
      (∀ u, ∃ o, a.node u = .ok o ∧ a.contains u = o.isSome ∧
        ∀ n, o = some n ↔ n ∈ a.nodes ∧ n.guid = u) ∧
      (∃ e body, a.nodes = e :: body ∧ a.entry = .ok e ∧ ∀ p,
        a.withEntryPosition p = .ok { a with nodes := { e with position := p } :: body }) ∧
      ∀ n : Node,
        (n.isEntry = true → a.insertNode n = (.error (.multipleEntries n.guid), a)) ∧
        (n.isEntry = false → n.guid ∈ a.nodes.map Node.guid →
          a.insertNode n = (.error (.duplicateGuid n.guid), a)) ∧
        (n.isEntry = false → n.guid ∉ a.nodes.map Node.guid → (a.insertNode n).1 = .ok ()) := by
  refine ⟨fun id d => ?_, fun a₀ k hopened cs => ?_⟩
  · obtain ⟨r, hr, -⟩ := ofDocument_holds id d
    exact ⟨r, hr⟩
  obtain ⟨g₀, h₀, hwell₀, hcount₀⟩ := hopened.holds
  obtain ⟨a, hchanged, h⟩ := h₀.changed cs
  have hwell := hwell₀.changed cs
  refine ⟨a, hchanged, h.inStep hwell, ?_, ?_, fun u => ?_, ?_, fun n => ?_⟩
  · rw [h.entryGuid, hwell₀.entryGuid_changed, h₀.entryGuid]
  · rw [nodeCount, h.nodes, ← hcount₀]
    exact h₀.nodeCount_changed hwell₀ cs
  · refine ⟨_, h.node hwell u, ?_, fun n => ?_⟩
    · rw [h.contains, Graph.contains_eq]
    · rw [h.nodes]
      exact hwell.node?_eq_some_iff
  · exact ⟨_, _, h.nodes, h.entry, h.withEntryPosition⟩
  · rw [h.nodes, ← Graph.contains_iff_mem, ← h.contains]
    refine ⟨fun hentry => ?_, fun hentry hused => ?_, fun hentry hfresh => ?_⟩
    · rw [insertNode, if_pos hentry]
    · rw [insertNode, hentry, hused]
      rfl
    · rw [Bool.not_eq_true] at hfresh
      rw [insertNode, hentry, hfresh]
      rfl

/-- The document of a line and an end. -/
def quayDocument : Document where
  entryGuid := ⟨"start"⟩
  entryPosition := .origin
  basicNodes := [⟨⟨"quay"⟩, "All aboard!", .origin, 2⟩]
  choiceNodes := []
  conditionNodes := []
  focusNodes := []
  eventNodes := []
  exitNodes := [⟨⟨"end"⟩, .origin⟩]
  links := [⟨⟨"start"⟩, ⟨"quay"⟩, 0⟩]
  intProperties := []
  stringProperties := [⟨⟨"p1"⟩, "ship", "Heron"⟩]
  boolProperties := []

def quay : Arena where
  id := ⟨1⟩
  entryGuid := ⟨"start"⟩
  nodes := [.ofKind ⟨"start"⟩ "" .entry, .ofKind ⟨"quay"⟩ "All aboard!" (.basic (some .actor)),
    .ofKind ⟨"end"⟩ "" .exit]
  index := [(⟨"end"⟩, 2), (⟨"quay"⟩, 1), (⟨"start"⟩, 0)]
  links := [⟨⟨"start"⟩, ⟨"quay"⟩, 0⟩]
  properties := [⟨⟨"p1"⟩, "ship", .string "Heron"⟩]

/-- Of three nodes the first is accepted; a used guid and a second start are refused. -/
def boarding : List Graph.Change :=
  [.edit (.node (.ofKind ⟨"deck"⟩ "" (.event "depart"))),
    .edit (.node (.ofKind ⟨"quay"⟩ "" .exit)), .edit (.node (.ofKind ⟨"quay"⟩ "" .entry)),
    .edit (.entryPosition ⟨⟨0x3FC00000⟩, ⟨0⟩⟩), .overwrite 0 ⟨⟨"p2"⟩, "crew", .int 7⟩, .clone]

theorem index_in_step_quay : ofDocument ⟨1⟩ quayDocument = .ok (.ok quay) ∧
    ∃ a, quay.changed boarding = .ok a ∧ a.InStep ∧ a.entryGuid = ⟨"start"⟩ ∧ a.nodeCount = 4 := by
  have hload : ofDocument ⟨1⟩ quayDocument = .ok (.ok quay) := by decide
  obtain ⟨a, hchanged, hstep, hentry, hcount, -⟩ :=
    index_in_step.2 quay 2 (.loaded hload) boarding
  refine ⟨hload, a, hchanged, hstep, hentry, hcount.trans ?_⟩
  decide

end Arena

end Dialogue

import Dialogue.Blackboard
import Dialogue.Graph.Links

/-!
# What writes leave alone

The outline of a graph is the graph with its values blanked. A write to the blackboard goes to a
name that exactly one property has and keeps the kind of that property (`set_ok`), so it leaves
every outline as it was (`outline_of_set`): nodes, links, and the names and kinds of the properties.
Registering and removing other graphs does not move a registered graph either.
-/

namespace Dialogue

/-! ### Outlines -/

/-- The value that stands for all values of a kind. -/
def PropertyKind.blank : PropertyKind → PropertyValue
  | .int => .int 0
  | .string => .string ""
  | .bool => .bool false

def Property.outline (p : Property) : Property := { p with value := p.kind.blank }

namespace Graph

/-- A graph with its values blanked. -/
def outline (g : Graph) : Graph := { g with properties := g.properties.map Property.outline }

theorem next?_eq_of_outline {g g' : Graph} (h : g.outline = g'.outline) (u : Guid)
    (port : PortIndex) : g.next? u port = g'.next? u port := by
  show g.outline.next? u port = g'.outline.next? u port
  rw [h]

theorem node?_eq_of_outline {g g' : Graph} (h : g.outline = g'.outline) (u : Guid) :
    g.node? u = g'.node? u := by
  show g.outline.node? u = g'.outline.node? u
  rw [h]

theorem contains_eq (g : Graph) (u : Guid) : g.contains u = (g.node? u).isSome := by
  rw [contains, node?, List.isSome_find?]

theorem guid_of_node? {g : Graph} {u : Guid} {n : Node} (h : g.node? u = some n) : n.guid = u := by
  simpa using List.find?_some h

theorem node?_of_next? {g : Graph} {u : Guid} {port : PortIndex} {n : Node}
    (h : g.next? u port = some n) : g.node? n.guid = some n := by
  unfold next? at h
  obtain ⟨l, -, hn⟩ := Option.bind_eq_some_iff.mp h
  rw [guid_of_node? hn]
  exact hn

/-! ### Named properties -/

theorem outline_setNamed {g : Graph} {name : String} {v : PropertyValue}
    (h : ∀ p ∈ g.properties, p.name = name → p.kind = v.kind) :
    (g.setNamed name v).outline = g.outline := by
  have hmap : (g.setNamed name v).properties.map Property.outline =
      g.properties.map Property.outline := by
    simp only [setNamed, List.map_map]
    refine List.map_congr_left fun p hp => ?_
    simp only [Function.comp_apply]
    split
    · rename_i hname
      simp only [Property.outline, h p hp hname]
      rfl
    · rfl
  simp only [outline, hmap]
  rfl

theorem setNamed_of_absent {g : Graph} {name : String} (v : PropertyValue)
    (h : ∀ p ∈ g.properties, p.name ≠ name) : g.setNamed name v = g := by
  have hmap : (g.setNamed name v).properties = g.properties := by
    refine (List.map_congr_left fun p hp => ?_).trans (List.map_id _)
    rw [if_neg (h p hp)]
    rfl
  show { g with properties := (g.setNamed name v).properties } = g
  rw [hmap]

end Graph

/-! ### Blackboards -/

namespace Blackboard

def outline (b : Blackboard) : Blackboard := ⟨b.graphs.map Graph.outline⟩

theorem id_of_graph? {b : Blackboard} {id : GraphId} {g : Graph} (h : b.graph? id = some g) :
    g.id = id := by
  simpa using List.find?_some h

theorem mem_of_graph? {b : Blackboard} {id : GraphId} {g : Graph} (h : b.graph? id = some g) :
    g ∈ b.graphs :=
  List.mem_of_find?_eq_some h

theorem graph?_map (b : Blackboard) (f : Graph → Graph) (hf : ∀ g, (f g).id = g.id)
    (id : GraphId) : graph? ⟨b.graphs.map f⟩ id = (b.graph? id).map f := by
  simp only [graph?, List.find?_map]
  congr 2
  funext g
  simp only [Function.comp_apply, hf]

theorem graph?_outline (b : Blackboard) (id : GraphId) :
    b.outline.graph? id = (b.graph? id).map Graph.outline :=
  graph?_map b Graph.outline (fun _ => rfl) id

theorem graph?_of_outline {b b' : Blackboard} (h : b'.outline = b.outline) {id : GraphId}
    {g : Graph} (hg : b.graph? id = some g) :
    ∃ g', b'.graph? id = some g' ∧ g'.outline = g.outline := by
  have hmap : (b'.graph? id).map Graph.outline = some g.outline := by
    rw [← graph?_outline, h, graph?_outline, hg]
    rfl
  exact Option.map_eq_some_iff.mp hmap

theorem mem_named {b : Blackboard} {name : String} {x : GraphId × Property} :
    x ∈ b.named name ↔ ∃ g ∈ b.graphs, g.id = x.1 ∧ x.2 ∈ g.properties ∧ x.2.name = name := by
  simp only [named, List.mem_flatMap, List.mem_map, List.mem_filter, decide_eq_true_eq]
  constructor
  · rintro ⟨g, hg, p, ⟨hp, hname⟩, rfl⟩
    exact ⟨g, hg, rfl, hp, hname⟩
  · rintro ⟨g, hg, hid, hp, hname⟩
    exact ⟨g, hg, x.2, ⟨hp, hname⟩, Prod.ext hid rfl⟩

theorem named_of_resolve {b : Blackboard} {name : String} {x : GraphId × Property}
    (h : b.resolve name = .ok x) : b.named name = [x] := by
  unfold resolve at h
  split at h
  · cases h
  · rename_i y hy
    rw [hy]
    cases h
    rfl
  · cases h

theorem set_ok {b b' : Blackboard} {name : String} {v : PropertyValue} {owner : GraphId}
    (h : b.set name v = .ok (owner, b')) :
    b'.graphs = b.graphs.map (·.setNamed name v) ∧
      ∀ g ∈ b.graphs, ∀ p ∈ g.properties, p.name = name → g.id = owner ∧ p.kind = v.kind := by
  unfold set at h
  split at h
  · rename_i x hx
    have honly := named_of_resolve hx
    split at h
    · rename_i hkind
      simp only [Except.ok.injEq, Prod.mk.injEq] at h
      obtain ⟨rfl, rfl⟩ := h
      refine ⟨rfl, fun g hg p hp hname => ?_⟩
      have hmem : (g.id, p) ∈ b.named name := mem_named.mpr ⟨g, hg, rfl, hp, hname⟩
      rw [honly, List.mem_singleton] at hmem
      subst hmem
      exact ⟨rfl, hkind⟩
    · cases h
  · cases h

theorem graph?_of_set {b b' : Blackboard} {name : String} {v : PropertyValue} {owner : GraphId}
    (h : b.set name v = .ok (owner, b')) (id : GraphId) :
    b'.graph? id = (b.graph? id).map (·.setNamed name v) := by
  have hgraphs := (set_ok h).1
  have hb : b' = ⟨b.graphs.map (·.setNamed name v)⟩ := by
    rw [← hgraphs]
  rw [hb]
  exact graph?_map b (·.setNamed name v) (fun _ => rfl) id

theorem outline_of_set {b b' : Blackboard} {name : String} {v : PropertyValue} {owner : GraphId}
    (h : b.set name v = .ok (owner, b')) : b'.outline = b.outline := by
  obtain ⟨hgraphs, honly⟩ := set_ok h
  simp only [outline, hgraphs, List.map_map]
  congr 1
  exact List.map_congr_left fun g hg =>
    Graph.outline_setNamed fun p hp hname => (honly g hg p hp hname).2

theorem graph?_register {b : Blackboard} {id : GraphId} {g : Graph} (h : b.graph? id = some g)
    (new : Graph) : (b.register new).graph? id = some g := by
  unfold register
  split
  · exact h
  · simp only [graph?, List.find?_append]
    rw [show b.graphs.find? (fun g => g.id = id) = some g from h]
    rfl

theorem graph?_unregister {b : Blackboard} {id other : GraphId} (hne : other ≠ id) :
    (b.unregister other).2.graph? id = b.graph? id := by
  unfold unregister
  split
  · simp only [graph?]
    induction b.graphs with
    | nil => rfl
    | cons g gs ih =>
      by_cases hg : g.id = other
      · have hid : ¬ g.id = id := fun h => hne (hg.symm.trans h)
        rw [List.eraseP_cons_of_pos (by simpa using hg), List.find?_cons_of_neg (by simpa using hid)]
      · rw [List.eraseP_cons_of_neg (by simpa using hg)]
        by_cases hid : g.id = id
        · rw [List.find?_cons_of_pos (by simpa using hid), List.find?_cons_of_pos (by simpa using hid)]
        · rw [List.find?_cons_of_neg (by simpa using hid), List.find?_cons_of_neg (by simpa using hid),
            ih]
  · rfl

end Blackboard

end Dialogue

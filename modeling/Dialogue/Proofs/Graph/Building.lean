import Dialogue.Graph.Basic

/-!
# Building graphs

A graph is built from its start by edits: nodes, links and properties are added, the start is moved,
and properties are given new values (`Graph.edited`). A node that is refused changes nothing. Every
built graph is well-formed (`wellFormed_edited`), so a guid finds the one node that has it
(`WellFormed.node?_eq_some_iff`).
-/

namespace Dialogue.Graph

/-! ### Edits -/

/-- One step in building a graph. -/
inductive Edit where
  | node (n : Node)
  | link (l : Link)
  | property (p : Property)
  | entryPosition (p : Position)
  /-- A new value, of any kind, for the property at a place. -/
  | value (place : Nat) (v : PropertyValue)

def edit (g : Graph) : Edit → Graph
  | .node n => g.withNode n
  | .link l => g.addLink l
  | .property p => g.addProperty p
  | .entryPosition p => g.withEntryPosition p
  | .value place v => g.setValueAt place v

def edited (g : Graph) (edits : List Edit) : Graph := edits.foldl edit g

/-! ### Inserting a node -/

theorem insertNode_ok {g g' : Graph} {n : Node} (h : g.insertNode n = .ok g') :
    n.isEntry = false ∧ g.contains n.guid = false ∧ g' = { g with body := g.body ++ [n] } := by
  unfold insertNode at h
  split at h
  · cases h
  · rename_i hentry
    split at h
    · cases h
    · rename_i hused
      cases h
      exact ⟨by simpa using hentry, by simpa using hused, rfl⟩

theorem insertNode_of_fresh {g : Graph} {n : Node} (hentry : n.isEntry = false)
    (hfresh : n.guid ∉ g.nodes.map Node.guid) :
    g.insertNode n = .ok { g with body := g.body ++ [n] } := by
  have hused : g.contains n.guid = false := by
    simp only [contains, List.any_eq_false, decide_eq_true_eq]
    intro m hm hguid
    exact hfresh (List.mem_map.mpr ⟨m, hm, hguid⟩)
  rw [insertNode, hentry, hused]
  rfl

/-! ### Well-formed graphs -/

theorem WellFormed.of_body {g g' : Graph} (h : g.WellFormed) (hentry : g'.entryGuid = g.entryGuid)
    (hbody : g'.body = g.body) : g'.WellFormed := by
  have hguids : g'.nodes.map Node.guid = g.nodes.map Node.guid := by
    simp only [nodes, List.map_cons, hbody, entry, hentry]
  refine ⟨?_, ?_⟩
  · rw [hguids]
    exact h.distinct
  · rw [hbody]
    exact h.oneEntry

theorem wellFormed_new (id : GraphId) (entryGuid : Guid) : (new id entryGuid).WellFormed :=
  ⟨by simp [new, nodes], fun _ hn => absurd hn List.not_mem_nil⟩

theorem WellFormed.insertNode {g g' : Graph} {n : Node} (h : g.WellFormed)
    (hok : g.insertNode n = .ok g') : g'.WellFormed := by
  obtain ⟨hentry, hused, rfl⟩ := insertNode_ok hok
  refine ⟨?_, fun m hm => ?_⟩
  · have hguids : (g.entry :: (g.body ++ [n])).map Node.guid =
        g.nodes.map Node.guid ++ [n.guid] := by
      simp [nodes]
    have hfresh : n.guid ∉ g.nodes.map Node.guid := by
      intro hmem
      obtain ⟨m, hm, hguid⟩ := List.mem_map.mp hmem
      have hall := List.any_eq_false.mp hused m hm
      exact hall (by simpa using hguid)
    show ((g.entry :: (g.body ++ [n])).map Node.guid).Nodup
    rw [hguids, List.nodup_append]
    refine ⟨h.distinct, by simp, ?_⟩
    intro u hu v hv huv
    rw [List.mem_singleton.mp hv] at huv
    exact hfresh (huv ▸ hu)
  · rcases List.mem_append.mp hm with hm | hm
    · exact h.oneEntry m hm
    · rw [List.mem_singleton.mp hm]
      exact hentry

theorem WellFormed.edit {g : Graph} (h : g.WellFormed) (e : Edit) : (g.edit e).WellFormed := by
  cases e with
  | node n =>
    show (g.withNode n).WellFormed
    unfold withNode
    split
    · rename_i g' hok
      exact h.insertNode hok
    · exact h
  | link l => exact h.of_body rfl rfl
  | property p => exact h.of_body rfl rfl
  | entryPosition p => exact h.of_body rfl rfl
  | value place v => exact h.of_body rfl rfl

/-- **Every graph that is built is well-formed.** -/
theorem wellFormed_edited {g : Graph} (h : g.WellFormed) (edits : List Edit) :
    (g.edited edits).WellFormed := by
  unfold edited
  induction edits generalizing g with
  | nil => exact h
  | cons e edits ih => exact ih (h.edit e)

theorem entryGuid_edit (g : Graph) (e : Edit) : (g.edit e).entryGuid = g.entryGuid := by
  cases e with
  | node n =>
    show (g.withNode n).entryGuid = g.entryGuid
    unfold withNode
    split
    · rename_i g' hok
      rw [(insertNode_ok hok).2.2]
    · rfl
  | _ => rfl

theorem entryGuid_edited (g : Graph) (edits : List Edit) :
    (g.edited edits).entryGuid = g.entryGuid := by
  unfold edited
  induction edits generalizing g with
  | nil => rfl
  | cons e edits ih => exact (ih (g.edit e)).trans (g.entryGuid_edit e)

/-- A graph that is built by edits on a start with a name. -/
def Built (g : Graph) : Prop :=
  ∃ id entryGuid edits, entryGuid.text ≠ "" ∧ g = (new id entryGuid).edited edits

theorem Built.wellFormed {g : Graph} (h : g.Built) : g.WellFormed := by
  obtain ⟨id, entryGuid, edits, -, rfl⟩ := h
  exact wellFormed_edited (wellFormed_new id entryGuid) edits

theorem Built.named {g : Graph} (h : g.Built) : g.entryGuid.text ≠ "" := by
  obtain ⟨id, entryGuid, edits, hguid, rfl⟩ := h
  rw [entryGuid_edited]
  exact hguid

theorem WellFormed.node?_eq_some_iff {g : Graph} (h : g.WellFormed) {u : Guid} {n : Node} :
    g.node? u = some n ↔ n ∈ g.nodes ∧ n.guid = u := by
  constructor
  · intro hn
    exact ⟨List.mem_of_find?_eq_some hn, by simpa using List.find?_some hn⟩
  · rintro ⟨hmem, rfl⟩
    have hdistinct := h.distinct
    unfold node?
    generalize g.nodes = ns at hmem hdistinct ⊢
    induction ns with
    | nil => exact absurd hmem List.not_mem_nil
    | cons m ns ih =>
      rw [List.map_cons, List.nodup_cons] at hdistinct
      by_cases hguid : m.guid = n.guid
      · rw [List.find?_cons_of_pos (by simpa using hguid)]
        rcases List.mem_cons.mp hmem with rfl | hmem
        · rfl
        · exact absurd (hguid ▸ List.mem_map_of_mem hmem) hdistinct.1
      · rw [List.find?_cons_of_neg (by simpa using hguid)]
        rcases List.mem_cons.mp hmem with rfl | hmem
        · exact absurd rfl hguid
        · exact ih hmem hdistinct.2

end Dialogue.Graph

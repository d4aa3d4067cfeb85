import Dialogue.Proofs.Story.Outline
import Dialogue.Scope

/-!
# Templates and live values

What a line shows and what a branch finds, said of the graph itself: a token stands for the value of
the first property of its name (`Graph.spoken`), and a branch reads the first property of its name
that is a truth value (`Graph.flag?`). The template of a graph does both (`render_ofGraph`,
`check_ofGraph`). A template is coherent in a scope when it is the template of its graph as
registered there; a write keeps it so (`Scope.Coherent.set`), because the name it goes to has a single
property over all graphs: if the template's graph owns it, one token is patched, and the graph has
no such name otherwise.
-/

namespace Dialogue

/-! ### Live values -/

namespace Graph

/-- The truth value of the first property of a name that is a truth value. -/
def flag? (g : Graph) (name : String) : Option Bool :=
  g.properties.findSome? fun p => if p.name = name then p.value.bool? else none

/-- The displayed value of the first property of a name. -/
def shown? (g : Graph) (name : String) : Option String :=
  (g.properties.find? fun p => p.name = name).map fun p => p.value.display

/-- A text with each token that names a property replaced by the displayed value. -/
def spoken (g : Graph) (text : String) : String :=
  String.ofList ((Segment.ofChars text.toList).flatMap fun
    | .plain c => [c]
    | .token name =>
      match g.shown? (String.ofList name) with
      | some value => value.toList
      | none => (Segment.token name).source)

end Graph

/-- What a branch makes of a truth value that may be missing. -/
def ConditionResult.ofFlag : Option Bool → ConditionResult
  | some Bool.true => .true
  | some Bool.false => .false
  | none => .unknown

namespace Template

theorem lookup_replacements (ps : List Property) (name : String) :
    (ps.map fun p => (p.name, p.value.display)).lookup name =
      (ps.find? fun p => p.name = name).map fun p => p.value.display := by
  induction ps with
  | nil => rfl
  | cons p ps ih =>
    by_cases h : p.name = name
    · rw [List.map_cons, h, List.lookup_cons_self, List.find?_cons_of_pos (by simpa using h)]
      rfl
    · have hne : (name == p.name) = false := by simpa using Ne.symm h
      rw [List.map_cons, List.lookup_cons, hne, List.find?_cons_of_neg (by simpa using h)]
      exact ih

theorem lookup_conditions (ps : List Property) (name : String) :
    (ps.filterMap fun p => p.value.bool?.map fun b => (p.name, b)).lookup name =
      ps.findSome? fun p => if p.name = name then p.value.bool? else none := by
  induction ps with
  | nil => rfl
  | cons p ps ih =>
    cases hb : p.value.bool? with
    | none => simp [hb, ih]
    | some b =>
      by_cases h : p.name = name
      · simp [hb, h]
      · have hne : (name == p.name) = false := by simpa using Ne.symm h
        simp [hb, h, List.lookup_cons, hne, ih]

theorem replacements_ofGraph (g : Graph) :
    (ofGraph g).replacements = g.properties.map fun p => (p.name, p.value.display) := by
  simp only [ofGraph, ofStory, Graph.story, List.map_map]
  rfl

theorem conditions_ofGraph (g : Graph) : (ofGraph g).conditions =
    g.properties.filterMap fun p => p.value.bool?.map fun b => (p.name, b) := by
  simp only [ofGraph, ofStory, Graph.story, List.filterMap_map]
  rfl

theorem render_ofGraph (g : Graph) (text : String) : (ofGraph g).render text = g.spoken text := by
  have hexpand : (ofGraph g).expand = fun
      | .plain c => [c]
      | .token name =>
        match g.shown? (String.ofList name) with
        | some value => value.toList
        | none => (Segment.token name).source := by
    funext segment
    cases segment with
    | plain c => rfl
    | token name =>
      simp only [expand, replacement?, replacements_ofGraph, lookup_replacements]
      rfl
  rw [render, hexpand]
  rfl

theorem check_ofGraph (g : Graph) (name : String) :
    (ofGraph g).check name = .ofFlag (g.flag? name) := by
  rw [check, conditions_ofGraph, lookup_conditions]
  show _ = ConditionResult.ofFlag (g.flag? name)
  rw [Graph.flag?]
  generalize g.properties.findSome? _ = found
  cases found with
  | none => rfl
  | some b => cases b <;> rfl

/-! ### Patching -/

theorem patch_replacements (ps : List Property) (name : String) (v : PropertyValue) :
    patch name v.display (ps.map fun p => (p.name, p.value.display)) =
      (ps.map fun p => if p.name = name then { p with value := v } else p).map
        fun p => (p.name, p.value.display) := by
  simp only [patch, List.map_map]
  refine List.map_congr_left fun p _ => ?_
  simp only [Function.comp_apply]
  split <;> rfl

theorem conditions_write (ps : List Property) (name : String) (v : PropertyValue) :
    (∀ p ∈ ps, p.name = name → p.kind = v.kind) →
      (ps.map fun p => if p.name = name then { p with value := v } else p).filterMap
        (fun p => p.value.bool?.map fun b => (p.name, b)) =
      match v with
      | .bool b => patch name b (ps.filterMap fun p => p.value.bool?.map fun b => (p.name, b))
      | _ => ps.filterMap fun p => p.value.bool?.map fun b => (p.name, b) := by
  intro h
  induction ps with
  | nil => cases v <;> rfl
  | cons p ps ih =>
    have hps := ih fun q hq => h q (List.mem_cons_of_mem _ hq)
    have hp := h p List.mem_cons_self
    simp only [List.map_cons, List.filterMap_cons, hps]
    obtain ⟨guid, pname, value⟩ := p
    simp only [Property.kind] at hp
    by_cases hname : pname = name
    · have hkind := hp hname
      cases v <;> cases value <;> simp_all [PropertyValue.kind, PropertyValue.bool?, patch]
    · cases v <;> cases value <;> simp_all [PropertyValue.bool?, patch]

theorem ofGraph_setNamed {g : Graph} {name : String} {v : PropertyValue}
    (h : ∀ p ∈ g.properties, p.name = name → p.kind = v.kind) :
    ofGraph (g.setNamed name v) = (ofGraph g).update name v := by
  have hr : (ofGraph (g.setNamed name v)).replacements =
      ((ofGraph g).update name v).replacements := by
    simp only [update, replacements_ofGraph, patch_replacements]
    rfl
  have hc : (ofGraph (g.setNamed name v)).conditions = ((ofGraph g).update name v).conditions := by
    rw [conditions_ofGraph]
    show _ = match v with
      | .bool b => patch name b (ofGraph g).conditions
      | _ => (ofGraph g).conditions
    rw [conditions_ofGraph]
    exact conditions_write g.properties name v h
  exact Template.mk.injEq .. ▸ ⟨hr, hc⟩

end Template

/-! ### Coherent scopes -/

namespace Scope

/-- The active template is the template of its graph as it is registered. -/
def Coherent (s : Scope) : Prop :=
  ∀ id t, s.active = some (id, t) → ∃ g, s.blackboard.graph? id = some g ∧ t = .ofGraph g

theorem set_of_error {s : Scope} {name : String} {v : PropertyValue} {e : PropertyError}
    (h : s.blackboard.set name v = .error e) : s.set name v = (.error e, s) := by
  rw [set, h]

theorem set_of_ok {s : Scope} {name : String} {v : PropertyValue} {owner : GraphId} {b : Blackboard}
    (h : s.blackboard.set name v = .ok (owner, b)) : s.set name v =
      (.ok (), ⟨b, refresh s.active owner name v, .wrote owner name v :: s.journal⟩) := by
  rw [set, h]

theorem Coherent.set {s : Scope} (h : s.Coherent) (name : String) (v : PropertyValue) :
    (s.set name v).2.Coherent := by
  cases hset : s.blackboard.set name v with
  | error e =>
    rw [set_of_error hset]
    exact h
  | ok r =>
    obtain ⟨owner, b⟩ := r
    obtain ⟨-, honly⟩ := Blackboard.set_ok hset
    rw [set_of_ok hset]
    intro id t hactive
    simp only [refresh, Option.map_eq_some_iff] at hactive
    obtain ⟨⟨id', t'⟩, hold, hnew⟩ := hactive
    obtain ⟨g, hg, rfl⟩ := h id' t' hold
    have hgid := Blackboard.id_of_graph? hg
    have hmem := Blackboard.mem_of_graph? hg
    have hafter : b.graph? id' = some (g.setNamed name v) := by
      rw [Blackboard.graph?_of_set hset, hg]
      rfl
    simp only at hnew
    split at hnew
    · -- the session's graph owns the property: one token is patched
      cases hnew
      exact ⟨_, hafter, (Template.ofGraph_setNamed fun p hp hn => (honly g hmem p hp hn).2).symm⟩
    · -- another graph owns it, so the session's graph has no property of the name
      rename_i howner
      cases hnew
      have habsent : ∀ p ∈ g.properties, p.name ≠ name := fun p hp hn =>
        howner (hgid.symm.trans (honly g hmem p hp hn).1)
      rw [Graph.setNamed_of_absent v habsent] at hafter
      exact ⟨g, hafter, rfl⟩

end Scope

end Dialogue

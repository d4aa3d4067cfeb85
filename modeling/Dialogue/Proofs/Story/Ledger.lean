import Dialogue.Proofs.Story.Work
import Mathlib.Data.List.Nodup

/-!
# The ledger of writes

Every write that succeeds is entered in the journal with the graph that owns the property. From the
entries since some moment one can tell what a graph has become: each property has the last value
written under its name, or else the value that it had (`Graph.rewritten`). `Ledger.Since` says this
of two moments between which the graph stayed registered, and `Ledger.Through` that the entries are
those of the attempts made in between. Both compose, and hold of each access of a script or a
listener.
-/

namespace Dialogue

/-! ### Writes in the journal -/

/-- Whether an entry records a write. -/
def Entry.isWrite : Entry → Bool
  | wrote .. => true
  | _ => false

/-- The writes to the graph of an id, the latest first. -/
def Journal.writes (id : GraphId) (j : Journal) : List (String × PropertyValue) :=
  j.filterMap fun
    | .wrote owner name v => if owner = id then some (name, v) else none
    | _ => none

/-- The graph with the first value that a list has for the name of a property, where it has one. -/
def Graph.rewritten (g : Graph) (ws : List (String × PropertyValue)) : Graph :=
  { g with
    properties := g.properties.map fun p => { p with value := (ws.lookup p.name).getD p.value } }

theorem Journal.writes_append (id : GraphId) (j j' : Journal) :
    writes id (j ++ j') = writes id j ++ writes id j' :=
  List.filterMap_append

namespace Graph

theorem rewritten_nil (g : Graph) : g.rewritten [] = g := by
  simp [rewritten]

theorem rewritten_rewritten (g : Graph) (ws ws' : List (String × PropertyValue)) :
    (g.rewritten ws).rewritten ws' = g.rewritten (ws' ++ ws) := by
  simp only [rewritten, List.map_map]
  congr 1
  refine List.map_congr_left fun p _ => ?_
  simp only [Function.comp_apply, List.lookup_append]
  cases ws'.lookup p.name <;> rfl

theorem rewritten_single (g : Graph) (name : String) (v : PropertyValue) :
    g.rewritten [(name, v)] = g.setNamed name v := by
  simp only [rewritten, setNamed]
  congr 1
  refine List.map_congr_left fun p _ => ?_
  by_cases h : p.name = name
  · simp [h]
  · have hne : (p.name == name) = false := by simpa using h
    simp [List.lookup_cons, h, hne]

theorem filter_rewritten (g : Graph) (ws : List (String × PropertyValue)) (name : String) :
    ((g.rewritten ws).properties.filter fun p => p.name = name).length =
      (g.properties.filter fun p => p.name = name).length := by
  rw [rewritten, List.filter_map, List.length_map]
  rfl

end Graph

/-! ### Ids on a blackboard -/

namespace Blackboard

/-- No two graphs share an id. -/
def Distinct (b : Blackboard) : Prop := (b.graphs.map Graph.id).Nodup

theorem Distinct.of_outline {b b' : Blackboard} (hb : b.Distinct) (h : b'.outline = b.outline) :
    b'.Distinct := by
  have hids : ∀ c : Blackboard, c.graphs.map Graph.id = c.outline.graphs.map Graph.id := by
    intro c
    simp only [outline, List.map_map]
    rfl
  rw [Distinct, hids, h, ← hids]
  exact hb

theorem contains_iff {b : Blackboard} {id : GraphId} :
    b.contains id = true ↔ id ∈ b.graphs.map Graph.id := by
  simp [contains]

theorem Distinct.register {b : Blackboard} (hb : b.Distinct) (g : Graph) :
    (b.register g).Distinct := by
  unfold Blackboard.register
  split
  · exact hb
  · rename_i hnew
    rw [contains_iff] at hnew
    rw [Distinct, List.map_append, List.map_singleton]
    exact List.nodup_append.mpr ⟨hb, List.nodup_singleton _, fun x hx y hy hxy => by
      rw [List.mem_singleton.mp hy] at hxy
      exact hnew (hxy ▸ hx)⟩

theorem Distinct.unregister {b : Blackboard} (hb : b.Distinct) (id : GraphId) :
    (b.unregister id).2.Distinct := by
  unfold Blackboard.unregister
  split
  · exact List.Nodup.sublist (List.eraseP_sublist.map Graph.id) hb
  · exact hb

theorem Distinct.graph?_of_mem {b : Blackboard} (hb : b.Distinct) {g : Graph} (hg : g ∈ b.graphs) :
    b.graph? g.id = some g := by
  obtain ⟨g', hg'⟩ : ∃ g', b.graph? g.id = some g' := by
    rw [← Option.isSome_iff_exists, graph?, List.find?_isSome]
    exact ⟨g, hg, by simp⟩
  have hsame := List.inj_on_of_nodup_map hb (mem_of_graph? hg') hg (id_of_graph? hg')
  rw [hg', hsame]

theorem graph?_register_new {b : Blackboard} {g : Graph} (h : b.contains g.id = false) :
    (b.register g).graph? g.id = some g := by
  have habsent : b.graphs.find? (fun x => x.id = g.id) = none := by
    rw [List.find?_eq_none]
    intro x hx hid
    have hmem : g.id ∈ b.graphs.map Graph.id := List.mem_map.mpr ⟨x, hx, by simpa using hid⟩
    rw [← contains_iff, h] at hmem
    simp at hmem
  rw [register, h, graph?]
  simp [List.find?_append, habsent]

theorem Distinct.single_of_resolve {b : Blackboard} (hb : b.Distinct) {name : String}
    {owner : GraphId} {p : Property} (h : b.resolve name = .ok (owner, p)) :
    ∃ g, b.graph? owner = some g ∧ (g.properties.filter fun p => p.name = name).length = 1 := by
  have hnamed := named_of_resolve h
  obtain ⟨g, hg, rfl, hp, hname⟩ := mem_named.mp (hnamed ▸ List.mem_singleton_self (owner, p))
  refine ⟨g, hb.graph?_of_mem hg, Nat.le_antisymm ?_ ?_⟩
  · have hsub : ((g.properties.filter fun p => p.name = name).map fun p => (g.id, p)).Sublist
        (b.named name) :=
      List.sublist_flatten_of_mem (List.mem_map.mpr ⟨g, hg, rfl⟩)
    simpa [hnamed] using hsub.length_le
  · exact List.length_pos_of_mem (List.mem_filter.mpr ⟨hp, by simpa using hname⟩)

end Blackboard

/-! ### From one moment to another -/

/-- The registered graphs and what has happened so far. -/
structure Ledger where
  board : Blackboard
  journal : Journal

def Scope.ledger (s : Scope) : Ledger := ⟨s.blackboard, s.journal⟩

/-- An attempt to write a value under a name, on the scope that it is made on. -/
structure Attempt where
  scope : Scope
  name : String
  value : PropertyValue

/-- What is entered for an attempt, if its name resolves to a property of the kind. -/
def Attempt.entry? (a : Attempt) : Option Entry :=
  match a.scope.blackboard.resolve a.name with
  | .ok (owner, p) => if p.kind = a.value.kind then some (.wrote owner a.name a.value) else none
  | .error _ => none

namespace Ledger

/-- What has become of the graph of an id, with new entries in the journal: each write to it went to
its one property of the name, each property has the last value written to it, and all else is as it
was. -/
structure Since (id : GraphId) (a b : Ledger) (new : Journal) : Prop where
  journal : b.journal = new ++ a.journal
  distinct : a.board.Distinct → b.board.Distinct
  graph : ∀ g, a.board.graph? id = some g →
    b.board.graph? id = some (g.rewritten (Journal.writes id new))
  outline : ∀ g, a.board.graph? id = some g →
    (g.rewritten (Journal.writes id new)).outline = g.outline
  single : a.board.Distinct → ∀ g, a.board.graph? id = some g → ∀ w ∈ Journal.writes id new,
    (g.properties.filter fun p => p.name = w.1).length = 1

/-- The writes entered between two moments are those of the attempts made. -/
def Through (id : GraphId) (attempts : List Attempt) (a b : Ledger) : Prop :=
  ∃ new, Since id a b new ∧
    new.filter Entry.isWrite = (attempts.filterMap Attempt.entry?).reverse

/-- The graph of an id stays registered between two moments. -/
def Keeps (id : GraphId) (a b : Ledger) : Prop := ∃ new, Since id a b new

section

variable {id : GraphId} {a b c : Ledger}

theorem through_of_board {new : Journal} (hjournal : b.journal = new ++ a.journal)
    (hnew : ∀ e ∈ new, e.isWrite = false) (hdistinct : a.board.Distinct → b.board.Distinct)
    (hgraph : ∀ g, a.board.graph? id = some g → b.board.graph? id = some g) :
    Through id [] a b := by
  have hwrites : Journal.writes id new = [] := by
    refine List.filterMap_eq_nil_iff.mpr fun e he => ?_
    cases e with
    | wrote owner name v => simpa [Entry.isWrite] using hnew _ he
    | _ => rfl
  refine ⟨new, ⟨hjournal, hdistinct, fun g hg => ?_, fun g _ => ?_, fun _ g _ w hw => ?_⟩, ?_⟩
  · rw [hwrites, Graph.rewritten_nil]
    exact hgraph g hg
  · rw [hwrites, Graph.rewritten_nil]
  · rw [hwrites] at hw
    exact absurd hw List.not_mem_nil
  · exact List.filter_eq_nil_iff.mpr fun e he => by simp [hnew e he]

theorem through_refl (id : GraphId) (a : Ledger) : Through id [] a a :=
  through_of_board (List.nil_append _).symm (by simp) (fun h => h) fun _ h => h

theorem through_entry (id : GraphId) (a : Ledger) {e : Entry} (he : e.isWrite = false) :
    Through id [] a ⟨a.board, e :: a.journal⟩ :=
  through_of_board List.singleton_append.symm (by simpa using he) (fun h => h) fun _ h => h

theorem Since.trans {new new' : Journal} (h : Since id a b new) (h' : Since id b c new') :
    Since id a c (new' ++ new) where
  journal := by rw [h'.journal, h.journal, List.append_assoc]
  distinct := fun ha => h'.distinct (h.distinct ha)
  graph := by
    intro g hg
    rw [h'.graph _ (h.graph g hg), Graph.rewritten_rewritten, Journal.writes_append]
  outline := by
    intro g hg
    rw [Journal.writes_append, ← Graph.rewritten_rewritten, h'.outline _ (h.graph g hg),
      h.outline g hg]
  single := by
    intro ha g hg w hw
    rw [Journal.writes_append, List.mem_append] at hw
    rcases hw with hw | hw
    · have hsingle := h'.single (h.distinct ha) _ (h.graph g hg) w hw
      rwa [Graph.filter_rewritten] at hsingle
    · exact h.single ha g hg w hw

theorem Through.trans {as as' : List Attempt} (h : Through id as a b) (h' : Through id as' b c) :
    Through id (as ++ as') a c := by
  obtain ⟨new, hsince, hnew⟩ := h
  obtain ⟨new', hsince', hnew'⟩ := h'
  refine ⟨new' ++ new, hsince.trans hsince', ?_⟩
  rw [List.filter_append, hnew, hnew', List.filterMap_append, List.reverse_append]

theorem Through.vain (h : Through id [] a b) {attempt : Attempt} (hvain : attempt.entry? = none) :
    Through id [attempt] a b := by
  obtain ⟨new, hsince, hnew⟩ := h
  exact ⟨new, hsince, by simpa [hvain] using hnew⟩

theorem Through.keeps {as : List Attempt} (h : Through id as a b) : Keeps id a b :=
  h.imp fun _ hsince => hsince.1

theorem Keeps.trans (h : Keeps id a b) (h' : Keeps id b c) : Keeps id a c := by
  obtain ⟨new, hsince⟩ := h
  obtain ⟨new', hsince'⟩ := h'
  exact ⟨new' ++ new, hsince.trans hsince'⟩

theorem keeps_refl (id : GraphId) (a : Ledger) : Keeps id a a := (through_refl id a).keeps

theorem since_write (id : GraphId) {s : Scope} {name : String} {v : PropertyValue} {owner : GraphId}
    {p : Property} {board : Blackboard} (hresolve : s.blackboard.resolve name = .ok (owner, p))
    (hset : s.blackboard.set name v = .ok (owner, board)) (active : Option (GraphId × Template)) :
    Since id s.ledger (Scope.ledger ⟨board, active, .wrote owner name v :: s.journal⟩)
      [.wrote owner name v] := by
  have hafter := Blackboard.graph?_of_set hset id
  have honly := (Blackboard.set_ok hset).2
  have hdistinct : s.blackboard.Distinct → board.Distinct := fun hs =>
    hs.of_outline (Blackboard.outline_of_set hset)
  by_cases howner : owner = id
  · have hwrites : Journal.writes id [.wrote owner name v] = [(name, v)] := by
      simp [Journal.writes, howner]
    refine ⟨rfl, hdistinct, fun g hg => ?_, fun g hg => ?_, fun hs g hg w hw => ?_⟩
    · rw [hwrites, Graph.rewritten_single]
      exact hafter.trans (congrArg _ hg)
    · rw [hwrites, Graph.rewritten_single]
      exact Graph.outline_setNamed fun p hp hname =>
        (honly g (Blackboard.mem_of_graph? hg) p hp hname).2
    · rw [hwrites, List.mem_singleton] at hw
      obtain ⟨g', hg', hsingle⟩ := Blackboard.Distinct.single_of_resolve hs hresolve
      rw [howner] at hg'
      rw [hw, Option.some.inj (hg.symm.trans hg')]
      exact hsingle
  · have hwrites : Journal.writes id [.wrote owner name v] = [] := by
      simp [Journal.writes, howner]
    refine ⟨rfl, hdistinct, fun g hg => ?_, fun g hg => ?_, fun hs g hg w hw => ?_⟩
    · -- another graph owns the property, so this one has none of the name
      have habsent : ∀ p ∈ g.properties, p.name ≠ name := fun p hp hname =>
        howner ((honly g (Blackboard.mem_of_graph? hg) p hp hname).1.symm.trans
          (Blackboard.id_of_graph? hg))
      rw [hwrites, Graph.rewritten_nil]
      refine hafter.trans ?_
      rw [show s.blackboard.graph? id = some g from hg, Option.map_some,
        Graph.setNamed_of_absent v habsent]
    · rw [hwrites, Graph.rewritten_nil]
    · rw [hwrites] at hw
      exact absurd hw List.not_mem_nil

end

end Ledger

open Ledger

theorem Scope.through_set (id : GraphId) (s : Scope) (name : String) (v : PropertyValue) :
    Through id [⟨s, name, v⟩] s.ledger (s.set name v).2.ledger := by
  cases hresolve : s.blackboard.resolve name with
  | error e =>
    have hset : s.blackboard.set name v = .error e := by
      rw [Blackboard.set, hresolve]
    rw [set_of_error hset]
    refine (through_refl id s.ledger).vain ?_
    simp only [Attempt.entry?, hresolve]
  | ok x =>
    obtain ⟨owner, p⟩ := x
    by_cases hkind : p.kind = v.kind
    · have hset : s.blackboard.set name v =
          .ok (owner, ⟨s.blackboard.graphs.map fun g => g.setNamed name v⟩) := by
        simp only [Blackboard.set, hresolve, hkind, if_true]
      have hentry : Attempt.entry? ⟨s, name, v⟩ = some (.wrote owner name v) := by
        simp only [Attempt.entry?, hresolve, hkind, if_true]
      rw [set_of_ok hset]
      exact ⟨_, since_write id hresolve hset _, by simp [hentry, Entry.isWrite]⟩
    · have hset : s.blackboard.set name v = .error (.typeMismatch name p.kind v.kind) := by
        simp only [Blackboard.set, hresolve, hkind, if_false]
      rw [set_of_error hset]
      refine (through_refl id s.ledger).vain ?_
      simp only [Attempt.entry?, hresolve, hkind, if_false]

/-! ### Scripts and listeners -/

namespace Script

/-- The attempts of a script to write. -/
def attempts {α : Type} : Script α → Scope → List Attempt
  | done _, _ => []
  | get name next, s => (next (s.get name)).attempts s
  | set name v next, s => ⟨s, name, v⟩ :: (next (s.set name v).1).attempts (s.set name v).2
  | remember next, s => (next s.journal.heard).attempts s

theorem through_run {α : Type} (id : GraphId) (p : Script α) (s : Scope) :
    Through id (p.attempts s) s.ledger (p.run s).2.ledger := by
  induction p generalizing s with
  | done a => exact through_refl id s.ledger
  | get name next ih => exact ih _ s
  | set name v next ih => exact (s.through_set id name v).trans (ih _ _)
  | remember next ih => exact ih _ s

theorem keeps_of_mem_scopes {α : Type} (id : GraphId) (p : Script α) {s t : Scope}
    (h : t ∈ p.scopes s) : Keeps id s.ledger t.ledger := by
  induction p generalizing s with
  | done a =>
    rw [List.mem_singleton.mp h]
    exact keeps_refl id s.ledger
  | get name next ih =>
    rcases List.mem_cons.mp h with rfl | h
    · exact keeps_refl id t.ledger
    · exact ih _ h
  | set name v next ih =>
    rcases List.mem_cons.mp h with rfl | h
    · exact keeps_refl id t.ledger
    · exact (s.through_set id name v).keeps.trans (ih _ h)
  | remember next ih => exact ih _ h

end Script

namespace Registry

/-- The attempts of listeners to write when they handle an event in turn. -/
def attemptsOf (event : String) : List Listener → Scope → List Attempt
  | [], _ => []
  | l :: ls, s =>
    (if l.hears event then (l.handler event).attempts s else []) ++
      attemptsOf event ls (handle event s l)

def attempts (r : Registry) (event : String) (s : Scope) : List Attempt :=
  attemptsOf event r.listeners s

theorem through_handle (id : GraphId) (event : String) (s : Scope) (l : Listener) :
    Through id (if l.hears event then (l.handler event).attempts s else []) s.ledger
      (handle event s l).ledger := by
  unfold handle
  split
  · have hhandled := ((l.handler event).through_run id s).trans
      (through_entry id _ (e := .handled l.key event ((l.handler event).run s).1) rfl)
    rwa [List.append_nil] at hhandled
  · exact through_refl id s.ledger

theorem through_dispatch (id : GraphId) (r : Registry) (event : String) (s : Scope) :
    Through id (r.attempts event s) s.ledger (r.dispatch event s).ledger := by
  unfold attempts dispatch
  induction r.listeners generalizing s with
  | nil => exact through_refl id s.ledger
  | cons l ls ih => exact (through_handle id event s l).trans (ih _)

theorem keeps_of_mem_scopesOf (id : GraphId) {event : String} {ls : List Listener} {s t : Scope}
    (h : t ∈ scopesOf event ls s) : Keeps id s.ledger t.ledger := by
  induction ls generalizing s with
  | nil =>
    rw [List.mem_singleton.mp h]
    exact keeps_refl id s.ledger
  | cons l ls ih =>
    rcases List.mem_append.mp h with h | h
    · split at h
      · exact (l.handler event).keeps_of_mem_scopes id h
      · rw [List.mem_singleton.mp h]
        exact keeps_refl id s.ledger
    · exact (through_handle id event s l).keeps.trans (ih h)

end Registry

end Dialogue

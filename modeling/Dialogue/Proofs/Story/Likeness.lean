import Dialogue.Proofs.Story.Work
import Mathlib.Data.List.Forall2

/-!
# Graphs that play alike

Two graphs are alike when they lead a session the same way (`Graph.Alike`): their links lead to
nodes of the same role, they have the same values under each name, and a branch finds the same truth
value. Only their ids may differ, by a renaming, and what their lines show. A likeness is a relation
between alike graphs that writes keep (`Graph.Likeness`). Blackboards of related graphs answer alike
and stay related (`resolve_alike`, `set_alike`), so scripts and listeners, who see nothing else, do
the same on both (`Script.run_alike`, `Registry.dispatch_alike`).
-/

namespace Dialogue

theorem rel_none_left {α β : Type} {r : α → β → Prop} {o : Option β} :
    Option.Rel r none o ↔ o = none := by
  constructor
  · rintro ⟨⟩
    rfl
  · rintro rfl
    exact .none

theorem rel_some_left {α β : Type} {r : α → β → Prop} {a : α} {o : Option β} :
    Option.Rel r (some a) o ↔ ∃ b, o = some b ∧ r a b := by
  constructor
  · rintro ⟨h⟩
    exact ⟨_, rfl, h⟩
  · rintro ⟨b, rfl, h⟩
    exact .some h

/-! ### What a session goes by -/

/-- Whether a line is shown at a node. -/
def NodeKind.isLine : NodeKind → Bool
  | basic _ | choice _ => true
  | _ => false

/-- A node without its place, and without its text unless it is shown. -/
def Node.role (n : Node) : Node :=
  { n with position := .origin, text := if n.kind.isLine then n.text else "" }

theorem Node.eq_of_role {n n' : Node} (h : n'.role = n.role) : n'.guid = n.guid ∧ n'.kind = n.kind ∧
    (n.kind.isLine = true → n'.text = n.text) := by
  obtain ⟨guid, position, text, kind⟩ := n
  obtain ⟨guid', position', text', kind'⟩ := n'
  simp only [role, Node.mk.injEq] at h
  obtain ⟨rfl, -, htext, rfl⟩ := h
  refine ⟨rfl, rfl, fun hline => ?_⟩
  have hline : kind'.isLine = true := hline
  simpa [hline] using htext

namespace Graph

/-- The values of the properties of a name. -/
def values (g : Graph) (name : String) : List PropertyValue :=
  (g.properties.filter fun p => p.name = name).map Property.value

/-- The graphs lead a session the same way. -/
structure Alike (ρ : GraphId → GraphId) (g g' : Graph) : Prop where
  id : g'.id = ρ g.id
  entry : g'.entryGuid = g.entryGuid
  node : ∀ u, (g'.node? u).map Node.role = (g.node? u).map Node.role
  next : ∀ u port, (g'.next? u port).map Node.role = (g.next? u port).map Node.role
  check : g'.validate = g.validate
  values : ∀ name, (g'.values name).Perm (g.values name)
  flag : ∀ name, g'.flag? name = g.flag? name

/-- A relation between alike graphs that writes keep, under a renaming of ids. -/
structure Likeness (ρ : GraphId → GraphId) (R : Graph → Graph → Prop) : Prop where
  injective : Function.Injective ρ
  alike : ∀ {g g'}, R g g' → g.Alike ρ g'
  write : ∀ {g g'} {name : String} {v : PropertyValue}, R g g' →
    (∀ p ∈ g.properties, p.name = name → p.kind = v.kind) →
    R (g.setNamed name v) (g'.setNamed name v)

theorem checkLinks_congr {g g' : Graph} (h : ∀ u, g'.contains u = g.contains u) (ls : List Link)
    (bound : List (Guid × PortIndex)) : g'.checkLinks bound ls = g.checkLinks bound ls := by
  induction ls generalizing bound with
  | nil => rfl
  | cons l ls ih =>
    have hresolves : g'.resolves l = g.resolves l := by
      rw [resolves, resolves, h, h]
    rw [checkLinks, checkLinks, hresolves, ih]

theorem alike_of_nodes {ρ : GraphId → GraphId} {g g' : Graph} (hid : g'.id = ρ g.id)
    (hentry : g'.entryGuid = g.entryGuid) (hlinks : g'.links = g.links)
    (hnode : ∀ u, (g'.node? u).map Node.role = (g.node? u).map Node.role)
    (hvalues : ∀ name, (g'.values name).Perm (g.values name))
    (hflag : ∀ name, g'.flag? name = g.flag? name) : g.Alike ρ g' := by
  have hcontains : ∀ u, g'.contains u = g.contains u := by
    intro u
    have hsome := congrArg Option.isSome (hnode u)
    rw [contains_eq, contains_eq]
    simpa using hsome
  refine ⟨hid, hentry, hnode, fun u port => ?_, ?_, hvalues, hflag⟩
  · simp only [next?, outgoing, hlinks, Option.map_bind]
    congr 1
    funext l
    exact hnode l.inNode
  · rw [validate, validate, hlinks]
    exact checkLinks_congr hcontains g.links []

theorem alike_renamed (g : Graph) (ρ : GraphId → GraphId) :
    g.Alike ρ { g with id := ρ g.id } :=
  alike_of_nodes rfl rfl rfl (fun _ => rfl) (fun _ => .refl _) fun _ => rfl

theorem spoken_congr {g g' : Graph} {text : String}
    (h : ∀ cs, .token cs ∈ Segment.ofChars text.toList →
      g'.shown? (String.ofList cs) = g.shown? (String.ofList cs)) :
    g'.spoken text = g.spoken text := by
  unfold spoken
  congr 1
  refine List.flatMap_congr fun segment hsegment => ?_
  cases segment with
  | plain c => rfl
  | token cs => simp only [h cs hsegment]

/-- Related graphs speak each line alike. -/
def SpeakAlike (R : Graph → Graph → Prop) : Prop :=
  ∀ g g', R g g' → ∀ n ∈ g.nodes, n.kind.isLine = true → g'.spoken n.text = g.spoken n.text

end Graph

/-! ### Records -/

/-- The lines show the text of one node, each with the values of a graph, and the graphs are
related. -/
structure Presentation.Alike (R : Graph → Graph → Prop) (p p' : Presentation) : Prop where
  node : p'.node = p.node
  options : p'.options = p.options
  actorName : p'.actorName = p.actorName
  text : ∃ g g' n, R g g' ∧ g.node? p.node = some n ∧ n.kind.isLine = true ∧
    p.text = g.spoken n.text ∧ p'.text = g'.spoken n.text

theorem Presentation.Alike.eq {R : Graph → Graph → Prop} (hR : Graph.SpeakAlike R)
    {p p' : Presentation} (h : p.Alike R p') : p' = p := by
  obtain ⟨g, g', n, hg, hn, hline, htext, htext'⟩ := h.text
  have hsame : p'.text = p.text := by
    rw [htext', htext]
    exact hR g g' hg n (List.mem_of_find?_eq_some hn) hline
  cases p
  cases p'
  simp only [Presentation.mk.injEq]
  exact ⟨h.node, hsame, h.options, h.actorName⟩

def SessionError.rename (ρ : GraphId → GraphId) : SessionError → SessionError
  | graphNotRegistered id => graphNotRegistered (ρ id)
  | e => e

def Notice.rename (ρ : GraphId → GraphId) : Notice → Notice
  | started id => started (ρ id)
  | ended id => ended (ρ id)
  | failed e => failed (e.rename ρ)
  | n => n

def Entry.rename (ρ : GraphId → GraphId) : Entry → Entry
  | told n => told (n.rename ρ)
  | wrote owner name v => wrote (ρ owner) name v
  | e => e

/-- The entries tell of lines that are alike, or of the same thing but for ids. -/
def Entry.Alike (ρ : GraphId → GraphId) (R : Graph → Graph → Prop) : Entry → Entry → Prop
  | told (.presented p), told (.presented p') => p.Alike R p'
  | e, e' => e' = e.rename ρ

theorem Entry.Alike.journal_eq {ρ : GraphId → GraphId} {R : Graph → Graph → Prop}
    (hR : Graph.SpeakAlike R) {j j' : Journal} (h : List.Forall₂ (Entry.Alike ρ R) j j') :
    j' = j.map (Entry.rename ρ) := by
  induction h with
  | nil => rfl
  | cons he hj ih =>
    rename_i e e' j j'
    have hsame : e' = e.rename ρ := by
      unfold Entry.Alike at he
      split at he
      · rw [he.eq hR]
        rfl
      · exact he
    rw [ih, hsame, List.map_cons]

theorem Entry.Alike.heard_eq {ρ : GraphId → GraphId} {R : Graph → Graph → Prop} {j j' : Journal}
    (h : List.Forall₂ (Entry.Alike ρ R) j j') : Journal.heard j' = Journal.heard j := by
  induction h with
  | nil => rfl
  | cons he hj ih =>
    rename_i e e' j j'
    unfold Entry.Alike at he
    split at he
    · exact ih
    · subst he
      cases e with
      | handled listener event report => exact congrArg (Entry.handled listener event report :: ·) ih
      | _ => exact ih

theorem SessionError.rename_id (e : SessionError) : e.rename id = e := by
  cases e <;> rfl

theorem Entry.rename_id (e : Entry) : e.rename id = e := by
  cases e with
  | told n => cases n <;> simp [rename, Notice.rename, SessionError.rename_id]
  | _ => rfl

/-! ### Blackboards -/

namespace Blackboard

/-- The blackboards hold related graphs in the same order. -/
def Alike (R : Graph → Graph → Prop) (b b' : Blackboard) : Prop := List.Forall₂ R b.graphs b'.graphs

section

variable {ρ : GraphId → GraphId} {R : Graph → Graph → Prop} (hR : Graph.Likeness ρ R)
  {b b' : Blackboard} {g g' : Graph} {name : String}

include hR

theorem id_alike (h : R g g') (id : GraphId) : g'.id = ρ id ↔ g.id = id := by
  rw [(hR.alike h).id]
  exact hR.injective.eq_iff

theorem graph?_alike (h : b.Alike R b') (id : GraphId) :
    Option.Rel R (b.graph? id) (b'.graph? (ρ id)) := by
  obtain ⟨gs⟩ := b
  obtain ⟨gs'⟩ := b'
  replace h : List.Forall₂ R gs gs' := h
  unfold graph?
  induction h with
  | nil => exact .none
  | cons hg hgs ih =>
    rename_i g g' gs gs'
    by_cases hid : g.id = id
    · have hid' : g'.id = ρ id := (id_alike hR hg id).mpr hid
      rw [List.find?_cons_of_pos (by simpa using hid), List.find?_cons_of_pos (by simpa using hid')]
      exact .some hg
    · have hid' : ¬ g'.id = ρ id := fun h => hid ((id_alike hR hg id).mp h)
      rw [List.find?_cons_of_neg (by simpa using hid), List.find?_cons_of_neg (by simpa using hid')]
      exact ih

theorem contains_alike (h : b.Alike R b') (id : GraphId) : b'.contains (ρ id) = b.contains id := by
  obtain ⟨gs⟩ := b
  obtain ⟨gs'⟩ := b'
  replace h : List.Forall₂ R gs gs' := h
  unfold contains
  induction h with
  | nil => rfl
  | cons hg hgs ih =>
    rw [List.any_cons, List.any_cons, ih, decide_eq_decide.mpr (id_alike hR hg id)]

theorem register_alike (h : b.Alike R b') (hg : R g g') :
    (b.register g).Alike R (b'.register g') := by
  unfold register
  rw [(hR.alike hg).id, contains_alike hR h]
  split
  · exact h
  · exact List.rel_append h (.cons hg .nil)

theorem eraseP_alike {gs gs' : List Graph} (h : List.Forall₂ R gs gs') (id : GraphId) :
    List.Forall₂ R (gs.eraseP fun g => g.id = id) (gs'.eraseP fun g => g.id = ρ id) := by
  induction h with
  | nil => exact .nil
  | cons hg hgs ih =>
    rename_i g g' gs gs'
    by_cases hid : g.id = id
    · have hid' : g'.id = ρ id := (id_alike hR hg id).mpr hid
      rw [List.eraseP_cons_of_pos (by simpa using hid),
        List.eraseP_cons_of_pos (by simpa using hid')]
      exact hgs
    · have hid' : ¬ g'.id = ρ id := fun h => hid ((id_alike hR hg id).mp h)
      rw [List.eraseP_cons_of_neg (by simpa using hid),
        List.eraseP_cons_of_neg (by simpa using hid')]
      exact .cons hg ih

theorem unregister_alike (h : b.Alike R b') (id : GraphId) :
    Option.Rel R (b.unregister id).1 (b'.unregister (ρ id)).1 ∧
      (b.unregister id).2.Alike R (b'.unregister (ρ id)).2 := by
  have hfound := graph?_alike hR h id
  unfold unregister
  generalize b.graph? id = o at hfound ⊢
  generalize b'.graph? (ρ id) = o' at hfound ⊢
  cases hfound with
  | none => exact ⟨.none, h⟩
  | some hg => exact ⟨.some hg, eraseP_alike hR h id⟩

theorem named_alike (h : b.Alike R b') (name : String) :
    ((b'.named name).map fun x => (x.1, x.2.value)).Perm
      ((b.named name).map fun x => (ρ x.1, x.2.value)) := by
  obtain ⟨gs⟩ := b
  obtain ⟨gs'⟩ := b'
  replace h : List.Forall₂ R gs gs' := h
  unfold named
  induction h with
  | nil => exact .nil
  | cons hg hgs ih =>
    rename_i g g' gs gs'
    have hvalues := ((hR.alike hg).values name).map fun v => (ρ g.id, v)
    simp only [Graph.values, List.map_map] at hvalues
    simp only [List.flatMap_cons, List.map_append, List.map_map]
    refine List.Perm.append ?_ ih
    simpa [Function.comp_def, (hR.alike hg).id] using hvalues

theorem resolve_alike (h : b.Alike R b') (name : String) :
    (∃ e, b.resolve name = .error e ∧ b'.resolve name = .error e) ∨
      ∃ owner p p', b.resolve name = .ok (owner, p) ∧ b'.resolve name = .ok (ρ owner, p') ∧
        p'.value = p.value := by
  have hperm := named_alike hR h name
  have hlength : (b'.named name).length = (b.named name).length := by
    simpa using hperm.length_eq
  unfold resolve
  match hb : b.named name with
  | [] =>
    have hb' : b'.named name = [] := List.length_eq_zero_iff.mp (by rw [hlength, hb]; rfl)
    rw [hb']
    exact Or.inl ⟨_, rfl, rfl⟩
  | [(owner, p)] =>
    -- one value in some order is the same value
    obtain ⟨⟨owner', p'⟩, hb'⟩ := List.length_eq_one_iff.mp (by rw [hlength, hb]; rfl)
    rw [hb, hb'] at hperm
    have hsame := List.perm_singleton.mp hperm
    simp only [List.map_cons, List.map_nil, List.cons.injEq, Prod.mk.injEq, and_true] at hsame
    obtain ⟨rfl, hvalue⟩ := hsame
    rw [hb']
    exact Or.inr ⟨owner, p, p', rfl, rfl, hvalue⟩
  | x :: y :: zs =>
    -- only the number of the values is told
    obtain ⟨x', y', zs', hb'⟩ : ∃ x' y' zs', b'.named name = x' :: y' :: zs' := by
      match hn : b'.named name with
      | [] => simp [hn, hb] at hlength
      | [x'] => simp [hn, hb] at hlength
      | x' :: y' :: zs' => exact ⟨x', y', zs', rfl⟩
    rw [hb']
    refine Or.inl ⟨_, rfl, ?_⟩
    rw [hb, hb'] at hlength
    simp only [hlength]

theorem get_alike (h : b.Alike R b') (name : String) : b'.get name = b.get name := by
  unfold get
  obtain ⟨e, he, he'⟩ | ⟨owner, p, p', hp, hp', hvalue⟩ := resolve_alike hR h name
  · rw [he, he']
  · rw [hp, hp']
    simp only [hvalue]

theorem set_alike (h : b.Alike R b') (name : String) (v : PropertyValue) :
    (∃ e, b.set name v = .error e ∧ b'.set name v = .error e) ∨
      ∃ owner c c', b.set name v = .ok (owner, c) ∧ b'.set name v = .ok (ρ owner, c') ∧
        c.Alike R c' := by
  obtain ⟨e, he, he'⟩ | ⟨owner, p, p', hp, hp', hvalue⟩ := resolve_alike hR h name
  · refine Or.inl ⟨e, ?_, ?_⟩
    · rw [set, he]
    · rw [set, he']
  · have hkind : p'.kind = p.kind := congrArg PropertyValue.kind hvalue
    by_cases hv : p.kind = v.kind
    · have hset : b.set name v = .ok (owner, ⟨b.graphs.map fun g => g.setNamed name v⟩) := by
        simp only [set, hp, hv, if_true]
      have hset' : b'.set name v = .ok (ρ owner, ⟨b'.graphs.map fun g => g.setNamed name v⟩) := by
        simp only [set, hp', hkind, hv, if_true]
      refine Or.inr ⟨owner, _, _, hset, hset', ?_⟩
      have hkinds : ∀ g ∈ b.graphs, ∀ p ∈ g.properties, p.name = name → p.kind = v.kind :=
        fun g hg p hp hname => ((set_ok hset).2 g hg p hp hname).2
      have hboth := (List.forall₂_and_left _ _).mpr ⟨hkinds, h⟩
      show List.Forall₂ R _ _
      rw [List.forall₂_map_left_iff, List.forall₂_map_right_iff]
      exact hboth.imp fun g g' hg => hR.write hg.2 hg.1
    · refine Or.inl ⟨.typeMismatch name p.kind v.kind, ?_, ?_⟩
      · simp only [set, hp, hv, if_false]
      · simp only [set, hp', hkind, hv, if_false]

end

end Blackboard

/-! ### Scopes -/

/-- The scopes have related blackboards and journals that are alike. -/
structure Scope.Alike (ρ : GraphId → GraphId) (R : Graph → Graph → Prop) (s s' : Scope) : Prop where
  board : s.blackboard.Alike R s'.blackboard
  journal : List.Forall₂ (Entry.Alike ρ R) s.journal s'.journal

section

variable {ρ : GraphId → GraphId} {R : Graph → Graph → Prop} (hR : Graph.Likeness ρ R)

include hR

theorem Scope.set_alike {s s' : Scope} (h : s.Alike ρ R s') (name : String) (v : PropertyValue) :
    (s'.set name v).1 = (s.set name v).1 ∧ (s.set name v).2.Alike ρ R (s'.set name v).2 := by
  obtain ⟨e, he, he'⟩ | ⟨owner, c, c', hc, hc', hboard⟩ :=
    Blackboard.set_alike hR h.board name v
  · rw [Scope.set_of_error he, Scope.set_of_error he']
    exact ⟨rfl, h⟩
  · rw [Scope.set_of_ok hc, Scope.set_of_ok hc']
    exact ⟨rfl, hboard, .cons rfl h.journal⟩

/-- **A script gets the same answers**, and so does the same, on scopes that are alike. -/
theorem Script.run_alike {α : Type} (p : Script α) : ∀ {s s' : Scope}, s.Alike ρ R s' →
    (p.run s').1 = (p.run s).1 ∧ (p.run s).2.Alike ρ R (p.run s').2 := by
  induction p with
  | done a =>
    intro s s' h
    exact ⟨rfl, h⟩
  | get name next ih =>
    intro s s' h
    have hget : s'.get name = s.get name := Blackboard.get_alike hR h.board name
    rw [Script.run, Script.run, hget]
    exact ih _ h
  | set name v next ih =>
    intro s s' h
    obtain ⟨hanswer, hset⟩ := Scope.set_alike hR h name v
    rw [Script.run, Script.run, hanswer]
    exact ih _ hset
  | remember next ih =>
    intro s s' h
    rw [Script.run, Script.run, Entry.Alike.heard_eq h.journal]
    exact ih _ h

theorem Registry.handle_alike (event : String) (l : Listener) {s s' : Scope} (h : s.Alike ρ R s') :
    (Registry.handle event s l).Alike ρ R (Registry.handle event s' l) := by
  unfold Registry.handle
  split
  · obtain ⟨hreport, hrun⟩ := Script.run_alike hR (l.handler event) h
    refine ⟨hrun.board, .cons ?_ hrun.journal⟩
    show Entry.handled l.key event ((l.handler event).run s').1 =
      .handled l.key event ((l.handler event).run s).1
    rw [hreport]
  · exact h

theorem Registry.dispatch_alike (r : Registry) (event : String) {s s' : Scope}
    (h : s.Alike ρ R s') : (r.dispatch event s).Alike ρ R (r.dispatch event s') := by
  unfold Registry.dispatch
  induction r.listeners generalizing s s' with
  | nil => exact h
  | cons l ls ih => exact ih (Registry.handle_alike hR event l h)

end

end Dialogue

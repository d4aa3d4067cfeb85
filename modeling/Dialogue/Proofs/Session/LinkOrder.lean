import Dialogue.Proofs.Graph.Links
import Dialogue.Proofs.Session.Reload

/-!
# Links in another order

In a graph whose links are in order a port has one link at most, so nothing depends on where that
link stands in the list. Such a graph with its links in another order is in order too, and its ports
lead to the same nodes (`InOrder.next?_perm`). `Graph.Relinks` is therefore a likeness, and runs on
the two graphs are the same but for ids (`link_order_unseen`).
-/

namespace Dialogue

namespace Graph

/-- The second graph is the first one under its new id, as it is, or with its links in another order
if checking accepts them. -/
inductive Relinks (ρ : GraphId → GraphId) : Graph → Graph → Prop
  | renamed (g : Graph) : Relinks ρ g { g with id := ρ g.id }
  | reordered {g : Graph} {links : List Link} : g.validate = .ok () → links.Perm g.links →
    Relinks ρ g { g with id := ρ g.id, links := links }

section

variable {ρ : GraphId → GraphId} {g : Graph} {links : List Link}

theorem validate_reordered (h : g.validate = .ok ()) (hperm : links.Perm g.links) (id : GraphId) :
    ({ g with id := id, links := links } : Graph).validate = .ok () :=
  validate_eq_ok_iff.mpr ((validate_eq_ok_iff.mp h).of_perm rfl rfl hperm)

theorem next?_reordered (h : g.validate = .ok ()) (hperm : links.Perm g.links) (id : GraphId)
    (u : Guid) (port : PortIndex) :
    ({ g with id := id, links := links } : Graph).next? u port = g.next? u port :=
  (validate_eq_ok_iff.mp h).next?_perm
    (validate_eq_ok_iff.mp (validate_reordered h hperm id)) rfl hperm u port

theorem alike_reordered (h : g.validate = .ok ()) (hperm : links.Perm g.links) :
    g.Alike ρ { g with id := ρ g.id, links := links } where
  id := rfl
  entry := rfl
  node _ := rfl
  next u port := congrArg (Option.map Node.role) (next?_reordered h hperm (ρ g.id) u port)
  check := (validate_reordered h hperm (ρ g.id)).trans h.symm
  values _ := .refl _
  flag _ := rfl

theorem validate_setNamed (h : g.validate = .ok ()) (name : String) (v : PropertyValue) :
    (g.setNamed name v).validate = .ok () :=
  validate_eq_ok_iff.mpr ((validate_eq_ok_iff.mp h).of_perm rfl rfl (.refl _))

end

theorem speakAlike_relinks (ρ : GraphId → GraphId) : SpeakAlike (Relinks ρ) := by
  intro g g' h n _ _
  cases h with
  | renamed => rfl
  | reordered => rfl

end Graph

theorem likeness_relinks {ρ : GraphId → GraphId} (hρ : Function.Injective ρ) :
    Graph.Likeness ρ (Graph.Relinks ρ) where
  injective := hρ
  alike := by
    intro g g' h
    cases h with
    | renamed =>
      exact g.alike_renamed ρ
    | reordered hvalid hperm => exact Graph.alike_reordered hvalid hperm
  write := by
    intro g g' name v h _
    cases h with
    | renamed => exact .renamed (g.setNamed name v)
    | reordered hvalid hperm => exact .reordered (Graph.validate_setNamed hvalid name v) hperm

namespace Stage

/-- **In a graph that checking accepts the order of the links does not matter.** With its links in
another order the graph is accepted too and every port leads to the same node: to the target of its
link, and nowhere just if it has none. Runs that make the same calls, with graphs of reordered links
in place of some graphs, get the same replies and are in the same state, at the same node and line,
with the same values, after every call, and the host and the listeners are told the same, up to ids;
graphs that are handed back differ in the order of their links at most. -/
theorem link_order_unseen {ρ : GraphId → GraphId} (hρ : Function.Injective ρ) :
    (∀ (g : Graph) (links : List Link), g.validate = .ok () → links.Perm g.links →
      let g' : Graph := { g with id := ρ g.id, links := links }
      g.Relinks ρ g' ∧ g'.validate = .ok () ∧ (∀ u port, g'.next? u port = g.next? u port) ∧
      ∀ u port, ((∃ n, g.next? u port = some n) ↔ ∃ l ∈ g.links, l.outNode = u ∧ l.port = port) ∧
        ∀ l ∈ g.links, l.outNode = u → l.port = port →
          ∃ n, g.next? u port = some n ∧ g.node? l.inNode = some n ∧ n.guid = l.inNode) ∧
    ∀ (config : Config) (cs cs' : List Call),
      List.Forall₂ (Call.Alike ρ (Graph.Relinks ρ)) cs cs' →
        List.Forall₂ (Turn.Same ρ (Graph.Relinks ρ)) ((new config).turns cs)
          ((new config).turns cs') := by
  refine ⟨fun g links hvalid hperm => ?_, fun config cs cs' h => ?_⟩
  · have horder := Graph.validate_eq_ok_iff.mp hvalid
    have htarget : ∀ u port, ∀ l ∈ g.links, l.outNode = u → l.port = port →
        ∃ n, g.next? u port = some n ∧ g.node? l.inNode = some n ∧ n.guid = l.inNode := by
      rintro u port l hl rfl rfl
      exact horder.next?_of_mem hl
    refine ⟨.reordered hvalid hperm, Graph.validate_reordered hvalid hperm (ρ g.id),
      Graph.next?_reordered hvalid hperm (ρ g.id), fun u port => ⟨⟨?_, ?_⟩, htarget u port⟩⟩
    · rintro ⟨n, hn⟩
      obtain ⟨l, hl, hout, hport, -⟩ := horder.next?_eq_some_iff.mp hn
      exact ⟨l, hl, hout, hport⟩
    · rintro ⟨l, hl, hout, hport⟩
      obtain ⟨n, hn, -⟩ := htarget u port l hl hout hport
      exact ⟨n, hn⟩
  · exact (turns_abreast (likeness_relinks hρ) config h).imp fun _ _ ht =>
      ht.same (likeness_relinks hρ) (Graph.speakAlike_relinks ρ)

end Stage

/-- A fork in a road, with a signpost whose count of travellers is shown. -/
def Graph.fork : Graph :=
  ⟨⟨31⟩, ⟨"start"⟩, .origin,
    [.ofKind ⟨"signpost"⟩ "{travellers} passed." (.choice (.ofList [(0, "Left"), (1, "Right")])),
      .ofKind ⟨"mill"⟩ "A mill." (.basic none), .ofKind ⟨"ford"⟩ "A ford." (.basic none)],
    [⟨⟨"start"⟩, ⟨"signpost"⟩, 0⟩, ⟨⟨"signpost"⟩, ⟨"mill"⟩, 0⟩, ⟨⟨"signpost"⟩, ⟨"ford"⟩, 1⟩],
    [⟨⟨"p"⟩, "travellers", .int 2⟩]⟩

namespace Stage

/-- The road to the ford is taken, with the links of the fork backwards and under exchanged ids. -/
theorem link_order_unseen_fork :
    let g' : Graph := { Graph.fork with id := ⟨32⟩, links := Graph.fork.links.reverse }
    Graph.fork.validate = .ok () ∧ g'.links ≠ Graph.fork.links ∧
      (∀ u port, g'.next? u port = Graph.fork.next? u port) ∧
      List.Forall₂ (Turn.Same (Equiv.swap ⟨31⟩ ⟨32⟩) (Graph.Relinks (Equiv.swap ⟨31⟩ ⟨32⟩)))
        ((new {}).turns [.register .fork, .start ⟨31⟩ none, .set "travellers" (.int 3), .select 1,
          .unregister ⟨31⟩])
        ((new {}).turns [.register g', .start ⟨32⟩ none, .set "travellers" (.int 3), .select 1,
          .unregister ⟨32⟩]) := by
  intro g'
  have hsame := link_order_unseen (Equiv.swap (⟨31⟩ : GraphId) ⟨32⟩).injective
  have hid : Equiv.swap (⟨31⟩ : GraphId) ⟨32⟩ ⟨31⟩ = ⟨32⟩ := Equiv.swap_apply_left _ _
  have hvalid : Graph.fork.validate = .ok () := by decide
  obtain ⟨hrelinks, -, hnext, -⟩ :=
    hsame.1 .fork Graph.fork.links.reverse hvalid (List.reverse_perm _)
  have hstart := Call.Alike.start (ρ := Equiv.swap (⟨31⟩ : GraphId) ⟨32⟩)
    (R := Graph.Relinks (Equiv.swap ⟨31⟩ ⟨32⟩)) ⟨31⟩ none
  have hend := Call.Alike.unregister (ρ := Equiv.swap (⟨31⟩ : GraphId) ⟨32⟩)
    (R := Graph.Relinks (Equiv.swap ⟨31⟩ ⟨32⟩)) ⟨31⟩
  have hrenamed : Equiv.swap (⟨31⟩ : GraphId) ⟨32⟩ Graph.fork.id = ⟨32⟩ := hid
  rw [hid] at hstart hend
  rw [hrenamed] at hrelinks hnext
  exact ⟨hvalid, by decide, hnext, hsame.2 {} _ _ (.cons (.register hrelinks) (.cons hstart
    (.cons (.set _ _) (.cons (.select 1) (.cons hend .nil)))))⟩

end Stage

end Dialogue

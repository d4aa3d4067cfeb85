import Dialogue.Proofs.Session.Telling

/-!
# The template at every moment

A session builds its template once, and writes patch it from then on. `Turn.scopes` lists what the
properties and the template are at every moment of a call: before it, before and after each access of
a script or of a listener in the middle of a dispatch, before and after each move, and at the end.
All of these are coherent, since moves are sound and work on a scope keeps it coherent; so the
template is as good as one built from the registered graph at that very moment
(`template_as_registered`).
-/

namespace Dialogue

/-! ### Moments -/

/-- The properties at each moment of a move: before it, around each access of the listeners when it
comes to an event, and after it. -/
def Move.scopes (m : Move) : List Scope :=
  m.stage.scopeOf m.session ::
    (match m.arrival? with
      | some ⟨guid, _, _, .event name⟩ =>
        m.stage.registry.scopes name
          ((m.stage.record (.entered guid)).scopeOf { m.session with cursor := guid })
      | _ => []) ++
    [m.result.1.scopeOf m.result.2.1]

/-- The properties at each moment of a call. -/
def Turn.scopes (t : Turn) : List Scope :=
  t.before.scope ::
    (match t.call with
      | .set name v => (Script.set name v fun _ => .done ()).scopes t.before.scope
      | .perform p => p.scopes t.before.scope
      | _ => []) ++
    t.moves.flatMap Move.scopes ++ [t.after.scope]

/-! ### Coherence -/

theorem Move.Sound.coherent {m : Move} (hs : m.Sound) : ∀ sc ∈ m.scopes, sc.Coherent := by
  obtain ⟨g, hlive⟩ := hs.live
  have hfirst : (m.stage.scopeOf m.session).Coherent := Stage.coherent_scopeOf.mpr ⟨g, hlive⟩
  intro sc hsc
  rcases List.mem_append.mp hsc with hsc | hsc
  · rcases List.mem_cons.mp hsc with rfl | hsc
    · exact hfirst
    · split at hsc
      · -- inside the dispatch: work on the scope with which the session entered the node
        exact (Registry.worked_of_mem_scopes hsc).coherent (Stage.coherent_scopeOf.mpr ⟨g, hlive⟩)
      · exact absurd hsc List.not_mem_nil
  · rw [List.mem_singleton.mp hsc]
    cases harr : m.arrival? with
    | none =>
      rw [Move.result_of_lost harr]
      exact hfirst
    | some n =>
      obtain ⟨g', hlive', -⟩ := (Move.acted hlive harr).live
      exact Stage.coherent_scopeOf.mpr ⟨g', hlive'⟩

theorem Stage.Settled.coherent {st : Stage} (hst : st.Settled) : st.scope.Coherent := by
  intro id template hactive
  obtain ⟨s, hsession, hs⟩ := Option.map_eq_some_iff.mp hactive
  cases hs
  obtain ⟨g, n, line, hpaused⟩ := hst s hsession
  exact ⟨g, hpaused.live⟩

namespace Turn

theorem coherent {t : Turn} (hst : t.before.Settled) : ∀ sc ∈ t.scopes, sc.Coherent := by
  have hfirst : t.before.scope.Coherent := hst.coherent
  intro sc hsc
  rcases List.mem_append.mp hsc with hsc | hsc
  · rcases List.mem_append.mp hsc with hsc | hsc
    · rcases List.mem_cons.mp hsc with rfl | hsc
      · exact hfirst
      · split at hsc
        · exact (Script.worked_of_mem_scopes _ hsc).coherent hfirst
        · exact (Script.worked_of_mem_scopes _ hsc).coherent hfirst
        · exact absurd hsc List.not_mem_nil
    · obtain ⟨m, hm, hsc⟩ := List.mem_flatMap.mp hsc
      exact (sound_of_mem hst hm).coherent sc hsc
  · rw [List.mem_singleton.mp hsc]
    exact (t.settled_after hst).coherent

theorem text_of_presented {t : Turn} (hst : t.before.Settled) {line : Presentation}
    (h : .presented line ∈ t.notices) : ∃ m ∈ t.moves, ∃ g n,
      m.graph? = some g ∧ m.arrival? = some n ∧
        m.result.1.blackboard.graph? m.session.graph = some g ∧
          line.node = n.guid ∧ line.text = g.spoken n.text := by
  have hline := Notice.mem_lines.mpr h
  rw [lines_notices hst] at hline
  obtain ⟨m, hm, hshown⟩ := List.mem_filterMap.mp hline
  refine ⟨m, hm, ?_⟩
  unfold Move.line? at hshown
  split at hshown
  · rename_i g n hgraph harr
    obtain ⟨options, hoptions, rfl⟩ := Option.map_eq_some_iff.mp hshown
    obtain ⟨g', hlive⟩ := (sound_of_mem hst hm).live
    have hquiet : ∀ event, n.kind ≠ .event event := by
      intro event hkind
      simp [hkind, NodeKind.options?] at hoptions
    have hboard : m.result.1.blackboard = m.stage.blackboard :=
      (Move.acted hlive harr).board hquiet
    exact ⟨g, n, hgraph, harr, by rw [hboard]; exact hgraph, rfl, rfl⟩
  · simp at hshown

theorem verdict_of_mem {t : Turn} (hst : t.before.Settled) {m : Move} (hm : m ∈ t.moves) {g : Graph}
    {n : Node} (hgraph : m.graph? = some g) (harr : m.arrival? = some n) :
    m.result.2.2 = g.verdict n := by
  obtain ⟨g', hlive⟩ := (sound_of_mem hst hm).live
  obtain rfl : g' = g := Option.some.inj (hlive.1.symm.trans hgraph)
  exact (Move.acted hlive harr).verdict

end Turn

namespace Stage

/-- **The template is current at every moment of every run.** Whenever there is a session, its graph
is registered, and its template renders every text and answers for every name as the template built
from that graph at that moment would. So each line shown is the text of its node with the live values,
and each branch goes by the live value of the first truth value of its name. -/
theorem template_as_registered (config : Config) (cs : List Call) :
    ∀ t ∈ (new config).turns cs,
      (∀ sc ∈ t.scopes, ∀ id template, sc.active = some (id, template) → ∃ g,
        sc.blackboard.graph? id = some g ∧
          (∀ text, template.render text = (Template.ofGraph g).render text) ∧
            ∀ name, template.check name = (Template.ofGraph g).check name) ∧
      (∀ line, .presented line ∈ t.notices → ∃ m ∈ t.moves, ∃ g n,
        m.graph? = some g ∧ m.arrival? = some n ∧
          m.result.1.blackboard.graph? m.session.graph = some g ∧ line.node = n.guid ∧
            line.text = (Template.ofGraph g).render n.text ∧ line.text = g.spoken n.text) ∧
      ∀ m ∈ t.moves, ∀ g n flag, m.graph? = some g → m.arrival? = some n →
        n.kind = .condition flag → m.result.2.2 =
          match g.flag? flag with
          | some true => .advance portTrue
          | some false => .advance portFalse
          | none => .fail (.unknownCondition n.guid flag) := by
  intro t ht
  obtain ⟨⟨hst, -⟩, -⟩ := (settled_turns config cs).1 t ht
  refine ⟨fun sc hsc id template hactive => ?_, fun line hline => ?_, ?_⟩
  · obtain ⟨g, hgraph, rfl⟩ := Turn.coherent hst sc hsc id template hactive
    exact ⟨g, hgraph, fun text => rfl, fun name => rfl⟩
  · obtain ⟨m, hm, g, n, hgraph, harr, hshown, hnode, htext⟩ := Turn.text_of_presented hst hline
    exact ⟨m, hm, g, n, hgraph, harr, hshown, hnode,
      htext.trans (Template.render_ofGraph g n.text).symm, htext⟩
  · intro m hm g n flag hgraph harr hkind
    rw [Turn.verdict_of_mem hst hm hgraph harr, Graph.verdict, hkind]
    rfl

end Stage

/-- A start, an event, and a line that shows a property. -/
def Graph.inn : Graph :=
  ⟨⟨1⟩, ⟨"start"⟩, .origin,
    [.ofKind ⟨"pay"⟩ "" (.event "paid"), .ofKind ⟨"ask"⟩ "You have {coins} coins." (.basic none)],
    [⟨⟨"start"⟩, ⟨"pay"⟩, 0⟩, ⟨⟨"pay"⟩, ⟨"ask"⟩, 0⟩], [⟨⟨"purse"⟩, "coins", .int 9⟩]⟩

/-- A listener who writes the property at every event. -/
def Listener.innkeeper : Listener :=
  ⟨"innkeeper", none, fun _ => .set "coins" (.int 7) fun _ => .done []⟩

namespace Stage

/-- A listener writes between the start of the session and its first line. -/
theorem template_as_registered_inn :
    ∃ t ∈ (new {}).turns [.register .inn, .listen .innkeeper, .start ⟨1⟩ none],
      t.before.blackboard.get "coins" = .ok (.int 9) ∧ t.after.blackboard.get "coins" = .ok (.int 7) ∧
        t.after.isRunning = true ∧
        ∀ sc ∈ t.scopes, ∀ id template, sc.active = some (id, template) → ∃ g,
          sc.blackboard.graph? id = some g ∧
            (∀ text, template.render text = (Template.ofGraph g).render text) ∧
              ∀ name, template.check name = (Template.ofGraph g).check name := by
  have hmem : (⟨_, _⟩ : Turn) ∈
      (new {}).turns [.register .inn, .listen .innkeeper, .start ⟨1⟩ none] :=
    List.mem_cons_of_mem _ (List.mem_cons_of_mem _ List.mem_cons_self)
  exact ⟨_, hmem, rfl, rfl, rfl, (template_as_registered {} _ _ hmem).1⟩

end Stage

end Dialogue

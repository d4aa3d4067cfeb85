import Mathlib.Data.List.Basic
import Dialogue.Proofs.Session.Scene

/-!
# The way of a session

A session walks along the links of its graph (`Graph.Walk`). It leaves a node by itself, through the
port that the node calls for in the graph as it is registered at that moment, or with a port that the
player picks among the options of a line (`Node.Leaves`). The moves of one call are a walk
(`Move.walk_onward`); it goes on from where the walk of the call before ended, so the calls on a
session walk on together (`Turn.walks`), from the start of the graph to the node that the session has
reached.
-/

namespace Dialogue

/-! ### Walks -/

/-- How a move leaves a node, with the player's picks before and after. -/
inductive Node.Leaves (label : String) (v : Node) (m : Move) :
    List PortIndex → List PortIndex → Prop
  /-- By itself, through the port that the node calls for. -/
  | alone {g : Graph} {picks : List PortIndex} (graph : m.graph? = some g)
      (verdict : g.verdict v = .advance m.port) : Leaves label v m picks picks
  /-- Through the port that is picked next, one of the options of the line. -/
  | picked {options : List PresentedOption} {picks : List PortIndex}
      (line : v.kind.options? label = some options)
      (offered : m.port ∈ options.map PresentedOption.port) : Leaves label v m (m.port :: picks) picks

/-- A walk from a node on: the picks that it takes, its moves, the nodes that they come to, and where
it ends, if not at a port that nothing is connected to. -/
inductive Graph.Walk (g : Graph) (label : String) :
    Node → List PortIndex → List Move → List Node → Option Node → Prop
  | here (v : Node) : Walk g label v [] [] [] (some v)
  | lost {v : Node} {m : Move} {picks : List PortIndex} (leaves : v.Leaves label m picks [])
      (cursor : m.session.cursor = v.guid) (nowhere : g.next? v.guid m.port = none) :
      Walk g label v picks [m] [] none
  | on {v w : Node} {m : Move} {picks picks' : List PortIndex} {ms : List Move} {ns : List Node}
      {e : Option Node} (leaves : v.Leaves label m picks picks')
      (cursor : m.session.cursor = v.guid) (next : g.next? v.guid m.port = some w)
      (rest : Walk g label w picks' ms ns e) : Walk g label v picks (m :: ms) (w :: ns) e

namespace Node.Leaves

variable {label : String} {v : Node} {m : Move} {picks picks' : List PortIndex}

theorem append (h : v.Leaves label m picks picks') (more : List PortIndex) :
    v.Leaves label m (picks ++ more) (picks' ++ more) := by
  cases h with
  | alone graph verdict => exact .alone graph verdict
  | picked line offered => exact .picked line offered

theorem not_exit (h : v.Leaves label m picks picks') : v.kind ≠ .exit := by
  intro hexit
  cases h with
  | alone graph verdict => simp [Graph.verdict, hexit] at verdict
  | picked line offered => simp [NodeKind.options?, hexit] at line

end Node.Leaves

namespace Graph.Walk

variable {g : Graph} {label : String} {v w : Node} {picks picks' : List PortIndex}
  {ms ms' : List Move} {ns ns' : List Node} {e : Option Node}

theorem append (h : g.Walk label v picks ms ns (some w)) (h' : g.Walk label w picks' ms' ns' e) :
    g.Walk label v (picks ++ picks') (ms ++ ms') (ns ++ ns') e := by
  generalize hplace : some w = place at h
  induction h with
  | here v =>
    obtain rfl := Option.some.inj hplace
    exact h'
  | lost leaves cursor nowhere => simp at hplace
  | on leaves cursor next rest ih => exact .on (leaves.append picks') cursor next (ih hplace)

theorem not_exit (h : g.Walk label v picks ms ns e) : ∀ n ∈ (v :: ns).dropLast, n.kind ≠ .exit := by
  induction h with
  | here v => simp
  | lost leaves cursor nowhere => simp
  | on leaves cursor next rest ih =>
    rw [List.dropLast_cons_of_ne_nil (List.cons_ne_nil _ _)]
    intro n hn
    rcases List.mem_cons.mp hn with rfl | hn
    · exact leaves.not_exit
    · exact ih n hn

theorem last_eq (h : g.Walk label v picks ms ns e) : ∀ n ∈ e, (v :: ns).getLast? = some n := by
  induction h with
  | here v =>
    intro n hn
    exact hn
  | lost leaves cursor nowhere =>
    intro n hn
    simp at hn
  | on leaves cursor next rest ih =>
    rw [List.getLast?_cons_of_ne_nil (List.cons_ne_nil _ _)]
    exact ih

end Graph.Walk

/-! ### The moves of a call -/

namespace Move

theorem leaves_of_leads {m m' : Move} (hs : m.Sound) (h : m.Leads m') {n : Node}
    (harr : m.arrival? = some n) (label : String) : n.Leaves label m' [] [] := by
  obtain ⟨g, hlive⟩ := hs.live
  have hact := acted hlive harr
  rw [h] at hact
  obtain ⟨g', hlive', -, hverdict⟩ := hact.live
  exact .alone hlive'.1 (hverdict.trans hact.verdict.symm)

/-- **The moves of an advance are a walk** along the links of a graph that has the outline of the
registered one. -/
theorem walk_onward (g : Graph) (label : String) (budget : Nat) (m : Move) :
    ∀ v picks, m.Sound → (∃ live, m.stage.Live m.session live ∧ live.outline = g.outline) →
      m.session.cursor = v.guid → v.Leaves label m picks [] →
        g.Walk label v picks (m.onward budget) ((m.onward budget).filterMap arrival?)
          ((m.onward budget).getLast?.bind arrival?) := by
  induction budget, m using onward_induction with
  | rests budget m h =>
    intro v picks hs hlive hcursor hleaves
    obtain ⟨live, hlive, houtline⟩ := hlive
    have hnext := arrival?_of_live hlive
    rw [hcursor, Graph.next?_eq_of_outline houtline] at hnext
    rw [onward_of_rests h]
    cases harr : m.arrival? with
    | none =>
      simp only [List.filterMap_cons, harr, List.filterMap_nil, List.getLast?_singleton,
        Option.bind_some]
      exact .lost hleaves hcursor (hnext.symm.trans harr)
    | some n =>
      simp only [List.filterMap_cons, harr, List.filterMap_nil, List.getLast?_singleton,
        Option.bind_some]
      exact .on hleaves hcursor (hnext.symm.trans harr) (.here n)
  | leads budget m m' h ih =>
    intro v picks hs hlive hcursor hleaves
    obtain ⟨live, hlive, houtline⟩ := hlive
    obtain ⟨n, harr⟩ := arrival?_of_leads h
    have hnext := arrival?_of_live hlive
    rw [hcursor, Graph.next?_eq_of_outline houtline] at hnext
    have hact := acted hlive harr
    rw [h] at hact
    obtain ⟨live', hlive', houtline', -⟩ := hact.live
    rw [onward_of_leads h, List.getLast?_cons_of_ne_nil (onward_ne_nil budget m'),
      List.filterMap_cons, harr]
    exact .on hleaves hcursor (hnext.symm.trans harr) (ih n [] (hs.leads h)
      ⟨live', hlive', houtline'.trans houtline⟩ hact.cursor (leaves_of_leads hs h harr label))

theorem Sound.node_line {m : Move} (hs : m.Sound) (label : String) :
    m.line?.map Presentation.node =
      (m.arrival?.filter fun n => (n.kind.options? label).isSome).map Node.guid := by
  obtain ⟨g, hlive⟩ := hs.live
  have hgraph : m.graph? = some g := hlive.1
  rw [line?, hgraph]
  cases m.arrival? with
  | none => rfl
  | some n =>
    obtain ⟨guid, position, text, kind⟩ := n
    cases kind <;> rfl

theorem nodes_lines (label : String) {ms : List Move} (hs : ∀ m ∈ ms, m.Sound) :
    (ms.filterMap line?).map Presentation.node =
      ((ms.filterMap arrival?).filter fun n => (n.kind.options? label).isSome).map Node.guid := by
  rw [List.map_filterMap, List.filter_filterMap, List.map_filterMap]
  exact List.filterMap_congr fun m hm => (hs m hm).node_line label

end Move

/-! ### The calls on a session -/

namespace Turn

/-- A call finds its session at a node, on a graph that has the outline of a given one: the session
waits there, or it is started, and the node is the start of the given graph. -/
inductive Finds (t : Turn) (g : Graph) : Node → Prop
  | waiting {s : Session} {live : Graph} {n : Node} {line : Presentation}
      (session : t.before.session = some s) (paused : t.before.Paused s live n line)
      (outline : live.outline = g.outline) : Finds t g n
  | opening {id : GraphId} {actor : Option Actor} (opening : t.opening? = some (id, actor))
      (registered : t.before.blackboard.graph? id = some g) : Finds t g g.entry

theorem pick?_of_opening {t : Turn} {o : GraphId × Option Actor} (h : t.opening? = some o) :
    t.pick? = none := by
  obtain ⟨st, c⟩ := t
  cases c with
  | select port =>
    have hnone : opening? ⟨st, .select port⟩ = none := ite_self _
    rw [hnone] at h
    simp at h
  | _ => rfl

theorem Moved.leaves {t : Turn} {m l : Move} (h : t.Moved m l) {g : Graph} {v : Node}
    (hfinds : t.Finds g v) : (∃ live, m.stage.Live m.session live ∧ live.outline = g.outline) ∧
      m.session.cursor = v.guid ∧
        v.Leaves t.before.config.continueLabel m t.pick?.toList [] := by
  cases hfinds with
  | @waiting s live n line hsession hpaused houtline =>
    obtain ⟨port, hpick, hoffers, rfl⟩ := h.answered hsession hpaused
    refine ⟨⟨live, hpaused.live, houtline⟩, (Graph.guid_of_node? hpaused.node).symm, ?_⟩
    rw [hpick]
    obtain ⟨o, ho, hport⟩ := List.any_eq_true.mp hoffers
    exact .picked hpaused.options (List.mem_map.mpr ⟨o, ho, by simpa using hport⟩)
  | @opening id actor hopening hgraph =>
    have hidle := Stage.session_of_idle (idle_of_opening hopening)
    obtain ⟨id', actor', g', hopening', hgraph', rfl⟩ := h.opened hidle
    obtain ⟨rfl, rfl⟩ := Prod.mk.inj (Option.some.inj (hopening.symm.trans hopening'))
    obtain rfl : g' = g := Option.some.inj (hgraph'.symm.trans hgraph)
    obtain ⟨live, hlive⟩ := h.sound.live
    have hregistered : t.before.blackboard.graph? g'.id = some g' := by
      rw [Blackboard.id_of_graph? hgraph]
      exact hgraph
    obtain rfl : live = g' := Option.some.inj (hlive.1.symm.trans hregistered)
    refine ⟨⟨live, hlive, rfl⟩, rfl, ?_⟩
    rw [pick?_of_opening hopening]
    exact .alone hlive.1 rfl

/-- Where a call on a session leads: it ends at a node exactly if the session still waits there. -/
def Reaches (t : Turn) (g : Graph) (e : Option Node) : Prop :=
  t.after.isRunning = true → ∃ w, e = some w ∧ t.after.currentNode? = some w.guid ∧
    ∀ u : Turn, u.before = t.after → u.Finds g w

theorem reaches_of_paused {t : Turn} {g live : Graph} {s : Session} {n : Node} {line : Presentation}
    (hsession : t.after.session = some s) (hpaused : t.after.Paused s live n line)
    (houtline : live.outline = g.outline) : t.Reaches g (some n) := by
  intro _
  refine ⟨n, rfl, ?_, fun u hu => ?_⟩
  · rw [Stage.currentNode?, hsession, Graph.guid_of_node? hpaused.node]
    rfl
  · rw [← hu] at hsession hpaused
    exact .waiting hsession hpaused houtline

theorem walk {t : Turn} (hst : t.before.Settled) {g : Graph} {v : Node} (hfinds : t.Finds g v) :
    ∃ e, g.Walk t.before.config.continueLabel v t.pick?.toList t.moves
      (t.moves.filterMap Move.arrival?) e ∧ t.Reaches g e := by
  cases t.course hst with
  | kept h =>
    rw [moves_of_none h.departure, pick?_of_none hst h.departure]
    refine ⟨some v, .here v, ?_⟩
    cases hfinds with
    | waiting hsession hpaused houtline =>
      obtain ⟨s', hsame⟩ := h.still.same _ hsession
      obtain ⟨live', hpaused', houtline'⟩ := hsame.paused h.still.config hpaused
      exact reaches_of_paused hsame.session hpaused' (houtline'.trans houtline)
    | opening hopening hgraph =>
      rw [opening?_of_none h.departure] at hopening
      simp at hopening
  | closed s h =>
    rw [moves_of_none h.departure, pick?_of_none hst h.departure]
    refine ⟨some v, .here v, fun hrunning => ?_⟩
    rw [Stage.isRunning_of_none h.session] at hrunning
    simp at hrunning
  | moved m l h =>
    obtain ⟨hlive, hcursor, hleaves⟩ := h.leaves hfinds
    have hwalk := Move.walk_onward g _ t.before.config.maxAutoAdvance m v _ h.sound hlive hcursor
      hleaves
    rw [← h.moves_eq, h.last] at hwalk
    refine ⟨_, hwalk, fun hrunning => ?_⟩
    obtain ⟨live, hlive⟩ := hlive
    have hakin := h.akin_last
    obtain ⟨live', hlive'⟩ := h.sound_last.live
    -- listeners may have written on the way, but the outline is the one of the first move
    have houtline : live'.outline = g.outline := by
      obtain ⟨live'', hgraph, hsame⟩ := Blackboard.graph?_of_outline hakin.outline hlive.1.1
      rw [← hakin.graph] at hgraph
      obtain rfl : live'' = live' := Option.some.inj (hgraph.symm.trans hlive'.1)
      exact hsame.trans hlive.2
    obtain ⟨s, live'', n, line, hsession, hpaused, hsame, harr, -⟩ :=
      h.sound_last.land_paused hlive' (h.running_iff.mp hrunning)
    rw [← h.after] at hsession hpaused
    rw [Option.bind_some, harr]
    exact reaches_of_paused hsession hpaused (hsame.trans houtline) hrunning

/-- Calls on a session walk on together. -/
def Walks (t : Turn) (ts : List Turn) : Prop :=
  ∀ g v, t.Finds g v → ∃ e, g.Walk t.before.config.continueLabel v ((t :: ts).filterMap pick?)
    ((t :: ts).flatMap moves) (((t :: ts).flatMap moves).filterMap Move.arrival?) e ∧
      (ts.getLastD t).Reaches g e

theorem walks (cs : List Call) (t : Turn) (hst : t.before.Settled) : t.Walks (t.after.during cs) := by
  refine Stage.sequel_induction (P := Walks) ?_ ?_ cs t hst
  · intro t hst g v hfinds
    obtain ⟨e, hwalk, hreaches⟩ := walk hst hfinds
    refine ⟨e, ?_, hreaches⟩
    rw [List.flatMap_singleton, List.filterMap_cons]
    cases hpick : t.pick? <;> rw [hpick] at hwalk <;> exact hwalk
  · intro t u ts hst hrunning hu ih g v hfinds
    obtain ⟨e, hwalk, hreaches⟩ := walk hst hfinds
    obtain ⟨w, rfl, -, hnext⟩ := hreaches hrunning
    obtain ⟨e', hrest, hreaches'⟩ := ih g w (hnext u hu)
    rw [hu, t.config_after hst] at hrest
    have hboth := hwalk.append hrest
    rw [List.getLastD_cons]
    refine ⟨e', ?_, hreaches'⟩
    rw [List.flatMap_cons, List.filterMap_append, List.filterMap_cons]
    cases hpick : t.pick? <;> rw [hpick] at hboth <;> exact hboth

/-- A call moves a session exactly if it starts one or takes a pick. It makes no more moves than the
settings allow, and its reply is the outcome of the last one. -/
structure Answers (t : Turn) (limit : Nat) : Prop where
  moves : t.moves = [] ↔ t.opening? = none ∧ t.pick? = none
  length : t.moves.length ≤ limit + 1
  reply : ∀ l, t.moves.getLast? = some l → t.reply = .session (l.outcome limit)
  limit : ∀ l, t.moves.getLast? = some l →
    l.outcome limit = .error (.autoAdvanceLimit limit) → t.moves.length = limit + 1

theorem Moved.asked {t : Turn} {m l : Move} (h : t.Moved m l) (hst : t.before.Settled) :
    ¬ (t.opening? = none ∧ t.pick? = none) := by
  rintro ⟨hopening, hpick⟩
  cases hsession : t.before.session with
  | none =>
    obtain ⟨id, actor, g, hopened, -⟩ := h.opened hsession
    rw [hopening] at hopened
    simp at hopened
  | some s =>
    obtain ⟨g, n, line, hpaused⟩ := hst s hsession
    obtain ⟨port, hpicked, -⟩ := h.answered hsession hpaused
    rw [hpick] at hpicked
    simp at hpicked

theorem answers {t : Turn} (hst : t.before.Settled) :
    t.Answers t.before.config.maxAutoAdvance := by
  rcases moved_or_none hst with hnone | ⟨m, l, h⟩
  · have hmoves := moves_of_none hnone
    have hlast : ∀ l, t.moves.getLast? ≠ some l := by simp [hmoves]
    refine ⟨iff_of_true hmoves ⟨opening?_of_none hnone, pick?_of_none hst hnone⟩, by simp [hmoves],
      fun l hl => absurd hl (hlast l), fun l hl => absurd hl (hlast l)⟩
  · obtain ⟨hle, heq⟩ := m.length_onward t.before.config.maxAutoAdvance
    rw [← h.moves_eq] at hle heq
    have hlast : ∀ l', t.moves.getLast? = some l' → l' = l := fun l' hl' =>
      Option.some.inj (hl'.symm.trans h.last)
    refine ⟨iff_of_false ?_ (h.asked hst), hle, fun l' hl' => ?_, fun l' hl' hlimit => ?_⟩
    · rw [h.moves_eq]
      exact m.onward_ne_nil _
    · rw [hlast l' hl']
      exact h.reply_eq
    · rw [hlast l' hl'] at hlimit
      obtain ⟨l'', hleads⟩ := h.sound_last.leads_of_limit hlimit
      exact heq l l'' h.last hleads

end Turn

/-! ### The way of a session -/

namespace Scene

/-- The ports that the player picks in a session. -/
def picks (sc : Scene) : List PortIndex := sc.turns.filterMap Turn.pick?

def moves (sc : Scene) : List Move := sc.turns.flatMap Turn.moves

/-- The nodes that are entered in a session, after its start. -/
def visits (sc : Scene) : List Guid := sc.turns.flatMap Turn.visits

/-- The way of a session on a graph, over the nodes that it visits after the start and to its place. -/
structure Way (sc : Scene) (config : Config) (g : Graph) (visited : List Node)
    (place : Option Node) : Prop where
  registered : sc.opening.before.blackboard.graph? sc.graph = some g
  walk : g.Walk config.continueLabel g.entry sc.picks sc.moves visited place
  entered : sc.visits = visited.map Node.guid
  /-- No node follows an exit. -/
  exits : ∀ n ∈ (g.entry :: visited).dropLast, n.kind ≠ .exit
  /-- A session that still runs is at the last node that it visited. -/
  cursor : sc.last.after.isRunning = true → ∃ n, place = some n ∧
    (g.entry :: visited).getLast? = some n ∧ sc.last.after.currentNode? = some n.guid
  /-- The lines are those of the moves, and so of the visited nodes that have options. -/
  lines : sc.notices.filterMap Notice.line? = sc.moves.filterMap Move.line?
  nodes : (sc.notices.filterMap Notice.line?).map Presentation.node =
    (visited.filter fun n => (n.kind.options? config.continueLabel).isSome).map Node.guid
  answers : ∀ t ∈ sc.turns, t.Answers config.maxAutoAdvance

theorem lines_eq {ts : List Turn} (hts : ∀ t ∈ ts, t.before.Settled) :
    (ts.flatMap Turn.notices).filterMap Notice.line? =
      (ts.flatMap Turn.moves).filterMap Move.line? := by
  rw [List.filterMap_flatMap, List.filterMap_flatMap]
  exact List.flatMap_congr fun t ht => Turn.lines_notices (hts t ht)

theorem visits_eq {ts : List Turn} (hts : ∀ t ∈ ts, t.before.Settled) :
    ts.flatMap Turn.visits = ((ts.flatMap Turn.moves).filterMap Move.arrival?).map Node.guid := by
  rw [List.filterMap_flatMap, List.map_flatMap]
  exact List.flatMap_congr fun t ht => Turn.visits_eq (hts t ht)

end Scene

namespace Stage

/-- **Every session walks a legal way.** From the start of the graph as it was registered, a session
follows the links of the graph: through the port that a node calls for, where a branch goes by the
first truth value of its name in the graph as it is registered at that moment, or through the port
that the player picks among the options of a line. It shows the line of each visited node that has
one, in the order of the visits. -/
theorem scenes_walk (config : Config) (cs : List Call) : ∀ sc ∈ (new config).scenes cs,
    ∃ g visited place, sc.Way config g visited place := by
  refine forall_scenes (fun t id actor cs hst hconfig hopening => ?_) cs (new config)
    (settled_of_idle rfl) rfl
  have hturns : ∀ x ∈ t :: t.after.during cs, x.before.Settled ∧ x.before.config = config := by
    intro x hx
    rcases List.mem_cons.mp hx with rfl | hx
    · exact ⟨hst, hconfig⟩
    · have hx := settled_during (t.settled_after hst) cs x hx
      exact ⟨hx.1, hx.2.trans ((t.config_after hst).trans hconfig)⟩
  have hsettled : ∀ x ∈ t :: t.after.during cs, x.before.Settled := fun x hx => (hturns x hx).1
  obtain ⟨g, hgraph⟩ := Turn.registered_of_opening hst hopening
  obtain ⟨e, hwalk, hreaches⟩ := t.walks cs hst g g.entry (.opening hopening hgraph)
  rw [hconfig] at hwalk
  have hsound : ∀ m ∈ (t :: t.after.during cs).flatMap Turn.moves, m.Sound := by
    intro m hm
    obtain ⟨x, hx, hm⟩ := List.mem_flatMap.mp hm
    exact Turn.sound_of_mem (hsettled x hx) hm
  have hlines := Scene.lines_eq hsettled
  refine ⟨g, _, e, hgraph, hwalk, Scene.visits_eq hsettled, hwalk.not_exit, fun hrunning => ?_,
    hlines, ?_, fun x hx => ?_⟩
  · obtain ⟨w, rfl, hcursor, -⟩ := hreaches hrunning
    exact ⟨w, rfl, hwalk.last_eq w rfl, hcursor⟩
  · refine (congrArg (List.map Presentation.node) hlines).trans ?_
    exact Move.nodes_lines config.continueLabel hsound
  · rw [← (hturns x hx).2]
    exact Turn.answers (hsettled x hx)

end Stage

/-- A branch that lets one in, past a line, or out. -/
def Graph.gate : Graph :=
  ⟨⟨2⟩, ⟨"start"⟩, .origin,
    [.ofKind ⟨"branch"⟩ "" (.condition "open"), .ofKind ⟨"enter"⟩ "Come in." (.basic none),
      .ofKind ⟨"leave"⟩ "" .exit],
    [⟨⟨"start"⟩, ⟨"branch"⟩, 0⟩, ⟨⟨"branch"⟩, ⟨"enter"⟩, 0⟩, ⟨⟨"branch"⟩, ⟨"leave"⟩, 1⟩,
      ⟨⟨"enter"⟩, ⟨"leave"⟩, 0⟩],
    [⟨⟨"flag"⟩, "open", .bool true⟩]⟩

namespace Stage

/-- A session through the open gate, over the line and out. -/
theorem scenes_walk_gate :
    ∃ sc ∈ (new {}).scenes [.register .gate, .start ⟨2⟩ none, .select 0], sc.picks = [0] ∧
      sc.visits = [⟨"branch"⟩, ⟨"enter"⟩, ⟨"leave"⟩] ∧
        ∃ g visited place, sc.Way {} g visited place := by
  have hmem : (⟨⟨2⟩, none, _, _⟩ : Scene) ∈
      (new {}).scenes [.register .gate, .start ⟨2⟩ none, .select 0] := List.mem_singleton.mpr rfl
  exact ⟨_, hmem, rfl, rfl, scenes_walk {} _ _ hmem⟩

end Stage

end Dialogue

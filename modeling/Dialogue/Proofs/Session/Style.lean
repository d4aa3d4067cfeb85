import Dialogue.Proofs.Session.Plain
import Dialogue.Proofs.Session.Protocol
import Mathlib.Data.List.Forall2

/-!
# Style

What the host is told is told in a style: the viewpoint, the names of actors, the label of the only
option of a basic node. Without it the notices of a call are those of the plain stage
(`Turn.gist_eq`). So two runs whose settings and actors differ in style only go alike, and the host is
told the same but for style (`style_does_not_steer`).
-/

namespace Dialogue

/-! ### Telling without style -/

def NodeKind.isBasic : NodeKind → Bool
  | basic _ => true
  | _ => false

/-- Whether a guid is that of a basic node. -/
def Graph.isBasic (g : Graph) (u : Guid) : Bool := (g.node? u).any fun n => n.kind.isBasic

/-- A line without the name of the actor and, at a basic node, without the label of its option. -/
def Presentation.gist (basic : Guid → Bool) (line : Presentation) : Presentation :=
  if basic line.node then line.plain else { line with actorName := none }

/-- A notice without its style; of the viewpoint nothing is left. -/
def Notice.gist? (basic : Guid → Bool) : Notice → Option Notice
  | .focused _ _ | .restored => none
  | .presented line => some (.presented (line.gist basic))
  | n => some n

namespace Turn

/-- Whether a guid is that of a basic node of the session's graph. -/
def isBasic (t : Turn) (u : Guid) : Bool := t.graph?.any fun g => g.isBasic u

/-- What the host is told during the call, but for style. -/
def gist (t : Turn) : List Notice := t.notices.filterMap (Notice.gist? t.isBasic)

end Turn

theorem Config.gist_closing (config : Config) (graph : GraphId) (basic : Guid → Bool) :
    (config.closing graph).filterMap (Notice.gist? basic) = config.plain.closing graph := by
  unfold closing
  cases config.restoreViewpointOnExit <;> rfl

theorem Graph.gist_notices (g : Graph) (config : Config) (actor : Option Actor) {n : Node}
    {basic : Guid → Bool} (hbasic : basic n.guid = n.kind.isBasic) :
    (g.notices config actor n).filterMap (Notice.gist? basic) = g.notices config.plain none n := by
  have hturning : ∀ target, (config.turning actor target).filterMap (Notice.gist? basic) = [] := by
    intro target
    unfold Config.turning
    split <;> rfl
  have hplain : ∀ target, config.plain.turning none target = [] := by
    intro target
    simp [Config.turning, Config.plain]
  have hline :
      (g.line? config actor n).map (Presentation.gist basic) = g.line? config.plain none n := by
    cases hkind : n.kind <;>
      simp [line?, NodeKind.options?, hkind, Presentation.gist, hbasic, NodeKind.isBasic,
        Presentation.plain, Config.plain, Stage.shownName]
  unfold notices
  rw [List.filterMap_append, ← hline]
  congr 1
  · cases n.kind.focus? with
    | none => rfl
    | some target => exact (hturning target).trans (hplain target).symm
  · cases g.line? config actor n <;> rfl

/-! ### Turns that differ in style only -/

theorem Stage.place_congr {st st' : Stage} (h : st'.plain = st.plain) : st'.state = st.state ∧
    st'.isRunning = st.isRunning ∧ st'.activeGraph? = st.activeGraph? ∧
      st'.currentNode? = st.currentNode? := by
  have hplain : ∀ p : Stage, p.plain.state = p.state ∧ p.plain.isRunning = p.isRunning ∧
      p.plain.activeGraph? = p.activeGraph? ∧ p.plain.currentNode? = p.currentNode? := by
    rintro ⟨config, blackboard, registry, session, journal⟩
    cases session <;> exact ⟨rfl, rfl, rfl, rfl⟩
  have hst' := hplain st'
  rw [h] at hst'
  obtain ⟨hstate, hrunning, hgraph, hnode⟩ := hplain st
  obtain ⟨hstate', hrunning', hgraph', hnode'⟩ := hst'
  exact ⟨hstate'.symm.trans hstate, hrunning'.symm.trans hrunning, hgraph'.symm.trans hgraph,
    hnode'.symm.trans hnode⟩

namespace Turn

variable {t t' : Turn}

theorem same_of_plain (h : t'.plain = t.plain) : t'.reply = t.reply ∧
    t'.after.plain = t.after.plain ∧ t'.moves.map Move.plain = t.moves.map Move.plain := by
  obtain ⟨hbefore, hcall⟩ := Turn.mk.inj h
  obtain ⟨hdeparture, hreply, hafter⟩ := t.before.call_plain t.call
  obtain ⟨hdeparture', hreply', hafter'⟩ := t'.before.call_plain t'.call
  rw [hbefore, hcall] at hdeparture' hreply' hafter'
  refine ⟨hreply'.symm.trans hreply, hafter'.symm.trans hafter, ?_⟩
  have hsame : t'.departure?.map Move.plain = t.departure?.map Move.plain :=
    hdeparture'.symm.trans hdeparture
  unfold moves
  rw [Stage.limit_congr hbefore]
  cases hm : t.departure? with
  | none =>
    rw [hm] at hsame
    rw [Option.map_eq_none_iff.mp hsame]
  | some m =>
    rw [hm] at hsame
    obtain ⟨m', hm', hplain⟩ := Option.map_eq_some_iff.mp hsame
    rw [hm']
    exact Move.onward_congr _ m m' hplain

theorem opening?_congr (h : t'.plain = t.plain) :
    t'.opening?.map Prod.fst = t.opening?.map Prod.fst := by
  have hasks : ∀ c : Call, c.plain.asks?.map Prod.fst = c.asks?.map Prod.fst := by
    intro c
    cases c <;> rfl
  have hcall : t'.call.plain = t.call.plain := (Turn.mk.inj h).2
  unfold opening?
  rw [(same_of_plain h).1]
  split
  · rfl
  · rw [← hasks t'.call, hcall, hasks t.call]

theorem subject?_congr (h : t'.plain = t.plain) :
    t'.subject?.map Prod.fst = t.subject?.map Prod.fst := by
  have hsession : t'.before.session.map Session.plain = t.before.session.map Session.plain :=
    congrArg Stage.session (Turn.mk.inj h).1
  unfold subject?
  cases hs : t.before.session with
  | none =>
    rw [hs] at hsession
    rw [Option.map_eq_none_iff.mp hsession]
    exact opening?_congr h
  | some s =>
    rw [hs] at hsession
    obtain ⟨s', hs', hplain⟩ := Option.map_eq_some_iff.mp hsession
    rw [hs']
    exact congrArg some (Session.graph_congr hplain)

theorem graph?_congr (h : t'.plain = t.plain) : t'.graph? = t.graph? := by
  have hboard := Stage.blackboard_congr (Turn.mk.inj h).1
  have hgraph : ∀ u : Turn,
      u.graph? = (u.subject?.map Prod.fst).bind u.before.blackboard.graph? := by
    intro u
    rw [graph?]
    cases u.subject? <;> rfl
  rw [hgraph, hgraph, subject?_congr h, hboard]

theorem isBasic_congr (h : t'.plain = t.plain) : t'.isBasic = t.isBasic := by
  funext u
  rw [isBasic, isBasic, graph?_congr h]

theorem gist_move (hst : t.before.Settled) {m : Move} (hm : m ∈ t.moves) :
    m.notices.filterMap (Notice.gist? t.isBasic) = m.plain.notices := by
  obtain ⟨m₀, l, h⟩ := moved_of_mem hst hm
  obtain ⟨g, live, hg, hlive, houtline⟩ := h.live_of_mem hst hm
  have hlive' : m.plain.stage.Live m.plain.session live := hlive
  have harr' : m.plain.arrival? = m.arrival? := rfl
  rw [Move.notices_of_live hlive, Move.notices_of_live hlive', harr']
  cases harr : m.arrival? with
  | none => rfl
  | some n =>
    rw [Move.arrival?_of_live hlive] at harr
    have hbasic : t.isBasic n.guid = n.kind.isBasic := by
      rw [isBasic, hg, Option.any_some, Graph.isBasic, ← Graph.node?_eq_of_outline houtline,
        Graph.node?_of_next? harr, Option.any_some]
    exact live.gist_notices _ _ hbasic

theorem gist_eq (hst : t.before.Settled) : t.gist =
    (t.opening?.map Prod.fst).elim [] (fun id => [.snapshot, .started id]) ++
      ((t.moves.map Move.plain).flatMap Move.notices ++
        (t.subject?.map Prod.fst).elim [] fun id => t.curtain t.before.config.plain id) := by
  have hheralds : t.heralds.filterMap (Notice.gist? t.isBasic) =
      (t.opening?.map Prod.fst).elim [] fun id => [.snapshot, .started id] := by
    unfold heralds
    cases t.opening? <;> rfl
  have hmoves : (t.moves.flatMap Move.notices).filterMap (Notice.gist? t.isBasic) =
      (t.moves.map Move.plain).flatMap Move.notices := by
    rw [List.filterMap_flatMap, List.flatMap_map, List.flatMap_def, List.flatMap_def]
    exact congrArg List.flatten (List.map_congr_left fun m hm => gist_move hst hm)
  have hcurtain : ∀ id, (t.curtain t.before.config id).filterMap (Notice.gist? t.isBasic) =
      t.curtain t.before.config.plain id := by
    intro id
    unfold curtain
    split
    · rfl
    · rw [List.filterMap_append, Config.gist_closing]
      cases t.reply.failure? <;> rfl
  rw [gist, notices_eq hst, List.filterMap_append, List.filterMap_append, hheralds, hmoves]
  cases t.subject? with
  | none => rfl
  | some o => rw [Option.map_some, Option.elim_some, Option.elim_some, hcurtain]

theorem gist_congr (h : t'.plain = t.plain) (hst : t.before.Settled) (hst' : t'.before.Settled) :
    t'.gist = t.gist := by
  obtain ⟨hreply, hafter, hmoves⟩ := same_of_plain h
  have hconfig : t'.before.config.plain = t.before.config.plain :=
    congrArg Stage.config (Turn.mk.inj h).1
  have hrunning : t'.after.isRunning = t.after.isRunning := (Stage.place_congr hafter).2.1
  have hcurtain : ∀ id,
      t'.curtain t'.before.config.plain id = t.curtain t.before.config.plain id := by
    intro id
    rw [curtain, curtain, hrunning, hreply, hconfig]
  rw [gist_eq hst, gist_eq hst', opening?_congr h, subject?_congr h, hmoves]
  simp only [hcurtain]

end Turn

namespace Stage

/-- Whether a guid is that of a basic node of the graph that the session is on. -/
def isBasic (st : Stage) (u : Guid) : Bool :=
  (st.activeGraph?.bind st.blackboard.graph?).any fun g => g.isBasic u

/-- The line that waits for the player, but for style. -/
def gist? (st : Stage) : Option Presentation := st.presentation?.map (Presentation.gist st.isBasic)

end Stage

theorem Presentation.gist_congr {line line' : Presentation} (h : line'.plain = line.plain)
    {basic basic' : Guid → Bool} {kind : NodeKind} {label label' : String}
    (hoptions : kind.options? label = some line.options)
    (hoptions' : kind.options? label' = some line'.options)
    (hbasic : basic line.node = kind.isBasic) (hbasic' : basic' line'.node = kind.isBasic) :
    line'.gist basic' = line.gist basic := by
  unfold gist
  rw [hbasic, hbasic']
  cases kind with
  | basic target => exact h
  | choice choices =>
    obtain ⟨hnode, htext, -, -⟩ := Presentation.mk.inj h
    have hsame : line'.options = line.options := Option.some.inj (hoptions'.symm.trans hoptions)
    rw [hnode, htext, hsame]
    rfl
  | _ => simp [NodeKind.options?] at hoptions

theorem Stage.gist?_congr {st st' : Stage} (h : st'.plain = st.plain) (hst : st.Settled)
    (hst' : st'.Settled) : st'.gist? = st.gist? := by
  have hsession : st'.session.map Session.plain = st.session.map Session.plain :=
    congrArg Stage.session h
  unfold gist? presentation?
  cases hs : st.session with
  | none =>
    rw [hs] at hsession
    rw [Option.map_eq_none_iff.mp hsession]
    rfl
  | some s =>
    rw [hs] at hsession
    obtain ⟨s', hs', hplain⟩ := Option.map_eq_some_iff.mp hsession
    obtain ⟨g, n, line, hpaused⟩ := hst s hs
    obtain ⟨g', n', line', hpaused'⟩ := hst' s' hs'
    have hgraph : s'.graph = s.graph := Session.graph_congr hplain
    have hcursor : s'.cursor = s.cursor :=
      show s'.plain.cursor = s.plain.cursor from congrArg Session.cursor hplain
    have hline : line'.plain = line.plain := by
      have hshown : s'.presentation.map Presentation.plain = s.presentation.map Presentation.plain :=
        congrArg Session.presentation hplain
      rw [hpaused.shown, hpaused'.shown] at hshown
      exact Option.some.inj hshown
    obtain rfl : g' = g := by
      have hg := hpaused'.live.1
      rw [blackboard_congr h, hgraph, hpaused.live.1] at hg
      exact (Option.some.inj hg).symm
    obtain rfl : n' = n := by
      have hn := hpaused'.node
      rw [hcursor, hpaused.node] at hn
      exact (Option.some.inj hn).symm
    have hbasic : ∀ {p : Stage} {q : Session} {line : Presentation}, p.session = some q →
        p.Paused q g' n' line → p.isBasic line.node = n'.kind.isBasic := by
      intro p q line hq hp
      rw [isBasic, activeGraph?, hq, Option.map_some, Option.bind_some, hp.live.1, Option.any_some,
        Graph.isBasic, hp.place, hp.node, Option.any_some]
    have hgist := Presentation.gist_congr hline hpaused.options hpaused'.options
      (hbasic hs hpaused) (hbasic hs' hpaused')
    rw [hs', Option.bind_some, Option.bind_some, hpaused.shown, hpaused'.shown, Option.map_some,
      Option.map_some, hgist]

/-- All that can be seen of the calls is the same, but for style. -/
structure Turn.AlikeButStyle (t t' : Turn) : Prop where
  reply : t'.reply = t.reply
  state : t'.after.state = t.after.state
  running : t'.after.isRunning = t.after.isRunning
  graph : t'.after.activeGraph? = t.after.activeGraph?
  node : t'.after.currentNode? = t.after.currentNode?
  board : t'.after.blackboard = t.after.blackboard
  /-- The nodes entered, the values written and the events handled so far. -/
  deeds : t'.after.deeds = t.after.deeds
  told : t'.gist = t.gist
  /-- The labels left out are those at the same nodes. -/
  basic : t'.isBasic = t.isBasic
  line : t'.after.gist? = t.after.gist?

theorem Turn.alikeButStyle {t t' : Turn} (h : t'.plain = t.plain) (hst : t.before.Settled)
    (hst' : t'.before.Settled) : t.AlikeButStyle t' := by
  obtain ⟨hreply, hafter, -⟩ := same_of_plain h
  obtain ⟨hstate, hrunning, hgraph, hnode⟩ := Stage.place_congr hafter
  exact ⟨hreply, hstate, hrunning, hgraph, hnode, Stage.blackboard_congr hafter,
    Stage.deeds_congr hafter, gist_congr h hst hst',
    isBasic_congr h, Stage.gist?_congr hafter (t.settled_after hst) (t'.settled_after hst')⟩

namespace Stage

theorem turns_alikeButStyle (cs : List Call) : ∀ (cs' : List Call) (st st' : Stage),
    st'.plain = st.plain → cs'.map Call.plain = cs.map Call.plain → st.Settled → st'.Settled →
      List.Forall₂ Turn.AlikeButStyle (st.turns cs) (st'.turns cs') := by
  induction cs with
  | nil =>
    intro cs' st st' h hcs hst hst'
    rw [List.map_eq_nil_iff.mp hcs]
    exact .nil
  | cons c cs ih =>
    intro cs' st st' h hcs hst hst'
    obtain ⟨c', cs', rfl, hc, hcs⟩ := List.map_eq_cons_iff.mp hcs
    have hplain : Turn.plain ⟨st', c'⟩ = Turn.plain ⟨st, c⟩ := by
      rw [Turn.plain, Turn.plain, h, hc]
    exact .cons (Turn.alikeButStyle hplain hst hst')
      (ih cs' _ _ (Turn.same_of_plain hplain).2.1 hcs (Turn.settled_after ⟨st, c⟩ hst)
        (Turn.settled_after ⟨st', c'⟩ hst'))

/-- **Style does not steer a dialogue.** Two runs with the same limit and the same strictness, whose
calls are the same but for the actors of sessions, get the same replies, are at the same places, write
the same and handle the same, whatever the other settings are; and the host is told the same, but for
the viewpoint, the names of actors and the labels of the only options of basic nodes. -/
theorem style_does_not_steer {config config' : Config}
    (hstrict : config'.strictLinks = config.strictLinks)
    (hlimit : config'.maxAutoAdvance = config.maxAutoAdvance) {cs cs' : List Call}
    (hcs : cs'.map Call.plain = cs.map Call.plain) :
    List.Forall₂ Turn.AlikeButStyle ((new config).turns cs) ((new config').turns cs') := by
  refine turns_alikeButStyle cs cs' (new config) (new config') ?_ hcs (settled_of_idle rfl)
    (settled_of_idle rfl)
  simp only [plain, new, Config.plain, hstrict, hlimit]

end Stage

/-- A line at which the viewpoint turns to the actor, and a choice. -/
def Graph.parlour : Graph :=
  ⟨⟨15⟩, ⟨"start"⟩, .origin,
    [.ofKind ⟨"greet"⟩ "Good day." (.basic (some .actor)),
      .ofKind ⟨"ask"⟩ "Tea?" (.choice (.ofList [(0, "Yes"), (1, "No")])), .ofKind ⟨"leave"⟩ "" .exit],
    [⟨⟨"start"⟩, ⟨"greet"⟩, 0⟩, ⟨⟨"greet"⟩, ⟨"ask"⟩, 0⟩, ⟨⟨"ask"⟩, ⟨"leave"⟩, 1⟩], []⟩

/-- A visit to the parlour, which an actor may receive. -/
def Call.visit (actor : Option Actor) : List Call :=
  [.register .parlour, .start ⟨15⟩ actor, .select 0, .select 1]

namespace Stage

/-- One visit is shown with all that there is, the other one with nothing but the lines. -/
theorem style_does_not_steer_parlour :
    ∃ config config' : Config, config'.strictLinks = config.strictLinks ∧
      config'.maxAutoAdvance = config.maxAutoAdvance ∧
      (Call.visit none).map Call.plain = (Call.visit (some ⟨"ada", none⟩)).map Call.plain ∧
      ((new config).run (Call.visit (some ⟨"ada", none⟩))).2.notices.length = 7 ∧
      ((new config').run (Call.visit none)).2.notices.length = 5 ∧
      List.Forall₂ Turn.AlikeButStyle ((new config).turns (Call.visit (some ⟨"ada", none⟩)))
        ((new config').turns (Call.visit none)) := by
  refine ⟨{ displayActorNames := true, continueLabel := "Go on" },
    { focusOnActor := false, restoreViewpointOnExit := false }, rfl, rfl, rfl, rfl, rfl, ?_⟩
  exact style_does_not_steer (by rfl) (by rfl) (by rfl)

end Stage

end Dialogue

import Dialogue.Proofs.Story.Work
import Dialogue.Stage

/-!
# Coming to a node

What a session does at a node, told from the node and the graph as it is registered at that moment,
without a template: how the session goes on (`Graph.verdict`), the line it shows (`Graph.line?`) and
what the host is told (`Graph.notices`). A session is live on a stage when its graph is registered
and its template is the one of that graph. `acted_act` says that acting on a node does just this to a
live session, and leaves it live; the only node at which anything else can happen is an event, whose
listeners work on the properties.
-/

namespace Dialogue

/-! ### Nodes and what they ask for -/

namespace NodeKind

/-- The options of a line with a label for the only option of a basic node; other nodes show no
line. -/
def options? (label : String) : NodeKind → Option (List PresentedOption)
  | basic _ => some [⟨0, label⟩]
  | choice choices => some (choices.entries.map fun e => ⟨e.1, e.2⟩)
  | _ => none

/-- Whom the viewpoint turns to at a node. -/
def focus? : NodeKind → Option FocusTarget
  | basic target => target
  | focus target => some target
  | _ => none

end NodeKind

def Notice.line? : Notice → Option Presentation
  | .presented line => some line
  | _ => none

theorem Notice.mem_lines {ns : List Notice} {line : Presentation} :
    line ∈ ns.filterMap Notice.line? ↔ .presented line ∈ ns := by
  constructor
  · intro h
    obtain ⟨n, hn, hline⟩ := List.mem_filterMap.mp h
    cases n with
    | presented p =>
      rw [← Option.some.inj hline]
      exact hn
    | _ => cases hline
  · exact fun h => List.mem_filterMap.mpr ⟨_, h, rfl⟩

/-- What the host is told when the viewpoint is to turn. -/
def Config.turning (config : Config) (actor : Option Actor) (target : FocusTarget) : List Notice :=
  if config.focusOnActor = true ∧ (target = .actor → actor ≠ none) then [.focused target actor]
  else []

namespace Graph

/-- How a session goes on from a node that it has come to. -/
def verdict (g : Graph) (n : Node) : Stage.Verdict :=
  match n.kind with
  | .entry | .event _ | .focus _ => .advance 0
  | .condition flag =>
    match g.flag? flag with
    | some true => .advance 0
    | some false => .advance 1
    | none => .fail (.unknownCondition n.guid flag)
  | .basic _ | .choice _ => .pause
  | .exit => .finish

/-- The line that is shown at a node. -/
def line? (g : Graph) (config : Config) (actor : Option Actor) (n : Node) : Option Presentation :=
  (n.kind.options? config.continueLabel).map fun options =>
    ⟨n.guid, g.spoken n.text, options, Stage.shownName config actor⟩

/-- What the host is told at a node: where to look, then the line. -/
def notices (g : Graph) (config : Config) (actor : Option Actor) (n : Node) : List Notice :=
  (n.kind.focus?.elim [] (config.turning actor)) ++ ((g.line? config actor n).map .presented).toList

theorem lines_notices (g : Graph) (config : Config) (actor : Option Actor) (n : Node) :
    (g.notices config actor n).filterMap Notice.line? = (g.line? config actor n).toList := by
  have hturning : ∀ target, (config.turning actor target).filterMap Notice.line? = [] := by
    intro target
    unfold Config.turning
    split <;> rfl
  rw [notices, List.filterMap_append]
  have hfocus : (n.kind.focus?.elim [] (config.turning actor)).filterMap Notice.line? = [] := by
    cases n.kind.focus? with
    | none => rfl
    | some target => exact hturning target
  rw [hfocus, List.nil_append]
  cases g.line? config actor n <;> rfl

theorem options?_of_pause {g : Graph} {n : Node} (h : g.verdict n = .pause) (label : String) :
    ∃ options, n.kind.options? label = some options := by
  unfold verdict at h
  cases hk : n.kind with
  | basic target => exact ⟨_, rfl⟩
  | choice choices => exact ⟨_, rfl⟩
  | condition flag =>
    simp only [hk] at h
    split at h <;> simp at h
  | _ => simp [hk] at h

theorem unknown_of_fail {g : Graph} {n : Node} {e : SessionError} (h : g.verdict n = .fail e) :
    ∃ flag, n.kind = .condition flag ∧ g.flag? flag = none ∧ e = .unknownCondition n.guid flag := by
  unfold verdict at h
  cases hk : n.kind with
  | condition flag =>
    simp only [hk] at h
    split at h
    · simp at h
    · simp at h
    · rename_i hflag
      exact ⟨flag, rfl, hflag, (Stage.Verdict.fail.inj h).symm⟩
  | _ => simp [hk] at h

end Graph

/-! ### Stages -/

namespace Stage

def notices (st : Stage) : List Notice := Journal.notices st.journal

def visits (st : Stage) : List Guid := Journal.visits st.journal

/-- The properties as a moving session and its listeners see them. -/
def scopeOf (st : Stage) (s : Session) : Scope :=
  ⟨st.blackboard, some (s.graph, s.template), st.journal⟩

/-- A session is on a registered graph and has the template of that graph. -/
def Live (st : Stage) (s : Session) (g : Graph) : Prop :=
  st.blackboard.graph? s.graph = some g ∧ s.template = .ofGraph g

theorem notices_tell (st : Stage) (n : Notice) : (st.tell n).notices = st.notices ++ [n] :=
  Journal.notices_cons (.told n) st.journal

theorem visits_tell (st : Stage) (n : Notice) : (st.tell n).visits = st.visits := by
  simp [visits, tell, record, Journal.visits_cons, Entry.visit?]

theorem notices_entered (st : Stage) (u : Guid) :
    (st.record (.entered u)).notices = st.notices := by
  simp [notices, record, Journal.notices_cons, Entry.notice?]

theorem visits_entered (st : Stage) (u : Guid) :
    (st.record (.entered u)).visits = st.visits ++ [u] :=
  Journal.visits_cons (.entered u) st.journal

/-! ### Acting on a node -/

/-- What acting on a node makes of a stage and a session that is live on a graph. -/
structure Acted (st : Stage) (s : Session) (g : Graph) (n : Node) (r : Stage × Session × Verdict) :
    Prop where
  config : r.1.config = st.config
  registry : r.1.registry = st.registry
  outline : r.1.blackboard.outline = st.blackboard.outline
  /-- Properties are written at events only. -/
  board : (∀ event, n.kind ≠ .event event) → r.1.blackboard = st.blackboard
  graph : r.2.1.graph = s.graph
  cursor : r.2.1.cursor = s.cursor
  actor : r.2.1.actor = s.actor
  live : ∃ g', r.1.Live r.2.1 g' ∧ g'.outline = g.outline ∧ g'.verdict n = g.verdict n
  verdict : r.2.2 = g.verdict n
  notices : r.1.notices = st.notices ++ g.notices st.config s.actor n
  visits : r.1.visits = st.visits
  /-- A session that does not pause is as before but for its template. -/
  moving : r.2.2 ≠ .pause → r.2.1.state = s.state ∧ r.2.1.presentation = s.presentation
  paused : r.2.2 = .pause →
    r.2.1.state = .awaitingInput ∧ r.2.1.presentation = g.line? st.config s.actor n

theorem notices_focus (st : Stage) (actor : Option Actor) (target : FocusTarget) :
    (st.focus actor target).notices = st.notices ++ st.config.turning actor target := by
  unfold focus Config.turning
  cases hc : st.config.focusOnActor with
  | false => simp
  | true =>
    by_cases hmissing : target = .actor ∧ actor = none
    · have hno : ¬ (target = .actor → actor ≠ none) := fun h => h hmissing.1 hmissing.2
      simp [hmissing]
    · have hyes : target = .actor → actor ≠ none := fun ht ha => hmissing ⟨ht, ha⟩
      rw [if_neg (by simp), if_neg hmissing, if_pos ⟨rfl, hyes⟩]
      exact notices_tell st _

theorem focus_frame (st : Stage) (actor : Option Actor) (target : FocusTarget) :
    (st.focus actor target).config = st.config ∧ (st.focus actor target).registry = st.registry ∧
      (st.focus actor target).blackboard = st.blackboard ∧
      (st.focus actor target).visits = st.visits := by
  unfold focus
  split
  · exact ⟨rfl, rfl, rfl, rfl⟩
  · split
    · exact ⟨rfl, rfl, rfl, rfl⟩
    · exact ⟨rfl, rfl, rfl, visits_tell st _⟩

theorem worked_dispatch (st : Stage) (s : Session) (event : String) :
    (st.scopeOf s).Worked ((st.dispatch s event).1.scopeOf (st.dispatch s event).2) := by
  have hw := st.registry.worked_dispatch event (st.scopeOf s)
  have howner := hw.owner
  obtain ⟨⟨id, t⟩, hactive, hid⟩ := Option.map_eq_some_iff.mp howner
  have hid : id = s.graph := hid
  subst hid
  have hsame : (st.dispatch s event).1.scopeOf (st.dispatch s event).2 =
      st.registry.dispatch event (st.scopeOf s) := by
    unfold dispatch scopeOf at *
    simp only [hactive, Option.map_some, Option.getD_some]
    rw [← hactive]
  rw [hsame]
  exact hw

theorem visits_act (st : Stage) (s : Session) (n : Node) : (st.act s n).1.visits = st.visits := by
  unfold act
  cases n.kind with
  | exit => rfl
  | entry => rfl
  | event name => exact (st.worked_dispatch s name).visits
  | focus target => exact (st.focus_frame s.actor target).2.2.2
  | condition flag =>
    simp only
    split <;> rfl
  | basic target =>
    cases target with
    | none => exact st.visits_tell _
    | some target =>
      exact ((st.focus s.actor target).visits_tell _).trans (st.focus_frame s.actor target).2.2.2
  | choice choices => exact st.visits_tell _

theorem coherent_scopeOf {st : Stage} {s : Session} :
    (st.scopeOf s).Coherent ↔ ∃ g, st.Live s g := by
  constructor
  · intro h
    exact h s.graph s.template rfl
  · rintro ⟨g, hg, ht⟩ id t hactive
    cases hactive
    exact ⟨g, hg, ht⟩

theorem Live.worked {st st' : Stage} {s s' : Session} {g : Graph} (h : st.Live s g)
    (hw : (st.scopeOf s).Worked (st'.scopeOf s')) :
    ∃ g', st'.Live s' g' ∧ g'.outline = g.outline := by
  obtain ⟨g', hlive'⟩ := coherent_scopeOf.mp (hw.coherent (coherent_scopeOf.mpr ⟨g, h⟩))
  obtain ⟨g'', hg'', houtline⟩ := Blackboard.graph?_of_outline hw.outline h.1
  have hid : s'.graph = s.graph := Option.some.inj hw.owner
  have hsame : some g'' = some g' := by
    rw [← hlive'.1, hid]
    exact hg''.symm
  exact ⟨g', hlive', Option.some.inj hsame ▸ houtline⟩

theorem acted_present {st st' : Stage} {s : Session} {g : Graph} {n : Node}
    {options : List PresentedOption} (hlive : st.Live s g)
    (hoptions : n.kind.options? st.config.continueLabel = some options)
    (hverdict : g.verdict n = .pause) (hconfig : st'.config = st.config)
    (hregistry : st'.registry = st.registry) (hboard : st'.blackboard = st.blackboard)
    (hvisits : st'.visits = st.visits)
    (hnotices : st'.notices = st.notices ++ n.kind.focus?.elim [] (st.config.turning s.actor)) :
    st.Acted s g n (st'.present s n options) := by
  have hline : g.line? st.config s.actor n =
      some ⟨n.guid, s.template.render n.text, options, shownName st'.config s.actor⟩ := by
    rw [Graph.line?, hoptions, hlive.2, Template.render_ofGraph, hconfig]
    rfl
  refine ⟨hconfig, hregistry, congrArg _ hboard, fun _ => hboard, rfl, rfl, rfl,
    ⟨g, ⟨?_, hlive.2⟩, rfl, rfl⟩, hverdict.symm, ?_, ?_, fun h => absurd rfl h, fun _ => ⟨rfl, hline.symm⟩⟩
  · show st'.blackboard.graph? s.graph = some g
    rw [hboard]
    exact hlive.1
  · show (st'.tell _).notices = _
    rw [notices_tell, hnotices, Graph.notices, hline, List.append_assoc]
    rfl
  · show (st'.tell _).visits = _
    rw [visits_tell, hvisits]

theorem acted_silent {st : Stage} {s : Session} {g : Graph} {n : Node} (hlive : st.Live s g)
    (hnotices : g.notices st.config s.actor n = []) (hverdict : g.verdict n ≠ .pause) :
    st.Acted s g n (st, s, g.verdict n) :=
  ⟨rfl, rfl, rfl, fun _ => rfl, rfl, rfl, rfl, ⟨g, hlive, rfl, rfl⟩, rfl,
    by rw [hnotices, List.append_nil], rfl, fun _ => ⟨rfl, rfl⟩, fun h => absurd h hverdict⟩

/-- **Acting on a node does what the node asks for**, and keeps a session live. -/
theorem acted_act (st : Stage) (s : Session) {g : Graph} (hlive : st.Live s g) (n : Node) :
    st.Acted s g n (st.act s n) := by
  obtain ⟨guid, position, text, kind⟩ := n
  cases kind with
  | entry => exact acted_silent hlive rfl (by simp [Graph.verdict])
  | exit => exact acted_silent hlive rfl (by simp [Graph.verdict])
  | condition flag =>
    have hact : st.act s ⟨guid, position, text, .condition flag⟩ =
        (st, s, g.verdict ⟨guid, position, text, .condition flag⟩) := by
      simp only [act, Graph.verdict, hlive.2, Template.check_ofGraph]
      cases g.flag? flag with
      | none => rfl
      | some b => cases b <;> rfl
    rw [hact]
    refine acted_silent hlive rfl ?_
    simp only [Graph.verdict]
    split <;> simp
  | focus target =>
    obtain ⟨hconfig, hregistry, hboard, hvisits⟩ := st.focus_frame s.actor target
    refine ⟨hconfig, hregistry, congrArg _ hboard, fun _ => hboard, rfl, rfl, rfl,
      ⟨g, ⟨?_, hlive.2⟩, rfl, rfl⟩, rfl, ?_, hvisits, fun _ => ⟨rfl, rfl⟩, fun h => by simp [act] at h⟩
    · show (st.focus s.actor target).blackboard.graph? s.graph = some g
      rw [hboard]
      exact hlive.1
    · show (st.focus s.actor target).notices = _
      rw [notices_focus]
      simp [Graph.notices, Graph.line?, NodeKind.focus?, NodeKind.options?]
  | event name =>
    have hw := st.worked_dispatch s name
    obtain ⟨g', hlive', houtline⟩ := hlive.worked hw
    refine ⟨rfl, rfl, hw.outline, fun h => absurd rfl (h name), rfl, rfl, rfl,
      ⟨g', hlive', houtline, rfl⟩, rfl, ?_, hw.visits,
      fun _ => ⟨rfl, rfl⟩, fun h => by simp [act] at h⟩
    refine hw.notices.trans ?_
    simp [Graph.notices, Graph.line?, NodeKind.focus?, NodeKind.options?, notices, scopeOf]
  | basic target =>
    cases target with
    | none =>
      exact acted_present hlive rfl rfl rfl rfl rfl rfl (by simp [NodeKind.focus?])
    | some target =>
      obtain ⟨hconfig, hregistry, hboard, hvisits⟩ := st.focus_frame s.actor target
      have hsame : st.act s ⟨guid, position, text, .basic (some target)⟩ =
          (st.focus s.actor target).present s ⟨guid, position, text, .basic (some target)⟩
            [⟨0, st.config.continueLabel⟩] := by
        simp only [act, hconfig]
      rw [hsame]
      exact acted_present hlive rfl rfl hconfig hregistry hboard hvisits
        (st.notices_focus s.actor target)
  | choice choices =>
    exact acted_present hlive rfl rfl rfl rfl rfl rfl (by simp [NodeKind.focus?])

end Stage

end Dialogue

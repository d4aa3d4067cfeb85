import Dialogue.Proofs.Story.Deeds
import Dialogue.Proofs.Session.Turn

/-!
# The plain stage

Some settings only concern how a dialogue is shown: changes of viewpoint, names, the label of the
option to continue; and so does the actor of a session. The plain stage is a stage without all that
and without what the host was told (`Stage.plain`), and it does the same: acting on a node is the same
(`Stage.plainResult_act`), so the moves of an advance are (`Move.onward_congr`), and every call gets the
same reply and leaves a stage that is plainly the same (`Stage.call_plain`).
-/

namespace Dialogue

/-! ### What is left without style -/

/-- The settings that steer a dialogue. -/
def Config.plain (config : Config) : Config :=
  { config with
    focusOnActor := false
    restoreViewpointOnExit := false
    displayActorNames := false
    continueLabel := "" }

/-- A line without the name of the actor and the labels of its options. -/
def Presentation.plain (line : Presentation) : Presentation :=
  { line with options := line.options.map fun o => { o with label := "" }, actorName := none }

def Session.plain (s : Session) : Session :=
  { s with actor := none, presentation := s.presentation.map Presentation.plain }

/-- The stage without its style, with the deeds alone in its journal. -/
def Stage.plain (st : Stage) : Stage where
  config := st.config.plain
  blackboard := st.blackboard
  registry := st.registry
  session := st.session.map Session.plain
  journal := st.journal.filter Entry.isDeed

def Move.plain (m : Move) : Move := ⟨m.stage.plain, m.session.plain, m.port⟩

/-- A call that names no actor. -/
def Call.plain : Call → Call
  | .start id _ => .start id none
  | .serve server => .serve { server with actor := none }
  | c => c

def Turn.plain (t : Turn) : Turn := ⟨t.before.plain, t.call.plain⟩

theorem Presentation.plain_plain (line : Presentation) : line.plain.plain = line.plain := by
  simp [plain]

theorem Presentation.offers_plain (line : Presentation) (port : PortIndex) :
    line.plain.offers port = line.offers port := by
  simp [offers, plain, Function.comp_def]

theorem Session.graph_congr {s s' : Session} (h : s'.plain = s.plain) : s'.graph = s.graph :=
  show s'.plain.graph = s.plain.graph from congrArg Session.graph h

theorem Session.plain_plain (s : Session) : s.plain.plain = s.plain := by
  simp [plain, Function.comp_def, Presentation.plain_plain]

namespace Stage

theorem plain_plain (st : Stage) : st.plain.plain = st.plain := by
  simp [plain, Config.plain, Function.comp_def, Session.plain_plain]

theorem session_plain (st : Stage) : st.plain.session = st.session.map Session.plain := rfl

theorem blackboard_congr {st st' : Stage} (h : st'.plain = st.plain) :
    st'.blackboard = st.blackboard :=
  show st'.plain.blackboard = st.plain.blackboard from congrArg Stage.blackboard h

theorem registry_congr {st st' : Stage} (h : st'.plain = st.plain) : st'.registry = st.registry :=
  show st'.plain.registry = st.plain.registry from congrArg Stage.registry h

theorem deeds_congr {st st' : Stage} (h : st'.plain = st.plain) : st'.deeds = st.deeds :=
  congrArg (fun p : Stage => p.journal.reverse) h

theorem limit_congr {st st' : Stage} (h : st'.plain = st.plain) :
    st'.config.maxAutoAdvance = st.config.maxAutoAdvance :=
  show st'.plain.config.maxAutoAdvance = st.plain.config.maxAutoAdvance from
    congrArg (fun p : Stage => p.config.maxAutoAdvance) h

theorem plain_withBoard {st st' : Stage} (h : st'.plain = st.plain) (b : Blackboard) :
    plain { st' with blackboard := b } = plain { st with blackboard := b } :=
  congrArg (fun p : Stage => { p with blackboard := b }) h

theorem plain_withRegistry {st st' : Stage} (h : st'.plain = st.plain) (r : Registry) :
    plain { st' with registry := r } = plain { st with registry := r } :=
  congrArg (fun p : Stage => { p with registry := r }) h

/-! ### Acting without style -/

theorem plain_tell (st : Stage) (n : Notice) : (st.tell n).plain = st.plain := rfl

theorem plain_focus (st : Stage) (actor : Option Actor) (target : FocusTarget) :
    (st.focus actor target).plain = st.plain := by
  unfold focus
  split
  · rfl
  · split
    · rfl
    · exact st.plain_tell _

theorem plain_close (st : Stage) (s : Session) :
    (st.close s).plain = { st.plain with session := none } := by
  unfold close
  split <;> rfl

theorem plain_abort (st : Stage) (s : Session) (e : SessionError) :
    (st.abort s e).plain = { st.plain with session := none } :=
  (st.tell (.failed e)).plain_close s

theorem deeds_close (st : Stage) (s : Session) : (st.close s).deeds = st.deeds :=
  congrArg (fun p : Stage => p.journal.reverse) (st.plain_close s)

theorem dispatch_plain (st : Stage) (s : Session) (event : String) :
    st.plain.dispatch s.plain event =
      ((st.dispatch s event).1.plain, (st.dispatch s event).2.plain) := by
  have h : st.plain.registry.dispatch event
      ⟨st.plain.blackboard, some (s.plain.graph, s.plain.template), st.plain.journal⟩ =
        (st.registry.dispatch event (st.scopeOf s)).plain :=
    st.registry.dispatch_plain event (st.scopeOf s)
  rw [dispatch, h]
  rfl

theorem plain_act (st : Stage) (s : Session) {n : Node} (h : ∀ event, n.kind ≠ .event event) :
    (st.act s n).1.plain = st.plain := by
  obtain ⟨guid, position, text, kind⟩ := n
  cases kind with
  | event name => exact absurd rfl (h name)
  | entry => rfl
  | exit => rfl
  | condition flag =>
    simp only [act]
    cases s.template.check flag <;> rfl
  | focus target => exact st.plain_focus s.actor target
  | basic target =>
    cases target with
    | none => rfl
    | some target => exact st.plain_focus s.actor target
  | choice choices => rfl

/-- The plain stage and session, and how the session goes on. -/
def plainResult (r : Stage × Session × Verdict) : Stage × Session × Verdict :=
  (r.1.plain, r.2.1.plain, r.2.2)

theorem plainResult_present (st : Stage) (s : Session) (n : Node) (options : List PresentedOption) :
    plainResult (st.present s n options) =
      (st.plain, { s.plain with
        state := .awaitingInput
        presentation := some (Presentation.plain ⟨n.guid, s.template.render n.text, options, none⟩) },
        .pause) :=
  rfl

theorem plainResult_act (st : Stage) (s : Session) (n : Node) :
    plainResult (st.plain.act s.plain n) = plainResult (st.act s n) := by
  obtain ⟨guid, position, text, kind⟩ := n
  -- nodes at which the stage and the session stay as they are
  have hsame : ∀ verdict,
      plainResult (st.plain, s.plain, verdict) = plainResult (st, s, verdict) := by
    intro verdict
    simp only [plainResult, plain_plain, Session.plain_plain]
  cases kind with
  | exit => exact hsame .finish
  | entry => exact hsame (.advance 0)
  | event name =>
    simp only [act, dispatch_plain, plainResult, plain_plain, Session.plain_plain]
  | focus target => simp only [act, plainResult, plain_focus, plain_plain, Session.plain_plain]
  | condition flag =>
    have hcheck : s.plain.template.check flag = s.template.check flag := rfl
    simp only [act, hcheck]
    cases s.template.check flag with
    | true => exact hsame _
    | false => exact hsame _
    | unknown => exact hsame _
  | basic target =>
    -- the two lines have different labels, and their plain lines have none
    cases target with
    | none =>
      simp only [act, plainResult_present, plain_plain, Session.plain_plain]
      rfl
    | some target =>
      simp only [act, plainResult_present, plain_focus, plain_plain, Session.plain_plain]
      rfl
  | choice choices =>
    simp only [act, plainResult_present, plain_plain, Session.plain_plain]
    rfl

end Stage

/-! ### Moving without style -/

namespace Move

theorem plainResult_plain (m : Move) :
    Stage.plainResult m.plain.result = Stage.plainResult m.result := by
  cases harr : m.arrival? with
  | none =>
    have harr' : m.plain.arrival? = none := harr
    rw [result_of_lost harr, result_of_lost harr']
    simp only [Stage.plainResult, plain, Stage.plain_plain, Session.plain_plain]
  | some n =>
    have harr' : m.plain.arrival? = some n := harr
    rw [result_of_arrival harr, result_of_arrival harr']
    exact (m.stage.record (.entered n.guid)).plainResult_act { m.session with cursor := n.guid } n

variable {m m' : Move}

theorem plainResult_congr (h : m'.plain = m.plain) :
    Stage.plainResult m'.result = Stage.plainResult m.result := by
  rw [← m'.plainResult_plain, h, m.plainResult_plain]

theorem leads_congr (h : m'.plain = m.plain) {x : Move} (hx : m.Leads x) :
    ∃ x', m'.Leads x' ∧ x'.plain = x.plain := by
  have hresult := plainResult_congr h
  rw [hx] at hresult
  obtain ⟨hstage, hrest⟩ := Prod.mk.inj hresult
  obtain ⟨hsession, hverdict⟩ := Prod.mk.inj hrest
  refine ⟨⟨m'.result.1, m'.result.2.1, x.port⟩, Prod.ext rfl (Prod.ext rfl hverdict), ?_⟩
  rw [plain, plain, Move.mk.injEq]
  exact ⟨hstage, hsession, rfl⟩

theorem rests_congr (h : m'.plain = m.plain) {budget : Nat} (hm : m.Rests budget) :
    m'.Rests budget := by
  refine hm.imp id fun hstays x' hx' => ?_
  obtain ⟨x, hx, -⟩ := leads_congr h.symm hx'
  exact hstays x hx

theorem onward_congr (budget : Nat) (m : Move) : ∀ m' : Move, m'.plain = m.plain →
    (m'.onward budget).map plain = (m.onward budget).map plain := by
  induction budget, m using onward_induction with
  | rests budget m hm =>
    intro m' h
    rw [onward_of_rests hm, onward_of_rests (rests_congr h hm), List.map_singleton, h]
    rfl
  | leads budget m x hx ih =>
    intro m' h
    obtain ⟨x', hx', hplain⟩ := leads_congr h hx
    rw [onward_of_leads hx, onward_of_leads hx', List.map_cons, List.map_cons, h, ih x' hplain]

theorem land_congr (h : m'.plain = m.plain) (limit : Nat) :
    (m'.land limit).1 = (m.land limit).1 ∧ (m'.land limit).2.plain = (m.land limit).2.plain := by
  have hresult := plainResult_congr h
  unfold land
  generalize m.result = r at hresult ⊢
  generalize m'.result = r' at hresult ⊢
  obtain ⟨st, s, verdict⟩ := r
  obtain ⟨st', s', verdict'⟩ := r'
  obtain ⟨hstage, hrest⟩ := Prod.mk.inj hresult
  obtain ⟨hsession, rfl⟩ := Prod.mk.inj hrest
  have hstage : st'.plain = st.plain := hstage
  have hsession : s'.plain = s.plain := hsession
  cases verdict' with
  | pause =>
    refine ⟨rfl, ?_⟩
    show { st'.plain with session := some s'.plain } = { st.plain with session := some s.plain }
    rw [hstage, hsession]
  | finish => exact ⟨rfl, by rw [Stage.plain_close, Stage.plain_close, hstage]⟩
  | fail e => exact ⟨rfl, by rw [Stage.plain_abort, Stage.plain_abort, hstage]⟩
  | advance port => exact ⟨rfl, by rw [Stage.plain_abort, Stage.plain_abort, hstage]⟩

theorem advance_congr (h : m'.plain = m.plain) (limit budget : Nat) :
    (Stage.advance limit budget m'.stage m'.session m'.port).1 =
        (Stage.advance limit budget m.stage m.session m.port).1 ∧
      (Stage.advance limit budget m'.stage m'.session m'.port).2.plain =
        (Stage.advance limit budget m.stage m.session m.port).2.plain := by
  obtain ⟨l, hl, hland⟩ := m.advance_eq_land limit budget
  obtain ⟨l', hl', hland'⟩ := m'.advance_eq_land limit budget
  have hlast := congrArg List.getLast? (onward_congr budget m m' h)
  rw [List.getLast?_map, List.getLast?_map, hl, hl'] at hlast
  rw [hland, hland']
  exact land_congr (Option.some.inj hlast) limit

end Move

/-! ### Calls without style -/

namespace Stage

/-- The answers are the same, and so are the stages but for style. -/
def SameAnswer {α : Type} (a a' : α × Stage) : Prop := a'.1 = a.1 ∧ a'.2.plain = a.2.plain

variable (st : Stage)

theorem start_plain (id : GraphId) (actor : Option Actor) :
    (st.plain.opening? id none).map Move.plain = (st.opening? id actor).map Move.plain ∧
      SameAnswer (st.start id actor) (st.plain.start id none) := by
  have hboard : st.plain.blackboard = st.blackboard := rfl
  unfold opening? start
  rw [session_plain, hboard]
  cases st.session with
  | some s => exact ⟨rfl, rfl, st.plain_plain⟩
  | none =>
    cases st.blackboard.graph? id with
    | none => exact ⟨rfl, rfl, st.plain_plain⟩
    | some g =>
      have hmove : Move.plain ⟨(st.plain.tell .snapshot).tell (.started id), .start g none, 0⟩ =
          Move.plain ⟨(st.tell .snapshot).tell (.started id), .start g actor, 0⟩ := by
        rw [Move.plain, plain_tell, plain_tell, plain_plain]
        rfl
      exact ⟨congrArg some hmove, Move.advance_congr hmove _ _⟩

theorem select_plain (port : PortIndex) :
    (st.plain.answer? port).map Move.plain = (st.answer? port).map Move.plain ∧
      SameAnswer (st.select port) (st.plain.select port) := by
  unfold answer? select
  rw [session_plain]
  cases st.session with
  | none => exact ⟨rfl, rfl, st.plain_plain⟩
  | some s =>
    have hstate : s.plain.state = s.state := rfl
    -- whether a port is offered can be told from the plain line
    have hoffers : (s.plain.presentation.any fun p => !p.offers port) =
        s.presentation.any fun p => !p.offers port := by
      cases hline : s.presentation with
      | none => simp [Session.plain, hline]
      | some line => simp [Session.plain, hline, Presentation.offers_plain]
    simp only [Option.map_some, Option.bind_some, hoffers, hstate]
    by_cases hwaits : s.state = .awaitingInput
    · cases hrefused : s.presentation.any fun p => !p.offers port with
      | true => simp [hwaits, SameAnswer, plain_plain]
      | false =>
        have hmove :
            Move.plain ⟨st.plain, { s.plain with presentation := none, state := .active }, port⟩ =
              Move.plain ⟨st, { s with presentation := none, state := .active }, port⟩ := by
          rw [Move.plain, plain_plain]
          rfl
        simp only [hwaits, ne_eq, not_true_eq_false, Bool.false_eq_true, or_self, if_false,
          Option.map_some]
        exact ⟨congrArg some hmove, Move.advance_congr hmove _ _⟩
    · simp [hwaits, SameAnswer, plain_plain]

theorem stop_plain : st.plain.stop.plain = st.stop.plain := by
  unfold stop
  rw [session_plain]
  cases st.session with
  | none => exact st.plain_plain
  | some s =>
    show (st.plain.close s.plain).plain = (st.close s).plain
    rw [plain_close, plain_close, plain_plain]

theorem register_plain (g : Graph) : SameAnswer (st.register g) (st.plain.register g) := by
  have hstrict : st.plain.config.strictLinks = st.config.strictLinks := rfl
  have haccept := plain_withBoard st.plain_plain (st.blackboard.register g)
  unfold register
  rw [hstrict]
  split
  · cases g.validate with
    | error e => exact ⟨rfl, st.plain_plain⟩
    | ok u => exact ⟨rfl, haccept⟩
  · exact ⟨rfl, haccept⟩

theorem unregister_plain (id : GraphId) :
    SameAnswer (st.unregister id) (st.plain.unregister id) := by
  have hactive : st.plain.activeGraph? = st.activeGraph? := by
    simp [activeGraph?, plain, Session.plain, Function.comp_def]
  have hstopped : (if st.activeGraph? = some id then st.plain.stop else st.plain).plain =
      (if st.activeGraph? = some id then st.stop else st).plain := by
    split
    · exact st.stop_plain
    · exact st.plain_plain
  unfold unregister
  rw [hactive]
  generalize (if st.activeGraph? = some id then st.stop else st) = next at hstopped ⊢
  generalize (if st.activeGraph? = some id then st.plain.stop else st.plain) = next' at hstopped ⊢
  have hboard := blackboard_congr hstopped
  show SameAnswer (_, { next with blackboard := (next.blackboard.unregister id).2 })
    (_, { next' with blackboard := (next'.blackboard.unregister id).2 })
  rw [hboard]
  exact ⟨rfl, plain_withBoard hstopped _⟩

theorem perform_plain {α : Type} (p : Script α) :
    SameAnswer (st.perform p) (st.plain.perform p) := by
  have hscope : st.plain.scope = st.scope.plain := by
    simp [scope, Scope.plain, plain, Session.plain, Function.comp_def]
  have hwith : ∀ sc : Scope, st.plain.withScope sc.plain = (st.withScope sc).plain := by
    intro sc
    simp [withScope, Scope.plain, plain, Session.plain, Function.comp_def]
  unfold perform
  rw [hscope, Script.run_plain]
  refine ⟨rfl, ?_⟩
  show (st.plain.withScope (p.run st.scope).2.plain).plain = (st.withScope (p.run st.scope).2).plain
  rw [hwith, plain_plain]

/-- **A call on the plain stage does the same but for style.** -/
theorem call_plain (c : Call) :
    (st.plain.departure? c.plain).map Move.plain = (st.departure? c).map Move.plain ∧
      SameAnswer (st.call c) (st.plain.call c.plain) := by
  cases c with
  | register g =>
    obtain ⟨hanswer, hafter⟩ := st.register_plain g
    exact ⟨rfl, congrArg Reply.registered hanswer, hafter⟩
  | unregister id =>
    obtain ⟨hanswer, hafter⟩ := st.unregister_plain id
    exact ⟨rfl, congrArg Reply.unregistered hanswer, hafter⟩
  | listen l => exact ⟨rfl, rfl, plain_withRegistry st.plain_plain _⟩
  | unlisten key => exact ⟨rfl, rfl, plain_withRegistry st.plain_plain _⟩
  | start id actor =>
    obtain ⟨hdeparture, hanswer, hafter⟩ := st.start_plain id actor
    exact ⟨hdeparture, congrArg Reply.session hanswer, hafter⟩
  | serve server =>
    obtain ⟨hdeparture, hanswer, hafter⟩ := st.start_plain server.graph server.actor
    exact ⟨hdeparture, congrArg Reply.session hanswer, hafter⟩
  | select port =>
    obtain ⟨hdeparture, hanswer, hafter⟩ := st.select_plain port
    exact ⟨hdeparture, congrArg Reply.session hanswer, hafter⟩
  | stop => exact ⟨rfl, rfl, st.stop_plain⟩
  | set name v =>
    obtain ⟨hanswer, hafter⟩ := st.perform_plain (.set name v .done)
    exact ⟨rfl, congrArg Reply.written hanswer, hafter⟩
  | perform p =>
    obtain ⟨hanswer, hafter⟩ := st.perform_plain p
    exact ⟨rfl, congrArg Reply.performed hanswer, hafter⟩

end Stage

end Dialogue

import Dialogue.Proofs.Session.Record

/-!
# Runs that go alike

Two stages are alike when their blackboards hold related graphs, their sessions stand at the same
place, and all else is the same but for ids (`Stage.Alike`). A live session is led by its graph
alone, so moves that are alike have results that are alike (`result_alike`), and by induction on the
moves so have advances (`advance_alike`). Calls that are alike then get replies that are alike and
leave stages that are alike (`call_alike`), and so do runs with the same settings (`turns_abreast`). Since a line waits on the stage that its call leaves, the graphs that two lines were
made from are those registered there (`Turn.Abreast.shown`).
-/

namespace Dialogue

/-! ### What is alike -/

/-- The sessions are at the same place, before lines that are alike. -/
structure Session.Alike (ρ : GraphId → GraphId) (R : Graph → Graph → Prop) (s s' : Session) :
    Prop where
  graph : s'.graph = ρ s.graph
  cursor : s'.cursor = s.cursor
  state : s'.state = s.state
  actor : s'.actor = s.actor
  presentation : Option.Rel (Presentation.Alike R) s.presentation s'.presentation

namespace Stage

def Verdict.rename (ρ : GraphId → GraphId) : Verdict → Verdict
  | fail e => fail (e.rename ρ)
  | verdict => verdict

/-- The stages are alike but for their sessions. -/
structure Abreast (ρ : GraphId → GraphId) (R : Graph → Graph → Prop) (st st' : Stage) : Prop where
  config : st'.config = st.config
  registry : st'.registry = st.registry
  board : st.blackboard.Alike R st'.blackboard
  journal : List.Forall₂ (Entry.Alike ρ R) st.journal st'.journal

/-- The stages are alike, their sessions too. -/
structure Alike (ρ : GraphId → GraphId) (R : Graph → Graph → Prop) (st st' : Stage) : Prop extends
    Abreast ρ R st st' where
  session : Option.Rel (Session.Alike ρ R) st.session st'.session

/-- Acting on a node made the same of two stages and sessions. -/
structure AlikeResults (ρ : GraphId → GraphId) (R : Graph → Graph → Prop)
    (r r' : Stage × Session × Verdict) : Prop where
  stage : r.1.Abreast ρ R r'.1
  session : r.2.1.Alike ρ R r'.2.1
  verdict : r'.2.2 = r.2.2.rename ρ

/-- Two calls to a session are answered the same but for ids, and leave stages that are alike. -/
structure AlikeAnswers (ρ : GraphId → GraphId) (R : Graph → Graph → Prop)
    (a a' : Except SessionError SessionState × Stage) : Prop where
  answer : a'.1 = a.1.mapError (SessionError.rename ρ)
  stage : a.2.Alike ρ R a'.2

end Stage

/-- The moves are made through the same port, on stages and by sessions that are alike. -/
structure Move.Alike (ρ : GraphId → GraphId) (R : Graph → Graph → Prop) (m m' : Move) : Prop where
  stage : m.stage.Abreast ρ R m'.stage
  session : m.session.Alike ρ R m'.session
  port : m'.port = m.port

section

variable {ρ : GraphId → GraphId} {R : Graph → Graph → Prop}

/-! ### Telling, showing and ending -/

namespace Stage

variable {st st' : Stage} {s s' : Session}

theorem Abreast.record (h : st.Abreast ρ R st') {e e' : Entry} (he : e.Alike ρ R e') :
    (st.record e).Abreast ρ R (st'.record e') :=
  ⟨h.config, h.registry, h.board, .cons he h.journal⟩

theorem Abreast.tell (h : st.Abreast ρ R st') {n : Notice} (hn : ∀ line, n ≠ .presented line) :
    (st.tell n).Abreast ρ R (st'.tell (n.rename ρ)) := by
  refine h.record ?_
  cases n with
  | presented line => exact absurd rfl (hn line)
  | _ => rfl

theorem Abreast.focus (h : st.Abreast ρ R st') (actor : Option Actor) (target : FocusTarget) :
    (st.focus actor target).Abreast ρ R (st'.focus actor target) := by
  unfold Stage.focus
  rw [h.config]
  split
  · exact h
  · split
    · exact h
    · exact h.tell nofun

theorem Abreast.close (h : st.Abreast ρ R st') (hs : s.Alike ρ R s') :
    (st.close s).Alike ρ R (st'.close s') := by
  have hended : ∀ {a a' : Stage}, a.Abreast ρ R a' →
      { a.tell (.ended s.graph) with session := none : Stage }.Alike ρ R
        { a'.tell (.ended s'.graph) with session := none } := by
    intro a a' ha
    have htold := ha.tell (n := .ended s.graph) nofun
    rw [hs.graph]
    exact ⟨⟨htold.config, htold.registry, htold.board, htold.journal⟩, .none⟩
  unfold Stage.close
  rw [h.config]
  split
  · exact hended (h.tell nofun)
  · exact hended h

theorem Abreast.abort (h : st.Abreast ρ R st') (hs : s.Alike ρ R s') (e : SessionError) :
    (st.abort s e).Alike ρ R (st'.abort s' (e.rename ρ)) :=
  Abreast.close (h.tell (n := .failed e) nofun) hs

/-- A line that is shown at nodes of the same role is shown alike, each with the values of the graph
that the session is on. -/
theorem present_alike (h : st.Abreast ρ R st') (hs : s.Alike ρ R s') {g g' : Graph} {n n' : Node}
    (hg : R g g') (ht : s.template = .ofGraph g) (ht' : s'.template = .ofGraph g')
    (hn : g.node? n.guid = some n) (hline : n.kind.isLine = true) (hrole : n'.role = n.role)
    (options : List PresentedOption) :
    AlikeResults ρ R (st.present s n options) (st'.present s' n' options) := by
  obtain ⟨hguid, -, htext⟩ := Node.eq_of_role hrole
  have hpresented : Presentation.Alike R
      ⟨n.guid, s.template.render n.text, options, shownName st.config s.actor⟩
      ⟨n'.guid, s'.template.render n'.text, options, shownName st'.config s'.actor⟩ := by
    refine ⟨hguid, rfl, ?_, g, g', n, hg, hn, hline, ?_, ?_⟩
    · rw [h.config, hs.actor]
    · rw [ht, Template.render_ofGraph]
    · rw [ht', Template.render_ofGraph, htext hline]
  exact ⟨h.record hpresented, ⟨hs.graph, hs.cursor, rfl, hs.actor, .some hpresented⟩, rfl⟩

/-! ### Sessions of stages that are alike -/

theorem Alike.session_none (h : st.Alike ρ R st') (hs : st.session = none) : st'.session = none :=
  rel_none_left.mp (hs ▸ h.session)

theorem Alike.session_some (h : st.Alike ρ R st') (hs : st.session = some s) :
    ∃ s', st'.session = some s' ∧ s.Alike ρ R s' :=
  rel_some_left.mp (hs ▸ h.session)

theorem Alike.presentation (h : st.Alike ρ R st') :
    Option.Rel (Presentation.Alike R) st.presentation? st'.presentation? := by
  unfold presentation?
  cases hs : st.session with
  | none =>
    rw [h.session_none hs]
    exact .none
  | some s =>
    obtain ⟨s', hs', hsame⟩ := h.session_some hs
    rw [hs']
    exact hsame.presentation

theorem Alike.activeGraph? (h : st.Alike ρ R st') : st'.activeGraph? = st.activeGraph?.map ρ := by
  unfold Stage.activeGraph?
  cases hs : st.session with
  | none =>
    rw [h.session_none hs]
    rfl
  | some s =>
    obtain ⟨s', hs', hsame⟩ := h.session_some hs
    rw [hs']
    exact congrArg some hsame.graph

theorem Alike.stop (h : st.Alike ρ R st') : st.stop.Alike ρ R st'.stop := by
  unfold Stage.stop
  cases hs : st.session with
  | none =>
    rw [h.session_none hs]
    exact h
  | some s =>
    obtain ⟨s', hs', hsame⟩ := h.session_some hs
    rw [hs']
    exact h.close hsame

theorem Alike.listen (h : st.Alike ρ R st') (l : Listener) :
    (st'.listen l).1 = (st.listen l).1 ∧ (st.listen l).2.Alike ρ R (st'.listen l).2 := by
  unfold Stage.listen
  rw [h.registry]
  exact ⟨rfl, ⟨h.config, rfl, h.board, h.journal⟩, h.session⟩

theorem Alike.unlisten (h : st.Alike ρ R st') (key : String) :
    (st'.unlisten key).1 = (st.unlisten key).1 ∧
      (st.unlisten key).2.Alike ρ R (st'.unlisten key).2 := by
  unfold Stage.unlisten
  rw [h.registry]
  exact ⟨rfl, ⟨h.config, rfl, h.board, h.journal⟩, h.session⟩

theorem Alike.unmoved (h : st.Alike ρ R st') {r r' : Except SessionError SessionState}
    {a a' : Except SessionError SessionState × Stage} (ha : a = (r, st)) (ha' : a' = (r', st'))
    (hr : r' = r.mapError (SessionError.rename ρ)) : AlikeAnswers ρ R a a' := by
  rw [ha, ha']
  exact ⟨hr, h⟩

end Stage

/-! ### Moves with results that are alike -/

namespace Move

variable {m m' : Move}

theorem leads_alike (h : Stage.AlikeResults ρ R m.result m'.result) {a : Move} (ha : m.Leads a) :
    ∃ a', m'.Leads a' ∧ a.Alike ρ R a' := by
  rw [ha] at h
  exact ⟨⟨m'.result.1, m'.result.2.1, a.port⟩, Prod.ext rfl (Prod.ext rfl h.verdict),
    h.stage, h.session, rfl⟩

theorem rests_alike (h : Stage.AlikeResults ρ R m.result m'.result) {budget : Nat}
    (hrests : m.Rests budget) : m'.Rests budget := by
  refine hrests.imp_right fun hstays a' ha' => ?_
  have hverdict := h.verdict
  rw [ha'] at hverdict
  cases hr : m.result.2.2 with
  | advance port => exact hstays ⟨m.result.1, m.result.2.1, port⟩ (Prod.ext rfl (Prod.ext rfl hr))
  | _ => simp [hr, Stage.Verdict.rename] at hverdict

theorem land_alike (h : Stage.AlikeResults ρ R m.result m'.result) (limit : Nat) :
    Stage.AlikeAnswers ρ R (m.land limit) (m'.land limit) := by
  unfold land
  generalize m.result = r at h ⊢
  generalize m'.result = r' at h ⊢
  obtain ⟨st, s, verdict⟩ := r
  obtain ⟨st', s', verdict'⟩ := r'
  obtain ⟨hstage, hsession, rfl⟩ := h
  cases verdict with
  | pause =>
    exact ⟨rfl, ⟨hstage.config, hstage.registry, hstage.board, hstage.journal⟩, .some hsession⟩
  | finish => exact ⟨rfl, hstage.close hsession⟩
  | fail e => exact ⟨rfl, hstage.abort hsession e⟩
  | advance port => exact ⟨rfl, hstage.abort hsession (.autoAdvanceLimit limit)⟩

end Move

end

/-! ### Acting on a node -/

section

variable {ρ : GraphId → GraphId} {R : Graph → Graph → Prop} (hR : Graph.Likeness ρ R)

include hR

namespace Stage

variable {st st' : Stage} {s s' : Session} {g g' : Graph} {n n' : Node}

theorem dispatch_alike (h : st.Abreast ρ R st') (hs : s.Alike ρ R s') (event : String) :
    (st.dispatch s event).1.Abreast ρ R (st'.dispatch s' event).1 ∧
      (st.dispatch s event).2.Alike ρ R (st'.dispatch s' event).2 := by
  have hscope : (st.scopeOf s).Alike ρ R (st'.scopeOf s') := ⟨h.board, h.journal⟩
  have hdispatch : (st.registry.dispatch event (st.scopeOf s)).Alike ρ R
      (st'.registry.dispatch event (st'.scopeOf s')) := by
    rw [h.registry]
    exact Registry.dispatch_alike hR st.registry event hscope
  exact ⟨⟨h.config, h.registry, hdispatch.board, hdispatch.journal⟩,
    hs.graph, hs.cursor, hs.state, hs.actor, hs.presentation⟩

theorem act_alike (h : st.Abreast ρ R st') (hs : s.Alike ρ R s') (hg : R g g')
    (ht : s.template = .ofGraph g) (ht' : s'.template = .ofGraph g') (hn : g.node? n.guid = some n)
    (hrole : n'.role = n.role) : AlikeResults ρ R (st.act s n) (st'.act s' n') := by
  obtain ⟨hguid, hkind, -⟩ := Node.eq_of_role hrole
  unfold act
  rw [hkind]
  cases hk : n.kind with
  | exit => exact ⟨h, hs, rfl⟩
  | entry => exact ⟨h, hs, rfl⟩
  | event name =>
    obtain ⟨hstage, hsession⟩ := dispatch_alike hR h hs name
    exact ⟨hstage, hsession, rfl⟩
  | focus target =>
    refine ⟨?_, hs, rfl⟩
    rw [hs.actor]
    exact h.focus s.actor target
  | condition flag =>
    simp only [ht, ht', Template.check_ofGraph, (hR.alike hg).flag]
    cases ConditionResult.ofFlag (g.flag? flag) with
    | true => exact ⟨h, hs, rfl⟩
    | false => exact ⟨h, hs, rfl⟩
    | unknown =>
      refine ⟨h, hs, ?_⟩
      rw [hguid]
      rfl
  | basic target =>
    have hline : n.kind.isLine = true := by rw [hk]; rfl
    cases target with
    | none =>
      simp only [h.config]
      exact present_alike h hs hg ht ht' hn hline hrole _
    | some target =>
      have hfocus := h.focus s.actor target
      simp only [hs.actor, hfocus.config]
      exact present_alike hfocus hs hg ht ht' hn hline hrole _
  | choice choices =>
    have hline : n.kind.isLine = true := by rw [hk]; rfl
    exact present_alike h hs hg ht ht' hn hline hrole _

theorem live_alike (h : st.Abreast ρ R st') (hs : s.Alike ρ R s') (hlive : st.Live s g)
    (hlive' : st'.Live s' g') : R g g' := by
  have hgraph := Blackboard.graph?_alike hR h.board s.graph
  rw [← hs.graph, hlive.1, hlive'.1, Option.rel_some_some] at hgraph
  exact hgraph

end Stage

/-! ### Advances -/

namespace Move

variable {m m' : Move}

theorem result_alike (h : m.Alike ρ R m') (hs : m.Sound) (hs' : m'.Sound) :
    Stage.AlikeResults ρ R m.result m'.result := by
  obtain ⟨g, hlive⟩ := hs.live
  obtain ⟨g', hlive'⟩ := hs'.live
  have hg := Stage.live_alike hR h.stage h.session hlive hlive'
  -- the link that is followed leads both sessions to nodes of the same role, or neither
  have hnext := (hR.alike hg).next m.session.cursor m.port
  rw [← arrival?_of_live hlive, ← h.session.cursor, ← h.port, ← arrival?_of_live hlive'] at hnext
  cases harr : m.arrival? with
  | none =>
    have harr' : m'.arrival? = none := by simpa [harr] using hnext
    rw [result_of_lost harr, result_of_lost harr']
    exact ⟨h.stage, h.session, rfl⟩
  | some n =>
    obtain ⟨n', harr', hrole⟩ : ∃ n', m'.arrival? = some n' ∧ n'.role = n.role := by
      simpa [harr] using hnext
    have hguid := (Node.eq_of_role hrole).1
    have hn : g.node? n.guid = some n := by
      rw [arrival?_of_live hlive] at harr
      exact Graph.node?_of_next? harr
    have hentered : (m.stage.record (.entered n.guid)).Abreast ρ R
        (m'.stage.record (.entered n'.guid)) := by
      rw [hguid]
      exact h.stage.record rfl
    have hmoved : { m.session with cursor := n.guid }.Alike ρ R
        { m'.session with cursor := n'.guid } :=
      ⟨h.session.graph, hguid, h.session.state, h.session.actor, h.session.presentation⟩
    rw [result_of_arrival harr, result_of_arrival harr']
    exact Stage.act_alike hR hentered hmoved hg hlive.2 hlive'.2 hn hrole

/-- **Sound moves that are alike start advances that go alike.** -/
theorem advance_alike (limit budget : Nat) (h : m.Alike ρ R m') (hs : m.Sound) (hs' : m'.Sound) :
    Stage.AlikeAnswers ρ R (Stage.advance limit budget m.stage m.session m.port)
      (Stage.advance limit budget m'.stage m'.session m'.port) := by
  induction budget, m using onward_induction generalizing m' with
  | rests budget m hrests =>
    have hresult := result_alike hR h hs hs'
    rw [advance_of_rests hrests, advance_of_rests (rests_alike hresult hrests)]
    exact land_alike hresult limit
  | leads budget m a ha ih =>
    obtain ⟨a', ha', halike⟩ := leads_alike (result_alike hR h hs hs') ha
    rw [advance_of_leads ha, advance_of_leads ha']
    exact ih halike (hs.leads ha) (hs'.leads ha')

end Move

/-! ### Calls to a session -/

namespace Stage

variable {st st' : Stage}

omit hR in
theorem sound_opening {id : GraphId} {g : Graph} (hgraph : st.blackboard.graph? id = some g)
    (actor : Option Actor) :
    Move.Sound ⟨(st.tell .snapshot).tell (.started id), .start g actor, 0⟩ := by
  refine ⟨rfl, rfl, g, ?_, rfl⟩
  show st.blackboard.graph? g.id = some g
  rw [Blackboard.id_of_graph? hgraph]
  exact hgraph

theorem start_alike (h : st.Alike ρ R st') (id : GraphId) (actor : Option Actor) :
    AlikeAnswers ρ R (st.start id actor) (st'.start (ρ id) actor) := by
  cases hs : st.session with
  | some s =>
    obtain ⟨s', hs', -⟩ := h.session_some hs
    exact h.unmoved (start_of_session hs id actor).2 (start_of_session hs' (ρ id) actor).2 rfl
  | none =>
    have hs' := h.session_none hs
    have hgraph := Blackboard.graph?_alike hR h.board id
    cases hg : st.blackboard.graph? id with
    | none =>
      have hg' := rel_none_left.mp (hg ▸ hgraph)
      exact h.unmoved (start_of_missing hs hg actor).2 (start_of_missing hs' hg' actor).2 rfl
    | some g =>
      obtain ⟨g', hg', hrelated⟩ := rel_some_left.mp (hg ▸ hgraph)
      have hsame := hR.alike hrelated
      have htold := (h.tell (n := .snapshot) nofun).tell (n := .started id) nofun
      have hmove : Move.Alike ρ R ⟨(st.tell .snapshot).tell (.started id), .start g actor, 0⟩
          ⟨(st'.tell .snapshot).tell (.started (ρ id)), .start g' actor, 0⟩ :=
        ⟨htold, ⟨hsame.id, hsame.entry, rfl, rfl, .none⟩, rfl⟩
      rw [(start_of_graph hs hg actor).2, (start_of_graph hs' hg' actor).2, h.config]
      exact Move.advance_alike hR _ _ hmove (sound_opening hg actor) (sound_opening hg' actor)

theorem select_alike (h : st.Alike ρ R st') (hst : st.Settled) (hst' : st'.Settled)
    (port : PortIndex) : AlikeAnswers ρ R (st.select port) (st'.select port) := by
  cases hs : st.session with
  | none =>
    have hs' := h.session_none hs
    exact h.unmoved (select_of_idle hs port).2 (select_of_idle hs' port).2 rfl
  | some s =>
    obtain ⟨s', hs', hsame⟩ := h.session_some hs
    obtain ⟨g, n, line, hpaused⟩ := hst s hs
    obtain ⟨g', n', line', hpaused'⟩ := hst' s' hs'
    have hline := hsame.presentation
    rw [hpaused.shown, hpaused'.shown, Option.rel_some_some] at hline
    have hoffered : line'.offers port = line.offers port := by
      rw [Presentation.offers, hline.options]
      rfl
    cases hoffers : line.offers port with
    | false =>
      rw [hoffers] at hoffered
      exact h.unmoved (select_of_refused hs hpaused hoffers).2
        (select_of_refused hs' hpaused' hoffered).2 rfl
    | true =>
      rw [hoffers] at hoffered
      rw [(select_of_offered hs hpaused hoffers).2, (select_of_offered hs' hpaused' hoffered).2,
        h.config]
      have hmove : Move.Alike ρ R ⟨st, { s with presentation := none, state := .active }, port⟩
          ⟨st', { s' with presentation := none, state := .active }, port⟩ :=
        ⟨h.toAbreast, ⟨hsame.graph, hsame.cursor, rfl, hsame.actor, .none⟩, rfl⟩
      exact Move.advance_alike hR _ _ hmove ⟨rfl, rfl, g, hpaused.live⟩
        ⟨rfl, rfl, g', hpaused'.live⟩

/-! ### Calls to the properties and the graphs -/

theorem perform_alike {α : Type} (h : st.Alike ρ R st') (p : Script α) :
    (st'.perform p).1 = (st.perform p).1 ∧ (st.perform p).2.Alike ρ R (st'.perform p).2 := by
  have hscope : st.scope.Alike ρ R st'.scope := ⟨h.board, h.journal⟩
  obtain ⟨hanswer, hrun⟩ := Script.run_alike hR p hscope
  refine ⟨hanswer, ⟨h.config, h.registry, hrun.board, hrun.journal⟩, ?_⟩
  show Option.Rel _ (st.session.map _) (st'.session.map _)
  cases hs : st.session with
  | none =>
    rw [h.session_none hs]
    exact .none
  | some s =>
    obtain ⟨s', hs', hsame⟩ := h.session_some hs
    rw [hs']
    exact .some ⟨hsame.graph, hsame.cursor, hsame.state, hsame.actor, hsame.presentation⟩

theorem register_alike (h : st.Alike ρ R st') {g g' : Graph} (hg : R g g') :
    (st'.register g').1 = (st.register g).1.map ρ ∧
      (st.register g).2.Alike ρ R (st'.register g').2 := by
  have haccept : { st with blackboard := st.blackboard.register g }.Alike ρ R
      { st' with blackboard := st'.blackboard.register g' } :=
    ⟨⟨h.config, h.registry, Blackboard.register_alike hR h.board hg, h.journal⟩, h.session⟩
  have hid : g'.id = ρ g.id := (hR.alike hg).id
  have hstrict : st'.config.strictLinks = st.config.strictLinks := by rw [h.config]
  simp only [register, hstrict, (hR.alike hg).check, hid]
  split
  · cases g.validate with
    | error e => exact ⟨rfl, h⟩
    | ok _ => exact ⟨rfl, haccept⟩
  · exact ⟨rfl, haccept⟩

theorem unregister_alike (h : st.Alike ρ R st') (id : GraphId) :
    Option.Rel R (st.unregister id).1 (st'.unregister (ρ id)).1 ∧
      (st.unregister id).2.Alike ρ R (st'.unregister (ρ id)).2 := by
  have hactive : st'.activeGraph? = some (ρ id) ↔ st.activeGraph? = some id := by
    rw [h.activeGraph?, ← Option.map_some, (Option.map_injective hR.injective).eq_iff]
  have hstopped : (if st.activeGraph? = some id then st.stop else st).Alike ρ R
      (if st'.activeGraph? = some (ρ id) then st'.stop else st') := by
    simp only [hactive]
    split
    · exact h.stop
    · exact h
  obtain ⟨hgraph, hboard⟩ := Blackboard.unregister_alike hR hstopped.board id
  exact ⟨hgraph, ⟨hstopped.config, hstopped.registry, hboard, hstopped.journal⟩, hstopped.session⟩

end Stage

end

/-! ### Runs -/

/-- The calls ask for the same but for ids, and register related graphs. -/
inductive Call.Alike (ρ : GraphId → GraphId) (R : Graph → Graph → Prop) : Call → Call → Prop
  | register {g g' : Graph} : R g g' → Alike ρ R (.register g) (.register g')
  | unregister (id : GraphId) : Alike ρ R (.unregister id) (.unregister (ρ id))
  | listen (l : Listener) : Alike ρ R (.listen l) (.listen l)
  | unlisten (key : String) : Alike ρ R (.unlisten key) (.unlisten key)
  | start (id : GraphId) (actor : Option Actor) : Alike ρ R (.start id actor) (.start (ρ id) actor)
  | serve (server : Server) :
    Alike ρ R (.serve server) (.serve { server with graph := ρ server.graph })
  | select (port : PortIndex) : Alike ρ R (.select port) (.select port)
  | stop : Alike ρ R .stop .stop
  | set (name : String) (v : PropertyValue) : Alike ρ R (.set name v) (.set name v)
  | perform (p : Script (List Outcome)) : Alike ρ R (.perform p) (.perform p)

/-- The replies are the same but for ids, and hand back related graphs. -/
inductive Reply.Alike (ρ : GraphId → GraphId) (R : Graph → Graph → Prop) : Reply → Reply → Prop
  | registered {r r' : Except GraphError GraphId} :
    r' = r.map ρ → Alike ρ R (.registered r) (.registered r')
  | unregistered {o o' : Option Graph} :
    Option.Rel R o o' → Alike ρ R (.unregistered o) (.unregistered o')
  | listening {b b' : Bool} : b' = b → Alike ρ R (.listening b) (.listening b')
  | session {r r' : Except SessionError SessionState} :
    r' = r.mapError (SessionError.rename ρ) → Alike ρ R (.session r) (.session r')
  | stopped : Alike ρ R .stopped .stopped
  | written {r r' : Except PropertyError Unit} : r' = r → Alike ρ R (.written r) (.written r')
  | performed {r r' : List Outcome} : r' = r → Alike ρ R (.performed r) (.performed r')

theorem Entry.Alike.lines {ρ : GraphId → GraphId} {R : Graph → Graph → Prop} {j j' : Journal} (h : List.Forall₂ (Entry.Alike ρ R) j j') :
    List.Forall₂ (Presentation.Alike R) ((Journal.notices j).filterMap Notice.line?)
      ((Journal.notices j').filterMap Notice.line?) := by
  have hline : ∀ e e', Entry.Alike ρ R e e' → Option.Rel (Presentation.Alike R)
      (e.notice?.bind Notice.line?) (e'.notice?.bind Notice.line?) := by
    intro e e' he
    unfold Entry.Alike at he
    split at he
    · exact .some he
    · rename_i hother
      subst he
      cases e with
      | told n =>
        cases n with
        | presented line => exact (hother _ _ rfl rfl).elim
        | _ => exact .none
      | _ => exact .none
  unfold Journal.notices
  rw [List.filterMap_filterMap, List.filterMap_filterMap]
  exact List.rel_filterMap hline (List.rel_reverse h)

/-- The sessions are on graphs that are related, as these are registered. -/
def Stage.Playing (R : Graph → Graph → Prop) (st st' : Stage) (g g' : Graph) : Prop :=
  R g g' ∧ st.playing? = some g ∧ st'.playing? = some g'

/-- What can be seen of two calls is alike: the replies, what is recorded, and on the stages that they
leave the session and the values of the properties. A line has the values of the graph of the session,
as it is registered when the line is shown. -/
structure Turn.Alike (ρ : GraphId → GraphId) (R : Graph → Graph → Prop) (t t' : Turn) : Prop where
  reply : Reply.Alike ρ R t.reply t'.reply
  state : t'.after.state = t.after.state
  running : t'.after.isRunning = t.after.isRunning
  graph : t'.after.activeGraph? = t.after.activeGraph?.map ρ
  node : t'.after.currentNode? = t.after.currentNode?
  /-- The lines waited before the calls already, or they are alike. -/
  line : (t.after.presentation? = t.before.presentation? ∧
      t'.after.presentation? = t'.before.presentation?) ∨
    Option.Rel (Presentation.Alike (t.after.Playing R t'.after)) t.after.presentation?
      t'.after.presentation?
  values : ∀ name, t'.after.blackboard.get name = t.after.blackboard.get name
  entries : List.Forall₂ (Entry.Alike ρ (t.after.Playing R t'.after)) t.entries t'.entries

/-- The calls go alike, and show the same lines too. -/
structure Turn.Same (ρ : GraphId → GraphId) (R : Graph → Graph → Prop) (t t' : Turn) : Prop extends
    Turn.Alike ρ R t t' where
  sameLine : t'.after.presentation? = t.after.presentation?
  sameJournal : t'.after.journal = t.after.journal.map (Entry.rename ρ)

/-- The calls were made on stages that are alike, and were answered and left them so. -/
structure Turn.Abreast (ρ : GraphId → GraphId) (R : Graph → Graph → Prop) (t t' : Turn) : Prop where
  settled : t.before.Settled
  settled' : t'.before.Settled
  before : t.before.Alike ρ R t'.before
  reply : Reply.Alike ρ R t.reply t'.reply
  after : t.after.Alike ρ R t'.after

section

variable {ρ : GraphId → GraphId} {R : Graph → Graph → Prop} (hR : Graph.Likeness ρ R)

include hR

namespace Stage

variable {st st' : Stage}

/-- **Calls that are alike go alike** on settled stages that are alike. -/
theorem call_alike (h : st.Alike ρ R st') (hst : st.Settled) (hst' : st'.Settled) {c c' : Call}
    (hc : Call.Alike ρ R c c') :
    Reply.Alike ρ R (st.call c).1 (st'.call c').1 ∧ (st.call c).2.Alike ρ R (st'.call c').2 := by
  cases hc with
  | register hg =>
    obtain ⟨hreply, hafter⟩ := register_alike hR h hg
    exact ⟨.registered hreply, hafter⟩
  | unregister id =>
    obtain ⟨hreply, hafter⟩ := unregister_alike hR h id
    exact ⟨.unregistered hreply, hafter⟩
  | listen l =>
    obtain ⟨hreply, hafter⟩ := h.listen l
    exact ⟨.listening hreply, hafter⟩
  | unlisten key =>
    obtain ⟨hreply, hafter⟩ := h.unlisten key
    exact ⟨.listening hreply, hafter⟩
  | start id actor =>
    obtain ⟨hreply, hafter⟩ := start_alike hR h id actor
    exact ⟨.session hreply, hafter⟩
  | serve server =>
    obtain ⟨hreply, hafter⟩ := start_alike hR h server.graph server.actor
    exact ⟨.session hreply, hafter⟩
  | select port =>
    obtain ⟨hreply, hafter⟩ := select_alike hR h hst hst' port
    exact ⟨.session hreply, hafter⟩
  | stop => exact ⟨.stopped, h.stop⟩
  | set name v =>
    obtain ⟨hreply, hafter⟩ := perform_alike hR h (.set name v .done)
    exact ⟨.written hreply, hafter⟩
  | perform p =>
    obtain ⟨hreply, hafter⟩ := perform_alike hR h p
    exact ⟨.performed hreply, hafter⟩

theorem Alike.playing (h : st.Alike ρ R st') : Option.Rel R st.playing? st'.playing? := by
  have hgraph := h.activeGraph?
  unfold playing?
  cases hs : st.activeGraph? with
  | none =>
    rw [hs] at hgraph
    rw [hgraph]
    exact .none
  | some id =>
    rw [hs] at hgraph
    rw [hgraph]
    exact Blackboard.graph?_alike hR h.board id

end Stage

namespace Turn

variable {t t' : Turn}

/-- **The values in lines that are alike are those of the graphs that the sessions are on.** -/
theorem Abreast.shown (h : t.Abreast ρ R t') {line line' : Presentation}
    (hline : .presented line ∈ t.notices) (hline' : .presented line' ∈ t'.notices)
    (halike : line.Alike R line') : line.Alike (t.after.Playing R t'.after) line' := by
  obtain ⟨-, g, n, hg, hn, hkind, htext⟩ := standing h.settled hline
  obtain ⟨-, g', n', hg', hn', -, htext'⟩ := standing h.settled' hline'
  have hrelated : R g g' := by
    have hplaying := h.after.playing hR
    rw [hg, hg', Option.rel_some_some] at hplaying
    exact hplaying
  -- the node of either line is the node of the same guid, which has the same role on both graphs
  have hrole : n'.role = n.role := by
    have hnode := (hR.alike hrelated).node line.node
    rw [hn, ← halike.node, hn'] at hnode
    exact Option.some.inj hnode
  refine ⟨halike.node, halike.options, halike.actorName, g, g', n, ⟨hrelated, hg, hg'⟩, hn, hkind,
    htext, ?_⟩
  rw [htext', (Node.eq_of_role hrole).2.2 hkind]

theorem Abreast.entries (h : t.Abreast ρ R t') :
    List.Forall₂ (Entry.Alike ρ (t.after.Playing R t'.after)) t.entries t'.entries := by
  have hall : List.Forall₂ (Entry.Alike ρ R) t.entries t'.entries := by
    unfold Turn.entries
    rw [← h.before.journal.length_eq, ← h.after.journal.length_eq]
    exact List.forall₂_take _ h.after.journal
  obtain ⟨hlength, hpairs⟩ := List.forall₂_iff_zip.mp hall
  refine List.forall₂_iff_zip.mpr ⟨hlength, fun {e e'} hmem => ?_⟩
  obtain ⟨he, he'⟩ := List.of_mem_zip hmem
  have halike := hpairs hmem
  unfold Entry.Alike at halike ⊢
  split at halike
  · exact h.shown hR (mem_notices he) (mem_notices he') halike
  · exact halike

theorem Abreast.line (h : t.Abreast ρ R t') :
    (t.after.presentation? = t.before.presentation? ∧
        t'.after.presentation? = t'.before.presentation?) ∨
      Option.Rel (Presentation.Alike (t.after.Playing R t'.after)) t.after.presentation?
        t'.after.presentation? := by
  have hlines := Entry.Alike.lines (h.entries hR)
  rw [notices_entries, notices_entries] at hlines
  cases hl : t.notices.filterMap Notice.line? with
  | cons line ls =>
    rw [hl] at hlines
    obtain ⟨line', ls', halike, -, hl'⟩ := List.forall₂_cons_left_iff.mp hlines
    have hmem := Notice.mem_lines.mp (hl ▸ List.mem_cons_self)
    have hmem' := Notice.mem_lines.mp (hl' ▸ List.mem_cons_self)
    rw [(standing h.settled hmem).1, (standing h.settled' hmem').1]
    exact Or.inr (.some halike)
  | nil =>
    have hl' : t'.notices.filterMap Notice.line? = [] := List.forall₂_nil_left_iff.mp (hl ▸ hlines)
    have hline := h.after.presentation
    -- no line is shown, so a line that waits is an old one
    cases hwaits : t.after.presentation? with
    | none =>
      rw [hwaits, rel_none_left] at hline
      rw [hline]
      exact Or.inr .none
    | some line =>
      rw [hwaits, rel_some_left] at hline
      obtain ⟨line', hwaits', -⟩ := hline
      refine Or.inl ⟨?_, ?_⟩
      · rcases line_after h.settled hwaits with hbefore | hmem
        · exact hbefore.symm
        · exact absurd (hl ▸ Notice.mem_lines.mpr hmem) List.not_mem_nil
      · rcases line_after h.settled' hwaits' with hbefore | hmem
        · rw [hwaits', hbefore]
        · exact absurd (hl' ▸ Notice.mem_lines.mpr hmem) List.not_mem_nil

theorem Abreast.alike (h : t.Abreast ρ R t') : t.Alike ρ R t' := by
  have hvalues := Blackboard.get_alike hR h.after.board
  have hgraph := h.after.activeGraph?
  cases hs : t.after.session with
  | none =>
    have hs' := h.after.session_none hs
    refine ⟨h.reply, ?_, ?_, hgraph, ?_, h.line hR, hvalues, h.entries hR⟩
    · rw [Stage.state, Stage.state, hs, hs']
    · rw [Stage.isRunning_of_none hs, Stage.isRunning_of_none hs']
    · rw [Stage.currentNode?, Stage.currentNode?, hs, hs']
  | some s =>
    obtain ⟨s', hs', hsame⟩ := h.after.session_some hs
    refine ⟨h.reply, ?_, ?_, hgraph, ?_, h.line hR, hvalues, h.entries hR⟩
    · rw [Stage.state, Stage.state, hs, hs']
      exact hsame.state
    · rw [Stage.isRunning_of_some hs, Stage.isRunning_of_some hs']
    · rw [Stage.currentNode?, Stage.currentNode?, hs, hs']
      exact congrArg some hsame.cursor

theorem Abreast.same (h : t.Abreast ρ R t') (hspeak : Graph.SpeakAlike R) : t.Same ρ R t' := by
  refine ⟨h.alike hR, ?_, Entry.Alike.journal_eq hspeak h.after.journal⟩
  have hline := h.after.presentation
  generalize t.after.presentation? = o at hline ⊢
  generalize t'.after.presentation? = o' at hline ⊢
  cases hline with
  | none => rfl
  | some hp => rw [hp.eq hspeak]

end Turn

namespace Stage

theorem turns_abreast_of_alike {cs cs' : List Call} (hcs : List.Forall₂ (Call.Alike ρ R) cs cs') :
    ∀ {st st' : Stage}, st.Alike ρ R st' → st.Settled → st'.Settled →
      List.Forall₂ (Turn.Abreast ρ R) (st.turns cs) (st'.turns cs') := by
  induction hcs with
  | nil =>
    intro st st' h hst hst'
    exact .nil
  | cons hc hcs ih =>
    intro st st' h hst hst'
    obtain ⟨hreply, hafter⟩ := call_alike hR h hst hst' hc
    exact .cons ⟨hst, hst', h, hreply, hafter⟩
      (ih hafter (Turn.settled_after ⟨st, _⟩ hst) (Turn.settled_after ⟨st', _⟩ hst'))

/-- **Runs of calls that are alike go alike.** -/
theorem turns_abreast (config : Config) {cs cs' : List Call}
    (h : List.Forall₂ (Call.Alike ρ R) cs cs') :
    List.Forall₂ (Turn.Abreast ρ R) ((new config).turns cs) ((new config).turns cs') :=
  turns_abreast_of_alike hR h ⟨⟨rfl, rfl, .nil, .nil⟩, .none⟩ (settled_of_idle rfl)
    (settled_of_idle rfl)

end Stage

end

end Dialogue

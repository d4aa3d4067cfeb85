import Dialogue.Proofs.Session.Turn

/-!
# The course of a call

On a settled stage a turn takes one of three courses (`Turn.course`): it makes a session move, from a
sound move on (`Turn.Moved`); it closes the session at once (`Turn.Closed`); or it leaves the session
as it is but for the values of properties (`Turn.Kept`). A stage is settled after each of them, so it
is settled all through a run (`settled_turns`), and what holds of whole runs is proved by going
through the courses of one turn.
-/

namespace Dialogue

/-! ### Courses -/

namespace Stage

/-- A session goes on as it was, on a graph of the same outline; only its template may differ. -/
structure Same (st st' : Stage) (s s' : Session) : Prop where
  session : st'.session = some s'
  frame : s' = { s with template := s'.template }
  live : ∀ g, st.Live s g → ∃ g', st'.Live s' g' ∧ g'.outline = g.outline

/-- Nothing happens to the session, and the host is told nothing. -/
structure Still (st st' : Stage) : Prop where
  config : st'.config = st.config
  notices : st'.notices = st.notices
  visits : st'.visits = st.visits
  idle : st.session = none → st'.session = none
  same : ∀ s, st.session = some s → ∃ s', st.Same st' s s'

/-- The answers to the calls that ask a session to move in vain. -/
inductive Declines (st : Stage) : Except SessionError SessionState → Prop
  | busy : st.isRunning = true → Declines st (.error .rejected)
  | unregistered (id : GraphId) : st.isRunning = false → Declines st (.error (.graphNotRegistered id))
  | idle : st.isRunning = false → Declines st (.ok .idle)
  | waiting : st.isRunning = true → Declines st (.ok .awaitingInput)

theorem still_of_session {st st' : Stage} (hconfig : st'.config = st.config)
    (hjournal : st'.journal = st.journal) (hsession : st'.session = st.session)
    (hgraph : ∀ s g, st.session = some s → st.blackboard.graph? s.graph = some g →
      st'.blackboard.graph? s.graph = some g) : st.Still st' := by
  refine ⟨hconfig, congrArg Journal.notices hjournal, congrArg Journal.visits hjournal,
    fun h => hsession.trans h, fun s hs => ⟨s, hsession.trans hs, rfl, fun g hg => ?_⟩⟩
  exact ⟨g, ⟨hgraph s g hs hg.1, hg.2⟩, rfl⟩

theorem still_refl (st : Stage) : st.Still st :=
  still_of_session rfl rfl rfl fun _ _ _ h => h

theorem still_withScope {st : Stage} {sc : Scope} (hw : st.scope.Worked sc) :
    st.Still (st.withScope sc) := by
  refine ⟨rfl, hw.notices, hw.visits, fun h => ?_, fun s hs => ?_⟩
  · simp [withScope, h]
  · have hscope : st.scope = st.scopeOf s := by
      rw [scope, hs]
      rfl
    rw [hscope] at hw
    obtain ⟨⟨id, t⟩, hactive, hid⟩ := Option.map_eq_some_iff.mp hw.owner
    have hid : id = s.graph := hid
    subst hid
    have hsame : (st.withScope sc).scopeOf { s with template := t } = sc := by
      unfold scopeOf withScope
      rw [← hactive]
    refine ⟨{ s with template := t }, ?_, rfl, fun g hlive => ?_⟩
    · simp [withScope, hs, hactive]
    · exact hlive.worked (by rwa [hsame])

end Stage

namespace Turn

/-- The call moves no session and ends none. -/
structure Kept (t : Turn) : Prop where
  departure : t.departure? = none
  still : t.before.Still t.after
  reply : ∀ r, t.reply = .session r → t.before.Declines r

/-- The call ends a session at once. -/
structure Closed (t : Turn) (s : Session) : Prop where
  departure : t.departure? = none
  running : t.before.session = some s
  reply : ∀ r, t.reply ≠ .session r
  config : t.after.config = t.before.config
  session : t.after.session = none
  notices : t.after.notices = t.before.notices ++ t.before.config.closing s.graph
  visits : t.after.visits = t.before.visits

/-- The call makes a session move, from one move to another. -/
structure Moved (t : Turn) (m l : Move) : Prop where
  departure : t.departure? = some m
  config : m.stage.config = t.before.config
  sound : m.Sound
  last : t.moves.getLast? = some l
  reply : t.reply = .session (l.land t.before.config.maxAutoAdvance).1
  after : t.after = (l.land t.before.config.maxAutoAdvance).2

/-- What can come of a call. -/
inductive Course (t : Turn) : Prop
  | kept (h : t.Kept)
  | closed (s : Session) (h : t.Closed s)
  | moved (m l : Move) (h : t.Moved m l)

theorem moves_of_departure {t : Turn} {m : Move} (h : t.departure? = some m) :
    t.moves = m.onward t.before.config.maxAutoAdvance := by
  rw [moves, h]
  rfl

theorem moves_of_none {t : Turn} (h : t.departure? = none) : t.moves = [] := by
  rw [moves, h]
  rfl

theorem landing {t : Turn} {m : Move} (h : t.departure? = some m) : ∃ l, t.moves.getLast? = some l ∧
    t.reply = .session (l.land t.before.config.maxAutoAdvance).1 ∧
      t.after = (l.land t.before.config.maxAutoAdvance).2 := by
  obtain ⟨hreply, hafter⟩ := call_of_departure h
  obtain ⟨l, hlast, hland⟩ :=
    m.advance_eq_land t.before.config.maxAutoAdvance t.before.config.maxAutoAdvance
  rw [hland] at hreply hafter
  refine ⟨l, ?_, hreply, hafter⟩
  rw [moves_of_departure h]
  exact hlast

theorem moved_of_departure {t : Turn} {m : Move} (h : t.departure? = some m)
    (hconfig : m.stage.config = t.before.config) (hsound : m.Sound) : ∃ l, t.Moved m l := by
  obtain ⟨l, hlast, hreply, hafter⟩ := landing h
  exact ⟨l, h, hconfig, hsound, hlast, hreply, hafter⟩

/-! ### The course of each call -/

theorem course_declined {t : Turn} {r : Except SessionError SessionState}
    (hdeparture : t.departure? = none) (hreply : t.reply = .session r) (hafter : t.after = t.before)
    (hdeclines : t.before.Declines r) : t.Course := by
  refine .kept ⟨hdeparture, ?_, fun r' hr' => ?_⟩
  · rw [hafter]
    exact t.before.still_refl
  · rw [hreply] at hr'
    cases hr'
    exact hdeclines

theorem course_start {t : Turn} {id : GraphId} {actor : Option Actor}
    (hdeparture : t.departure? = t.before.opening? id actor)
    (hreply : t.reply = .session (t.before.start id actor).1)
    (hafter : t.after = (t.before.start id actor).2) : t.Course := by
  cases hsession : t.before.session with
  | some s =>
    obtain ⟨hnone, hstart⟩ := Stage.start_of_session hsession id actor
    rw [hnone] at hdeparture
    rw [hstart] at hreply hafter
    exact course_declined hdeparture hreply hafter (.busy (Stage.isRunning_of_some hsession))
  | none =>
    cases hgraph : t.before.blackboard.graph? id with
    | none =>
      obtain ⟨hnone, hstart⟩ := Stage.start_of_missing hsession hgraph actor
      rw [hnone] at hdeparture
      rw [hstart] at hreply hafter
      exact course_declined hdeparture hreply hafter
        (.unregistered id (Stage.isRunning_of_none hsession))
    | some g =>
      obtain ⟨hsome, -⟩ := Stage.start_of_graph hsession hgraph actor
      have hlive : ((t.before.tell .snapshot).tell (.started id)).Live (.start g actor) g := by
        refine ⟨?_, rfl⟩
        show t.before.blackboard.graph? g.id = some g
        rw [Blackboard.id_of_graph? hgraph]
        exact hgraph
      rw [hsome] at hdeparture
      obtain ⟨l, hl⟩ := moved_of_departure hdeparture rfl ⟨rfl, rfl, g, hlive⟩
      exact .moved _ l hl

theorem course_select {st : Stage} (hst : st.Settled) (port : PortIndex) :
    Course ⟨st, .select port⟩ := by
  have hreply : reply ⟨st, .select port⟩ = .session (st.select port).1 := rfl
  have hafter : after ⟨st, .select port⟩ = (st.select port).2 := rfl
  cases hsession : st.session with
  | none =>
    obtain ⟨hnone, hselect⟩ := Stage.select_of_idle hsession port
    rw [hselect] at hreply hafter
    exact course_declined hnone hreply hafter (.idle (Stage.isRunning_of_none hsession))
  | some s =>
    obtain ⟨g, n, line, hpaused⟩ := hst s hsession
    cases hoffers : line.offers port with
    | false =>
      obtain ⟨hnone, hselect⟩ := Stage.select_of_refused hsession hpaused hoffers
      rw [hselect] at hreply hafter
      exact course_declined hnone hreply hafter (.waiting (Stage.isRunning_of_some hsession))
    | true =>
      obtain ⟨hsome, -⟩ := Stage.select_of_offered hsession hpaused hoffers
      have hsome : departure? ⟨st, .select port⟩ = _ := hsome
      obtain ⟨l, hl⟩ := moved_of_departure hsome rfl ⟨rfl, rfl, g, hpaused.live⟩
      exact .moved _ l hl

theorem closed_close {t : Turn} {s : Session} (hdeparture : t.departure? = none)
    (hsession : t.before.session = some s) (hreply : ∀ r, t.reply ≠ .session r)
    (hconfig : t.after.config = t.before.config) (hidle : t.after.session = none)
    (hjournal : t.after.journal = (t.before.close s).journal) : t.Closed s := by
  refine ⟨hdeparture, hsession, hreply, hconfig, hidle, ?_, ?_⟩
  · exact (congrArg Journal.notices hjournal).trans (t.before.notices_close s)
  · exact (congrArg Journal.visits hjournal).trans (t.before.close_frame s).2.2.2.2

theorem course_stop (st : Stage) : Course ⟨st, .stop⟩ := by
  cases hsession : st.session with
  | none =>
    have hstop : st.stop = st := by
      simp only [Stage.stop, hsession]
    refine .kept ⟨rfl, ?_, fun r hr => by cases hr⟩
    show st.Still st.stop
    rw [hstop]
    exact st.still_refl
  | some s =>
    have hstop : st.stop = st.close s := by
      simp only [Stage.stop, hsession]
    have hafter : after ⟨st, .stop⟩ = st.close s := hstop
    refine .closed s (closed_close rfl hsession (fun r hr => by cases hr) ?_ ?_ ?_) <;> rw [hafter]
    · exact (st.close_frame s).2.1
    · exact (st.close_frame s).1

theorem course_unregister (st : Stage) (id : GraphId) : Course ⟨st, .unregister id⟩ := by
  by_cases hactive : st.activeGraph? = some id
  · obtain ⟨s, hsession, hid⟩ := Option.map_eq_some_iff.mp hactive
    have hstop : (if st.activeGraph? = some id then st.stop else st) = st.close s := by
      rw [if_pos hactive]
      simp only [Stage.stop, hsession]
    have hafter : after ⟨st, .unregister id⟩ =
        { st.close s with blackboard := ((st.close s).blackboard.unregister id).2 } := by
      show (st.unregister id).2 = _
      simp only [Stage.unregister, hstop]
    refine .closed s (closed_close rfl hsession (fun r hr => by cases hr) ?_ ?_ ?_) <;> rw [hafter]
    · exact (st.close_frame s).2.1
    · exact (st.close_frame s).1
  · have hafter : after ⟨st, .unregister id⟩ =
        { st with blackboard := (st.blackboard.unregister id).2 } := by
      show (st.unregister id).2 = _
      simp only [Stage.unregister, if_neg hactive]
    refine .kept ⟨rfl, ?_, fun r hr => by cases hr⟩
    rw [hafter]
    refine Stage.still_of_session rfl rfl rfl fun s g hs hg => ?_
    have hne : id ≠ s.graph := fun h => hactive (by rw [Stage.activeGraph?, hs, h]; rfl)
    exact (Blackboard.graph?_unregister hne).trans hg

theorem course_register (st : Stage) (g : Graph) : Course ⟨st, .register g⟩ := by
  have haccept : st.Still { st with blackboard := st.blackboard.register g } :=
    Stage.still_of_session rfl rfl rfl fun s _ _ h => Blackboard.graph?_register h g
  refine .kept ⟨rfl, ?_, fun r hr => by cases hr⟩
  show st.Still (st.register g).2
  unfold Stage.register
  split
  · split
    · exact st.still_refl
    · exact haccept
  · exact haccept

/-- **A call on a settled stage keeps the session, closes it or moves it.** -/
theorem course (t : Turn) (hst : t.before.Settled) : t.Course := by
  obtain ⟨st, c⟩ := t
  cases c with
  | register g => exact course_register st g
  | unregister id => exact course_unregister st id
  | listen l =>
    exact .kept ⟨rfl, Stage.still_of_session rfl rfl rfl fun _ _ _ h => h, fun r hr => by cases hr⟩
  | unlisten key =>
    exact .kept ⟨rfl, Stage.still_of_session rfl rfl rfl fun _ _ _ h => h, fun r hr => by cases hr⟩
  | start id actor => exact course_start rfl rfl rfl
  | serve server => exact course_start rfl rfl rfl
  | select port => exact course_select hst port
  | stop => exact course_stop st
  | set name v =>
    exact .kept ⟨rfl, Stage.still_withScope (.set st.scope name v), fun r hr => by cases hr⟩
  | perform p =>
    exact .kept ⟨rfl, Stage.still_withScope (Script.worked_run _ _), fun r hr => by cases hr⟩

/-! ### Turns that move a session -/

namespace Moved

variable {t : Turn} {m l : Move}

theorem moves_eq (h : t.Moved m l) : t.moves = m.onward t.before.config.maxAutoAdvance :=
  moves_of_departure h.departure

theorem sound_of_mem (h : t.Moved m l) {x : Move} (hx : x ∈ t.moves) : x.Sound := by
  rw [h.moves_eq] at hx
  exact h.sound.onward _ x hx

theorem akin_of_mem (h : t.Moved m l) {x : Move} (hx : x ∈ t.moves) : m.Akin x.stage x.session := by
  rw [h.moves_eq] at hx
  exact h.sound.akin_onward _ x hx

theorem sound_last (h : t.Moved m l) : l.Sound := h.sound_of_mem (List.mem_of_getLast? h.last)

theorem akin_last (h : t.Moved m l) : m.Akin l.stage l.session :=
  h.akin_of_mem (List.mem_of_getLast? h.last)

theorem told (h : t.Moved m l) :
    l.result.1.notices = m.stage.notices ++ t.moves.flatMap Move.notices ∧
      l.result.1.visits = m.stage.visits ++ (t.moves.filterMap Move.arrival?).map Node.guid := by
  have hlast := h.last
  rw [h.moves_eq] at hlast ⊢
  exact ⟨Move.Sound.notices_onward _ m h.sound l hlast, m.visits_onward _ l hlast⟩

theorem reply_eq (h : t.Moved m l) :
    t.reply = .session (l.outcome t.before.config.maxAutoAdvance) := by
  rw [h.reply, h.sound_last.land_fst]

theorem config_after (h : t.Moved m l) : t.after.config = t.before.config := by
  rw [h.after, (l.land_frame _).1, h.sound_last.akin_result.config, h.akin_last.config, h.config]

theorem notices_after (h : t.Moved m l) : t.after.notices = m.stage.notices ++
    (t.moves.flatMap Move.notices ++
      t.before.config.ending m.session.graph (l.outcome t.before.config.maxAutoAdvance)) := by
  rw [h.after, h.sound_last.notices_land, h.told.1, h.akin_last.config, h.config, h.akin_last.graph,
    List.append_assoc]

theorem visits_after (h : t.Moved m l) : t.after.visits =
    m.stage.visits ++ (t.moves.filterMap Move.arrival?).map Node.guid := by
  rw [h.after, (l.land_frame _).2.2.2, h.told.2]

theorem settled_after (h : t.Moved m l) : t.after.Settled := by
  rw [h.after]
  exact h.sound_last.land_settled _

theorem running_iff (h : t.Moved m l) : t.after.isRunning = true ↔
    l.outcome t.before.config.maxAutoAdvance = .ok .awaitingInput := by
  by_cases hwaits : l.outcome t.before.config.maxAutoAdvance = .ok .awaitingInput
  · obtain ⟨g, hlive⟩ := h.sound_last.live
    obtain ⟨s, -, -, -, hsession, -⟩ := h.sound_last.land_paused hlive hwaits
    rw [← h.after] at hsession
    exact iff_of_true (Stage.isRunning_of_some hsession) hwaits
  · have hsession := h.sound_last.land_closed hwaits
    rw [← h.after] at hsession
    refine iff_of_false ?_ hwaits
    rw [Stage.isRunning_of_none hsession]
    simp

theorem opened (h : t.Moved m l) (hidle : t.before.session = none) : ∃ id actor g,
    t.opening? = some (id, actor) ∧ t.before.blackboard.graph? id = some g ∧
      m = ⟨(t.before.tell .snapshot).tell (.started id), .start g actor, 0⟩ := by
  obtain ⟨id, actor, g, hask, hgraph, hm⟩ := ask_of_departure hidle h.departure
  refine ⟨id, actor, g, ?_, hgraph, hm⟩
  have hgranted : t.reply.refuses = false := by
    rw [h.reply_eq]
    rcases l.outcome_cases t.before.config.maxAutoAdvance with h | h | h | ⟨node, flag, h⟩ <;>
      rw [h] <;> rfl
  rw [opening?, hgranted, if_neg (by simp), hask]

theorem answered (h : t.Moved m l) {s : Session} {g : Graph} {n : Node} {line : Presentation}
    (hsession : t.before.session = some s) (hpaused : t.before.Paused s g n line) : ∃ port,
      t.pick? = some port ∧ line.offers port = true ∧
        m = ⟨t.before, { s with presentation := none, state := .active }, port⟩ := by
  obtain ⟨port, hcall, hoffers, hm⟩ := answer_of_departure hsession hpaused h.departure
  refine ⟨port, ?_, hoffers, hm⟩
  have hline : t.before.presentation? = some line := by
    rw [Stage.presentation?, hsession]
    exact hpaused.shown
  rw [pick?, hcall]
  show (if t.before.presentation?.any (·.offers port) then some port else none) = some port
  rw [hline, Option.any_some, if_pos hoffers]

end Moved

theorem moved_or_none {t : Turn} (hst : t.before.Settled) :
    t.departure? = none ∨ ∃ m l, t.Moved m l := by
  cases t.course hst with
  | kept h => exact Or.inl h.departure
  | closed s h => exact Or.inl h.departure
  | moved m l h => exact Or.inr ⟨m, l, h⟩

theorem sound_of_mem {t : Turn} (hst : t.before.Settled) {x : Move} (hx : x ∈ t.moves) :
    x.Sound := by
  rcases moved_or_none hst with hnone | ⟨m, l, h⟩
  · rw [moves_of_none hnone] at hx
    exact absurd hx List.not_mem_nil
  · exact h.sound_of_mem hx

theorem moved_of_mem {t : Turn} (hst : t.before.Settled) {x : Move} (hx : x ∈ t.moves) :
    ∃ m l, t.Moved m l := by
  refine (moved_or_none hst).resolve_left fun hnone => ?_
  rw [moves_of_none hnone] at hx
  exact absurd hx List.not_mem_nil

theorem moved_of_failure {t : Turn} (hst : t.before.Settled) {e : SessionError}
    (h : t.reply = .session (.error e)) (hbusy : e ≠ .rejected)
    (hregistered : ∀ id, e ≠ .graphNotRegistered id) : ∃ m l, t.Moved m l := by
  cases t.course hst with
  | kept hk =>
    cases hk.reply _ h with
    | busy hrunning => exact absurd rfl hbusy
    | unregistered id hidle => exact absurd rfl (hregistered id)
  | closed s hc => exact absurd h (hc.reply _)
  | moved m l hm => exact ⟨m, l, hm⟩

theorem registered_of_opening {t : Turn} (hst : t.before.Settled) {id : GraphId}
    {actor : Option Actor} (hopening : t.opening? = some (id, actor)) :
    ∃ g, t.before.blackboard.graph? id = some g := by
  rcases moved_or_none hst with hnone | ⟨m, l, h⟩
  · rw [opening?_of_none hnone] at hopening
    simp at hopening
  · obtain ⟨id', actor', g, hopening', hgraph, -⟩ :=
      h.opened (Stage.session_of_idle (idle_of_opening hopening))
    obtain ⟨rfl, rfl⟩ := Prod.mk.inj (Option.some.inj (hopening.symm.trans hopening'))
    exact ⟨g, hgraph⟩

end Turn

/-! ### What every turn keeps -/

namespace Stage

theorem Same.paused {st st' : Stage} {s s' : Session} {g : Graph} {n : Node} {line : Presentation}
    (h : st.Same st' s s') (hconfig : st'.config = st.config) (hpaused : st.Paused s g n line) :
    ∃ g', st'.Paused s' g' n line ∧ g'.outline = g.outline := by
  obtain ⟨g', hlive', houtline⟩ := h.live g hpaused.live
  have hframe := h.frame
  refine ⟨g', ⟨?_, hlive', ?_, ?_, ?_, ?_⟩, houtline⟩
  · rw [hframe]
    exact hpaused.waiting
  · rw [hframe, Graph.node?_eq_of_outline houtline]
    exact hpaused.node
  · rw [hframe]
    exact hpaused.shown
  · rw [hframe]
    exact hpaused.place
  · rw [hconfig]
    exact hpaused.options

theorem Still.settled {st st' : Stage} (h : st.Still st') (hst : st.Settled) : st'.Settled := by
  intro s' hs'
  cases hsession : st.session with
  | none =>
    rw [h.idle hsession] at hs'
    simp at hs'
  | some s =>
    obtain ⟨s'', hsame⟩ := h.same s hsession
    obtain rfl : s'' = s' := Option.some.inj (hsame.session.symm.trans hs')
    obtain ⟨g, n, line, hpaused⟩ := hst s hsession
    obtain ⟨g', hpaused', -⟩ := hsame.paused h.config hpaused
    exact ⟨g', n, line, hpaused'⟩

theorem Still.isRunning {st st' : Stage} (h : st.Still st') : st'.isRunning = st.isRunning := by
  cases hsession : st.session with
  | none => rw [isRunning_of_none hsession, isRunning_of_none (h.idle hsession)]
  | some s =>
    obtain ⟨s', hsame⟩ := h.same s hsession
    rw [isRunning_of_some hsession, isRunning_of_some hsame.session]

theorem settled_of_idle {st : Stage} (h : st.session = none) : st.Settled := by
  intro s hs
  rw [h] at hs
  simp at hs

end Stage

namespace Turn

/-- **A settled stage stays settled**, whatever is called. -/
theorem settled_after (t : Turn) (hst : t.before.Settled) : t.after.Settled := by
  cases t.course hst with
  | kept h => exact h.still.settled hst
  | closed s h => exact Stage.settled_of_idle h.session
  | moved m l h => exact h.settled_after

theorem config_after (t : Turn) (hst : t.before.Settled) : t.after.config = t.before.config := by
  cases t.course hst with
  | kept h => exact h.still.config
  | closed s h => exact h.config
  | moved m l h => exact h.config_after

end Turn

namespace Stage

theorem settled_turns (config : Config) (cs : List Call) :
    (∀ t ∈ (new config).turns cs,
      (t.before.Settled ∧ t.before.config = config) ∧ t.after.Settled ∧ t.after.config = config) ∧
      ((new config).run cs).2.Settled ∧ ((new config).run cs).2.config = config :=
  forall_turns (P := fun st => st.Settled ∧ st.config = config)
    (fun t h => ⟨t.settled_after h.1, (t.config_after h.1).trans h.2⟩) cs (new config)
    ⟨settled_of_idle rfl, rfl⟩

end Stage

end Dialogue

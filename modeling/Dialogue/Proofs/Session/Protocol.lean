import Dialogue.Proofs.Session.Scene

/-!
# What the host is told of a session

Of each session the host is told in one block: to remember its viewpoint and that the session starts,
then lines and changes of viewpoint, then the failure if there was one, and that it is over. A turn tells
a part of the block (`Turn.block`): the beginning if it starts the session, the end if it leaves no
session (`Turn.curtain`), and lines and changes of viewpoint in between; put together along the turns of
a scene the parts make the block. While a session runs, the last thing that the host was told is the
line that waits (`Stage.Shown`).
-/

namespace Dialogue

/-! ### The parts of a block -/

/-- What the host may be told between the start and the end of a session with an actor. -/
def Notice.Inner (config : Config) (actor : Option Actor) : Notice → Prop
  | .presented _ => True
  | .focused target a =>
    config.focusOnActor = true ∧ a = actor ∧ (target = .actor → actor ≠ none)
  | _ => False

/-- The failures that end a session. -/
def SessionError.Fatal : SessionError → Prop
  | .autoAdvanceLimit _ | .unknownCondition _ _ => True
  | _ => False

/-- The failure that a reply tells of. -/
def Reply.failure? : Reply → Option SessionError
  | .session (.error e) => some e
  | _ => none

theorem Reply.failure?_eq_some {r : Reply} {e : SessionError} :
    r.failure? = some e ↔ r = .session (.error e) := by
  constructor
  · intro h
    unfold failure? at h
    split at h
    · rw [Option.some.inj h]
    · simp at h
  · rintro rfl
    rfl

theorem Graph.inner_notices (g : Graph) (config : Config) (actor : Option Actor) (n : Node) :
    ∀ x ∈ g.notices config actor n, x.Inner config actor := by
  intro x hx
  rcases List.mem_append.mp hx with hx | hx
  · cases hfocus : n.kind.focus? with
    | none =>
      rw [hfocus] at hx
      exact absurd hx List.not_mem_nil
    | some target =>
      rw [hfocus, Option.elim_some, Config.turning] at hx
      split at hx
      · rename_i hturns
        rw [List.mem_singleton.mp hx]
        exact ⟨hturns.1, rfl, hturns.2⟩
      · exact absurd hx List.not_mem_nil
  · obtain ⟨line, -, rfl⟩ := Option.map_eq_some_iff.mp (Option.mem_toList.mp hx)
    trivial

theorem Move.inner_notices (m : Move) :
    ∀ x ∈ m.notices, x.Inner m.stage.config m.session.actor := by
  unfold Move.notices
  split
  · exact Graph.inner_notices _ _ _ _
  · exact fun x hx => absurd hx List.not_mem_nil

namespace Turn

/-- What the host is told at the end of a call on a session. -/
def curtain (t : Turn) (config : Config) (graph : GraphId) : List Notice :=
  if t.after.isRunning then [] else t.reply.failure?.toList.map .failed ++ config.closing graph

theorem heralds_of_running {t : Turn} (h : t.before.isRunning = true) : t.heralds = [] := by
  obtain ⟨s, hs⟩ := Stage.session_of_running h
  rw [heralds, opening?_of_running hs]

theorem Moved.ending_eq {t : Turn} {m l : Move} (h : t.Moved m l) (graph : GraphId) :
    t.before.config.ending graph (l.outcome t.before.config.maxAutoAdvance) =
      t.curtain t.before.config graph := by
  have hiff := h.running_iff
  unfold curtain
  rw [h.reply_eq]
  rcases l.outcome_cases t.before.config.maxAutoAdvance with ho | ho | ho | ⟨node, flag, ho⟩
  · rw [if_pos (hiff.mpr ho), ho]
    rfl
  all_goals
    rw [if_neg (by rw [hiff, ho]; simp), ho]
    rfl

theorem notices_eq {t : Turn} (hst : t.before.Settled) : t.notices = t.heralds ++
    (t.moves.flatMap Move.notices ++
      t.subject?.elim [] fun o => t.curtain t.before.config o.1) := by
  cases t.course hst with
  | kept h =>
    have hheralds : t.heralds = [] := by
      rw [heralds, opening?_of_none h.departure]
    rw [notices_of_append h.notices_after, hheralds, moves_of_none h.departure]
    cases hsession : t.before.session with
    | none =>
      rw [subject?, hsession, opening?_of_none h.departure]
      rfl
    | some s =>
      have hafter : t.after.isRunning = true :=
        h.still.isRunning.trans (Stage.isRunning_of_some hsession)
      rw [subject?_of_some hsession, Option.elim_some, curtain, if_pos hafter]
      rfl
  | closed s h =>
    have hafter : t.after.isRunning = false := Stage.isRunning_of_none h.session
    have hfailure : t.reply.failure? = none := by
      rw [Option.eq_none_iff_forall_ne_some]
      exact fun e he => h.reply _ (Reply.failure?_eq_some.mp he)
    rw [notices_of_append h.notices, heralds_of_running (Stage.isRunning_of_some h.running),
      moves_of_none h.departure, subject?_of_some h.running, Option.elim_some, curtain,
      if_neg (by simp [hafter]), hfailure]
    rfl
  | moved m l h =>
    rw [notices_of_append (h.notices_append hst), h.ending_eq, h.subject hst]
    rfl

theorem block {t : Turn} (hst : t.before.Settled) {graph : GraphId} {actor : Option Actor}
    (hsubject : t.subject? = some (graph, actor)) :
    ∃ body, t.notices = t.heralds ++ (body ++ t.curtain t.before.config graph) ∧
      (∀ x ∈ body, x.Inner t.before.config actor) ∧
        ∀ e, t.after.isRunning = false → t.reply.failure? = some e → e.Fatal := by
  refine ⟨t.moves.flatMap Move.notices, ?_, fun x hx => ?_, fun e hover he => ?_⟩
  · rw [notices_eq hst, hsubject, Option.elim_some]
  · obtain ⟨y, hy, hx⟩ := List.mem_flatMap.mp hx
    obtain ⟨m, l, h⟩ := moved_of_mem hst hy
    have hactor := (Prod.mk.inj (Option.some.inj ((h.subject hst).symm.trans hsubject))).2
    have hakin := h.akin_of_mem hy
    have hinner := y.inner_notices x hx
    rwa [hakin.config, hakin.actor, h.config, hactor] at hinner
  · rw [Reply.failure?_eq_some] at he
    cases t.course hst with
    | kept h =>
      cases h.reply _ he with
      | busy hrunning =>
        rw [h.still.isRunning, hrunning] at hover
        simp at hover
      | unregistered id hidle =>
        rw [subject?, Stage.session_of_idle hidle, opening?_of_none h.departure] at hsubject
        simp at hsubject
    | closed s h => exact absurd he (h.reply _)
    | moved m l h =>
      rw [h.reply_eq] at he
      rcases l.outcome_cases t.before.config.maxAutoAdvance with ho | ho | ho | ⟨node, flag, ho⟩ <;>
        rw [ho] at he <;> cases he <;> trivial

/-- A call on a session and calls after it tell the host the block of the session, up to the last of
them. -/
def Tells (t : Turn) (ts : List Turn) : Prop :=
  ∀ graph actor, t.subject? = some (graph, actor) → ∃ body,
    (t :: ts).flatMap notices =
        t.heralds ++ (body ++ (ts.getLastD t).curtain t.before.config graph) ∧
      (∀ x ∈ body, x.Inner t.before.config actor) ∧
        ∀ e, (ts.getLastD t).after.isRunning = false → (ts.getLastD t).reply.failure? = some e →
          e.Fatal

theorem tells (cs : List Call) (t : Turn) (hst : t.before.Settled) : t.Tells (t.after.during cs) := by
  refine Stage.sequel_induction (P := Tells) ?_ ?_ cs t hst
  · intro t hst graph actor hsubject
    rw [List.flatMap_singleton]
    exact block hst hsubject
  · intro t u ts hst hrunning hu ih graph actor hsubject
    obtain ⟨first, hfirst, hinner, -⟩ := block hst hsubject
    obtain ⟨rest, hrest, hinners, hfatal⟩ :=
      ih graph actor ((subject?_next hst hrunning hu).trans hsubject)
    have hconfig : u.before.config = t.before.config := by
      rw [hu, t.config_after hst]
    rw [List.getLastD_cons]
    refine ⟨first ++ rest, ?_, fun x hx => ?_, hfatal⟩
    · -- the call does not end the session, and the next one does not start it
      have hcurtain : t.curtain t.before.config graph = [] := by
        rw [curtain, if_pos hrunning]
      have hheralds : u.heralds = [] := heralds_of_running (by rw [hu, hrunning])
      rw [List.flatMap_cons, hrest, hfirst, hcurtain, hheralds, hconfig, List.append_nil,
        List.nil_append, List.append_assoc, List.append_assoc]
    · rcases List.mem_append.mp hx with hx | hx
      · exact hinner x hx
      · rw [← hconfig]
        exact hinners x hx

end Turn

/-! ### The line that waits -/

namespace Stage

/-- The line of the session is the last thing that the host was told. -/
def Shown (st : Stage) : Prop :=
  ∀ s, st.session = some s → ∃ line, s.presentation = some line ∧
    st.notices.getLast? = some (.presented line)

end Stage

theorem Turn.Moved.shown {t : Turn} {m l : Move} (h : t.Moved m l) : t.after.Shown := by
  intro s hsession
  have hwaits := h.running_iff.mp (Stage.isRunning_of_some hsession)
  obtain ⟨g, hlive⟩ := h.sound_last.live
  obtain ⟨s', g', n, line, hs', hpaused, -, harr, hline, -⟩ := h.sound_last.land_paused hlive hwaits
  rw [← h.after, hsession] at hs'
  cases hs'
  refine ⟨line, hpaused.shown, ?_⟩
  have hlast : l.notices.getLast? = some (.presented line) := by
    rw [Move.notices_of_live hlive, harr, Option.elim_some, Graph.notices, hline]
    exact List.getLast?_concat
  rw [h.notices_after, hwaits]
  obtain ⟨init, hinit⟩ := List.getLast?_eq_some_iff.mp h.last
  rw [hinit, List.flatMap_append, List.flatMap_singleton]
  simp [Config.ending, List.getLast?_append, hlast]

/-- **The line that waits is the last thing that the host was told**, after every call. -/
theorem Turn.shown_after (t : Turn) (hst : t.before.Settled) (h : t.before.Shown) :
    t.after.Shown := by
  cases t.course hst with
  | kept hk =>
    intro s' hs'
    cases hsession : t.before.session with
    | none =>
      rw [hk.still.idle hsession] at hs'
      simp at hs'
    | some s =>
      obtain ⟨s'', hsame⟩ := hk.still.same s hsession
      obtain rfl : s'' = s' := Option.some.inj (hsame.session.symm.trans hs')
      obtain ⟨line, hline, hlast⟩ := h s hsession
      refine ⟨line, ?_, ?_⟩
      · rw [hsame.frame]
        exact hline
      · rw [hk.still.notices]
        exact hlast
  | closed s hc =>
    intro s' hs'
    rw [hc.session] at hs'
    simp at hs'
  | moved m l hm => exact hm.shown

/-! ### Blocks -/

namespace Scene

/-- The block of a session that is over: the failure that the last call reports, if it does, is told
before the end. -/
def Complete (sc : Scene) (config : Config) : Prop :=
  ∃ body failure, sc.notices = [.snapshot, .started sc.graph] ++ body ++
      Option.toList (Option.map .failed failure) ++
        (if config.restoreViewpointOnExit then [.restored] else []) ++ [.ended sc.graph] ∧
    (∀ x ∈ body, x.Inner config sc.actor) ∧
      (∀ e, failure = some e → e.Fatal) ∧ ∀ e, failure = some e ↔ sc.last.reply = .session (.error e)

/-- The block of a session that waits at a line. -/
def Pending (sc : Scene) (config : Config) (line : Presentation) : Prop :=
  ∃ body, sc.notices = [.snapshot, .started sc.graph] ++ body ++ [.presented line] ∧
    ∀ x ∈ body, x.Inner config sc.actor

/-- The block of a session up to its last turn. -/
def Block (sc : Scene) (config : Config) : Prop :=
  ∃ body, sc.notices = [.snapshot, .started sc.graph] ++ (body ++ sc.last.curtain config sc.graph) ∧
    (∀ x ∈ body, x.Inner config sc.actor) ∧
      ∀ e, sc.last.after.isRunning = false → sc.last.reply.failure? = some e → e.Fatal

theorem block_scenes (config : Config) (cs : List Call) :
    ∀ sc ∈ (Stage.new config).scenes cs, sc.Block config := by
  have hstart : ∀ (t : Turn) id actor cs, t.before.Settled → t.before.config = config →
      t.opening? = some (id, actor) → Block ⟨id, actor, t, t.after.during cs⟩ config := by
    intro t id actor cs hst hconfig hopening
    obtain ⟨body, hbody, hinner, hfatal⟩ :=
      t.tells cs hst id actor (Turn.subject?_of_opening hopening)
    rw [hconfig] at hbody hinner
    refine ⟨body, ?_, hinner, hfatal⟩
    rw [Turn.heralds, hopening] at hbody
    exact hbody
  exact Stage.forall_scenes hstart cs _ (Stage.settled_of_idle rfl) rfl

theorem Block.complete {sc : Scene} {config : Config} (h : sc.Block config)
    (hover : sc.last.after.isRunning = false) : sc.Complete config := by
  obtain ⟨body, hnotices, hinner, hfatal⟩ := h
  refine ⟨body, sc.last.reply.failure?, ?_, hinner, fun e he => hfatal e hover he,
    fun e => Reply.failure?_eq_some⟩
  rw [hnotices, Turn.curtain, if_neg (by simp [hover]), Config.closing]
  simp only [List.append_assoc]
  cases sc.last.reply.failure? <;> rfl

theorem Block.pending {sc : Scene} {config : Config} {line : Presentation} (h : sc.Block config)
    (hrunning : sc.last.after.isRunning = true)
    (hline : sc.notices.getLast? = some (.presented line)) : sc.Pending config line := by
  obtain ⟨body, hnotices, hinner, -⟩ := h
  rw [Turn.curtain, if_pos hrunning, List.append_nil] at hnotices
  rw [hnotices] at hline
  cases hlast : body.getLast? with
  | none =>
    rw [List.getLast?_eq_none_iff.mp hlast] at hline
    simp at hline
  | some x =>
    obtain ⟨init, rfl⟩ := List.getLast?_eq_some_iff.mp hlast
    rw [← List.append_assoc, List.getLast?_concat] at hline
    obtain rfl := Option.some.inj hline
    refine ⟨init, ?_, fun y hy => hinner y (List.mem_append_left _ hy)⟩
    rw [hnotices, List.append_assoc]

theorem Block.getLast? {sc : Scene} {config : Config} (h : sc.Block config) (before : List Scene) :
    ((before ++ [sc]).flatMap notices).getLast? = sc.notices.getLast? := by
  obtain ⟨body, hnotices, -⟩ := h
  have hsome : sc.notices.getLast?.isSome = true := by
    rw [hnotices]
    simp
  obtain ⟨x, hx⟩ := Option.isSome_iff_exists.mp hsome
  rw [List.flatMap_append, List.flatMap_singleton, List.getLast?_append, hx]
  rfl

end Scene

namespace Stage

theorem shown_run (config : Config) (cs : List Call) : ((new config).run cs).2.Shown :=
  (forall_turns (P := fun st => st.Settled ∧ st.Shown)
    (fun t h => ⟨t.settled_after h.1, t.shown_after h.1 h.2⟩) cs (new config)
    ⟨settled_of_idle rfl, fun s hs => by cases hs⟩).2.2

/-- **The host is told of sessions in blocks.** In every run all that the host is told is the blocks
of the sessions, one for each call that asked for a session and was not refused, in the order of these
calls. Only the last block can be pending, exactly when a session runs, and it ends with the line that
waits. -/
theorem told_in_blocks (config : Config) (cs : List Call) :
    ((new config).run cs).2.notices = ((new config).scenes cs).flatMap Scene.notices ∧
      ((new config).scenes cs).map (fun sc => (sc.graph, sc.actor)) =
        ((new config).turns cs).filterMap Turn.opening? ∧
      ∃ finished current, (new config).scenes cs = finished ++ Option.toList current ∧
        Option.isSome current = ((new config).run cs).2.isRunning ∧
        (∀ sc ∈ finished, sc.Complete config) ∧
        ∀ sc ∈ current, ∃ line, ((new config).run cs).2.presentation? = some line ∧
          sc.Pending config line := by
  have hnotices := notices_scenes config cs
  refine ⟨hnotices, scenes_openings cs _, ?_⟩
  obtain ⟨finished, current, hscenes, hfinished, hcurrent, hnone⟩ :=
    scenes_split cs (new config) (settled_of_idle rfl)
  have hblocks := Scene.block_scenes config cs
  rw [hscenes] at hblocks
  refine ⟨finished, current, hscenes, ?_, fun sc hsc => ?_, fun sc hsc => ?_⟩
  · cases hc : current with
    | some sc => exact (hcurrent sc hc).2.symm
    | none =>
      cases hrun : ((new config).run cs).2.isRunning with
      | false => rfl
      | true =>
        have hleave := hnone hrun hc
        rw [leave_of_idle rfl] at hleave
        exact hleave
  · exact (hblocks sc (List.mem_append_left _ hsc)).complete (hfinished sc hsc)
  · obtain rfl := hsc
    obtain ⟨hend, hrun⟩ := hcurrent sc rfl
    obtain ⟨s, hs⟩ := session_of_running hrun
    obtain ⟨line, hline, hlast⟩ := shown_run config cs s hs
    have hblock := hblocks sc (List.mem_append_right _ (List.mem_singleton.mpr rfl))
    rw [hnotices, hscenes] at hlast
    refine ⟨line, ?_, hblock.pending (by rw [hend, hrun]) ((hblock.getLast? _).symm.trans hlast)⟩
    rw [presentation?, hs]
    exact hline

end Stage

end Dialogue

import Dialogue.Proofs.Session.Telling

/-!
# Scenes

A scene is one session of a run, as the turns that made it: the call that started the session and the
calls made while it ran. All that the host is told in a run is told in its scenes (`notices_scenes`),
and at most the last scene is not over (`scenes_split`). A fact about scenes is proved along their turns
(`sequel_induction`): each turn begins on the stage that the one before left running.
-/

namespace Dialogue

/-- A session of a run: its graph and actor, the call that started it, and the calls made while it
ran. -/
structure Scene where
  graph : GraphId
  actor : Option Actor
  opening : Turn
  further : List Turn

namespace Scene

def turns (sc : Scene) : List Turn := sc.opening :: sc.further

/-- The last turn: the one that ended the session, if it is over. -/
def last (sc : Scene) : Turn := sc.further.getLastD sc.opening

/-- What the host is told of the session. -/
def notices (sc : Scene) : List Notice := sc.turns.flatMap Turn.notices

/-- The sessions that are started in a list of turns. -/
def scan : List Turn → List Scene
  | [] => []
  | t :: ts =>
    match t.opening? with
    | some (id, actor) => ⟨id, actor, t, ts.takeWhile fun t => t.before.isRunning⟩ :: scan ts
    | none => scan ts

end Scene

namespace Stage

/-- The turns of a run that are made while the session of the stage runs. -/
def during (st : Stage) (cs : List Call) : List Turn :=
  (st.turns cs).takeWhile fun t => t.before.isRunning

/-- The stage after these turns. -/
def leave (st : Stage) (cs : List Call) : Stage := (st.during cs).getLast?.elim st Turn.after

def scenes (st : Stage) (cs : List Call) : List Scene := Scene.scan (st.turns cs)

/-! ### Turn by turn -/

theorem during_of_idle {st : Stage} (h : st.isRunning = false) (cs : List Call) :
    st.during cs = [] := by
  cases cs with
  | nil => rfl
  | cons c cs => simp [during, turns, h]

theorem during_cons {st : Stage} (h : st.isRunning = true) (c : Call) (cs : List Call) :
    st.during (c :: cs) = ⟨st, c⟩ :: (Turn.after ⟨st, c⟩).during cs := by
  simp only [during, turns, List.takeWhile_cons, h, if_true]
  rfl

theorem settled_during {st : Stage} (hst : st.Settled) (cs : List Call) :
    ∀ t ∈ st.during cs, t.before.Settled ∧ t.before.config = st.config := by
  intro t ht
  have hturns := (forall_turns (P := fun st' => st'.Settled ∧ st'.config = st.config)
    (fun t h => ⟨t.settled_after h.1, (t.config_after h.1).trans h.2⟩) cs st ⟨hst, rfl⟩).1
  exact (hturns t ((List.takeWhile_prefix _).subset ht)).1

theorem leave_of_idle {st : Stage} (h : st.isRunning = false) (cs : List Call) :
    st.leave cs = st := by
  rw [leave, during_of_idle h]
  rfl

theorem leave_cons {st : Stage} (h : st.isRunning = true) (c : Call) (cs : List Call) :
    st.leave (c :: cs) = (Turn.after ⟨st, c⟩).leave cs := by
  rw [leave, leave, during_cons h, List.getLast?_cons]
  cases ((Turn.after ⟨st, c⟩).during cs).getLast? <;> rfl

theorem scenes_of_opening {st : Stage} {c : Call} {id : GraphId} {actor : Option Actor}
    (h : Turn.opening? ⟨st, c⟩ = some (id, actor)) (cs : List Call) : st.scenes (c :: cs) =
      ⟨id, actor, ⟨st, c⟩, (Turn.after ⟨st, c⟩).during cs⟩ :: (Turn.after ⟨st, c⟩).scenes cs := by
  simp only [scenes, turns, Scene.scan, h]
  rfl

theorem scenes_of_none {st : Stage} {c : Call} (h : Turn.opening? ⟨st, c⟩ = none) (cs : List Call) :
    st.scenes (c :: cs) = (Turn.after ⟨st, c⟩).scenes cs := by
  simp only [scenes, turns, Scene.scan, h]
  rfl

/-- Induction along the turns that are made after a turn while its session runs. -/
theorem sequel_induction {P : Turn → List Turn → Prop} (stop : ∀ t, t.before.Settled → P t [])
    (more : ∀ t u ts, t.before.Settled → t.after.isRunning = true → u.before = t.after → P u ts →
      P t (u :: ts)) (cs : List Call) (t : Turn) :
    t.before.Settled → P t (t.after.during cs) := by
  induction cs generalizing t with
  | nil => exact stop t
  | cons c cs ih =>
    intro hst
    cases hrunning : t.after.isRunning with
    | false =>
      rw [during_of_idle hrunning]
      exact stop t hst
    | true =>
      rw [during_cons hrunning]
      exact more t ⟨t.after, c⟩ _ hst hrunning rfl (ih ⟨t.after, c⟩ (t.settled_after hst))

theorem forall_scenes {P : Scene → Prop} {config : Config}
    (h : ∀ (t : Turn) id actor cs, t.before.Settled → t.before.config = config →
      t.opening? = some (id, actor) → P ⟨id, actor, t, t.after.during cs⟩)
    (cs : List Call) (st : Stage) :
    st.Settled → st.config = config → ∀ sc ∈ st.scenes cs, P sc := by
  induction cs generalizing st with
  | nil =>
    intro _ _ sc hsc
    exact absurd hsc List.not_mem_nil
  | cons c cs ih =>
    intro hst hconfig sc hsc
    have hrest := ih _ (Turn.settled_after ⟨st, c⟩ hst)
      ((Turn.config_after ⟨st, c⟩ hst).trans hconfig)
    cases hopening : Turn.opening? ⟨st, c⟩ with
    | none =>
      rw [scenes_of_none hopening] at hsc
      exact hrest sc hsc
    | some o =>
      rw [scenes_of_opening hopening] at hsc
      rcases List.mem_cons.mp hsc with rfl | hsc
      · exact h ⟨st, c⟩ o.1 o.2 cs hst hconfig hopening
      · exact hrest sc hsc

end Stage

/-! ### Calls outside a scene -/

namespace Turn

theorem kept_of_idle {t : Turn} (hidle : t.before.isRunning = false) (h : t.opening? = none) :
    t.Kept := by
  have hsession := Stage.session_of_idle hidle
  cases t.course (Stage.settled_of_idle hsession) with
  | kept hk => exact hk
  | closed s hc =>
    have hs := hc.running
    rw [hsession] at hs
    simp at hs
  | moved m l hm =>
    obtain ⟨id, actor, g, hopening, -⟩ := hm.opened hsession
    rw [h] at hopening
    simp at hopening

/-- The graph and the actor of the session that a call is about: the one that runs, or the one that
the call starts. -/
def subject? (t : Turn) : Option (GraphId × Option Actor) :=
  match t.before.session with
  | some s => some (s.graph, s.actor)
  | none => t.opening?

theorem subject?_of_some {t : Turn} {s : Session} (h : t.before.session = some s) :
    t.subject? = some (s.graph, s.actor) := by
  rw [subject?, h]

theorem subject?_of_opening {t : Turn} {o : GraphId × Option Actor} (h : t.opening? = some o) :
    t.subject? = some o := by
  rw [subject?, Stage.session_of_idle (idle_of_opening h)]
  exact h

theorem Moved.subject {t : Turn} {m l : Move} (h : t.Moved m l) (hst : t.before.Settled) :
    t.subject? = some (m.session.graph, m.session.actor) := by
  cases hsession : t.before.session with
  | none =>
    obtain ⟨id, actor, g, hopening, hgraph, rfl⟩ := h.opened hsession
    rw [subject?_of_opening hopening, ← Blackboard.id_of_graph? hgraph]
    rfl
  | some s =>
    obtain ⟨g, n, line, hpaused⟩ := hst s hsession
    obtain ⟨port, -, -, rfl⟩ := h.answered hsession hpaused
    rw [subject?_of_some hsession]

/-- The graph that the session of a call is on, as it is registered. -/
def graph? (t : Turn) : Option Graph := t.subject?.bind fun o => t.before.blackboard.graph? o.1

theorem Moved.live_of_mem {t : Turn} {m l : Move} (h : t.Moved m l) (hst : t.before.Settled) {x : Move}
    (hx : x ∈ t.moves) : ∃ g live, t.graph? = some g ∧ x.stage.Live x.session live ∧
      live.outline = g.outline := by
  have hboard : m.stage.blackboard = t.before.blackboard := by
    cases hsession : t.before.session with
    | none =>
      obtain ⟨id, actor, g, -, -, rfl⟩ := h.opened hsession
      rfl
    | some s =>
      obtain ⟨g, n, line, hpaused⟩ := hst s hsession
      obtain ⟨port, -, -, rfl⟩ := h.answered hsession hpaused
      rfl
  obtain ⟨g, hlive⟩ := h.sound.live
  obtain ⟨live, hlive'⟩ := (h.sound_of_mem hx).live
  have hakin := h.akin_of_mem hx
  obtain ⟨g', hg', houtline⟩ := Blackboard.graph?_of_outline hakin.outline hlive.1
  rw [← hakin.graph] at hg'
  obtain rfl : live = g' := Option.some.inj (hlive'.1.symm.trans hg')
  refine ⟨g, live, ?_, hlive', houtline⟩
  rw [graph?, h.subject hst, Option.bind_some, ← hboard]
  exact hlive.1

theorem subject?_after {t : Turn} (hst : t.before.Settled) {s : Session}
    (hsession : t.after.session = some s) : t.subject? = some (s.graph, s.actor) := by
  cases t.course hst with
  | kept h =>
    cases hbefore : t.before.session with
    | none =>
      rw [h.still.idle hbefore] at hsession
      simp at hsession
    | some s' =>
      obtain ⟨s'', hsame⟩ := h.still.same s' hbefore
      obtain rfl : s'' = s := Option.some.inj (hsame.session.symm.trans hsession)
      rw [subject?_of_some hbefore, hsame.frame]
  | closed s' h =>
    rw [h.session] at hsession
    simp at hsession
  | moved m l h =>
    have hwaits := h.running_iff.mp (Stage.isRunning_of_some hsession)
    obtain ⟨g, hlive⟩ := h.sound_last.live
    obtain ⟨s', g', n, line, hs', -, -, -, -, hgraph, hactor⟩ := h.sound_last.land_paused hlive hwaits
    rw [← h.after, hsession] at hs'
    cases hs'
    rw [h.subject hst, hgraph, hactor, h.akin_last.graph, h.akin_last.actor]

theorem subject?_next {t u : Turn} (hst : t.before.Settled) (hrunning : t.after.isRunning = true)
    (hu : u.before = t.after) : u.subject? = t.subject? := by
  obtain ⟨s, hs⟩ := Stage.session_of_running hrunning
  rw [subject?_after hst hs]
  rw [← hu] at hs
  exact subject?_of_some hs

end Turn

namespace Stage

theorem notices_turns (cs : List Call) (st : Stage) : st.Settled →
    (st.turns cs).flatMap Turn.notices =
      (st.during cs).flatMap Turn.notices ++ (st.scenes cs).flatMap Scene.notices := by
  induction cs generalizing st with
  | nil => exact fun _ => rfl
  | cons c cs ih =>
    intro hst
    have hrest := ih _ (Turn.settled_after ⟨st, c⟩ hst)
    have hturns : st.turns (c :: cs) = ⟨st, c⟩ :: (Turn.after ⟨st, c⟩).turns cs := rfl
    rw [hturns, List.flatMap_cons, hrest]
    cases hopening : Turn.opening? ⟨st, c⟩ with
    | some o =>
      rw [during_of_idle (Turn.idle_of_opening hopening), scenes_of_opening hopening,
        List.flatMap_cons, Scene.notices, Scene.turns, List.flatMap_cons, List.append_assoc]
      rfl
    | none =>
      rw [scenes_of_none hopening]
      cases hrunning : st.isRunning with
      | true => rw [during_cons hrunning, List.flatMap_cons, List.append_assoc]
      | false =>
        have hkept : Turn.Kept ⟨st, c⟩ := Turn.kept_of_idle hrunning hopening
        have hafter : (Turn.after ⟨st, c⟩).isRunning = false := hkept.still.isRunning.trans hrunning
        rw [during_of_idle hrunning, during_of_idle hafter,
          Turn.notices_of_append hkept.notices_after]
        rfl

/-- **All that the host is told is told in scenes.** -/
theorem notices_scenes (config : Config) (cs : List Call) : ((new config).run cs).2.notices =
    ((new config).scenes cs).flatMap Scene.notices := by
  rw [notices_run cs _ (settled_of_idle rfl), notices_turns cs _ (settled_of_idle rfl),
    during_of_idle rfl]
  rfl

theorem scenes_openings (cs : List Call) (st : Stage) :
    (st.scenes cs).map (fun sc => (sc.graph, sc.actor)) = (st.turns cs).filterMap Turn.opening? := by
  induction cs generalizing st with
  | nil => rfl
  | cons c cs ih =>
    have hturns : st.turns (c :: cs) = ⟨st, c⟩ :: (Turn.after ⟨st, c⟩).turns cs := rfl
    rw [hturns, List.filterMap_cons]
    cases hopening : Turn.opening? ⟨st, c⟩ with
    | some o => rw [scenes_of_opening hopening, List.map_cons, ih]
    | none => rw [scenes_of_none hopening, ih]

/-! ### The last scene -/

theorem leave_cases (cs : List Call) (st : Stage) : (st.leave cs).isRunning = false ∨
    (st.leave cs = (st.run cs).2 ∧ st.scenes cs = []) := by
  induction cs generalizing st with
  | nil => exact Or.inr ⟨rfl, rfl⟩
  | cons c cs ih =>
    cases hrunning : st.isRunning with
    | false =>
      rw [leave_of_idle hrunning]
      exact Or.inl hrunning
    | true =>
      obtain ⟨s, hs⟩ := session_of_running hrunning
      have hnone : Turn.opening? ⟨st, c⟩ = none := Turn.opening?_of_running hs
      rw [leave_cons hrunning, scenes_of_none hnone]
      exact ih _

theorem after_last (id : GraphId) (actor : Option Actor) (t : Turn) (cs : List Call) :
    (Scene.last ⟨id, actor, t, t.after.during cs⟩).after = t.after.leave cs := by
  rw [Scene.last, leave, List.getLastD_eq_getLast?]
  cases (t.after.during cs).getLast? <;> rfl

theorem scenes_split (cs : List Call) (st : Stage) : st.Settled → ∃ finished current,
    st.scenes cs = finished ++ Option.toList current ∧
      (∀ sc ∈ finished, sc.last.after.isRunning = false) ∧
      (∀ sc ∈ current, sc.last.after = (st.run cs).2 ∧ (st.run cs).2.isRunning = true) ∧
      ((st.run cs).2.isRunning = true → current = none → (st.leave cs).isRunning = true) := by
  induction cs generalizing st with
  | nil =>
    intro _
    exact ⟨[], none, rfl, by simp, by simp, fun h _ => h⟩
  | cons c cs ih =>
    intro hst
    obtain ⟨finished, current, hscenes, hfinished, hcurrent, hnone⟩ :=
      ih _ (Turn.settled_after ⟨st, c⟩ hst)
    cases hopening : Turn.opening? ⟨st, c⟩ with
    | none =>
      refine ⟨finished, current, (scenes_of_none hopening cs).trans hscenes, hfinished, hcurrent,
        fun hrun hc => ?_⟩
      have hleave := hnone hrun hc
      cases hrunning : st.isRunning with
      | true =>
        rw [leave_cons hrunning]
        exact hleave
      | false =>
        have hkept : Turn.Kept ⟨st, c⟩ := Turn.kept_of_idle hrunning hopening
        have hafter : (Turn.after ⟨st, c⟩).isRunning = false := hkept.still.isRunning.trans hrunning
        rw [leave_of_idle hafter, hafter] at hleave
        simp at hleave
    | some o =>
      obtain ⟨new, hnew, hlast⟩ : ∃ new : Scene,
          st.scenes (c :: cs) = new :: (Turn.after ⟨st, c⟩).scenes cs ∧
            new.last.after = (Turn.after ⟨st, c⟩).leave cs :=
        ⟨_, scenes_of_opening hopening cs, after_last _ _ _ cs⟩
      -- the new scene is over before the run is, or the run ends with it
      cases hover : new.last.after.isRunning with
      | false =>
        refine ⟨new :: finished, current, ?_, ?_, hcurrent, fun hrun hc => ?_⟩
        · rw [hnew, hscenes]
          rfl
        · intro sc hsc
          rcases List.mem_cons.mp hsc with rfl | hsc
          · exact hover
          · exact hfinished sc hsc
        · rw [hlast, hnone hrun hc] at hover
          simp at hover
      | true =>
        have hlives : ¬ ((Turn.after ⟨st, c⟩).leave cs).isRunning = false := by
          simp [← hlast, hover]
        obtain ⟨hend, hempty⟩ := (leave_cases cs (Turn.after ⟨st, c⟩)).resolve_left hlives
        refine ⟨[], some new, ?_, by simp, ?_, fun _ hc => by simp at hc⟩
        · rw [hnew, hempty]
          rfl
        · intro sc hsc
          obtain rfl := Option.some.inj hsc
          rw [hlast, hend] at hover
          exact ⟨hlast.trans hend, hover⟩

end Stage

end Dialogue

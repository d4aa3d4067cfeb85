import Dialogue.Proofs.Player.Exchange
import Dialogue.Proofs.Session.Guard
import Dialogue.Proofs.Session.Protocol

/-!
# From the start to the end

What is played is one session, and each exchange is a call on it. The host is told of it in one block
(`Player.Reported`), which an exchange goes on with and the end completes (`reported_feedAll`); how
many nodes are entered is bounded by the number of lines and the limit of an advance
(`length_visits_feedAll`). So however a dialogue ends, by a terminal node, by the end of the input or by
a failure, no session is left, and lines that answer nothing change neither what is shown of the
dialogue nor what is left of it (`only_answers_heeded`).
-/

namespace Dialogue

/-! ### What the host is told -/

/-- The host was told of the start of a session, of lines and changes of viewpoint, and of an ending. -/
def Stage.Told (st : Stage) (config : Config) (graph : GraphId) (actor : Option Actor)
    (ending : List Notice) : Prop :=
  ∃ body, st.notices = [.snapshot, .started graph] ++ body ++ ending ∧
    ∀ x ∈ body, x.Inner config actor

namespace Turn

variable {t : Turn} {config : Config} {graph : GraphId} {actor : Option Actor}

theorem told_after (hst : t.before.Settled) (hconfig : t.before.config = config)
    (hsubject : t.subject? = some (graph, actor))
    (htold : ∃ body, t.before.notices ++ t.heralds = [.snapshot, .started graph] ++ body ∧
      ∀ x ∈ body, x.Inner config actor) :
    t.after.Told config graph actor (t.curtain config graph) := by
  subst hconfig
  obtain ⟨body, hbody, hinner⟩ := htold
  obtain ⟨more, hmore, hinners, -⟩ := t.block hst hsubject
  refine ⟨body ++ more, ?_, fun x hx => (List.mem_append.mp hx).elim (hinner x) (hinners x)⟩
  calc t.after.notices = t.before.notices ++ t.heralds ++
        (more ++ t.curtain t.before.config graph) := by
        rw [(t.told hst).1, hmore, List.append_assoc]
    _ = [.snapshot, .started graph] ++ (body ++ more) ++ t.curtain t.before.config graph := by
        rw [hbody]
        simp only [List.append_assoc]

theorem opening?_of_taken {r : Except SessionError SessionState} {o : GraphId × Option Actor}
    (hask : t.call.asks? = some o) (hreply : t.reply = .session r) (htaken : t.Taken r) :
    t.opening? = some o := by
  have hgranted : (Reply.session r).refuses = false := by
    cases htaken with
    | waits => rfl
    | ends => rfl
    | fails e hfatal =>
      cases e with
      | rejected => exact hfatal.elim
      | graphNotRegistered id => exact hfatal.elim
      | _ => rfl
  rw [opening?, hreply, hgranted, hask]
  rfl

theorem heralded_of_running (hrunning : t.before.isRunning = true)
    (h : t.before.Told config graph actor []) :
    ∃ body, t.before.notices ++ t.heralds = [.snapshot, .started graph] ++ body ∧
      ∀ x ∈ body, x.Inner config actor := by
  obtain ⟨body, hbody, hinner⟩ := h
  refine ⟨body, ?_, hinner⟩
  rw [heralds_of_running hrunning, List.append_nil, hbody, List.append_nil]

theorem visits_after_of_none (hst : t.before.Settled) (h : t.departure? = none) :
    t.after.visits = t.before.visits := by
  rw [(t.told hst).2, visits_eq hst, moves_of_none h]
  exact List.append_nil _

theorem length_visits_after (hst : t.before.Settled) : t.after.visits.length ≤
    t.before.visits.length + (t.before.config.maxAutoAdvance + 1) := by
  cases hdeparture : t.departure? with
  | none =>
    rw [visits_after_of_none hst hdeparture]
    exact Nat.le_add_right _ _
  | some m =>
    rw [(t.told hst).2, List.length_append]
    exact Nat.add_le_add_left (length_visits_le hdeparture) _

end Turn

namespace Player

variable {config : Config} {graph : GraphId} {actor : Option Actor}

/-- The host was told of the session of a player: while it waits, all but the ending; in the end, also
of the failure, if there was one, and that the session is over. -/
def Reported (config : Config) (graph : GraphId) (actor : Option Actor) : Player → Prop
  | waiting st => st.config = config ∧
      (st.session.map fun s => (s.graph, s.actor)) = some (graph, actor) ∧
      st.Told config graph actor []
  | finished st success => ∃ failure : Option SessionError, success = failure.isNone ∧
      st.Told config graph actor (failure.toList.map .failed ++ config.closing graph)

theorem reported_standing {t : Turn} {r : Except SessionError SessionState}
    (hst : t.before.Settled) (hconfig : t.before.config = config)
    (hsubject : t.subject? = some (graph, actor))
    (htold : ∃ body, t.before.notices ++ t.heralds = [.snapshot, .started graph] ++ body ∧
      ∀ x ∈ body, x.Inner config actor)
    (hreply : t.reply = .session r) (htaken : t.Taken r) :
    (standing (r, t.after)).Reported config graph actor := by
  have hafter := Turn.told_after hst hconfig hsubject htold
  rw [Turn.curtain, hreply] at hafter
  cases htaken with
  | waits line _ hline _ =>
    obtain ⟨s, hs, -⟩ := Option.bind_eq_some_iff.mp hline
    rw [if_pos (Stage.isRunning_of_some hs)] at hafter
    refine ⟨(t.config_after hst).trans hconfig, ?_, hafter⟩
    rw [hs, ← hsubject, Turn.subject?_after hst hs]
    rfl
  | ends hclosed =>
    rw [if_neg (by simp [Stage.isRunning_of_none hclosed])] at hafter
    exact ⟨none, rfl, hafter⟩
  | fails e _ _ hclosed =>
    rw [if_neg (by simp [Stage.isRunning_of_none hclosed])] at hafter
    exact ⟨some e, rfl, hafter⟩

theorem reported_stop {st : Stage} (hst : (waiting st).Tidy)
    (h : (waiting st).Reported config graph actor) :
    (finished st.stop true).Reported config graph actor := by
  obtain ⟨hconfig, hsession, htold⟩ := h
  obtain ⟨s, hs, ho⟩ := Option.map_eq_some_iff.mp hsession
  have hsubject : Turn.subject? ⟨st, .stop⟩ = some (graph, actor) := by
    rw [Turn.subject?_of_some hs, ho]
  have hclosed : st.stop.session = none := Exchange.tidy_after (x := ⟨st, none⟩) hst
  have hidle : (Turn.after ⟨st, .stop⟩).isRunning = false := Stage.isRunning_of_none hclosed
  have hafter := Turn.told_after (t := ⟨st, .stop⟩) hst.1 hconfig hsubject
    (Turn.heralded_of_running hst.2 htold)
  rw [Turn.curtain, if_neg (by simp [hidle])] at hafter
  exact ⟨none, rfl, hafter⟩

theorem reported_after {x : Exchange} (hx : (waiting x.stage).Tidy)
    (h : (waiting x.stage).Reported config graph actor) :
    x.after.Reported config graph actor := by
  cases Exchange.course hx with
  | rebuffed _ _ hafter => rwa [hafter]
  | stopped _ hafter =>
    rw [hafter]
    exact reported_stop hx h
  | answered _ port _ _ _ _ hreply htaken hafter =>
    obtain ⟨hconfig, hsession, htold⟩ := h
    obtain ⟨s, hs, ho⟩ := Option.map_eq_some_iff.mp hsession
    have hsubject : Turn.subject? ⟨x.stage, .select port⟩ = some (graph, actor) := by
      rw [Turn.subject?_of_some hs, ho]
    rw [hafter]
    exact reported_standing hx.1 hconfig hsubject (Turn.heralded_of_running hx.2 htold) hreply htaken

/-- **In the end no session is left, and the host has been told of one, from its start to its end.** -/
theorem reported_feedAll {p : Player} (hp : p.Tidy) (h : p.Reported config graph actor)
    (lines : List String) :
    (p.feedAll lines).2.Tidy ∧ (p.feedAll lines).2.Reported config graph actor :=
  (forall_exchanges (P := fun p => p.Tidy ∧ p.Reported config graph actor)
    (fun _ hx => ⟨Exchange.tidy_after hx.1, reported_after hx.1 hx.2⟩) p lines ⟨hp, h⟩).2

/-! ### How many nodes are entered -/

theorem stage_standing (answer : Except SessionError SessionState × Stage) :
    (standing answer).stage = answer.2 := by
  obtain ⟨r, st⟩ := answer
  cases r with
  | error e => rfl
  | ok state => cases state <;> rfl

theorem length_visits_after {x : Exchange} (hx : (waiting x.stage).Tidy) :
    x.after.stage.visits.length ≤ x.stage.visits.length + (x.stage.config.maxAutoAdvance + 1) ∧
      x.after.stage.config = x.stage.config := by
  cases Exchange.course hx with
  | rebuffed _ _ hafter =>
    rw [hafter]
    exact ⟨Nat.le_add_right _ _, rfl⟩
  | stopped _ hafter =>
    rw [hafter]
    exact ⟨Turn.length_visits_after (t := ⟨x.stage, .stop⟩) hx.1, x.stage.stop_frame.1⟩
  | answered _ port _ _ _ _ _ _ hafter =>
    rw [hafter, stage_standing]
    exact ⟨Turn.length_visits_after (t := ⟨x.stage, .select port⟩) hx.1,
      Turn.config_after ⟨x.stage, .select port⟩ hx.1⟩

theorem length_visits_feedAll {p : Player} (hp : p.Tidy) (lines : List String) :
    (p.feedAll lines).2.stage.visits.length ≤
      p.stage.visits.length + lines.length * (p.stage.config.maxAutoAdvance + 1) := by
  induction p, lines using prompt_induction with
  | ended st success lines =>
    rw [feedAll_finished]
    exact Nat.le_add_right _ _
  | stop st =>
    have hstop : st.stop.visits = st.visits :=
      Turn.visits_after_of_none (t := ⟨st, .stop⟩) hp.1 rfl
    exact Nat.le_of_eq (congrArg List.length hstop) |>.trans (Nat.le_add_right _ _)
  | read st typed lines ih =>
    have hrest := ih (Exchange.tidy_after (x := ⟨st, some typed⟩) hp)
    obtain ⟨hvisits, hconfig⟩ := length_visits_after (x := ⟨st, some typed⟩) hp
    rw [hconfig] at hrest
    rw [feedAll_waiting, List.length_cons, Nat.succ_mul]
    calc ((Exchange.after ⟨st, some typed⟩).feedAll lines).2.stage.visits.length
      _ ≤ (Exchange.after ⟨st, some typed⟩).stage.visits.length +
          lines.length * (st.config.maxAutoAdvance + 1) := hrest
      _ ≤ st.visits.length + (st.config.maxAutoAdvance + 1) +
          lines.length * (st.config.maxAutoAdvance + 1) := Nat.add_le_add_right hvisits _
      _ = st.visits.length + (lines.length * (st.config.maxAutoAdvance + 1) +
          (st.config.maxAutoAdvance + 1)) := by omega

/-! ### The start -/

theorem register_ok {st : Stage} {g : Graph} {id : GraphId} (h : (st.register g).1 = .ok id) :
    (st.register g).2 = { st with blackboard := st.blackboard.register g } := by
  unfold Stage.register at h ⊢
  cases hstrict : st.config.strictLinks with
  | false => rfl
  | true =>
    simp only [hstrict, if_true] at h ⊢
    cases hcheck : g.validate with
    | ok _ => rfl
    | error e => simp [hcheck] at h

theorem registerAll_ok {st st' : Stage} {gs : List Graph} (h : registerAll st gs = .ok st') :
    st' = { st with blackboard := gs.foldl Blackboard.register st.blackboard } := by
  induction gs generalizing st with
  | nil =>
    cases h
    rfl
  | cons g gs ih =>
    unfold registerAll at h
    split at h
    · rename_i id st₁ hregister
      have hafter := register_ok (congrArg Prod.fst hregister)
      rw [hregister] at hafter
      obtain rfl : st₁ = { st with blackboard := st.blackboard.register g } := hafter
      exact ih h
    · cases h

theorem graph?_foldl_register {b : Blackboard} {id : GraphId} {g : Graph} (h : b.graph? id = some g)
    (gs : List Graph) : (gs.foldl Blackboard.register b).graph? id = some g := by
  induction gs generalizing b with
  | nil => exact h
  | cons new gs ih => exact ih (Blackboard.graph?_register h new)

theorem exists_opening {g : Graph} {extras : List Graph} {name : String} {opening : List Output}
    {first : Player} (h : start config g extras name = .ok (opening, first)) :
    ∃ st : Stage, st.config = config ∧ st.session = none ∧ st.journal = [] ∧
      st.blackboard.graph? g.id = some g ∧ first = standing (st.start g.id (some (actorNamed name))) := by
  unfold start at h
  cases hregister : registerAll (.new config) (g :: extras) with
  | error e => simp [hregister] at h
  | ok st =>
    rw [hregister] at h
    have hst := registerAll_ok hregister
    have hfirst := congrArg Prod.snd (Except.ok.inj h)
    rw [after_snd] at hfirst
    refine ⟨(st.listen spawner).2, ?_, ?_, ?_, ?_, hfirst.symm⟩
    · rw [hst]; rfl
    · rw [hst]; rfl
    · rw [hst]; rfl
    · rw [hst]
      refine graph?_foldl_register ?_ extras
      simp [Blackboard.graph?, Blackboard.register, Blackboard.contains, Stage.new, Blackboard.empty]

theorem of_start {g : Graph} {extras : List Graph} {name : String} {opening : List Output}
    {first : Player} (h : start config g extras name = .ok (opening, first)) :
    first.Tidy ∧ first.Reported config g.id (some (actorNamed name)) ∧
      first.stage.visits.length ≤ config.maxAutoAdvance + 1 ∧
      first.stage.config = config := by
  obtain ⟨st, hconfig, hsession, hjournal, hgraph, rfl⟩ := exists_opening h
  let t : Turn := ⟨st, .start g.id (some (actorNamed name))⟩
  have hst : t.before.Settled := Stage.settled_of_idle hsession
  have hidle : st.isRunning = false := Stage.isRunning_of_none hsession
  have hknown : st.blackboard.contains g.id = true := by
    rw [Blackboard.contains_eq, hgraph]
    rfl
  obtain ⟨r, hreply, htaken⟩ : ∃ r, t.reply = .session r ∧ t.Taken r := by
    rcases Turn.ask_cases (t := t) hst rfl with ⟨hrunning, -⟩ | ⟨-, hmissing, -⟩ | ⟨-, -, htaken⟩
    · rw [show t.before.isRunning = false from hidle] at hrunning
      cases hrunning
    · rw [show t.before.blackboard.contains g.id = true from hknown] at hmissing
      cases hmissing
    · exact htaken
  have hopening := Turn.opening?_of_taken (t := t) rfl hreply htaken
  have hanswer : st.start g.id (some (actorNamed name)) = (r, t.after) :=
    Prod.ext (Reply.session.inj hreply) rfl
  have hnotices : t.before.notices = [] := congrArg Journal.notices hjournal
  have hvisits : t.before.visits = [] := congrArg Journal.visits hjournal
  rw [hanswer]
  refine ⟨Exchange.tidy_standing hst htaken, reported_standing hst hconfig
    (Turn.subject?_of_opening hopening) ⟨[], ?_, by simp⟩ hreply htaken, ?_, ?_⟩
  · rw [hnotices, Turn.heralds, hopening]
    rfl
  · have hbound := t.length_visits_after hst
    rw [hvisits, List.length_nil, Nat.zero_add, show t.before.config = config from hconfig] at hbound
    rw [stage_standing]
    exact hbound
  · rw [stage_standing]
    exact (t.config_after hst).trans hconfig

/-! ### Playing -/

theorem play_of_start {g : Graph} {extras : List Graph} {name : String} {opening : List Output}
    {first : Player} (h : start config g extras name = .ok (opening, first)) (lines : List String) :
    play config g extras name lines =
      .ok (opening ++ (first.exchanges lines).flatMap Exchange.printed, (first.feedAll lines).2) := by
  rw [← printed_feedAll]
  simp only [play, h]

/-- **A player heeds answers only, and leaves no session behind.** When the graphs are accepted, playing
comes to an end, after at most one prompt more than there are lines and a bounded number of nodes. No
session is left, the host has been told of the one session from its start to its end, and playing fails
just if the session failed. Without the lines that are read in vain all other exchanges are the same,
and so is the stage in the end: with all that the host was told, and with the values of properties. At
each prompt a line in vain is rebuffed, an answer is taken, or the session is stopped. -/
theorem only_answers_heeded {g : Graph} {extras : List Graph} {name : String}
    {opening : List Output} {first : Player}
    (hstart : start config g extras name = .ok (opening, first)) (lines : List String) :
    ∃ st success,
      play config g extras name lines = .ok
        (opening ++ (first.exchanges lines).flatMap Exchange.printed, finished st success) ∧
      (first.exchanges lines).length ≤ lines.length + 1 ∧
      st.visits.length ≤ (lines.length + 1) * (config.maxAutoAdvance + 1) ∧
      st.session = none ∧
      (finished st success).Reported config g.id (some (actorNamed name)) ∧
      play config g extras name (first.answers lines) = .ok
        (opening ++ ((first.exchanges lines).filter fun x => ¬ x.InVain).flatMap Exchange.printed,
          finished st success) ∧
      ∀ x ∈ first.exchanges lines, x.Course := by
  obtain ⟨htidy, hreported, hvisits, hconfig⟩ := of_start hstart
  obtain ⟨st, success, hend⟩ := feedAll_over first lines
  have hbound := length_visits_feedAll htidy lines
  have hprompts := (forall_exchanges (fun _ hx => Exchange.tidy_after hx) first lines htidy).1
  obtain ⟨hclosed, htold⟩ := reported_feedAll htidy hreported lines
  rw [hend] at hclosed htold
  rw [hend, hconfig] at hbound
  refine ⟨st, success, ?_, length_exchanges_le first lines, ?_, hclosed, htold, ?_,
    fun x hx => Exchange.course (hprompts x hx)⟩
  · rw [play_of_start hstart, hend]
  · rw [Nat.succ_mul]
    exact Nat.le_trans hbound (by omega)
  · rw [play_of_start hstart, exchanges_answers htidy, feedAll_answers htidy, hend]

end Player

/-- An anvil where a cube is struck at every blow, until the smith leaves. -/
def Graph.forge : Graph :=
  ⟨⟨41⟩, ⟨"start"⟩, .origin,
    [.ofKind ⟨"anvil"⟩ "{CUBE_COUNT} so far." (.choice (.ofList [(0, "Strike"), (2, "Leave")])),
      .ofKind ⟨"blow"⟩ "" (.event "spawn"), .ofKind ⟨"door"⟩ "" .exit],
    [⟨⟨"start"⟩, ⟨"anvil"⟩, 0⟩, ⟨⟨"anvil"⟩, ⟨"blow"⟩, 0⟩, ⟨⟨"blow"⟩, ⟨"anvil"⟩, 0⟩,
      ⟨⟨"anvil"⟩, ⟨"door"⟩, 2⟩],
    [⟨⟨"c"⟩, "CUBE_COUNT", .int 0⟩]⟩

namespace Player

/-- Of six lines one is no number, two are numbers of no option, and the last is not read any more. The
others make one cube and leave. -/
theorem only_answers_heeded_forge : ∃ opening first st,
    start {} .forge [] "Smith" = .ok (opening, first) ∧
    first.answers ["three", " 1 ", "+0\t", "07", "2", "0"] = ["+0\t", "2", "0"] ∧
    (∃ out, play {} .forge [] "Smith" ["three", " 1 ", "+0\t", "07", "2", "0"] =
      .ok (out, finished st true)) ∧
    (∃ out, play {} .forge [] "Smith" ["+0\t", "2", "0"] = .ok (out, finished st true)) ∧
    st.session = none ∧ st.blackboard.get "CUBE_COUNT" = .ok (.int 1) := by
  let told := ["three", " 1 ", "+0\t", "07", "2", "0"]
  obtain ⟨opening, first, hstart, hanswers⟩ : ∃ opening first,
      start {} .forge [] "Smith" = .ok (opening, first) ∧ first.answers told = ["+0\t", "2", "0"] :=
    ⟨_, _, rfl, by decide +kernel⟩
  obtain ⟨st, success, hplay, -, -, hclosed, -, hquiet, -⟩ := only_answers_heeded hstart told
  have hend : ((play {} .forge [] "Smith" told).toOption.map fun r =>
      (r.2.succeeded, r.2.stage.blackboard.get "CUBE_COUNT")) = some (true, .ok (.int 1)) := by
    decide +kernel
  rw [hplay] at hend
  obtain ⟨hsuccess, hcount⟩ := Prod.mk.inj (Option.some.inj hend)
  obtain rfl : success = true := hsuccess
  rw [hanswers] at hquiet
  exact ⟨opening, first, st, hstart, hanswers, ⟨_, hplay⟩, ⟨_, hquiet⟩, hclosed, hcount⟩

end Player

end Dialogue

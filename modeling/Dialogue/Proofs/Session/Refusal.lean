import Dialogue.Proofs.Session.Protocol
import Dialogue.Proofs.Session.Record

/-!
# Calls that are refused

A call for a session is refused while another one runs or if the graph is not registered, and a choice
is ignored if no session runs or the line that waits does not offer the port. These are exactly the
calls on a session that make no move (`departure?_eq_none_iff`), so a refused call leaves the stage as it
was, and whatever is called later goes as if it had not been made. A call that is not refused makes a
move, and so it comes to a new line that the host is shown, or to the end of the session
(`Turn.Taken`).
-/

namespace Dialogue

theorem Blackboard.contains_eq (b : Blackboard) (id : GraphId) :
    b.contains id = (b.graph? id).isSome := by
  rw [contains, graph?, List.isSome_find?]

/-! ### Which calls are refused -/

namespace Stage

/-- No session can be started on a graph. -/
def Denies (st : Stage) (id : GraphId) : Prop :=
  st.isRunning = true ∨ st.blackboard.contains id = false

/-- There is no line that offers a port. -/
def Ignores (st : Stage) (port : PortIndex) : Prop :=
  st.isRunning = false ∨
    ∃ line, st.presentation? = some line ∧ port ∉ line.options.map PresentedOption.port

theorem opening?_eq_none_iff {st : Stage} {id : GraphId} {actor : Option Actor} :
    st.opening? id actor = none ↔ st.Denies id := by
  rw [Denies, Blackboard.contains_eq]
  cases hsession : st.session with
  | some s => simp [(start_of_session hsession id actor).1, isRunning_of_some hsession]
  | none =>
    cases hgraph : st.blackboard.graph? id with
    | none => simp [(start_of_missing hsession hgraph actor).1]
    | some g => simp [(start_of_graph hsession hgraph actor).1, isRunning_of_none hsession]

theorem answer?_eq_none_iff {st : Stage} (hst : st.Settled) {port : PortIndex} :
    st.answer? port = none ↔ st.Ignores port := by
  cases hsession : st.session with
  | none => simp [Ignores, (select_of_idle hsession port).1, isRunning_of_none hsession]
  | some s =>
    obtain ⟨g, n, line, hpaused⟩ := hst s hsession
    have hline : st.presentation? = some line := by
      rw [presentation?, hsession]
      exact hpaused.shown
    have hoffered : line.offers port = false ↔ port ∉ line.options.map PresentedOption.port := by
      simp [Presentation.offers]
    cases hoffers : line.offers port with
    | false =>
      exact iff_of_true (select_of_refused hsession hpaused hoffers).1
        (Or.inr ⟨line, hline, hoffered.mp hoffers⟩)
    | true =>
      refine iff_of_false ?_ ?_
      · simp [(select_of_offered hsession hpaused hoffers).1]
      · rintro (hidle | ⟨other, hother, habsent⟩)
        · simp [isRunning_of_some hsession] at hidle
        · obtain rfl : line = other := Option.some.inj (hline.symm.trans hother)
          simp [hoffered.mpr habsent] at hoffers

end Stage

namespace Turn

/-- A call for a session, or a choice, that the stage turns away. -/
def Refused (t : Turn) : Prop :=
  match t.call with
  | .start id _ => t.before.Denies id
  | .serve server => t.before.Denies server.graph
  | .select port => t.before.Ignores port
  | _ => False

theorem departure?_eq_none_iff {t : Turn} (hst : t.before.Settled)
    {r : Except SessionError SessionState} (hr : t.reply = .session r) :
    t.departure? = none ↔ t.Refused := by
  obtain ⟨st, c⟩ := t
  cases c with
  | start id actor => exact Stage.opening?_eq_none_iff
  | serve server => exact Stage.opening?_eq_none_iff
  | select port => exact Stage.answer?_eq_none_iff hst
  | _ => cases hr

theorem Refused.session {t : Turn} (h : t.Refused) : ∃ r, t.reply = .session r := by
  obtain ⟨st, c⟩ := t
  cases c with
  | start id actor => exact ⟨_, rfl⟩
  | serve server => exact ⟨_, rfl⟩
  | select port => exact ⟨_, rfl⟩
  | _ => exact h.elim

theorem Refused.departure {t : Turn} (h : t.Refused) (hst : t.before.Settled) :
    t.departure? = none := by
  obtain ⟨r, hr⟩ := h.session
  exact (departure?_eq_none_iff hst hr).mpr h

theorem Refused.after {t : Turn} (h : t.Refused) (hst : t.before.Settled) : t.after = t.before := by
  obtain ⟨r, hr⟩ := h.session
  obtain ⟨-, hafter⟩ | ⟨m, hsome, -⟩ := advances_of_session hr
  · exact hafter
  · rw [h.departure hst] at hsome
    cases hsome

/-! ### What comes of the others -/

/-- What comes of a call that makes a move: a new line is shown and waits, or the session is over. -/
inductive Taken (t : Turn) : Except SessionError SessionState → Prop
  | waits (line : Presentation) : t.visits ≠ [] → t.after.presentation? = some line →
      .presented line ∈ t.notices → Taken t (.ok .awaitingInput)
  | ends : t.after.session = none → Taken t (.ok .ended)
  | fails (e : SessionError) : e.Fatal → t.visits ≠ [] → t.after.session = none →
      Taken t (.error e)

namespace Moved

variable {t : Turn} {m l : Move}

theorem visits_ne_nil (h : t.Moved m l) (hst : t.before.Settled) {n : Node}
    (harr : l.arrival? = some n) : t.visits ≠ [] := by
  have hmem : n.guid ∈ (t.moves.filterMap Move.arrival?).map Node.guid :=
    List.mem_map.mpr ⟨n, List.mem_filterMap.mpr ⟨l, List.mem_of_getLast? h.last, harr⟩, rfl⟩
  rw [← visits_eq hst] at hmem
  exact List.ne_nil_of_mem hmem

theorem closed_of_outcome (h : t.Moved m l)
    (hover : l.outcome t.before.config.maxAutoAdvance ≠ .ok .awaitingInput) :
    t.after.session = none := by
  rw [h.after]
  exact h.sound_last.land_closed hover

/-- **A call that makes a move is not in vain.** -/
theorem taken (h : t.Moved m l) (hst : t.before.Settled) :
    t.Taken (l.outcome t.before.config.maxAutoAdvance) := by
  cases harr : l.arrival? with
  | none =>
    have houtcome := Move.outcome_of_lost harr t.before.config.maxAutoAdvance
    have hclosed := h.closed_of_outcome (by rw [houtcome]; simp)
    rw [houtcome]
    exact .ends hclosed
  | some n =>
    have hvisits := h.visits_ne_nil hst harr
    rcases l.outcome_cases t.before.config.maxAutoAdvance with ho | ho | ho | ⟨node, flag, ho⟩
    · obtain ⟨line, hline, hshown⟩ := h.presented hst ho
      rw [ho]
      exact .waits line hvisits hline hshown
    · have hclosed := h.closed_of_outcome (by rw [ho]; simp)
      rw [ho]
      exact .ends hclosed
    · have hclosed := h.closed_of_outcome (by rw [ho]; simp)
      rw [ho]
      exact .fails _ trivial hvisits hclosed
    · have hclosed := h.closed_of_outcome (by rw [ho]; simp)
      rw [ho]
      exact .fails _ trivial hvisits hclosed

end Moved

theorem taken_of_not_refused {t : Turn} (hst : t.before.Settled)
    {r : Except SessionError SessionState} (hr : t.reply = .session r) (h : ¬ t.Refused) :
    t.Taken r := by
  rcases moved_or_none hst with hnone | ⟨m, l, hmoved⟩
  · exact absurd ((departure?_eq_none_iff hst hr).mp hnone) h
  · have htaken := hmoved.taken hst
    rw [hmoved.reply_eq] at hr
    rwa [← Reply.session.inj hr]

theorem Taken.after_ne {t : Turn} {r : Except SessionError SessionState} (h : t.Taken r)
    (hrunning : t.before.isRunning = true) : t.after ≠ t.before := by
  intro hsame
  obtain ⟨s, hs⟩ := Stage.session_of_running hrunning
  have hover : t.after.session ≠ none := by
    rw [hsame, hs]
    simp
  cases h with
  | waits line _ _ hshown =>
    have hnone : t.notices = [] := notices_of_append (by rw [hsame, List.append_nil])
    rw [hnone] at hshown
    exact absurd hshown List.not_mem_nil
  | ends hclosed => exact hover hclosed
  | fails e _ _ hclosed => exact hover hclosed

theorem ask_cases {t : Turn} (hst : t.before.Settled) {id : GraphId} {actor : Option Actor}
    (hask : t.call.asks? = some (id, actor)) :
    (t.before.isRunning = true ∧ t.reply = .session (.error .rejected)) ∨
    (t.before.isRunning = false ∧ t.before.blackboard.contains id = false ∧
      t.reply = .session (.error (.graphNotRegistered id))) ∨
    (t.before.isRunning = false ∧ t.before.blackboard.contains id = true ∧
      ∃ r, t.reply = .session r ∧ t.Taken r) := by
  have hreply : t.reply = .session (t.before.start id actor).1 ∧
      (t.Refused ↔ t.before.Denies id) := by
    obtain ⟨st, c⟩ := t
    cases c with
    | start id' actor' =>
      obtain ⟨rfl, rfl⟩ := Prod.mk.inj (Option.some.inj hask)
      exact ⟨rfl, Iff.rfl⟩
    | serve server =>
      obtain ⟨rfl, rfl⟩ := Prod.mk.inj (Option.some.inj hask)
      exact ⟨rfl, Iff.rfl⟩
    | _ => cases hask
  obtain ⟨hreply, hrefused⟩ := hreply
  cases hsession : t.before.session with
  | some s =>
    rw [(Stage.start_of_session hsession id actor).2] at hreply
    exact Or.inl ⟨Stage.isRunning_of_some hsession, hreply⟩
  | none =>
    have hidle := Stage.isRunning_of_none hsession
    refine Or.inr ?_
    cases hgraph : t.before.blackboard.graph? id with
    | none =>
      rw [(Stage.start_of_missing hsession hgraph actor).2] at hreply
      exact Or.inl ⟨hidle, by rw [Blackboard.contains_eq, hgraph]; rfl, hreply⟩
    | some g =>
      have hknown : t.before.blackboard.contains id = true := by
        rw [Blackboard.contains_eq, hgraph]
        rfl
      have hgranted : ¬ t.Refused := by
        simp [hrefused, Stage.Denies, hidle, hknown]
      exact Or.inr ⟨hidle, hknown, _, hreply, taken_of_not_refused hst hreply hgranted⟩

theorem Taken.ne_refusal {t : Turn} {r : Except SessionError SessionState} (h : t.Taken r) :
    r ≠ .error .rejected ∧ ∀ id, r ≠ .error (.graphNotRegistered id) := by
  cases h with
  | waits => simp
  | ends => simp
  | fails e hfatal =>
    cases e with
    | rejected => exact hfatal.elim
    | graphNotRegistered id => exact hfatal.elim
    | unknownCondition node flag => simp
    | autoAdvanceLimit limit => simp

theorem rejected_iff {t : Turn} (hst : t.before.Settled) {id : GraphId} {actor : Option Actor}
    (hask : t.call.asks? = some (id, actor)) :
    t.reply = .session (.error .rejected) ↔ t.before.isRunning = true := by
  rcases ask_cases hst hask with ⟨hrunning, hr⟩ | ⟨hidle, -, hr⟩ | ⟨hidle, -, r, hr, htaken⟩
  · simp [hrunning, hr]
  · simp [hidle, hr]
  · simp [hidle, hr, htaken.ne_refusal.1]

theorem graphNotRegistered_iff {t : Turn} (hst : t.before.Settled) {id : GraphId}
    {actor : Option Actor} (hask : t.call.asks? = some (id, actor)) (other : GraphId) :
    t.reply = .session (.error (.graphNotRegistered other)) ↔
      other = id ∧ t.before.isRunning = false ∧ t.before.blackboard.contains id = false := by
  rcases ask_cases hst hask with
    ⟨hrunning, hr⟩ | ⟨hidle, hmissing, hr⟩ | ⟨hidle, hknown, r, hr, htaken⟩
  · simp [hrunning, hr]
  · simp [hidle, hmissing, hr, eq_comm]
  · simp [hknown, hr, htaken.ne_refusal.2 other]

theorem ignored_iff {t : Turn} (hst : t.before.Settled) {port : PortIndex}
    (hcall : t.call = .select port) : t.after = t.before ↔ t.before.Ignores port := by
  have hrefused : t.Refused ↔ t.before.Ignores port := by
    rw [Refused, hcall]
  have hsession : ∃ r, t.reply = .session r := by
    rw [reply, hcall]
    exact ⟨_, rfl⟩
  obtain ⟨r, hr⟩ := hsession
  refine ⟨fun hsame => ?_, fun h => (hrefused.mpr h).after hst⟩
  rcases moved_or_none hst with hnone | ⟨m, l, hmoved⟩
  · exact hrefused.mp ((departure?_eq_none_iff hst hr).mp hnone)
  · cases hrunning : t.before.isRunning with
    | false => exact Or.inl hrunning
    | true => exact absurd hsame ((hmoved.taken hst).after_ne hrunning)

theorem reply_of_ignored {t : Turn} (hst : t.before.Settled) {port : PortIndex}
    (hcall : t.call = .select port) (h : t.before.Ignores port) :
    t.reply = .session (.ok t.before.state) := by
  have hnone := (Stage.answer?_eq_none_iff hst).mpr h
  have hreply : t.reply = .session (t.before.select port).1 := by
    rw [reply, hcall]
    rfl
  rw [hreply, Stage.state]
  cases hsession : t.before.session with
  | none => rw [(Stage.select_of_idle hsession port).2]
  | some s =>
    obtain ⟨g, n, line, hpaused⟩ := hst s hsession
    cases hoffers : line.offers port with
    | false =>
      rw [(Stage.select_of_refused hsession hpaused hoffers).2]
      exact congrArg (fun state => Reply.session (.ok state)) hpaused.waiting.symm
    | true =>
      rw [(Stage.select_of_offered hsession hpaused hoffers).1] at hnone
      cases hnone

end Turn

namespace Stage

/-- **Calls that are refused change nothing, and only those are refused.** A call for a session is
rejected exactly while one runs, and fails for the graph exactly when none runs and the graph is not
registered; a choice is ignored exactly when no session runs or the line that waits does not offer the
port. The stage is then as it was, so all later calls go as if this one had not been made. Any other
call on a session enters a node or ends the session, and a line that waits after it was shown in it. -/
theorem refusal_exact {config : Config} {cs : List Call} {t : Turn}
    (ht : t.before = ((new config).run cs).2) :
    (∀ id actor, t.call.asks? = some (id, actor) →
      (t.reply = .session (.error .rejected) ↔ t.before.isRunning = true) ∧
      ∀ other, t.reply = .session (.error (.graphNotRegistered other)) ↔
        other = id ∧ t.before.isRunning = false ∧ t.before.blackboard.contains id = false) ∧
    (∀ port, t.call = .select port →
      (t.after = t.before ↔ t.before.Ignores port) ∧
      (t.before.Ignores port → t.reply = .session (.ok t.before.state))) ∧
    (t.Refused → t.after = t.before ∧ ∀ later, t.before.run (t.call :: later) =
      (t.reply :: (t.before.run later).1, (t.before.run later).2)) ∧
    ∀ r, t.reply = .session r → ¬ t.Refused → t.Taken r := by
  have hst : t.before.Settled := ht ▸ (settled_turns config cs).2.1
  refine ⟨fun id actor hask => ⟨Turn.rejected_iff hst hask, Turn.graphNotRegistered_iff hst hask⟩,
    fun port hcall => ⟨Turn.ignored_iff hst hcall, Turn.reply_of_ignored hst hcall⟩,
    fun hrefused => ?_, fun r hr => Turn.taken_of_not_refused hst hr⟩
  have hafter := hrefused.after hst
  refine ⟨hafter, fun later => ?_⟩
  rw [run_cons, show (t.before.call t.call).2 = t.before from hafter]
  rfl

end Stage

/-- A choice between a book and the way out, which leads nowhere. -/
def Graph.library : Graph :=
  ⟨⟨23⟩, ⟨"start"⟩, .origin,
    [.ofKind ⟨"desk"⟩ "A book?" (.choice (.ofList [(0, "Yes"), (2, "No")])),
      .ofKind ⟨"lent"⟩ "Bring it back." (.basic none)],
    [⟨⟨"start"⟩, ⟨"desk"⟩, 0⟩, ⟨⟨"desk"⟩, ⟨"lent"⟩, 0⟩], []⟩

namespace Stage

/-- Another start and a port without an option come to nothing, and the book is lent as if they had
not been tried. -/
theorem refusal_exact_library : ∃ st,
    ((new {}).run [.register .library, .start ⟨23⟩ none]).2 = st ∧
      Turn.reply ⟨st, .start ⟨24⟩ none⟩ = .session (.error .rejected) ∧
      Turn.after ⟨st, .start ⟨24⟩ none⟩ = st ∧
      Turn.reply ⟨st, .select 1⟩ = .session (.ok .awaitingInput) ∧
      (st.run [.select 1, .select 0]).2 = (st.run [.select 0]).2 ∧
      Turn.Taken ⟨st, .select 0⟩ (.ok .awaitingInput) := by
  have hst : ((new {}).run [.register .library, .start ⟨23⟩ none]).2 = _ := rfl
  have hbusy := refusal_exact (t := ⟨_, .start ⟨24⟩ none⟩) hst
  have hstray := refusal_exact (t := ⟨_, .select 1⟩) hst
  have hoffered := refusal_exact (t := ⟨_, .select 0⟩) hst
  have hignored : ((new {}).run [.register .library, .start ⟨23⟩ none]).2.Ignores 1 := by
    refine Or.inr ⟨_, rfl, ?_⟩
    decide
  have hlater := congrArg Prod.snd ((hstray.2.2.1 hignored).2 [.select 0])
  refine ⟨_, rfl, ((hbusy.1 _ _ rfl).1).mpr rfl, (hbusy.2.2.1 (Or.inl rfl)).1,
    (hstray.2.1 1 rfl).2 hignored, hlater, hoffered.2.2.2 _ rfl ?_⟩
  rintro (hidle | ⟨line, hline, habsent⟩)
  · cases hidle
  · cases hline
    exact habsent (by decide)

end Stage

end Dialogue

import Dialogue.Proofs.Session.Move

/-!
# Where an advance ends

An advance ends with a session that waits at a line (`Stage.Paused`) or with none. Its answer is the
outcome of its last move (`Sound.land_fst`), it pauses exactly when the answer says so
(`Sound.land_paused`, `Sound.land_closed`), and otherwise the host is told of the failure, if there was
one, and of the end (`Config.ending`).
-/

namespace Dialogue

/-! ### Endings -/

/-- What the host is told when a session on a graph is closed. -/
def Config.closing (config : Config) (graph : GraphId) : List Notice :=
  (if config.restoreViewpointOnExit then [.restored] else []) ++ [.ended graph]

/-- What the host is told after the last move of a call with an answer. -/
def Config.ending (config : Config) (graph : GraphId) :
    Except SessionError SessionState → List Notice
  | .ok .awaitingInput => []
  | .ok _ => config.closing graph
  | .error e => .failed e :: config.closing graph

theorem Config.lines_closing (config : Config) (graph : GraphId) :
    (config.closing graph).filterMap Notice.line? = [] := by
  unfold Config.closing
  split <;> rfl

theorem Config.lines_ending (config : Config) (graph : GraphId)
    (answer : Except SessionError SessionState) :
    (config.ending graph answer).filterMap Notice.line? = [] := by
  unfold Config.ending
  split
  · rfl
  · exact config.lines_closing graph
  · exact config.lines_closing graph

namespace Stage

/-- A session that waits at a line of its graph. -/
structure Paused (st : Stage) (s : Session) (g : Graph) (n : Node) (line : Presentation) : Prop where
  waiting : s.state = .awaitingInput
  live : st.Live s g
  node : g.node? s.cursor = some n
  shown : s.presentation = some line
  place : line.node = s.cursor
  options : n.kind.options? st.config.continueLabel = some line.options

/-- A stage whose session, if there is one, waits at a line. -/
def Settled (st : Stage) : Prop :=
  ∀ s, st.session = some s → ∃ g n line, st.Paused s g n line

theorem notices_close (st : Stage) (s : Session) :
    (st.close s).notices = st.notices ++ st.config.closing s.graph := by
  unfold close Config.closing
  cases hrestore : st.config.restoreViewpointOnExit with
  | false => exact st.notices_tell _
  | true =>
    refine ((st.tell .restored).notices_tell _).trans ?_
    rw [notices_tell, List.append_assoc]
    rfl

theorem notices_abort (st : Stage) (s : Session) (e : SessionError) :
    (st.abort s e).notices = st.notices ++ .failed e :: st.config.closing s.graph := by
  refine ((st.tell (.failed e)).notices_close s).trans ?_
  rw [notices_tell, List.append_assoc]
  rfl

theorem close_frame (st : Stage) (s : Session) : (st.close s).session = none ∧
    (st.close s).config = st.config ∧ (st.close s).registry = st.registry ∧
      (st.close s).blackboard = st.blackboard ∧ (st.close s).visits = st.visits := by
  unfold close
  split
  · exact ⟨rfl, rfl, rfl, rfl, ((st.tell .restored).visits_tell _).trans (st.visits_tell _)⟩
  · exact ⟨rfl, rfl, rfl, rfl, st.visits_tell _⟩

theorem stop_frame (st : Stage) : st.stop.config = st.config ∧ st.stop.registry = st.registry ∧
    st.stop.blackboard = st.blackboard := by
  unfold stop
  split
  · exact ⟨rfl, rfl, rfl⟩
  · obtain ⟨-, hconfig, hregistry, hboard, -⟩ := st.close_frame _
    exact ⟨hconfig, hregistry, hboard⟩

theorem abort_frame (st : Stage) (s : Session) (e : SessionError) : (st.abort s e).session = none ∧
    (st.abort s e).config = st.config ∧ (st.abort s e).registry = st.registry ∧
      (st.abort s e).blackboard = st.blackboard ∧ (st.abort s e).visits = st.visits := by
  obtain ⟨hsession, hconfig, hregistry, hboard, hvisits⟩ := (st.tell (.failed e)).close_frame s
  exact ⟨hsession, hconfig, hregistry, hboard, hvisits.trans (st.visits_tell _)⟩

end Stage

/-! ### Landing -/

namespace Move

theorem outcome_of_arrival {m : Move} {g : Graph} {n : Node} (hlive : m.stage.Live m.session g)
    (harr : m.arrival? = some n) (limit : Nat) : m.outcome limit =
      match g.verdict n with
      | .advance _ => .error (.autoAdvanceLimit limit)
      | .pause => .ok .awaitingInput
      | .finish => .ok .ended
      | .fail e => .error e := by
  have hgraph : m.graph? = some g := hlive.1
  cases hverdict : g.verdict n <;> simp only [outcome, hgraph, harr, hverdict]

theorem outcome_of_lost {m : Move} (harr : m.arrival? = none) (limit : Nat) :
    m.outcome limit = .ok .ended := by
  unfold outcome
  rw [harr]
  cases m.graph? <;> rfl

theorem outcome_cases (m : Move) (limit : Nat) : m.outcome limit = .ok .awaitingInput ∨
    m.outcome limit = .ok .ended ∨ m.outcome limit = .error (.autoAdvanceLimit limit) ∨
      ∃ node flag, m.outcome limit = .error (.unknownCondition node flag) := by
  unfold outcome
  split
  · split
    · exact Or.inr (Or.inr (Or.inl rfl))
    · exact Or.inl rfl
    · exact Or.inr (Or.inl rfl)
    · rename_i e hverdict
      obtain ⟨flag, -, -, rfl⟩ := Graph.unknown_of_fail hverdict
      exact Or.inr (Or.inr (Or.inr ⟨_, flag, rfl⟩))
  · exact Or.inr (Or.inl rfl)

theorem Sound.outcome_eq {m : Move} (hs : m.Sound) (limit : Nat) : m.outcome limit =
    match m.result.2.2 with
    | .advance _ => .error (.autoAdvanceLimit limit)
    | .pause => .ok .awaitingInput
    | .finish => .ok .ended
    | .fail e => .error e := by
  obtain ⟨g, hlive⟩ := hs.live
  cases harr : m.arrival? with
  | none => rw [outcome_of_lost harr, result_of_lost harr]
  | some n => rw [outcome_of_arrival hlive harr, (acted hlive harr).verdict]

theorem Sound.leads_of_limit {m : Move} (hs : m.Sound) {limit : Nat}
    (h : m.outcome limit = .error (.autoAdvanceLimit limit)) : ∃ m', m.Leads m' := by
  obtain ⟨g, hlive⟩ := hs.live
  cases harr : m.arrival? with
  | none =>
    rw [outcome_of_lost harr] at h
    simp at h
  | some n =>
    have hact := (acted hlive harr).verdict
    rw [outcome_of_arrival hlive harr] at h
    cases hverdict : g.verdict n with
    | advance port =>
      rw [hverdict] at hact
      exact ⟨⟨m.result.1, m.result.2.1, port⟩, Prod.ext rfl (Prod.ext rfl hact)⟩
    | pause => simp [hverdict] at h
    | finish => simp [hverdict] at h
    | fail e =>
      obtain ⟨flag, -, -, rfl⟩ := Graph.unknown_of_fail hverdict
      simp [hverdict] at h

theorem Sound.land_fst {m : Move} (hs : m.Sound) (limit : Nat) :
    (m.land limit).1 = m.outcome limit := by
  rw [hs.outcome_eq]
  unfold land
  split <;> rename_i hresult <;> rw [hresult]

theorem land_frame (m : Move) (limit : Nat) : (m.land limit).2.config = m.result.1.config ∧
    (m.land limit).2.registry = m.result.1.registry ∧
      (m.land limit).2.blackboard = m.result.1.blackboard ∧
        (m.land limit).2.visits = m.result.1.visits := by
  unfold land
  split <;> rename_i hresult <;> rw [hresult]
  · exact ⟨rfl, rfl, rfl, rfl⟩
  · exact (Stage.close_frame _ _).2
  · exact (Stage.abort_frame _ _ _).2
  · exact (Stage.abort_frame _ _ _).2

theorem Sound.notices_land {m : Move} (hs : m.Sound) (limit : Nat) : (m.land limit).2.notices =
    m.result.1.notices ++ m.stage.config.ending m.session.graph (m.outcome limit) := by
  have hakin := hs.akin_result
  rw [hs.outcome_eq, ← hakin.config, ← hakin.graph]
  unfold land
  split <;> rename_i hresult <;> rw [hresult]
  · exact (List.append_nil _).symm
  · exact Stage.notices_close _ _
  · exact Stage.notices_abort _ _ _
  · exact Stage.notices_abort _ _ _

theorem Sound.land_closed {m : Move} (hs : m.Sound) {limit : Nat}
    (h : m.outcome limit ≠ .ok .awaitingInput) : (m.land limit).2.session = none := by
  rw [hs.outcome_eq] at h
  unfold land
  split <;> rename_i hresult <;> rw [hresult] at h
  · exact absurd rfl h
  · exact (Stage.close_frame _ _).1
  · exact (Stage.abort_frame _ _ _).1
  · exact (Stage.abort_frame _ _ _).1

theorem land_of_pause {m : Move} (h : m.result.2.2 = .pause) (limit : Nat) :
    m.land limit = (.ok .awaitingInput, { m.result.1 with session := some m.result.2.1 }) := by
  unfold land
  split <;> rename_i hresult <;> rw [hresult] at h
  · rw [hresult]
  · simp at h
  · simp at h
  · simp at h

theorem Sound.result_of_waiting {m : Move} (hs : m.Sound) {limit : Nat}
    (h : m.outcome limit = .ok .awaitingInput) : m.result.2.2 = .pause := by
  rw [hs.outcome_eq] at h
  split at h
  · simp at h
  · assumption
  · simp at h
  · simp at h

theorem Sound.land_paused {m : Move} (hs : m.Sound) {limit : Nat} {g : Graph}
    (hlive : m.stage.Live m.session g) (h : m.outcome limit = .ok .awaitingInput) :
    ∃ s g' n line, (m.land limit).2.session = some s ∧ (m.land limit).2.Paused s g' n line ∧
      g'.outline = g.outline ∧ m.arrival? = some n ∧
        g.line? m.stage.config m.session.actor n = some line ∧
          s.graph = m.session.graph ∧ s.actor = m.session.actor := by
  have hpause := hs.result_of_waiting h
  cases harr : m.arrival? with
  | none =>
    rw [outcome_of_lost harr] at h
    simp at h
  | some n =>
    have hact := acted hlive harr
    obtain ⟨hstate, hshown⟩ := hact.paused hpause
    obtain ⟨g', hlive', houtline, -⟩ := hact.live
    obtain ⟨options, hoptions⟩ :=
      Graph.options?_of_pause (hact.verdict.symm.trans hpause) m.stage.config.continueLabel
    have hline : g.line? m.stage.config m.session.actor n =
        some ⟨n.guid, g.spoken n.text, options, Stage.shownName m.stage.config m.session.actor⟩ := by
      rw [Graph.line?, hoptions]
      rfl
    have hnode : g'.node? m.result.2.1.cursor = some n := by
      rw [hact.cursor, Graph.node?_eq_of_outline houtline]
      rw [arrival?_of_live hlive] at harr
      exact Graph.node?_of_next? harr
    have hlabel : n.kind.options? m.result.1.config.continueLabel = some options := by
      rw [hact.config]
      exact hoptions
    rw [land_of_pause hpause]
    exact ⟨m.result.2.1, g', n, _, rfl, ⟨hstate, hlive', hnode, hshown.trans hline,
      hact.cursor.symm, hlabel⟩, houtline, rfl, hline, hact.graph, hact.actor⟩

theorem Sound.land_settled {m : Move} (hs : m.Sound) (limit : Nat) : (m.land limit).2.Settled := by
  intro s hsession
  by_cases h : m.outcome limit = .ok .awaitingInput
  · obtain ⟨g, hlive⟩ := hs.live
    obtain ⟨s', g', n, line, hs', hpaused, -⟩ := hs.land_paused hlive h
    rw [hs'] at hsession
    cases hsession
    exact ⟨g', n, line, hpaused⟩
  · rw [hs.land_closed h] at hsession
    simp at hsession

end Move

end Dialogue

import Dialogue.Proofs.Session.Course

/-!
# What a turn tells the host

The notices of a turn are those that it adds to the ones before (`Turn.told`), and so are its visits;
all that the host is told in a run is told in its turns (`notices_run`). A call that moves a session
tells of the start if it starts it, then what its moves tell, then of the end if there is one
(`Moved.notices_append`). The lines of a turn and the nodes that it enters are those of its moves.
-/

namespace Dialogue

namespace Turn

/-- What the host is told before a session moves. -/
def heralds (t : Turn) : List Notice :=
  match t.opening? with
  | some (id, _) => [.snapshot, .started id]
  | none => []

/-- What the host is told during the call. -/
def notices (t : Turn) : List Notice := t.after.notices.drop t.before.notices.length

/-- The nodes that are entered during the call. -/
def visits (t : Turn) : List Guid := t.after.visits.drop t.before.visits.length

theorem notices_of_append {t : Turn} {ns : List Notice}
    (h : t.after.notices = t.before.notices ++ ns) : t.notices = ns := by
  rw [notices, h, List.drop_left]

theorem visits_of_append {t : Turn} {us : List Guid}
    (h : t.after.visits = t.before.visits ++ us) : t.visits = us := by
  rw [visits, h, List.drop_left]

theorem Kept.notices_after {t : Turn} (h : t.Kept) : t.after.notices = t.before.notices ++ [] :=
  h.still.notices.trans (List.append_nil _).symm

theorem Kept.visits_after {t : Turn} (h : t.Kept) : t.after.visits = t.before.visits ++ [] :=
  h.still.visits.trans (List.append_nil _).symm

theorem Closed.visits_after {t : Turn} {s : Session} (h : t.Closed s) :
    t.after.visits = t.before.visits ++ [] :=
  h.visits.trans (List.append_nil _).symm

namespace Moved

variable {t : Turn} {m l : Move}

theorem heralded (h : t.Moved m l) (hst : t.before.Settled) :
    m.stage.notices = t.before.notices ++ t.heralds ∧ m.stage.visits = t.before.visits := by
  cases hsession : t.before.session with
  | none =>
    obtain ⟨id, actor, g, hopening, -, rfl⟩ := h.opened hsession
    refine ⟨?_, ?_⟩
    · rw [heralds, hopening, Stage.notices_tell, Stage.notices_tell, List.append_assoc]
      rfl
    · rw [Stage.visits_tell, Stage.visits_tell]
  | some s =>
    obtain ⟨g, n, line, hpaused⟩ := hst s hsession
    obtain ⟨port, -, -, rfl⟩ := h.answered hsession hpaused
    refine ⟨?_, rfl⟩
    rw [heralds, opening?_of_running hsession]
    exact (List.append_nil _).symm

theorem notices_append (h : t.Moved m l) (hst : t.before.Settled) : t.after.notices =
    t.before.notices ++ (t.heralds ++ (t.moves.flatMap Move.notices ++
      t.before.config.ending m.session.graph (l.outcome t.before.config.maxAutoAdvance))) := by
  rw [h.notices_after, (h.heralded hst).1, List.append_assoc]

theorem visits_append (h : t.Moved m l) (hst : t.before.Settled) : t.after.visits =
    t.before.visits ++ (t.moves.filterMap Move.arrival?).map Node.guid := by
  rw [h.visits_after, (h.heralded hst).2]

end Moved

theorem lines_heralds (t : Turn) : t.heralds.filterMap Notice.line? = [] := by
  unfold heralds
  split <;> rfl

theorem lines_notices {t : Turn} (hst : t.before.Settled) :
    t.notices.filterMap Notice.line? = t.moves.filterMap Move.line? := by
  cases t.course hst with
  | kept h =>
    rw [notices_of_append h.notices_after, moves_of_none h.departure]
    rfl
  | closed s h =>
    rw [notices_of_append h.notices, moves_of_none h.departure]
    exact t.before.config.lines_closing s.graph
  | moved m l h =>
    rw [notices_of_append (h.notices_append hst), List.filterMap_append, List.filterMap_append,
      lines_heralds, Config.lines_ending, List.nil_append, List.append_nil]
    induction t.moves with
    | nil => rfl
    | cons x xs ih =>
      rw [List.flatMap_cons, List.filterMap_append, Move.lines_notices, ih, List.filterMap_cons]
      cases x.line? <;> rfl

theorem visits_eq {t : Turn} (hst : t.before.Settled) :
    t.visits = (t.moves.filterMap Move.arrival?).map Node.guid := by
  cases t.course hst with
  | kept h =>
    rw [visits_of_append h.visits_after, moves_of_none h.departure]
    rfl
  | closed s h =>
    rw [visits_of_append h.visits_after, moves_of_none h.departure]
    rfl
  | moved m l h => exact visits_of_append (h.visits_append hst)

theorem told (t : Turn) (hst : t.before.Settled) :
    t.after.notices = t.before.notices ++ t.notices ∧
      t.after.visits = t.before.visits ++ t.visits := by
  cases t.course hst with
  | kept h =>
    rw [notices_of_append h.notices_after, visits_of_append h.visits_after]
    exact ⟨h.notices_after, h.visits_after⟩
  | closed s h =>
    rw [notices_of_append h.notices, visits_of_append h.visits_after]
    exact ⟨h.notices, h.visits_after⟩
  | moved m l h =>
    rw [notices_of_append (h.notices_append hst), visits_of_append (h.visits_append hst)]
    exact ⟨h.notices_append hst, h.visits_append hst⟩

end Turn

namespace Stage

theorem notices_run (cs : List Call) (st : Stage) : st.Settled →
    (st.run cs).2.notices = st.notices ++ (st.turns cs).flatMap Turn.notices := by
  induction cs generalizing st with
  | nil =>
    intro _
    exact (List.append_nil _).symm
  | cons c cs ih =>
    intro hst
    have hafter : (st.call c).2.Settled := Turn.settled_after ⟨st, c⟩ hst
    have htold : (st.call c).2.notices = st.notices ++ Turn.notices ⟨st, c⟩ :=
      (Turn.told ⟨st, c⟩ hst).1
    rw [run_cons, turns, List.flatMap_cons, ← List.append_assoc, ← htold]
    exact ih _ hafter

end Stage

end Dialogue

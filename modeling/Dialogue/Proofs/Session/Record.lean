import Dialogue.Proofs.Session.Ledger
import Dialogue.Proofs.Story.Likeness

/-!
# What a call records

The journal only grows: a call puts entries before those that were there (`Turn.journal_after`). A line
is the last thing of a call that shows one, so it waits when the call is over, and nothing was written
since it was shown: its text has the values that its graph has on the stage that the call leaves
(`Turn.standing`). A line that waits was shown by the call, or it waited before it (`Turn.line_after`).
-/

namespace Dialogue

/-! ### The journal grows -/

namespace Turn

theorem journal_suffix (t : Turn) : t.before.journal <:+ t.after.journal := by
  -- the entries of a call do not depend on the graph that is watched, so one is taken that stays
  have hstays : ∃ id, t.call ≠ .unregister id := by
    by_cases h : t.call = .unregister ⟨0⟩
    · refine ⟨⟨1⟩, ?_⟩
      rw [h]
      simp
    · exact ⟨⟨0⟩, h⟩
  obtain ⟨id, hid⟩ := hstays
  obtain ⟨new, hsince, -⟩ := t.through hid
  exact ⟨new, hsince.journal.symm⟩

/-- The entries that the call makes, the latest first. -/
def entries (t : Turn) : Journal :=
  t.after.journal.take (t.after.journal.length - t.before.journal.length)

theorem journal_after (t : Turn) : t.after.journal = t.entries ++ t.before.journal := by
  obtain ⟨new, hnew⟩ := t.journal_suffix
  rw [entries, ← hnew, List.length_append, Nat.add_sub_cancel, List.take_left]

theorem notices_entries (t : Turn) : Journal.notices t.entries = t.notices := by
  have htold : t.after.notices = t.before.notices ++ Journal.notices t.entries := by
    rw [Stage.notices, journal_after, Journal.notices, List.reverse_append, List.filterMap_append]
    rfl
  exact (notices_of_append htold).symm

theorem mem_notices {t : Turn} {n : Notice} (h : .told n ∈ t.entries) : n ∈ t.notices := by
  rw [← notices_entries]
  exact List.mem_filterMap.mpr ⟨_, List.mem_reverse.mpr h, rfl⟩

end Turn

/-! ### Lines that are shown -/

/-- The graph of the session, as it is registered. -/
def Stage.playing? (st : Stage) : Option Graph := st.activeGraph?.bind st.blackboard.graph?

theorem Graph.verdict_of_line? {g : Graph} {config : Config} {actor : Option Actor} {n : Node}
    {line : Presentation} (h : g.line? config actor n = some line) :
    g.verdict n = .pause ∧ n.kind.isLine = true ∧ line.node = n.guid ∧
      line.text = g.spoken n.text := by
  obtain ⟨options, hoptions, rfl⟩ := Option.map_eq_some_iff.mp h
  unfold verdict NodeKind.isLine
  cases hkind : n.kind with
  | basic target => exact ⟨rfl, rfl, rfl, rfl⟩
  | choice choices => exact ⟨rfl, rfl, rfl, rfl⟩
  | _ => simp [hkind, NodeKind.options?] at hoptions

theorem Move.line?_of_live {m : Move} {g : Graph} (h : m.stage.Live m.session g) :
    m.line? = m.arrival?.bind (g.line? m.stage.config m.session.actor) := by
  unfold line? graph?
  rw [h.1]
  cases m.arrival? <;> rfl

namespace Turn

/-- Only the last move of a call shows a line, since the session pauses there. -/
theorem Moved.line_of_mem {t : Turn} {m l x : Move} (h : t.Moved m l) (hx : x ∈ t.moves)
    {line : Presentation} (hline : x.line? = some line) : x = l ∧ x.result.2.2 = .pause := by
  obtain ⟨g, hlive⟩ := (h.sound_of_mem hx).live
  rw [Move.line?_of_live hlive] at hline
  obtain ⟨n, harr, hshown⟩ := Option.bind_eq_some_iff.mp hline
  have hpause : x.result.2.2 = .pause :=
    (Move.acted hlive harr).verdict.trans (Graph.verdict_of_line? hshown).1
  refine ⟨?_, hpause⟩
  have hlast := h.last
  rw [h.moves_eq] at hx hlast
  rcases m.leads_or_last _ x hx with ⟨x', hleads⟩ | hx
  · rw [hleads] at hpause
    simp at hpause
  · exact Option.some.inj (hx.symm.trans hlast)

/-- **A line that a call shows waits when the call is over**, and has the values that the graph of the
session has then. -/
theorem standing {t : Turn} (hst : t.before.Settled) {line : Presentation}
    (h : .presented line ∈ t.notices) : t.after.presentation? = some line ∧ ∃ g n,
      t.after.playing? = some g ∧ g.node? line.node = some n ∧ n.kind.isLine = true ∧
        line.text = g.spoken n.text := by
  have hmem := Notice.mem_lines.mpr h
  rw [lines_notices hst] at hmem
  obtain ⟨l, hl, hline⟩ := List.mem_filterMap.mp hmem
  obtain ⟨m, l', hmoved⟩ := moved_of_mem hst hl
  obtain ⟨rfl, hpause⟩ := hmoved.line_of_mem hl hline
  obtain ⟨g, hlive⟩ := hmoved.sound_last.live
  rw [Move.line?_of_live hlive] at hline
  obtain ⟨n, harr, hshown⟩ := Option.bind_eq_some_iff.mp hline
  obtain ⟨-, hkind, hnode, htext⟩ := Graph.verdict_of_line? hshown
  have hact := Move.acted hlive harr
  have hafter := hmoved.after
  rw [Move.land_of_pause hpause] at hafter
  have hquiet : ∀ event, n.kind ≠ .event event := by
    intro event hevent
    rw [hevent] at hkind
    cases hkind
  refine ⟨?_, g, n, ?_, ?_, hkind, htext⟩
  · rw [hafter]
    exact (hact.paused hpause).2.trans hshown
  · rw [hafter]
    show l.result.1.blackboard.graph? l.result.2.1.graph = some g
    rw [hact.board hquiet, hact.graph]
    exact hlive.1
  · rw [Move.arrival?_of_live hlive] at harr
    rw [hnode]
    exact Graph.node?_of_next? harr

theorem Moved.presented {t : Turn} {m l : Move} (h : t.Moved m l) (hst : t.before.Settled)
    (hwaits : l.outcome t.before.config.maxAutoAdvance = .ok .awaitingInput) :
    ∃ line, t.after.presentation? = some line ∧ .presented line ∈ t.notices := by
  obtain ⟨g, hlive⟩ := h.sound_last.live
  obtain ⟨s, g', n, line, hsession, hpaused, -, harr, hshown, -⟩ :=
    h.sound_last.land_paused hlive hwaits
  refine ⟨line, ?_, Notice.mem_lines.mp ?_⟩
  · rw [Stage.presentation?, h.after, hsession]
    exact hpaused.shown
  · have hline : l.line? = some line := by
      rw [Move.line?_of_live hlive, harr]
      exact hshown
    rw [lines_notices hst]
    exact List.mem_filterMap.mpr ⟨l, List.mem_of_getLast? h.last, hline⟩

theorem line_after {t : Turn} (hst : t.before.Settled) {line : Presentation}
    (h : t.after.presentation? = some line) :
    t.before.presentation? = some line ∨ .presented line ∈ t.notices := by
  cases t.course hst with
  | kept hkept =>
    refine Or.inl ?_
    rw [← h]
    cases hsession : t.before.session with
    | none => rw [Stage.presentation?, Stage.presentation?, hsession, hkept.still.idle hsession]
    | some s =>
      obtain ⟨s', hsame⟩ := hkept.still.same s hsession
      rw [Stage.presentation?, Stage.presentation?, hsession, hsame.session]
      show s.presentation = s'.presentation
      rw [hsame.frame]
  | closed s hclosed =>
    rw [Stage.presentation?, hclosed.session] at h
    cases h
  | moved m l hmoved =>
    by_cases hwaits : l.outcome t.before.config.maxAutoAdvance = .ok .awaitingInput
    · obtain ⟨line', hline, hmem⟩ := hmoved.presented hst hwaits
      obtain rfl : line = line' := Option.some.inj (h.symm.trans hline)
      exact Or.inr hmem
    · rw [Stage.presentation?, hmoved.after, hmoved.sound_last.land_closed hwaits] at h
      cases h

end Turn

end Dialogue

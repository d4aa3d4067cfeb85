import Dialogue.Proofs.Session.Refusal
import Dialogue.Proofs.Session.Standing

/-!
# Whether a pause can be left

A session that waits shows a line, and the choice of a port that the line offers is never in vain:
it leads to another line, to the end, or to a failure (`Turn.Taken`). So a pause can be left by a
choice unless its line offers no port, which is the case exactly at a choice without options
(`exists_offers_iff`). Such a choice keeps waiting whatever is chosen (`run_selects_of_optionless`),
until the session is stopped or its graph taken away.
-/

namespace Dialogue

/-- A choice without options. -/
def NodeKind.isOptionless : NodeKind → Bool
  | choice choices => choices.entries.isEmpty
  | _ => false

namespace Stage

theorem exists_offers_iff {label : String} {kind : NodeKind} {line : Presentation}
    (h : Offers label kind line.options) :
    (∃ port, line.offers port = true) ↔ kind.isOptionless = false := by
  have hoffered : (∃ port, line.offers port = true) ↔ line.options ≠ [] := by
    constructor
    · rintro ⟨port, hport⟩
      obtain ⟨o, ho, -⟩ := List.any_eq_true.mp hport
      exact List.ne_nil_of_mem ho
    · intro hne
      obtain ⟨o, ho⟩ := List.exists_mem_of_ne_nil _ hne
      exact ⟨o.port, List.any_eq_true.mpr ⟨o, ho, by simp⟩⟩
  rw [hoffered]
  generalize line.options = options at h
  cases h with
  | basic target => simp [NodeKind.isOptionless]
  | choice choices ascending => simp [NodeKind.isOptionless]

theorem select_cases {st : Stage} (hst : st.Settled) {line : Presentation}
    (hline : st.presentation? = some line) (port : PortIndex) :
    (line.offers port = true → ∃ r, Turn.reply ⟨st, .select port⟩ = .session r ∧
      Turn.Taken ⟨st, .select port⟩ r ∧ (st.select port).2 ≠ st) ∧
    (line.offers port = false → st.select port = (.ok .awaitingInput, st)) := by
  obtain ⟨s, hsession, hshown⟩ := Option.bind_eq_some_iff.mp hline
  obtain ⟨g, n, line', hpaused⟩ := hst s hsession
  obtain rfl : line = line' := Option.some.inj (hshown.symm.trans hpaused.shown)
  refine ⟨fun hoffers => ?_, fun hoffers => (select_of_refused hsession hpaused hoffers).2⟩
  have hgranted : ¬ Turn.Refused ⟨st, .select port⟩ := by
    intro hrefused
    have hnone := (answer?_eq_none_iff hst).mpr hrefused
    rw [(select_of_offered hsession hpaused hoffers).1] at hnone
    cases hnone
  have htaken := Turn.taken_of_not_refused (t := ⟨st, .select port⟩) hst rfl hgranted
  exact ⟨_, rfl, htaken, htaken.after_ne (isRunning_of_some hsession)⟩

theorem run_selects_of_optionless {st : Stage} (hst : st.Settled) {line : Presentation}
    (hline : st.presentation? = some line) (hbare : ∀ port, line.offers port = false)
    (ports : List PortIndex) : (st.run (ports.map .select)).2 = st := by
  induction ports with
  | nil => rfl
  | cons port ports ih =>
    have hselect := (select_cases hst hline port).2 (hbare port)
    rw [List.map_cons, run_cons]
    show ((st.select port).2.run (ports.map .select)).2 = st
    rw [hselect]
    exact ih

/-- **A pause can be left by a choice except at a choice without options.** After every run that
leaves a session waiting, its line offers a port unless the node is a choice without options. A port
that is offered leads on: a new line is shown, the session ends, or it fails. A port that is not
offered changes nothing, so at a choice without options no list of choices leads anywhere. -/
theorem pause_left_unless_optionless (config : Config) (cs : List Call) {st : Stage}
    (hrun : ((new config).run cs).2 = st) (hwaits : st.state = .awaitingInput) :
    ∃ id g n line, st.activeGraph? = some id ∧ st.blackboard.graph? id = some g ∧
      st.currentNode? = some n.guid ∧ g.node? n.guid = some n ∧ st.presentation? = some line ∧
      ((∃ port, line.offers port = true) ↔ n.kind.isOptionless = false) ∧
      (∀ port, line.offers port = true → ∃ r, Turn.reply ⟨st, .select port⟩ = .session r ∧
        Turn.Taken ⟨st, .select port⟩ r ∧ (st.select port).2 ≠ st) ∧
      (∀ port, line.offers port = false → st.select port = (.ok .awaitingInput, st)) ∧
      (n.kind.isOptionless = true →
        ∀ ports : List PortIndex, (st.run (ports.map .select)).2 = st) := by
  have hst : st.Settled := hrun ▸ (settled_turns config cs).2.1
  have hwaiting : st.Waiting := by
    refine hst.seen.resolve_left fun hidle => ?_
    rw [hidle.state] at hwaits
    cases hwaits
  obtain ⟨id, g, n, line, hactive, hgraph, hnode, hfound, hline, -, hoffers⟩ := hwaiting.line
  have hport := exists_offers_iff hoffers
  refine ⟨id, g, n, line, hactive, hgraph, hnode, hfound, hline, hport,
    fun port => (select_cases hst hline port).1, fun port => (select_cases hst hline port).2,
    fun hbare => run_selects_of_optionless hst hline fun port => ?_⟩
  have hnone : ¬ ∃ port, line.offers port = true := by simp [hport, hbare]
  simpa using not_exists.mp hnone port

end Stage

/-- A choice between a walk and a rest, where resting is a choice without options. -/
def Graph.glade : Graph :=
  ⟨⟨35⟩, ⟨"start"⟩, .origin,
    [.ofKind ⟨"oak"⟩ "" (.choice (.ofList [(0, "Walk"), (3, "Rest")])),
      .ofKind ⟨"moss"⟩ "" (.choice .empty)],
    [⟨⟨"start"⟩, ⟨"oak"⟩, 0⟩, ⟨⟨"oak"⟩, ⟨"moss"⟩, 3⟩], []⟩

namespace Stage

/-- At the oak a walk ends the session, and a port that is not offered changes nothing; on the moss
no choices lead anywhere. -/
theorem pause_left_unless_optionless_glade : ∃ oak moss,
    ((new {}).run [.register .glade, .start ⟨35⟩ none]).2 = oak ∧ oak.state = .awaitingInput ∧
      (∃ r, Turn.reply ⟨oak, .select 0⟩ = .session r ∧ Turn.Taken ⟨oak, .select 0⟩ r) ∧
      oak.select 1 = (.ok .awaitingInput, oak) ∧
      ((new {}).run [.register .glade, .start ⟨35⟩ none, .select 3]).2 = moss ∧
      moss.state = .awaitingInput ∧
      ∀ ports : List PortIndex, (moss.run (ports.map .select)).2 = moss := by
  have hoak : ((new {}).run [.register .glade, .start ⟨35⟩ none]).2.state = .awaitingInput := by
    decide +kernel
  have hmoss : ((new {}).run [.register .glade, .start ⟨35⟩ none, .select 3]).2.state =
      .awaitingInput := by
    decide +kernel
  have hoakLine : ((new {}).run [.register .glade, .start ⟨35⟩ none]).2.presentation? =
      some ⟨⟨"oak"⟩, "", [⟨0, "Walk"⟩, ⟨3, "Rest"⟩], none⟩ := by
    decide +kernel
  have hmossLine : ((new {}).run [.register .glade, .start ⟨35⟩ none, .select 3]).2.presentation? =
      some ⟨⟨"moss"⟩, "", [], none⟩ := by
    decide +kernel
  obtain ⟨-, -, -, line, -, -, -, -, hline, -, htaken, hkept, -⟩ :=
    pause_left_unless_optionless {} _ rfl hoak
  obtain rfl := Option.some.inj (hoakLine.symm.trans hline)
  obtain ⟨r, hreply, hr, -⟩ := htaken 0 (by decide)
  obtain ⟨-, -, n, line', -, -, -, -, hline', hoffers, -, -, hbare⟩ :=
    pause_left_unless_optionless {} _ rfl hmoss
  obtain rfl := Option.some.inj (hmossLine.symm.trans hline')
  have hmute : n.kind.isOptionless = true := by
    rw [← Bool.not_eq_false, ← hoffers]
    rintro ⟨port, hport⟩
    cases hport
  exact ⟨_, _, rfl, hoak, ⟨r, hreply, hr⟩, hkept 1 (by decide), rfl, hmoss, hbare hmute⟩

end Stage

/-- A choice without options, with its one link in order. -/
def Graph.hush : Graph :=
  ⟨⟨36⟩, ⟨"start"⟩, .origin, [.ofKind ⟨"silence"⟩ "Well?" (.choice .empty)],
    [⟨⟨"start"⟩, ⟨"silence"⟩, 0⟩], []⟩

namespace Stage

/-- **A pause that no choice leaves**: under strict settings the graph is registered and played, its
line offers no port, and every choice is turned away. -/
theorem hush_is_kept : ∃ st,
    ((new { strictLinks := true }).run [.register .hush, .start ⟨36⟩ none]).2 = st ∧
      st.state = .awaitingInput ∧ st.blackboard.contains ⟨36⟩ = true ∧
      st.presentation? = some ⟨⟨"silence"⟩, "Well?", [], none⟩ ∧
      ∀ port, st.select port = (.ok .awaitingInput, st) := by
  have hline : ((new { strictLinks := true }).run
      [.register .hush, .start ⟨36⟩ none]).2.presentation? =
        some ⟨⟨"silence"⟩, "Well?", [], none⟩ := by
    decide +kernel
  have hst := (settled_turns { strictLinks := true } [.register .hush, .start ⟨36⟩ none]).2.1
  exact ⟨_, rfl, by decide +kernel, by decide +kernel, hline,
    fun port => (select_cases hst hline port).2 rfl⟩

end Stage

end Dialogue

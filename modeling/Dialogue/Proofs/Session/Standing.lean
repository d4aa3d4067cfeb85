import Dialogue.Proofs.Session.Course

/-!
# What can be seen between calls

Between two calls a stage shows one of two things: no session at all (`Stage.Idle`), or one that waits
for the player at a line or a choice of its registered graph (`Stage.Waiting`). This is what a settled
stage looks like from outside, and the reply to a call says which of the two it left
(`Reply.Agrees`). The moves in between are sound, so the graph of a session is registered whenever it
follows a port.
-/

namespace Dialogue

/-! ### The two situations -/

namespace Stage

/-- Nothing of a session can be seen. -/
structure Idle (st : Stage) : Prop where
  state : st.state = .idle
  running : st.isRunning = false
  graph : st.activeGraph? = none
  node : st.currentNode? = none
  line : st.presentation? = none

/-- The options of a node: one with a label at a basic node, the labels by ascending port at a
choice. -/
inductive Offers (label : String) : NodeKind → List PresentedOption → Prop
  | basic (target : Option FocusTarget) : Offers label (.basic target) [⟨0, label⟩]
  | choice (choices : Choices)
      (ascending : (choices.entries.map Prod.fst).Pairwise fun a b => a < b) :
      Offers label (.choice choices) (choices.entries.map fun e => ⟨e.1, e.2⟩)

/-- A session waits at a node of a registered graph, and the line of that node is shown. -/
structure Waiting (st : Stage) : Prop where
  state : st.state = .awaitingInput
  running : st.isRunning = true
  line : ∃ id g n line, st.activeGraph? = some id ∧ st.blackboard.graph? id = some g ∧
    st.currentNode? = some n.guid ∧ g.node? n.guid = some n ∧ st.presentation? = some line ∧
      line.node = n.guid ∧ Offers st.config.continueLabel n.kind line.options

theorem offers_of_options? {label : String} {kind : NodeKind} {options : List PresentedOption}
    (h : kind.options? label = some options) : Offers label kind options := by
  cases kind with
  | basic target =>
    obtain rfl : [⟨0, label⟩] = options := Option.some.inj h
    exact .basic target
  | choice choices =>
    obtain rfl := Option.some.inj h
    exact .choice choices (List.pairwise_map.mpr choices.ascending)
  | _ => simp [NodeKind.options?] at h

theorem idle_of_none {st : Stage} (h : st.session = none) : st.Idle := by
  refine ⟨?_, isRunning_of_none h, ?_, ?_, ?_⟩
  · rw [state, h]
  · rw [activeGraph?, h]
    rfl
  · rw [currentNode?, h]
    rfl
  · rw [presentation?, h]
    rfl

theorem Paused.seen {st : Stage} {s : Session} {g : Graph} {n : Node} {line : Presentation}
    (h : st.Paused s g n line) (hsession : st.session = some s) : st.Waiting := by
  have hguid : n.guid = s.cursor := Graph.guid_of_node? h.node
  refine ⟨?_, isRunning_of_some hsession, s.graph, g, n, line, ?_, h.live.1, ?_, ?_, ?_,
    h.place.trans hguid.symm, offers_of_options? h.options⟩
  · rw [state, hsession]
    exact h.waiting
  · rw [activeGraph?, hsession]
    rfl
  · rw [currentNode?, hsession, hguid]
    rfl
  · rw [hguid]
    exact h.node
  · rw [presentation?, hsession]
    exact h.shown

theorem Settled.waiting {st : Stage} (hst : st.Settled) (h : st.isRunning = true) : st.Waiting := by
  obtain ⟨s, hsession⟩ := session_of_running h
  obtain ⟨g, n, line, hpaused⟩ := hst s hsession
  exact hpaused.seen hsession

theorem Settled.seen {st : Stage} (hst : st.Settled) : st.Idle ∨ st.Waiting := by
  cases h : st.isRunning with
  | false => exact Or.inl (idle_of_none (session_of_idle h))
  | true => exact Or.inr (hst.waiting h)

theorem not_waiting_of_idle {st : Stage} (h : st.Idle) : ¬ st.Waiting := by
  intro hw
  have hboth := h.running.symm.trans hw.running
  simp at hboth

end Stage

/-! ### Replies -/

/-- What a reply says of the stage that the call left. -/
def Reply.Agrees (st : Stage) : Reply → Prop
  | .session (.ok .awaitingInput) | .session (.error .rejected) => st.Waiting
  | .session (.ok .active) => False
  | .session _ => st.Idle
  | _ => True

namespace Stage

theorem Declines.agrees {st st' : Stage} {r : Except SessionError SessionState}
    (h : st.Declines r) (hst : st'.Settled) (hsame : st'.isRunning = st.isRunning) :
    (Reply.session r).Agrees st' := by
  cases h with
  | busy hrunning => exact hst.waiting (hsame.trans hrunning)
  | unregistered id hidle => exact idle_of_none (session_of_idle (hsame.trans hidle))
  | idle hidle => exact idle_of_none (session_of_idle (hsame.trans hidle))
  | waiting hrunning => exact hst.waiting (hsame.trans hrunning)

end Stage

namespace Turn

theorem agrees {t : Turn} (hst : t.before.Settled) : t.reply.Agrees t.after := by
  have hafter := t.settled_after hst
  cases t.course hst with
  | kept h =>
    cases hreply : t.reply with
    | session r => exact (h.reply r hreply).agrees hafter h.still.isRunning
    | _ => trivial
  | closed s h =>
    cases hreply : t.reply with
    | session r => exact absurd hreply (h.reply r)
    | _ => trivial
  | moved m l h =>
    have hiff := h.running_iff
    have hidle : l.outcome t.before.config.maxAutoAdvance ≠ .ok .awaitingInput → t.after.Idle := by
      intro hne
      have hrunning : t.after.isRunning = false := by simpa using mt hiff.mp hne
      exact Stage.idle_of_none (Stage.session_of_idle hrunning)
    rw [h.reply_eq]
    rcases l.outcome_cases t.before.config.maxAutoAdvance with ho | ho | ho | ⟨node, flag, ho⟩
    · rw [ho]
      exact hafter.waiting (hiff.mpr ho)
    · rw [ho] at hidle ⊢
      exact hidle (by simp)
    · rw [ho] at hidle ⊢
      exact hidle (by simp)
    · rw [ho] at hidle ⊢
      exact hidle (by simp)

end Turn

namespace Stage

/-- **After every run there is either no session or one that waits for the player**, at a basic node
or a choice of its registered graph and with the line and the options of that node. The reply to each
call says which of the two it left, no move is made on a graph that is not registered, and no session
waits for an answer without a line. -/
theorem idle_or_waiting (config : Config) (cs : List Call) :
    ((((new config).run cs).2.Idle ∨ ((new config).run cs).2.Waiting) ∧
      ¬ (((new config).run cs).2.Idle ∧ ((new config).run cs).2.Waiting)) ∧
      ∀ t ∈ (new config).turns cs, t.reply.Agrees t.after ∧
        (∀ m ∈ t.moves, ∃ g, m.graph? = some g) ∧
          ∀ s, t.before.session = some s →
            s.state = .awaitingInput ∧ ∃ line, s.presentation = some line := by
  obtain ⟨hturns, hst, -⟩ := settled_turns config cs
  refine ⟨⟨hst.seen, fun h => not_waiting_of_idle h.1 h.2⟩, fun t ht => ?_⟩
  obtain ⟨⟨hbefore, -⟩, -⟩ := hturns t ht
  refine ⟨Turn.agrees hbefore, fun m hm => ?_, fun s hs => ?_⟩
  · obtain ⟨g, hlive⟩ := (Turn.sound_of_mem hbefore hm).live
    exact ⟨g, hlive.1⟩
  · obtain ⟨g, n, line, hpaused⟩ := hbefore s hs
    exact ⟨hpaused.waiting, line, hpaused.shown⟩

end Stage

end Dialogue

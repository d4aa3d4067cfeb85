import Mathlib.Data.List.Perm.Subperm
import Mathlib.Logic.Relation
import Dialogue.Proofs.Session.Scene

/-!
# The limit of an advance

A session goes on by itself from a start, an event, a change of viewpoint and a branch. Listeners may
turn a branch while the session is on its way, but they cannot change links; so the nodes that it passes
in one call follow one another in the graph (`Graph.Passes`). If the graph has no round of such nodes,
then no node is passed twice in a call, and a limit that is not below their number is never exceeded
(`never_over_limit`).
-/

namespace Dialogue

/-! ### Nodes that are passed -/

namespace NodeKind

/-- A session goes on from the node by itself. -/
def isPassed : NodeKind → Bool
  | entry | event _ | focus _ | condition _ => true
  | basic _ | choice _ | exit => false

/-- The ports through which it may go on. -/
def passages : NodeKind → List PortIndex
  | entry | event _ | focus _ => [0]
  | condition _ => [portTrue, portFalse]
  | basic _ | choice _ | exit => []

end NodeKind

namespace Graph

/-- A session may go from one node of the graph straight to another, and passes both. -/
def Passes (g : Graph) (u v : Node) : Prop :=
  u ∈ g.nodes ∧ u.kind.isPassed = true ∧ v.kind.isPassed = true ∧
    ∃ port ∈ u.kind.passages, g.next? u.guid port = some v

/-- A way along nodes that are passed never comes back to where it was. -/
def NoRound (g : Graph) : Prop := ∀ n, ¬ Relation.TransGen g.Passes n n

theorem passed_of_advance {g : Graph} {n : Node} {port : PortIndex}
    (h : g.verdict n = .advance port) : n.kind.isPassed = true ∧ port ∈ n.kind.passages := by
  unfold verdict at h
  cases hk : n.kind with
  | condition flag =>
    simp only [hk] at h
    split at h
    · cases h
      exact ⟨rfl, by simp [NodeKind.passages, portTrue]⟩
    · cases h
      exact ⟨rfl, by simp [NodeKind.passages, portFalse]⟩
    · cases h
  | basic target => simp [hk] at h
  | choice choices => simp [hk] at h
  | exit => simp [hk] at h
  | _ =>
    simp only [hk, Stage.Verdict.advance.injEq] at h
    exact ⟨rfl, by simp [NodeKind.passages, ← h]⟩

theorem noRound_of_rank {g : Graph} (rank : Node → Nat)
    (h : ∀ u v, g.Passes u v → rank u < rank v) : g.NoRound := by
  have hway : ∀ u v, Relation.TransGen g.Passes u v → rank u < rank v := by
    intro u v hpass
    induction hpass with
    | single hpass => exact h _ _ hpass
    | tail _ hpass ih => exact Nat.lt_trans ih (h _ _ hpass)
  exact fun n hn => Nat.lt_irrefl _ (hway n n hn)

/-- Without a round, nodes that are passed one after the other are not more than there are. -/
theorem NoRound.length_le {g : Graph} (h : g.NoRound) {ns : List Node} (hchain : ns.IsChain g.Passes)
    (hns : ∀ n ∈ ns, n ∈ g.nodes ∧ n.kind.isPassed = true) :
    ns.length ≤ (g.nodes.filter fun n => n.kind.isPassed).length := by
  have hpairs : ns.Pairwise (Relation.TransGen g.Passes) :=
    (hchain.imp fun _ _ hpass => Relation.TransGen.single hpass).pairwise
  have hnodup : ns.Nodup := by
    refine hpairs.imp fun hpass heq => ?_
    subst heq
    exact h _ hpass
  exact (List.subperm_of_subset hnodup fun n hn => List.mem_filter.mpr (hns n hn)).length_le

end Graph

/-! ### Moves that all lead on -/

namespace Move

theorem passed_of_leads {g live : Graph} {m m' : Move} (hlive : m.stage.Live m.session live)
    (houtline : live.outline = g.outline) (h : m.Leads m') {n : Node} (harr : m.arrival? = some n) :
    n ∈ g.nodes ∧ n.kind.isPassed = true ∧ m'.port ∈ n.kind.passages ∧ m'.session.cursor = n.guid ∧
      ∃ live', m'.stage.Live m'.session live' ∧ live'.outline = g.outline := by
  have hact := acted hlive harr
  rw [h] at hact
  obtain ⟨live', hlive', houtline', -⟩ := hact.live
  obtain ⟨hpassed, hport⟩ := Graph.passed_of_advance hact.verdict.symm
  refine ⟨?_, hpassed, hport, hact.cursor, live', hlive', houtline'.trans houtline⟩
  rw [arrival?_of_live hlive] at harr
  have hnode := Graph.node?_of_next? harr
  rw [Graph.node?_eq_of_outline houtline] at hnode
  exact List.mem_of_find?_eq_some hnode

theorem passes_onward (g : Graph) (budget : Nat) (m : Move) : ∀ live n, m.stage.Live m.session live →
    live.outline = g.outline → m.arrival? = some n → (∀ x ∈ m.onward budget, ∃ x', x.Leads x') →
      ∃ ns, (n :: ns).length = (m.onward budget).length ∧ (n :: ns).IsChain g.Passes ∧
        ∀ v ∈ n :: ns, v ∈ g.nodes ∧ v.kind.isPassed = true := by
  induction budget, m using onward_induction with
  | rests budget m h =>
    intro live n hlive houtline harr hleads
    rw [onward_of_rests h] at hleads ⊢
    obtain ⟨m', hm'⟩ := hleads m (List.mem_singleton.mpr rfl)
    obtain ⟨hn, hpassed, -⟩ := passed_of_leads hlive houtline hm' harr
    exact ⟨[], rfl, .singleton n, fun v hv => by rw [List.mem_singleton.mp hv]; exact ⟨hn, hpassed⟩⟩
  | leads budget m m' h ih =>
    intro live n hlive houtline harr hleads
    rw [onward_of_leads h] at hleads ⊢
    obtain ⟨hn, hpassed, hport, hcursor, live', hlive', houtline'⟩ :=
      passed_of_leads hlive houtline h harr
    have hrest : ∀ x ∈ m'.onward budget, ∃ x', x.Leads x' := fun x hx =>
      hleads x (List.mem_cons_of_mem _ hx)
    obtain ⟨m'', hm''⟩ := hrest m' (m'.mem_onward budget)
    obtain ⟨n', harr'⟩ := arrival?_of_leads hm''
    obtain ⟨ns, hlength, hchain, hns⟩ := ih live' n' hlive' houtline' harr' hrest
    have hnext : g.next? n.guid m'.port = some n' := by
      rw [arrival?_of_live hlive', hcursor, Graph.next?_eq_of_outline houtline'] at harr'
      exact harr'
    have hpass : g.Passes n n' :=
      ⟨hn, hpassed, (hns n' List.mem_cons_self).2, m'.port, hport, hnext⟩
    refine ⟨n' :: ns, ?_, List.isChain_cons_cons.mpr ⟨hpass, hchain⟩, fun v hv => ?_⟩
    · rw [List.length_cons, hlength, List.length_cons]
    · rcases List.mem_cons.mp hv with rfl | hv
      · exact ⟨hn, hpassed⟩
      · exact hns v hv

end Move

/-! ### Calls -/

namespace Turn

theorem Moved.over_limit {t : Turn} {m l : Move} (h : t.Moved m l)
    (hover : l.outcome t.before.config.maxAutoAdvance =
      .error (.autoAdvanceLimit t.before.config.maxAutoAdvance)) :
    t.moves.length = t.before.config.maxAutoAdvance + 1 ∧ ∀ x ∈ t.moves, ∃ x', x.Leads x' := by
  obtain ⟨l', hleads⟩ := h.sound_last.leads_of_limit hover
  have hlast := h.last
  rw [h.moves_eq] at hlast ⊢
  exact Move.all_lead hlast hleads

theorem Moved.limit_of_reply {t : Turn} {m l : Move} (h : t.Moved m l) {limit : Nat}
    (hreply : t.reply = .session (.error (.autoAdvanceLimit limit))) :
    l.outcome t.before.config.maxAutoAdvance =
      .error (.autoAdvanceLimit t.before.config.maxAutoAdvance) := by
  have houtcome := Reply.session.inj (h.reply_eq.symm.trans hreply)
  rcases l.outcome_cases t.before.config.maxAutoAdvance with ho | ho | ho | ⟨node, flag, ho⟩
  · rw [ho] at houtcome
    cases houtcome
  · rw [ho] at houtcome
    cases houtcome
  · exact ho
  · rw [ho] at houtcome
    cases houtcome

end Turn

namespace Stage

/-- **No false alarm.** On a graph without a round of nodes that are passed, a limit that is not below
the number of such nodes is never exceeded by a call, whatever the listeners do on the way. -/
theorem never_over_limit (config : Config) (cs : List Call) : ∀ t ∈ (new config).turns cs, ∀ g,
    t.graph? = some g → g.NoRound →
      (g.nodes.filter fun n => n.kind.isPassed).length ≤ config.maxAutoAdvance →
        ∀ limit, t.reply ≠ .session (.error (.autoAdvanceLimit limit)) := by
  intro t ht g hg hround hlimit limit hreply
  obtain ⟨⟨hst, hconfig⟩, -⟩ := (settled_turns config cs).1 t ht
  obtain ⟨m, l, h⟩ := Turn.moved_of_failure hst hreply (by simp) (by simp)
  obtain ⟨hlength, hleads⟩ := h.over_limit (h.limit_of_reply hreply)
  have hfirst : m ∈ t.moves := by
    rw [h.moves_eq]
    exact m.mem_onward _
  obtain ⟨m', hm'⟩ := hleads m hfirst
  obtain ⟨n, harr⟩ := Move.arrival?_of_leads hm'
  obtain ⟨g', live, hg', hlive, houtline⟩ := h.live_of_mem hst hfirst
  obtain rfl : g' = g := Option.some.inj (hg'.symm.trans hg)
  rw [h.moves_eq] at hleads hlength
  obtain ⟨ns, hsame, hchain, hns⟩ := m.passes_onward g' _ live n hlive houtline harr hleads
  have hle := hround.length_le hchain hns
  rw [hconfig] at hlength hsame
  omega

end Stage

/-- An event, a branch, a change of viewpoint and a line, which leads back to the start. -/
def Graph.causeway : Graph :=
  ⟨⟨14⟩, ⟨"start"⟩, .origin,
    [.ofKind ⟨"bell"⟩ "" (.event "rung"), .ofKind ⟨"lamp"⟩ "" (.condition "lit"),
      .ofKind ⟨"look"⟩ "" (.focus .player), .ofKind ⟨"walk"⟩ "Walk on." (.basic none)],
    [⟨⟨"start"⟩, ⟨"bell"⟩, 0⟩, ⟨⟨"bell"⟩, ⟨"lamp"⟩, 0⟩, ⟨⟨"lamp"⟩, ⟨"look"⟩, 0⟩,
      ⟨⟨"lamp"⟩, ⟨"walk"⟩, 1⟩, ⟨⟨"look"⟩, ⟨"walk"⟩, 0⟩, ⟨⟨"walk"⟩, ⟨"start"⟩, 0⟩],
    [⟨⟨"a"⟩, "lit", .bool false⟩]⟩

/-- A listener who lights the lamp at every event. -/
def Listener.lamplighter : Listener :=
  ⟨"lamplighter", none, fun _ => .set "lit" (.bool true) fun _ => .done []⟩

theorem Graph.noRound_causeway : Graph.causeway.NoRound := by
  let rank (n : Node) : Nat := (Graph.causeway.index? n.guid).getD 0
  have hall : (Graph.causeway.nodes.all fun u => u.kind.passages.all fun port =>
      (Graph.causeway.next? u.guid port).all fun v => !v.kind.isPassed || rank u < rank v) = true :=
    rfl
  refine noRound_of_rank rank ?_
  rintro u v ⟨hu, -, hv, port, hport, hnext⟩
  have hstep := List.all_eq_true.mp (List.all_eq_true.mp hall u hu) port hport
  rw [hnext, Option.all_some, hv] at hstep
  simpa using hstep

namespace Stage

/-- All nodes that are passed are passed in one call, after the listener has turned the branch, and the
limit is just their number. -/
theorem never_over_limit_causeway :
    ∃ t ∈ (new { maxAutoAdvance := 4 }).turns
        [.register .causeway, .listen .lamplighter, .start ⟨14⟩ none, .select 0],
      t.visits = [⟨"start"⟩, ⟨"bell"⟩, ⟨"lamp"⟩, ⟨"look"⟩, ⟨"walk"⟩] ∧
        (∃ g, t.graph? = some g ∧ g.NoRound ∧
          (g.nodes.filter fun n => n.kind.isPassed).length = 4) ∧
        ∀ limit, t.reply ≠ .session (.error (.autoAdvanceLimit limit)) := by
  have hmem : (⟨_, _⟩ : Turn) ∈ (new { maxAutoAdvance := 4 }).turns
      [.register .causeway, .listen .lamplighter, .start ⟨14⟩ none, .select 0] :=
    List.mem_cons_of_mem _ (List.mem_cons_of_mem _ (List.mem_cons_of_mem _ List.mem_cons_self))
  refine ⟨_, hmem, rfl, ⟨_, rfl, Graph.noRound_causeway, rfl⟩, ?_⟩
  exact never_over_limit _ _ _ hmem _ rfl Graph.noRound_causeway (by decide)

end Stage

end Dialogue

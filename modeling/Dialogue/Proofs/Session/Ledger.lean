import Dialogue.Proofs.Session.Moments
import Dialogue.Proofs.Story.Ledger

/-!
# No write is lost

Only three things write to properties: a call of the host, a script of the host, and a listener that
hears an event. `Turn.attempts` lists the attempts of a call in order. All else that a call does
leaves the registered graphs alone, but for removing one, so from the call that adds a graph to the
one that removes it the graph holds what was written to it (`nothing_lost`).
-/

namespace Dialogue

open Ledger

/-! ### Acting on a node -/

namespace Stage

def ledger (st : Stage) : Ledger := ⟨st.blackboard, st.journal⟩

/-- The attempts to write when a session has come to a node. -/
def attemptsAt (st : Stage) (s : Session) (n : Node) : List Attempt :=
  match n.kind with
  | .event name => st.registry.attempts name (st.scopeOf s)
  | _ => []

section

variable (id : GraphId) (st : Stage) (s : Session)

theorem through_record {e : Entry} (he : e.isWrite = false) :
    Through id [] st.ledger (st.record e).ledger :=
  through_entry id st.ledger he

theorem through_focus (actor : Option Actor) (target : FocusTarget) :
    Through id [] st.ledger (st.focus actor target).ledger := by
  unfold focus
  split
  · exact through_refl id st.ledger
  · split
    · exact through_refl id st.ledger
    · exact st.through_record id rfl

theorem through_act (n : Node) :
    Through id (st.attemptsAt s n) st.ledger (st.act s n).1.ledger := by
  unfold attemptsAt act
  cases n.kind with
  | exit => exact through_refl id st.ledger
  | entry => exact through_refl id st.ledger
  | event name => exact st.registry.through_dispatch id name (st.scopeOf s)
  | focus target => exact st.through_focus id s.actor target
  | condition flag =>
    simp only
    split <;> exact through_refl id st.ledger
  | basic target =>
    cases target with
    | none => exact st.through_record id rfl
    | some target => exact (st.through_focus id s.actor target).trans (through_record id _ rfl)
  | choice choices => exact st.through_record id rfl

theorem through_close : Through id [] st.ledger (st.close s).ledger := by
  unfold close
  split
  · exact (st.through_record id rfl).trans ((st.tell .restored).through_record id rfl)
  · exact st.through_record id rfl

theorem through_abort (e : SessionError) : Through id [] st.ledger (st.abort s e).ledger :=
  (st.through_record id rfl).trans ((st.tell (.failed e)).through_close id s)

end

end Stage

/-! ### Moves -/

namespace Move

/-- The attempts to write while a move is made. -/
def attempts (m : Move) : List Attempt :=
  match m.arrival? with
  | some n => (m.stage.record (.entered n.guid)).attemptsAt { m.session with cursor := n.guid } n
  | none => []

theorem through_result (id : GraphId) (m : Move) :
    Through id m.attempts m.stage.ledger m.result.1.ledger := by
  unfold attempts
  cases harr : m.arrival? with
  | none =>
    rw [result_of_lost harr]
    exact through_refl id m.stage.ledger
  | some n =>
    rw [result_of_arrival harr]
    exact (m.stage.through_record id rfl).trans (Stage.through_act id _ _ n)

theorem through_land (id : GraphId) (limit : Nat) (m : Move) :
    Through id m.attempts m.stage.ledger (m.land limit).2.ledger := by
  have hresult := m.through_result id
  have hland : Through id [] m.result.1.ledger (m.land limit).2.ledger := by
    unfold land
    generalize m.result = r
    obtain ⟨st, s, verdict⟩ := r
    cases verdict with
    | pause => exact through_refl id st.ledger
    | finish => exact st.through_close id s
    | fail e => exact st.through_abort id s e
    | advance port => exact st.through_abort id s _
  have htrans := hresult.trans hland
  rwa [List.append_nil] at htrans

theorem through_advance (id : GraphId) (limit budget : Nat) (m : Move) :
    Through id ((m.onward budget).flatMap attempts) m.stage.ledger
      (Stage.advance limit budget m.stage m.session m.port).2.ledger := by
  induction budget, m using onward_induction with
  | rests budget m hrests =>
    rw [onward_of_rests hrests, advance_of_rests hrests, List.flatMap_singleton]
    exact m.through_land id limit
  | leads budget m m' hleads ih =>
    have hresult := m.through_result id
    rw [hleads] at hresult
    rw [onward_of_leads hleads, advance_of_leads hleads, List.flatMap_cons]
    exact hresult.trans ih

theorem keeps_onward (id : GraphId) (budget : Nat) (m : Move) :
    ∀ x ∈ m.onward budget, Keeps id m.stage.ledger x.stage.ledger := by
  refine forall_onward (fun a b ha hleads => ?_) budget m (keeps_refl id m.stage.ledger)
  have hresult := (a.through_result id).keeps
  rw [hleads] at hresult
  exact ha.trans hresult

theorem keeps_of_mem_scopes (id : GraphId) {m : Move} {sc : Scope} (h : sc ∈ m.scopes) :
    Keeps id m.stage.ledger sc.ledger := by
  rcases List.mem_append.mp h with h | h
  · rcases List.mem_cons.mp h with rfl | h
    · exact keeps_refl id m.stage.ledger
    · split at h
      · exact (m.stage.through_record id rfl).keeps.trans (Registry.keeps_of_mem_scopesOf id h)
      · exact absurd h List.not_mem_nil
  · rw [List.mem_singleton.mp h]
    exact (m.through_result id).keeps

end Move

/-! ### Calls -/

namespace Turn

/-- The attempts of a call to write: its own, or those of the listeners along its moves. -/
def attempts (t : Turn) : List Attempt :=
  (match t.call with
    | .set name v => [⟨t.before.scope, name, v⟩]
    | .perform p => p.attempts t.before.scope
    | _ => []) ++
    t.moves.flatMap Move.attempts

section

variable {id : GraphId} {st : Stage}

theorem through_departure {t : Turn} {m : Move} (h : t.departure? = some m) :
    Through id [] t.before.ledger m.stage.ledger := by
  rcases departure_stage h with hstage | ⟨other, hstage⟩
  · rw [hstage]
    exact through_refl id t.before.ledger
  · rw [hstage]
    exact (t.before.through_record id rfl).trans ((t.before.tell .snapshot).through_record id rfl)

theorem through_moves {t : Turn} (hattempts : t.attempts = t.moves.flatMap Move.attempts)
    (h : t.before.Advances t.after t.departure?) :
    Through id t.attempts t.before.ledger t.after.ledger := by
  rw [hattempts]
  obtain ⟨hnone, hafter⟩ | ⟨m, hsome, hafter⟩ := h
  · rw [moves_of_none hnone, hafter]
    exact through_refl id t.before.ledger
  · rw [moves_of_departure hsome, hafter]
    exact (through_departure hsome).trans (m.through_advance id _ _)

theorem through_register (id : GraphId) (st : Stage) (g : Graph) :
    Through id [] st.ledger (st.register g).2.ledger := by
  have haccept : Through id [] st.ledger
      (Stage.ledger { st with blackboard := st.blackboard.register g }) :=
    through_of_board (List.nil_append _).symm (by simp) (fun h => h.register g)
      fun _ h => Blackboard.graph?_register h g
  unfold Stage.register
  split
  · split
    · exact through_refl id st.ledger
    · exact haccept
  · exact haccept

theorem through_stop (id : GraphId) (st : Stage) : Through id [] st.ledger st.stop.ledger := by
  unfold Stage.stop
  split
  · exact through_refl id st.ledger
  · exact st.through_close id _

theorem through_unregister {other : GraphId} (hne : other ≠ id) (st : Stage) :
    Through id [] st.ledger (st.unregister other).2.ledger := by
  have hstop : Through id [] st.ledger
      (if st.activeGraph? = some other then st.stop else st).ledger := by
    split
    · exact through_stop id st
    · exact through_refl id st.ledger
  exact hstop.trans (through_of_board (List.nil_append _).symm (by simp)
    (fun h => h.unregister other) fun _ h => (Blackboard.graph?_unregister hne).trans h)

/-- **What a call writes to a graph that it does not remove.** -/
theorem through (t : Turn) (h : t.call ≠ .unregister id) :
    Through id t.attempts t.before.ledger t.after.ledger := by
  obtain ⟨st, c⟩ := t
  cases c with
  | register g => exact through_register id st g
  | unregister other => exact through_unregister (fun hid => h (by rw [hid])) st
  | listen l => exact through_refl id st.ledger
  | unlisten key => exact through_refl id st.ledger
  | start other actor => exact through_moves rfl (st.advances_start other actor)
  | serve server => exact through_moves rfl (st.advances_start server.graph server.actor)
  | select port => exact through_moves rfl (st.advances_select port)
  | stop => exact through_stop id st
  | set name v => exact st.scope.through_set id name v
  | perform p =>
    have hrun := p.through_run id st.scope
    have hattempts : attempts ⟨st, .perform p⟩ = p.attempts st.scope := List.append_nil _
    rw [hattempts]
    exact hrun

theorem keeps_of_mem_scopes (t : Turn) (h : t.call ≠ .unregister id) {sc : Scope}
    (hsc : sc ∈ t.scopes) : Keeps id t.before.ledger sc.ledger := by
  rcases List.mem_append.mp hsc with hsc | hsc
  · rcases List.mem_append.mp hsc with hsc | hsc
    · rcases List.mem_cons.mp hsc with rfl | hsc
      · exact keeps_refl id t.before.ledger
      · split at hsc
        · exact Script.keeps_of_mem_scopes id _ hsc
        · exact Script.keeps_of_mem_scopes id _ hsc
        · exact absurd hsc List.not_mem_nil
    · obtain ⟨x, hx, hsc⟩ := List.mem_flatMap.mp hsc
      cases hdeparture : t.departure? with
      | none =>
        rw [moves_of_none hdeparture] at hx
        exact absurd hx List.not_mem_nil
      | some m =>
        rw [moves_of_departure hdeparture] at hx
        exact ((through_departure hdeparture).keeps.trans (m.keeps_onward id _ x hx)).trans
          (Move.keeps_of_mem_scopes id hsc)
  · rw [List.mem_singleton.mp hsc]
    exact (t.through h).keeps

theorem distinct_after (t : Turn) (h : t.before.blackboard.Distinct) :
    t.after.blackboard.Distinct := by
  by_cases hcall : ∃ other, t.call = .unregister other
  · obtain ⟨st, c⟩ := t
    obtain ⟨other, rfl⟩ := hcall
    have hstop : (if st.activeGraph? = some other then st.stop else st).blackboard.Distinct := by
      split
      · obtain ⟨new, hsince, -⟩ := through_stop other st
        exact hsince.distinct h
      · exact h
    exact hstop.unregister other
  · obtain ⟨new, hsince, -⟩ := t.through fun hid => hcall ⟨⟨0⟩, hid⟩
    exact hsince.distinct h

end

end Turn

/-! ### Runs -/

namespace Stage

theorem unregister_fst (st : Stage) (id : GraphId) :
    (st.unregister id).1 = st.blackboard.graph? id := by
  have hboard : (if st.activeGraph? = some id then st.stop else st).blackboard = st.blackboard := by
    split
    · exact st.stop_frame.2.2
    · rfl
  simp only [unregister, hboard, Blackboard.unregister]
  cases st.blackboard.graph? id <;> rfl

theorem keeps_turns {id : GraphId} {cs : List Call} : .unregister id ∉ cs → ∀ st : Stage,
    (∀ t ∈ st.turns cs, t.call ≠ .unregister id ∧ Keeps id st.ledger t.before.ledger) ∧
      Keeps id st.ledger (st.run cs).2.ledger := by
  induction cs with
  | nil =>
    intro _ st
    exact ⟨fun t ht => absurd ht List.not_mem_nil, keeps_refl id st.ledger⟩
  | cons c cs ih =>
    intro hcs st
    have hc : c ≠ .unregister id := fun h => hcs (h ▸ List.mem_cons_self)
    have hfirst : Keeps id st.ledger (st.call c).2.ledger := (Turn.through ⟨st, c⟩ hc).keeps
    obtain ⟨hturns, hrun⟩ := ih (fun h => hcs (List.mem_cons_of_mem _ h)) (st.call c).2
    refine ⟨fun t ht => ?_, hfirst.trans hrun⟩
    rcases List.mem_cons.mp ht with rfl | ht
    · exact ⟨hc, keeps_refl id st.ledger⟩
    · exact ⟨(hturns t ht).1, hfirst.trans (hturns t ht).2⟩

/-- A run comes to a stage by a call that adds a graph to those registered. -/
structure Adds (config : Config) (cs : List Call) (g : Graph) (st : Stage) : Prop where
  absent : ((new config).run cs).2.blackboard.contains g.id = false
  added : ((new config).run cs).2.call (.register g) = (.registered (.ok g.id), st)

theorem Adds.registered {config : Config} {cs : List Call} {g : Graph} {st : Stage}
    (h : Adds config cs g st) : st.blackboard.Distinct ∧ st.blackboard.graph? g.id = some g := by
  have hdistinct := (forall_turns (P := fun st => st.blackboard.Distinct)
    (fun t ht => t.distinct_after ht) cs (new config) List.nodup_nil).2
  have hafter := Turn.distinct_after ⟨_, .register g⟩ hdistinct
  rw [Turn.after, h.added] at hafter
  refine ⟨hafter, ?_⟩
  have hadded : ((new config).run cs).2.register g = (.ok g.id, st) := by
    have hfst := congrArg Prod.fst h.added
    have hsnd := congrArg Prod.snd h.added
    exact Prod.ext (Reply.registered.inj hfst) hsnd
  unfold register at hadded
  simp only at hadded
  split at hadded
  · split at hadded
    · simp at hadded
    · rw [← (Prod.mk.inj hadded).2]
      exact Blackboard.graph?_register_new h.absent
  · rw [← (Prod.mk.inj hadded).2]
    exact Blackboard.graph?_register_new h.absent

/-- **No write is lost, and nothing else changes.** From the call that adds a graph to the one that
removes it, the graph is at every moment as it was added, but that each property has the last value
that was written to it since, in whichever way and whatever came of the call. Each write went to the
one property of its name, and what is entered as written is what was attempted by the host and the
listeners where the name resolved to a property of the kind. The graph that is handed back in the
end has all of it. -/
theorem nothing_lost {config : Config} {cs₀ : List Call} {g : Graph} {st : Stage}
    (hadds : Adds config cs₀ g st) {cs : List Call} (hcs : .unregister g.id ∉ cs) :
    (∀ t ∈ st.turns cs, ∀ sc ∈ t.scopes, ∃ since, sc.journal = since ++ st.journal ∧
      sc.blackboard.graph? g.id = some (g.rewritten (Journal.writes g.id since)) ∧
      (g.rewritten (Journal.writes g.id since)).outline = g.outline ∧
      ∀ w ∈ Journal.writes g.id since, (g.properties.filter fun p => p.name = w.1).length = 1) ∧
    (∀ t ∈ st.turns cs, t.after.journal.filter Entry.isWrite =
      (t.attempts.filterMap Attempt.entry?).reverse ++ t.before.journal.filter Entry.isWrite) ∧
    ∃ since, (st.run cs).2.journal = since ++ st.journal ∧
      ((st.run cs).2.call (.unregister g.id)).1 =
        .unregistered (some (g.rewritten (Journal.writes g.id since))) := by
  obtain ⟨hdistinct, hgraph⟩ := hadds.registered
  obtain ⟨hturns, hrun⟩ := keeps_turns hcs st
  refine ⟨fun t ht sc hsc => ?_, fun t ht => ?_, ?_⟩
  · obtain ⟨hcall, hbefore⟩ := hturns t ht
    obtain ⟨since, hsince⟩ := hbefore.trans (t.keeps_of_mem_scopes hcall hsc)
    exact ⟨since, hsince.journal, hsince.graph g hgraph, hsince.outline g hgraph,
      hsince.single hdistinct g hgraph⟩
  · obtain ⟨new, hsince, hnew⟩ := t.through (hturns t ht).1
    have hjournal : t.after.journal = new ++ t.before.journal := hsince.journal
    rw [hjournal, List.filter_append, hnew]
  · obtain ⟨since, hsince⟩ := hrun
    refine ⟨since, hsince.journal, ?_⟩
    show Reply.unregistered ((st.run cs).2.unregister g.id).1 = _
    rw [unregister_fst]
    exact congrArg Reply.unregistered (hsince.graph g hgraph)

end Stage

/-- A fee that is paid at a crossing, whose branch asks for a name that nobody declares. -/
def Graph.ferry : Graph :=
  ⟨⟨10⟩, ⟨"start"⟩, .origin,
    [.ofKind ⟨"pay"⟩ "" (.event "paid"), .ofKind ⟨"bank"⟩ "" (.condition "arrived")],
    [⟨⟨"start"⟩, ⟨"pay"⟩, 0⟩, ⟨⟨"pay"⟩, ⟨"bank"⟩, 0⟩], [⟨⟨"p"⟩, "fee", .int 2⟩]⟩

/-- A listener who takes the fee at every event. -/
def Listener.ferryman : Listener :=
  ⟨"ferryman", none, fun _ => .set "fee" (.int 0) fun _ => .done []⟩

/-- The host registers a clone with another fee, changes the fee, and starts a session. -/
def Call.crossing : List Call :=
  [.listen .ferryman, .register (Graph.ferry.setNamed "fee" (.int 5)), .set "fee" (.int 3),
    .start ⟨10⟩ none]

namespace Stage

/-- The session fails after the listener has written, and the graph that is handed back has what was
written; the clone was not added meanwhile. -/
theorem nothing_lost_ferry :
    ∃ st, Adds {} [] .ferry st ∧ .unregister ⟨10⟩ ∉ Call.crossing ∧
      (st.run Call.crossing).1.getLast? =
        some (.session (.error (.unknownCondition ⟨"bank"⟩ "arrived"))) ∧
      ∃ since, Journal.writes ⟨10⟩ since = [("fee", .int 0), ("fee", .int 3)] ∧
        ((st.run Call.crossing).2.call (.unregister ⟨10⟩)).1 =
          .unregistered (some (Graph.ferry.rewritten (Journal.writes ⟨10⟩ since))) := by
  have hadds : Adds {} [] .ferry (((new {}).call (.register .ferry)).2) := ⟨rfl, rfl⟩
  have hkept : .unregister ⟨10⟩ ∉ Call.crossing := by simp [Call.crossing]
  obtain ⟨since, hjournal, hreply⟩ := (nothing_lost hadds hkept).2.2
  refine ⟨_, hadds, hkept, rfl, since, ?_, hreply⟩
  have hsince : since = (((new {}).call (.register .ferry)).2.run Call.crossing).2.journal :=
    (hjournal.trans (List.append_nil since)).symm
  rw [hsince]
  rfl

end Stage

end Dialogue

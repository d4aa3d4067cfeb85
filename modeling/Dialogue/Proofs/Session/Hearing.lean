import Dialogue.Proofs.Story.Hearing
import Dialogue.Proofs.Session.Audience
import Dialogue.Proofs.Session.Guard

/-!
# What the audience hears

A call that moves a session stops at the nodes that it enters, and at an event every registered
listener hears it before the session goes on (`Stop`). All that is done during the call is done at its
stops, in order, and each hearing begins with the properties as the one before left them and with what
was handled so far, at whatever node that was (`Stage.Heard`): one move is one stop
(`Move.heard_result`), and the stops of an advance are those of its moves (`Move.heard_advance`). So
every listener of the audience hears every event once, in order, the last event before a failure as
well (`heard_once_in_order`).
-/

namespace Dialogue

/-! ### Stops -/

/-- Those who hear something at a node, and what they hear. -/
def NodeKind.hearers (ls : List Listener) : NodeKind → List (Listener × String)
  | event name => ls.map fun l => (l, name)
  | _ => []

/-- A node that a session enters, with the hearings there. -/
structure Stop where
  node : Node
  hearings : List Hearing

/-- What is done at a stop: the node is entered, then the listeners do what they do. -/
def Stop.deeds (s : Stop) : List Entry := .entered s.node.guid :: s.hearings.flatMap Hearing.deeds

namespace Stage

/-- Between two stages a session stops at nodes, and nothing else is done. -/
structure Heard (st st' : Stage) (nodes : List Node) (stops : List Stop) : Prop where
  nodes : stops.map Stop.node = nodes
  /-- At an event every registered listener hears it, in the order of the registry. -/
  hearings : ∀ s ∈ stops,
    s.hearings.map (fun h => (h.listener, h.event)) = s.node.kind.hearers st.registry.listeners
  thread : Hearing.Thread st.blackboard st.journal.heard (stops.flatMap Stop.hearings) st'.blackboard
    st'.journal.heard
  deeds : st'.deeds = st.deeds ++ stops.flatMap Stop.deeds
  registry : st'.registry = st.registry

theorem heard_nil {st st' : Stage} (hboard : st'.blackboard = st.blackboard)
    (hdeeds : st'.deeds = st.deeds) (hregistry : st'.registry = st.registry) :
    st.Heard st' [] [] :=
  ⟨rfl, nofun, ⟨hboard, Journal.heard_of_deeds hdeeds⟩, hdeeds.trans (List.append_nil _).symm,
    hregistry⟩

theorem Heard.trans {st st' st'' : Stage} {nodes nodes' : List Node} {stops stops' : List Stop}
    (h : st.Heard st' nodes stops) (h' : st'.Heard st'' nodes' stops') :
    st.Heard st'' (nodes ++ nodes') (stops ++ stops') where
  nodes := by rw [List.map_append, h.nodes, h'.nodes]
  hearings := by
    intro s hs
    rcases List.mem_append.mp hs with hs | hs
    · exact h.hearings s hs
    · rw [← h.registry]
      exact h'.hearings s hs
  thread := by
    rw [List.flatMap_append]
    exact h.thread.append h'.thread
  deeds := by rw [h'.deeds, h.deeds, List.flatMap_append, List.append_assoc]
  registry := h'.registry.trans h.registry

theorem heard_act (st : Stage) (s : Session) (n : Node) : ∃ hs : List Hearing,
    hs.map (fun h => (h.listener, h.event)) = n.kind.hearers st.registry.listeners ∧
      Hearing.Thread st.blackboard st.journal.heard hs (st.act s n).1.blackboard
        (st.act s n).1.journal.heard ∧
        (st.act s n).1.deeds = st.deeds ++ hs.flatMap Hearing.deeds := by
  by_cases h : ∃ event, n.kind = .event event
  · obtain ⟨guid, position, text, kind⟩ := n
    obtain ⟨event, rfl⟩ := h
    exact st.registry.dispatch_heard event (st.scopeOf s)
  · have hquiet := not_exists.mp h
    have hplain := st.plain_act s hquiet
    have hdeeds := deeds_congr hplain
    refine ⟨[], ?_, ⟨blackboard_congr hplain, Journal.heard_of_deeds hdeeds⟩,
      hdeeds.trans (List.append_nil _).symm⟩
    unfold NodeKind.hearers
    split
    · rename_i event hkind
      exact absurd hkind (hquiet event)
    · rfl

end Stage

namespace Move

theorem heard_result (m : Move) : ∃ stops, m.stage.Heard m.result.1 m.arrival?.toList stops := by
  cases harr : m.arrival? with
  | none =>
    rw [result_of_lost harr]
    exact ⟨[], Stage.heard_nil rfl rfl rfl⟩
  | some n =>
    obtain ⟨hs, hheard, hthread, hdeeds⟩ :=
      (m.stage.record (.entered n.guid)).heard_act { m.session with cursor := n.guid } n
    have hentered : (m.stage.record (.entered n.guid)).deeds = m.stage.deeds ++ [.entered n.guid] :=
      Journal.deeds_cons rfl _
    have hregistry := m.registry_result
    rw [result_of_arrival harr] at hregistry ⊢
    refine ⟨[⟨n, hs⟩], rfl, fun s hmem => ?_, ?_, ?_, hregistry⟩
    · rw [List.mem_singleton.mp hmem]
      exact hheard
    · rw [List.flatMap_singleton]
      exact hthread
    · rw [hdeeds, hentered, List.flatMap_singleton, List.append_assoc]
      rfl

theorem heard_land (m : Move) (limit : Nat) : m.result.1.Heard (m.land limit).2 [] [] := by
  obtain ⟨-, hregistry, hboard, -⟩ := m.land_frame limit
  refine Stage.heard_nil hboard ?_ hregistry
  unfold land
  split <;> rename_i hresult <;> rw [hresult]
  · rfl
  · exact Stage.deeds_close _ _
  · exact Stage.deeds_close _ _
  · exact Stage.deeds_close _ _

theorem heard_advance (limit budget : Nat) (m : Move) : ∃ stops,
    m.stage.Heard (Stage.advance limit budget m.stage m.session m.port).2
      ((m.onward budget).filterMap arrival?) stops := by
  induction budget, m using onward_induction with
  | rests budget m hrests =>
    obtain ⟨stops, hstops⟩ := m.heard_result
    rw [onward_of_rests hrests, advance_of_rests hrests]
    have htrans := hstops.trans (m.heard_land limit)
    rw [List.append_nil, List.append_nil] at htrans
    refine ⟨stops, ?_⟩
    cases harr : m.arrival? <;> simpa [harr] using htrans
  | leads budget m m' hleads ih =>
    obtain ⟨stops, hstops⟩ := m.heard_result
    obtain ⟨stops', hstops'⟩ := ih
    obtain ⟨n, harr⟩ := arrival?_of_leads hleads
    rw [hleads, harr] at hstops
    rw [onward_of_leads hleads, advance_of_leads hleads, List.filterMap_cons, harr]
    exact ⟨stops ++ stops', hstops.trans hstops'⟩

end Move

namespace Turn

theorem heard {t : Turn} {r : Except SessionError SessionState} (h : t.reply = .session r) :
    ∃ stops, t.before.Heard t.after (t.moves.filterMap Move.arrival?) stops := by
  obtain ⟨hnone, hafter⟩ | ⟨m, hm, hafter⟩ := advances_of_session h
  · rw [moves_of_none hnone, hafter]
    exact ⟨[], Stage.heard_nil rfl rfl rfl⟩
  · obtain ⟨stops, hstops⟩ := m.heard_advance t.before.config.maxAutoAdvance
      t.before.config.maxAutoAdvance
    have hfirst : t.before.Heard m.stage [] [] := by
      rcases departure_stage hm with hstage | ⟨id, hstage⟩ <;> rw [hstage] <;>
        exact Stage.heard_nil rfl rfl rfl
    rw [moves_of_departure hm, hafter]
    exact ⟨stops, hfirst.trans hstops⟩

theorem length_of_limit {t : Turn} (hst : t.before.Settled) {limit : Nat}
    (h : t.reply = .session (.error (.autoAdvanceLimit limit))) :
    (t.moves.filterMap Move.arrival?).length = limit + 1 := by
  obtain ⟨m, l, hm⟩ := moved_of_failure hst h (by simp) (by simp)
  obtain ⟨rfl, hlength, hall⟩ := (reply_eq_limit_iff hm.departure).mp h
  rw [arrivals_of_passes hall, hlength]

end Turn

namespace Stage

/-- **Every listener hears every event once, in order.** After any calls the registry is the audience
that they gather, without repetition, and a further call answers that it changes the registry exactly
if it does. A further call to a session does nothing but at the nodes that it enters, in their order: at
an event, also at the last one before a failure, each listener of the audience hears it once, with the
properties as the one before left them and with what was handled so far. -/
theorem heard_once_in_order {config : Config} {cs : List Call} {t : Turn}
    (ht : t.before = ((new config).run cs).2) :
    t.before.registry.listeners = Call.audience [] cs ∧
      (t.before.registry.listeners.map Listener.key).Nodup ∧
      (∀ changed, t.reply = .listening changed →
        (changed = true ↔ t.after.registry ≠ t.before.registry)) ∧
      ∀ r, t.reply = .session r → ∃ stops,
        t.before.Heard t.after (t.moves.filterMap Move.arrival?) stops ∧
          ∀ limit, r = .error (.autoAdvanceLimit limit) → stops.length = limit + 1 := by
  obtain ⟨hlisteners, hdistinct⟩ := listeners_run config cs
  rw [← ht] at hlisteners hdistinct
  refine ⟨hlisteners, hdistinct, fun changed => Turn.changes_iff, fun r hr => ?_⟩
  obtain ⟨stops, hstops⟩ := Turn.heard hr
  refine ⟨stops, hstops, fun limit hlimit => ?_⟩
  have hst : t.before.Settled := by
    rw [ht]
    exact (settled_turns config cs).2.1
  have hlength := Turn.length_of_limit hst (hr.trans (congrArg Reply.session hlimit))
  rw [← hlength, ← hstops.nodes, List.length_map]

end Stage

/-- Two events that lead to each other. -/
def Graph.belfry : Graph :=
  ⟨⟨16⟩, ⟨"start"⟩, .origin,
    [.ofKind ⟨"ring"⟩ "" (.event "rung"), .ofKind ⟨"toll"⟩ "" (.event "tolled")],
    [⟨⟨"start"⟩, ⟨"ring"⟩, 0⟩, ⟨⟨"ring"⟩, ⟨"toll"⟩, 0⟩, ⟨⟨"toll"⟩, ⟨"ring"⟩, 0⟩],
    [⟨⟨"a"⟩, "strokes", .int 0⟩]⟩

/-- A listener who counts at every event. -/
def Listener.ringer : Listener :=
  ⟨"ringer", none, fun _ => Action.scriptOf [.add "strokes" 1]⟩

/-- A listener who reads the count at one event only. -/
def Listener.sexton : Listener :=
  ⟨"sexton", some "tolled", fun _ => Action.scriptOf [.get "strokes"]⟩

namespace Stage

/-- The listener who was removed and came back hears the events last, and the session fails at the third
node, where the event is still heard. -/
theorem heard_once_in_order_belfry : ∃ t : Turn,
    t.before = ((new { maxAutoAdvance := 2 }).run [.register .belfry, .listen .sexton,
      .listen .ringer, .unlisten "sexton", .listen .sexton]).2 ∧
    t.reply = .session (.error (.autoAdvanceLimit 2)) ∧
    t.visits = [⟨"ring"⟩, ⟨"toll"⟩, ⟨"ring"⟩] ∧
    t.after.blackboard.get "strokes" = .ok (.int 3) ∧
    t.before.registry.listeners.map Listener.key = ["ringer", "sexton"] ∧
    t.after.deeds[6]? = some (.handled "sexton" "tolled" [.ok (some (.int 2))]) ∧
    ∃ stops, t.before.Heard t.after (t.moves.filterMap Move.arrival?) stops ∧ stops.length = 3 := by
  have hlimit : Turn.reply ⟨((new { maxAutoAdvance := 2 }).run [.register .belfry, .listen .sexton,
      .listen .ringer, .unlisten "sexton", .listen .sexton]).2, .start ⟨16⟩ none⟩ =
        .session (.error (.autoAdvanceLimit 2)) := rfl
  obtain ⟨-, -, -, hheard⟩ := heard_once_in_order (t := ⟨_, .start ⟨16⟩ none⟩) rfl
  obtain ⟨stops, hstops, hlength⟩ := hheard _ hlimit
  exact ⟨⟨_, .start ⟨16⟩ none⟩, rfl, hlimit, rfl, rfl, rfl, rfl, stops, hstops, hlength 2 rfl⟩

end Stage

end Dialogue

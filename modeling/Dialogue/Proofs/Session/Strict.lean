import Dialogue.Proofs.Graph.Links
import Dialogue.Proofs.Session.Moments

/-!
# Strict settings

With strict settings a graph is checked once, when it is registered. Every later step either removes
graphs or keeps the outlines of those that are there, so all registered graphs pass the check at every
moment of a run, in the middle of a dispatch as well. Hence every link of a registered graph leads to
its target, and a session ends for want of a connection only where no link is declared
(`every_link_leads`).
-/

namespace Dialogue

/-! ### Boards in order -/

namespace Blackboard

/-- The links of every registered graph are in order. -/
def InOrder (b : Blackboard) : Prop := ∀ g ∈ b.graphs, g.InOrder

/-- Every registered graph passes the check, and each of its links leads to its target. -/
def Connected (b : Blackboard) : Prop :=
  ∀ g ∈ b.graphs, g.validate = .ok () ∧ ∀ l ∈ g.links, ∃ n,
    g.next? l.outNode l.port = some n ∧ g.node? l.inNode = some n ∧ n.guid = l.inNode

theorem InOrder.connected {b : Blackboard} (h : b.InOrder) : b.Connected := fun g hg =>
  ⟨Graph.validate_eq_ok_iff.mpr (h g hg), fun _ hl => (h g hg).next?_of_mem hl⟩

theorem InOrder.of_outline {b b' : Blackboard} (h : b.InOrder) (houtline : b'.outline = b.outline) :
    b'.InOrder := by
  intro g' hg'
  have hmem : g'.outline ∈ b.outline.graphs := by
    rw [← houtline]
    exact List.mem_map_of_mem hg'
  obtain ⟨g, hg, hsame⟩ := List.mem_map.mp hmem
  exact (Graph.inOrder_of_outline hsame).mp (h g hg)

theorem InOrder.register {b : Blackboard} {g : Graph} (h : b.InOrder) (hg : g.InOrder) :
    (b.register g).InOrder := by
  unfold Blackboard.register
  split
  · exact h
  · intro x hx
    rcases List.mem_append.mp hx with hx | hx
    · exact h x hx
    · rw [List.mem_singleton.mp hx]
      exact hg

theorem InOrder.unregister {b : Blackboard} (h : b.InOrder) (id : GraphId) :
    (b.unregister id).2.InOrder := by
  unfold Blackboard.unregister
  split
  · exact fun x hx => h x (List.mem_of_mem_eraseP hx)
  · exact h

end Blackboard

/-! ### Turns -/

theorem Move.Sound.outline_scopes {m : Move} (hs : m.Sound) :
    ∀ sc ∈ m.scopes, sc.blackboard.outline = m.stage.blackboard.outline := by
  intro sc hsc
  rcases List.mem_append.mp hsc with hsc | hsc
  · rcases List.mem_cons.mp hsc with rfl | hsc
    · rfl
    · split at hsc
      · exact (Registry.worked_of_mem_scopes hsc).outline
      · exact absurd hsc List.not_mem_nil
  · rw [List.mem_singleton.mp hsc]
    exact hs.akin_result.outline

namespace Stage

theorem register_strict {st : Stage} (hstrict : st.config.strictLinks = true) (g : Graph) :
    (g.InOrder ∧ st.register g =
      (.ok g.id, { st with blackboard := st.blackboard.register g })) ∨
      ∃ e, g.validate = .error e ∧ st.register g = (.error e, st) := by
  cases hcheck : g.validate with
  | ok u =>
    refine Or.inl ⟨Graph.validate_eq_ok_iff.mp hcheck, ?_⟩
    simp only [register, hstrict, if_true, hcheck]
  | error e =>
    refine Or.inr ⟨e, rfl, ?_⟩
    simp only [register, hstrict, if_true, hcheck]

end Stage

namespace Turn

variable {t : Turn}

theorem Moved.outline_of_mem {m l x : Move} (h : t.Moved m l) (hx : x ∈ t.moves) :
    x.stage.blackboard.outline = t.before.blackboard.outline := by
  rw [(h.akin_of_mem hx).outline]
  rcases departure_stage h.departure with hstage | ⟨id, hstage⟩ <;> rw [hstage]
  rfl

theorem outline_of_session (hst : t.before.Settled) {r : Except SessionError SessionState}
    (hreply : t.reply = .session r) :
    t.after.blackboard.outline = t.before.blackboard.outline := by
  rcases moved_or_none hst with hnone | ⟨m, l, h⟩
  · rcases advances_of_session hreply with ⟨-, hafter⟩ | ⟨m, hsome, -⟩
    · rw [hafter]
    · rw [hnone] at hsome
      simp at hsome
  · rw [h.after, (l.land_frame _).2.2.1, h.sound_last.akin_result.outline]
    exact h.outline_of_mem (List.mem_of_getLast? h.last)

theorem inOrder_after (hst : t.before.Settled) (hstrict : t.before.config.strictLinks = true)
    (h : t.before.blackboard.InOrder) : t.after.blackboard.InOrder := by
  have hsession : ∀ r, t.reply = .session r → t.after.blackboard.InOrder := fun r hr =>
    h.of_outline (outline_of_session hst hr)
  obtain ⟨st, c⟩ := t
  cases c with
  | register g =>
    show (st.register g).2.blackboard.InOrder
    rcases Stage.register_strict hstrict g with ⟨hg, haccept⟩ | ⟨e, -, hrefuse⟩
    · rw [haccept]
      exact h.register hg
    · rw [hrefuse]
      exact h
  | unregister id =>
    show (st.unregister id).2.blackboard.InOrder
    have hstop : (if st.activeGraph? = some id then st.stop else st).blackboard.InOrder := by
      split
      · rw [st.stop_frame.2.2]
        exact h
      · exact h
    exact hstop.unregister id
  | listen l => exact h
  | unlisten key => exact h
  | start id actor => exact hsession _ rfl
  | serve server => exact hsession _ rfl
  | select port => exact hsession _ rfl
  | stop =>
    show st.stop.blackboard.InOrder
    rw [st.stop_frame.2.2]
    exact h
  | set name v => exact h.of_outline (Scope.Worked.set st.scope name v).outline
  | perform p => exact h.of_outline (p.worked_run st.scope).outline

theorem inOrder_scopes (hst : t.before.Settled) (hstrict : t.before.config.strictLinks = true)
    (h : t.before.blackboard.InOrder) : ∀ sc ∈ t.scopes, sc.blackboard.InOrder := by
  intro sc hsc
  rcases List.mem_append.mp hsc with hsc | hsc
  · rcases List.mem_append.mp hsc with hsc | hsc
    · rcases List.mem_cons.mp hsc with rfl | hsc
      · exact h
      · split at hsc
        · exact h.of_outline (Script.worked_of_mem_scopes _ hsc).outline
        · exact h.of_outline (Script.worked_of_mem_scopes _ hsc).outline
        · exact absurd hsc List.not_mem_nil
    · obtain ⟨x, hx, hsc⟩ := List.mem_flatMap.mp hsc
      obtain ⟨m, l, hmoved⟩ := moved_of_mem hst hx
      refine h.of_outline ?_
      rw [(hmoved.sound_of_mem hx).outline_scopes sc hsc, hmoved.outline_of_mem hx]
  · rw [List.mem_singleton.mp hsc]
    exact inOrder_after hst hstrict h

/-! ### Want of a connection -/

theorem Moved.ended_of_lost {m l x : Move} (h : t.Moved m l) (hx : x ∈ t.moves)
    (hlost : x.arrival? = none) : t.reply = .session (.ok .ended) := by
  have hstays : ¬ ∃ x', x.Leads x' := by
    rintro ⟨x', hleads⟩
    obtain ⟨n, harr⟩ := Move.arrival?_of_leads hleads
    rw [hlost] at harr
    simp at harr
  rw [h.moves_eq] at hx
  have hlast := (Move.leads_or_last _ m x hx).resolve_left hstays
  rw [← h.moves_eq, h.last] at hlast
  obtain rfl := Option.some.inj hlast
  rw [h.reply_eq, Move.outcome_of_lost hlost]

theorem moved_of_ended (hst : t.before.Settled) (h : t.reply = .session (.ok .ended)) :
    ∃ m l, t.Moved m l := by
  cases t.course hst with
  | kept hk => cases hk.reply _ h
  | closed s hc => exact absurd h (hc.reply _)
  | moved m l hm => exact ⟨m, l, hm⟩

theorem Moved.exit_or_lost {m l : Move} (h : t.Moved m l)
    (hreply : t.reply = .session (.ok .ended)) :
    (∃ n, l.arrival? = some n ∧ n.kind = .exit) ∨ l.arrival? = none := by
  obtain ⟨g, hlive⟩ := h.sound_last.live
  cases harr : l.arrival? with
  | none => exact Or.inr rfl
  | some n =>
    refine Or.inl ⟨n, rfl, ?_⟩
    have hended := Reply.session.inj (h.reply_eq.symm.trans hreply)
    rw [Move.outcome_of_arrival hlive harr] at hended
    cases hkind : n.kind with
    | exit => rfl
    | condition flag =>
      cases hflag : g.flag? flag with
      | none => simp [Graph.verdict, hkind, hflag] at hended
      | some b => cases b <;> simp [Graph.verdict, hkind, hflag] at hended
    | _ => simp [Graph.verdict, hkind] at hended

theorem undeclared_of_lost (hst : t.before.Settled) (hstrict : t.before.config.strictLinks = true)
    (h : t.before.blackboard.InOrder) {x : Move} (hx : x ∈ t.moves) (hlost : x.arrival? = none) :
    ∃ g, x.graph? = some g ∧
      ∀ l ∈ g.links, ¬ (l.outNode = x.session.cursor ∧ l.port = x.port) := by
  obtain ⟨g, hlive⟩ := (sound_of_mem hst hx).live
  have hfirst : x.stage.scopeOf x.session ∈ t.scopes := by
    refine List.mem_append_left _ (List.mem_append_right _ (List.mem_flatMap.mpr ⟨x, hx, ?_⟩))
    exact List.mem_append_left _ List.mem_cons_self
  have hgraph : g.InOrder :=
    inOrder_scopes hst hstrict h _ hfirst g (Blackboard.mem_of_graph? hlive.1)
  rw [Move.arrival?_of_live hlive] at hlost
  exact ⟨g, hlive.1, hgraph.undeclared hlost⟩

end Turn

/-! ### Runs -/

namespace Stage

theorem inOrder_turns {config : Config} (hstrict : config.strictLinks = true) (cs : List Call) :
    (∀ t ∈ (new config).turns cs, t.before.Settled ∧ t.before.config = config ∧
      t.before.blackboard.InOrder) ∧ ((new config).run cs).2.blackboard.InOrder := by
  have hrun := forall_turns
    (P := fun st => st.Settled ∧ st.config = config ∧ st.blackboard.InOrder)
    (fun t h => ⟨t.settled_after h.1, (t.config_after h.1).trans h.2.1,
      Turn.inOrder_after h.1 (h.2.1 ▸ hstrict) h.2.2⟩) cs (new config)
    ⟨settled_of_idle rfl, rfl, fun g hg => absurd hg List.not_mem_nil⟩
  exact ⟨fun t ht => (hrun.1 t ht).1, hrun.2.2.2⟩

/-- **Strict settings hold for whole runs.** At every moment of every run all registered graphs pass
the check, and each of their links leads to its target. A graph that fails the check is refused with
the fault, and the stage stays as it was. A session that follows a port to nowhere is ended, and its
graph declares no link on that port; all other ends are at an end of the dialogue. -/
theorem every_link_leads {config : Config} (hstrict : config.strictLinks = true) (cs : List Call) :
    ((new config).run cs).2.blackboard.Connected ∧ ∀ t ∈ (new config).turns cs,
      (∀ sc ∈ t.scopes, sc.blackboard.Connected) ∧
      (∀ g e, t.call = .register g →
        (t.reply = .registered (.error e) ↔ g.validate = .error e) ∧
          (t.reply = .registered (.error e) → t.after = t.before)) ∧
      (∀ m ∈ t.moves, m.arrival? = none → t.reply = .session (.ok .ended) ∧
        ∃ g, m.graph? = some g ∧
          ∀ l ∈ g.links, ¬ (l.outNode = m.session.cursor ∧ l.port = m.port)) ∧
      (t.reply = .session (.ok .ended) → ∃ m, t.moves.getLast? = some m ∧
        ((∃ n, m.arrival? = some n ∧ n.kind = .exit) ∨ m.arrival? = none)) := by
  obtain ⟨hturns, hrun⟩ := inOrder_turns hstrict cs
  refine ⟨hrun.connected, fun t ht => ?_⟩
  obtain ⟨hst, hconfig, hboard⟩ := hturns t ht
  have hstrict : t.before.config.strictLinks = true := hconfig ▸ hstrict
  refine ⟨fun sc hsc => (Turn.inOrder_scopes hst hstrict hboard sc hsc).connected,
    fun g e hcall => ?_, fun m hm hlost => ?_, fun hreply => ?_⟩
  · obtain ⟨st, c⟩ := t
    obtain rfl : c = .register g := hcall
    show (Reply.registered (st.register g).1 = .registered (.error e) ↔ g.validate = .error e) ∧
      (Reply.registered (st.register g).1 = .registered (.error e) → (st.register g).2 = st)
    rcases register_strict hstrict g with ⟨hg, haccept⟩ | ⟨e', hcheck, hrefuse⟩
    · rw [haccept, Graph.validate_eq_ok_iff.mpr hg]
      simp
    · rw [hrefuse, hcheck]
      simp
  · obtain ⟨first, last, h⟩ := Turn.moved_of_mem hst hm
    exact ⟨h.ended_of_lost hm hlost, Turn.undeclared_of_lost hst hstrict hboard hm hlost⟩
  · obtain ⟨first, last, h⟩ := Turn.moved_of_ended hst hreply
    exact ⟨last, h.last, h.exit_or_lost hreply⟩

end Stage

/-- The default settings, but for checking links. -/
def Config.strict : Config := { strictLinks := true }

/-- A line that leads nowhere. -/
def Graph.quay : Graph :=
  ⟨⟨14⟩, ⟨"start"⟩, .origin, [.ofKind ⟨"sign"⟩ "No boats today." (.basic none)],
    [⟨⟨"start"⟩, ⟨"sign"⟩, 0⟩], []⟩

/-- A line whose link leads to no node. -/
def Graph.pier : Graph :=
  ⟨⟨15⟩, ⟨"start"⟩, .origin, [.ofKind ⟨"sign"⟩ "Mind the gap." (.basic none)],
    [⟨⟨"start"⟩, ⟨"sign"⟩, 0⟩, ⟨⟨"sign"⟩, ⟨"sea"⟩, 0⟩], []⟩

/-- The host registers another graph while a session waits, and then has the session go on. -/
def Call.boarding : List Call := [.register .quay, .start ⟨14⟩ none, .register .pier, .select 0]

namespace Stage

/-- The second graph is refused and the session still waits; then it ends at the port without link. -/
theorem every_link_leads_quay :
    Config.strict.strictLinks = true ∧
      ∃ t ∈ (new .strict).turns Call.boarding,
        t.reply = .registered (.error (.danglingLink ⟨⟨"sign"⟩, ⟨"sea"⟩, 0⟩)) ∧
        t.before.isRunning = true ∧ t.after = t.before ∧
        ∃ t' ∈ (new .strict).turns Call.boarding, ∃ m ∈ t'.moves,
          m.session.cursor = ⟨"sign"⟩ ∧ m.arrival? = none ∧ t'.reply = .session (.ok .ended) ∧
            ∃ g, m.graph? = some g ∧ ∀ l ∈ g.links, ¬ (l.outNode = ⟨"sign"⟩ ∧ l.port = 0) := by
  have hstrict : Config.strict.strictLinks = true := rfl
  have hleads := (every_link_leads hstrict Call.boarding).2
  have hrefused : (⟨_, .register .pier⟩ : Turn) ∈ (new .strict).turns Call.boarding :=
    List.mem_cons_of_mem _ (List.mem_cons_of_mem _ List.mem_cons_self)
  have hselected : (⟨_, .select 0⟩ : Turn) ∈ (new .strict).turns Call.boarding :=
    List.mem_cons_of_mem _ (List.mem_cons_of_mem _ (List.mem_cons_of_mem _ List.mem_cons_self))
  have hstays := ((hleads _ hrefused).2.1 .pier (.danglingLink ⟨⟨"sign"⟩, ⟨"sea"⟩, 0⟩) rfl).2 rfl
  have hlost := (hleads _ hselected).2.2.1 _ List.mem_cons_self rfl
  exact ⟨hstrict, _, hrefused, rfl, rfl, hstays, _, hselected, _, List.mem_cons_self, rfl, rfl, hlost⟩

end Stage

end Dialogue

import Dialogue.Proofs.Session.Ledger
import Dialogue.Proofs.Session.Scene

/-!
# Branches and declared truth values

A branch asks for a truth value by name. Writes keep the kinds of properties, so whether a graph
declares a truth value of a name (`Graph.DeclaresFlag`) is settled when the graph is registered, and
the template of a session knows just the declared names at every moment. So a call fails at a branch
exactly if its graph declares no truth value of the name, whatever is written, registered or removed
(`branch_fails_iff_undeclared`).
-/

namespace Dialogue

/-! ### Declared truth values -/

namespace Graph

/-- A property of the name is a truth value. -/
def DeclaresFlag (g : Graph) (name : String) : Prop :=
  ∃ p ∈ g.properties, p.name = name ∧ p.kind = .bool

theorem flag?_eq_none_iff {g : Graph} {name : String} :
    g.flag? name = none ↔ ¬ g.DeclaresFlag name := by
  simp only [flag?, List.findSome?_eq_none_iff, DeclaresFlag, not_exists, not_and]
  refine forall₂_congr fun p _ => ?_
  by_cases hname : p.name = name
  · cases hv : p.value <;>
      simp [hname, Property.kind, hv, PropertyValue.kind, PropertyValue.bool?]
  · simp [hname]

theorem declaresFlag_outline (g : Graph) (name : String) :
    g.outline.DeclaresFlag name ↔ g.DeclaresFlag name := by
  have hkind : ∀ p : Property, p.outline.kind = p.kind := by
    rintro ⟨guid, name, value⟩
    cases value <;> rfl
  have hname : ∀ p : Property, p.outline.name = p.name := fun _ => rfl
  simp only [DeclaresFlag, outline, List.mem_map, exists_exists_and_eq_and, hkind, hname]

theorem declaresFlag_of_outline {g g' : Graph} (h : g'.outline = g.outline) (name : String) :
    g'.DeclaresFlag name ↔ g.DeclaresFlag name := by
  rw [← declaresFlag_outline, h, declaresFlag_outline]

end Graph

theorem Template.check_eq_unknown_iff (g : Graph) (name : String) :
    (ofGraph g).check name = .unknown ↔ ¬ g.DeclaresFlag name := by
  rw [check_ofGraph, ← Graph.flag?_eq_none_iff]
  cases g.flag? name with
  | none => simp [ConditionResult.ofFlag]
  | some b => cases b <;> simp [ConditionResult.ofFlag]

/-! ### The failure of a call -/

namespace Turn

theorem Moved.undeclared {t : Turn} {m l : Move} (h : t.Moved m l) (hst : t.before.Settled) {node : Guid}
    {flag : String} (hreply : t.reply = .session (.error (.unknownCondition node flag))) :
    ∃ g n, t.graph? = some g ∧ g.node? node = some n ∧ l.arrival? = some n ∧ n.guid = node ∧
      n.kind = .condition flag ∧ ¬ g.DeclaresFlag flag := by
  obtain ⟨g, live, hg, hlive, houtline⟩ := h.live_of_mem hst (List.mem_of_getLast? h.last)
  have houtcome : l.outcome t.before.config.maxAutoAdvance =
      .error (.unknownCondition node flag) :=
    Reply.session.inj (h.reply_eq.symm.trans hreply)
  cases harr : l.arrival? with
  | none =>
    rw [Move.outcome_of_lost harr] at houtcome
    simp at houtcome
  | some n =>
    rw [Move.outcome_of_arrival hlive harr] at houtcome
    cases hverdict : live.verdict n with
    | fail e =>
      obtain ⟨flag', hkind, hflag, rfl⟩ := Graph.unknown_of_fail hverdict
      rw [hverdict] at houtcome
      simp only [Except.error.injEq, SessionError.unknownCondition.injEq] at houtcome
      obtain ⟨rfl, rfl⟩ := houtcome
      refine ⟨g, n, hg, ?_, rfl, rfl, hkind, ?_⟩
      · rw [Move.arrival?_of_live hlive] at harr
        rw [← Graph.node?_eq_of_outline houtline]
        exact Graph.node?_of_next? harr
      · rw [← Graph.declaresFlag_of_outline houtline]
        exact Graph.flag?_eq_none_iff.mp hflag
    | _ => simp [hverdict] at houtcome

theorem Moved.fails_iff {t : Turn} {m l x : Move} (h : t.Moved m l) (hst : t.before.Settled)
    (hx : x ∈ t.moves) {n : Node} {flag : String} (harr : x.arrival? = some n)
    (hkind : n.kind = .condition flag) {g : Graph} (hg : t.graph? = some g) :
    t.reply = .session (.error (.unknownCondition n.guid flag)) ↔ ¬ g.DeclaresFlag flag := by
  constructor
  · intro hreply
    obtain ⟨g', n', hg', -, -, -, -, hundeclared⟩ := h.undeclared hst hreply
    rwa [Option.some.inj (hg.symm.trans hg')]
  · intro hundeclared
    obtain ⟨g', live, hg', hlive, houtline⟩ := h.live_of_mem hst hx
    obtain rfl : g' = g := Option.some.inj (hg'.symm.trans hg)
    have hflag : live.flag? flag = none :=
      Graph.flag?_eq_none_iff.mpr (by rwa [Graph.declaresFlag_of_outline houtline])
    have hverdict : live.verdict n = .fail (.unknownCondition n.guid flag) := by
      simp only [Graph.verdict, hkind, hflag]
    -- the session does not go on from here, so this is the move that decides the reply
    have hstays : ¬ ∃ x', x.Leads x' := by
      rintro ⟨x', hleads⟩
      have hact := (Move.acted hlive harr).verdict
      rw [hleads, hverdict] at hact
      simp at hact
    have hmem := hx
    rw [h.moves_eq] at hmem
    have hlast := (Move.leads_or_last _ m x hmem).resolve_left hstays
    rw [← h.moves_eq, h.last] at hlast
    obtain rfl := Option.some.inj hlast
    rw [h.reply_eq, Move.outcome_of_arrival hlive harr, hverdict]

end Turn

/-! ### From the registration on -/

namespace Stage

open Ledger

theorem Adds.settled {config : Config} {cs : List Call} {g : Graph} {st : Stage}
    (h : Adds config cs g st) : st.Settled := by
  have hafter := Turn.settled_after ⟨_, .register g⟩ (settled_turns config cs).2.1
  rwa [Turn.after, h.added] at hafter

theorem outline_of_keeps {g : Graph} {a b : Ledger} (hg : a.board.graph? g.id = some g)
    (h : Keeps g.id a b) : ∃ g', b.board.graph? g.id = some g' ∧ g'.outline = g.outline := by
  obtain ⟨new, hsince⟩ := h
  exact ⟨_, hsince.graph g hg, hsince.outline g hg⟩

/-- **Branches are typed by the registered graph.** From the call that adds a graph on, a session that
enters a branch of the graph fails there, naming the node and the name, exactly if the graph that was
registered declares no truth value of the name; a session fails so only at a branch that it has
entered, and never if the graph declares all names that its branches ask for. At every moment of every
session on the graph the template knows just the declared truth values. -/
theorem branch_fails_iff_undeclared {config : Config} {cs cs' : List Call} {g : Graph} {st : Stage}
    (hadds : Adds config cs g st) (hcs : .unregister g.id ∉ cs') : ∀ t ∈ st.turns cs',
      (∀ m ∈ t.moves, m.session.graph = g.id → ∀ n flag, m.arrival? = some n →
        n.kind = .condition flag →
          (t.reply = .session (.error (.unknownCondition n.guid flag)) ↔ ¬ g.DeclaresFlag flag)) ∧
      (∀ node flag, t.reply = .session (.error (.unknownCondition node flag)) →
        ∃ m ∈ t.moves, ∃ n, m.arrival? = some n ∧ n.guid = node ∧ n.kind = .condition flag) ∧
      ((∀ n ∈ g.nodes, ∀ flag, n.kind = .condition flag → g.DeclaresFlag flag) →
        ∀ actor, t.subject? = some (g.id, actor) → ∀ node flag,
          t.reply ≠ .session (.error (.unknownCondition node flag))) ∧
      ∀ sc ∈ t.scopes, ∀ template, sc.active = some (g.id, template) →
        ∀ flag, template.check flag = .unknown ↔ ¬ g.DeclaresFlag flag := by
  intro t ht
  have hst : t.before.Settled :=
    ((forall_turns (fun t h => t.settled_after h) cs' st hadds.settled).1 t ht).1
  have hgraph := hadds.registered.2
  obtain ⟨hcall, hkeeps⟩ := (keeps_turns hcs st).1 t ht
  obtain ⟨now, hnow, houtline⟩ := outline_of_keeps hgraph hkeeps
  have hsubject : ∀ actor, t.subject? = some (g.id, actor) → t.graph? = some now := by
    intro actor h
    rw [Turn.graph?, h]
    exact hnow
  refine ⟨fun m hm hid n flag harr hkind => ?_, fun node flag hreply => ?_,
    fun hdeclared actor hactor node flag hreply => ?_, fun sc hsc template hactive flag => ?_⟩
  · obtain ⟨m₀, l, h⟩ := Turn.moved_of_mem hst hm
    rw [(h.akin_of_mem hm).graph] at hid
    have hnowgraph := hsubject _ (by rw [h.subject hst, hid])
    rw [h.fails_iff hst hm harr hkind hnowgraph, Graph.declaresFlag_of_outline houtline]
  · obtain ⟨m, l, h⟩ := Turn.moved_of_failure hst hreply (by simp) (by simp)
    obtain ⟨g', n, -, -, harr, hguid, hkind, -⟩ := h.undeclared hst hreply
    exact ⟨l, List.mem_of_getLast? h.last, n, harr, hguid, hkind⟩
  · obtain ⟨m, l, h⟩ := Turn.moved_of_failure hst hreply (by simp) (by simp)
    obtain ⟨g', n, hg', hn, -, -, hkind, hundeclared⟩ := h.undeclared hst hreply
    obtain rfl : g' = now := Option.some.inj (hg'.symm.trans (hsubject actor hactor))
    rw [Graph.node?_eq_of_outline houtline] at hn
    rw [Graph.declaresFlag_of_outline houtline] at hundeclared
    exact hundeclared (hdeclared n (List.mem_of_find?_eq_some hn) flag hkind)
  · obtain ⟨g', hg', rfl⟩ := Turn.coherent hst sc hsc g.id template hactive
    obtain ⟨g'', hg'', houtline'⟩ :=
      outline_of_keeps hgraph (hkeeps.trans (t.keeps_of_mem_scopes hcall hsc))
    obtain rfl : g'' = g' := Option.some.inj (hg''.symm.trans hg')
    rw [Template.check_eq_unknown_iff, Graph.declaresFlag_of_outline houtline']

end Stage

/-- A branch on a name that is declared as a text and as a truth value, and then one on a name that is
declared as a number. -/
def Graph.customs : Graph :=
  ⟨⟨12⟩, ⟨"start"⟩, .origin,
    [.ofKind ⟨"seal"⟩ "" (.condition "sealed"), .ofKind ⟨"scales"⟩ "" (.condition "weight")],
    [⟨⟨"start"⟩, ⟨"seal"⟩, 0⟩, ⟨⟨"seal"⟩, ⟨"scales"⟩, 0⟩, ⟨⟨"seal"⟩, ⟨"scales"⟩, 1⟩],
    [⟨⟨"a"⟩, "sealed", .string "wax"⟩, ⟨⟨"b"⟩, "sealed", .bool false⟩, ⟨⟨"c"⟩, "weight", .int 3⟩]⟩

/-- The host writes the number, registers a graph that declares its name as a truth value, and starts a
session. -/
def Call.inspection : List Call :=
  [.set "weight" (.int 4), .register ((Graph.new ⟨13⟩ ⟨"start"⟩).addProperty ⟨⟨"d"⟩, "weight", .bool true⟩),
    .start ⟨12⟩ none]

namespace Stage

/-- The first branch is passed, and the session fails at the second one. -/
theorem branch_fails_iff_undeclared_customs :
    ∃ st, Adds {} [] .customs st ∧ .unregister ⟨12⟩ ∉ Call.inspection ∧
      ∃ t ∈ st.turns Call.inspection, t.visits = [⟨"seal"⟩, ⟨"scales"⟩] ∧
        t.reply = .session (.error (.unknownCondition ⟨"scales"⟩ "weight")) ∧
        ∀ m ∈ t.moves, m.session.graph = ⟨12⟩ → ∀ n flag, m.arrival? = some n →
          n.kind = .condition flag →
            (t.reply = .session (.error (.unknownCondition n.guid flag)) ↔
              ¬ Graph.customs.DeclaresFlag flag) := by
  have hadds : Adds {} [] .customs ((new {}).call (.register .customs)).2 := ⟨rfl, rfl⟩
  have hkept : .unregister ⟨12⟩ ∉ Call.inspection := by simp [Call.inspection]
  have hmem : (⟨_, _⟩ : Turn) ∈ ((new {}).call (.register .customs)).2.turns Call.inspection :=
    List.mem_cons_of_mem _ (List.mem_cons_of_mem _ List.mem_cons_self)
  exact ⟨_, hadds, hkept, _, hmem, rfl, rfl, (branch_fails_iff_undeclared hadds hkept _ hmem).1⟩

end Stage

end Dialogue

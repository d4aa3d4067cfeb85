import Dialogue.Proofs.Session.Arrival

/-!
# Moves

A move is a session about to follow a port. The moves from one on (`Move.onward`) are those that the
session makes by itself until it rests or has used up its budget, and the last of them decides what
the whole advance comes to (`advance_eq_land`): the recursion of `Stage.advance` is a list, of which
invariants are proved by one step lemma (`forall_onward`).

A move is sound when its session is moving and live. Sound moves lead to sound moves, and a sound
move does what its graph asks for at the node it comes to (`Move.acted`); so the notices and visits of
an advance are those of its moves in order, and its answer is the outcome of the last one.
-/

namespace Dialogue

/-- A session about to follow a port. -/
structure Move where
  stage : Stage
  session : Session
  port : PortIndex

namespace Move

/-- The graph of the session, as it is registered. -/
def graph? (m : Move) : Option Graph := m.stage.blackboard.graph? m.session.graph

/-- The node that the move comes to. -/
def arrival? (m : Move) : Option Node := m.stage.ahead? m.session m.port

/-- What the move makes of the stage and the session, and how the session goes on. -/
def result (m : Move) : Stage × Session × Stage.Verdict := m.stage.step m.session m.port

/-- The next move is made by itself. -/
def Leads (m m' : Move) : Prop := m.result = (m'.stage, m'.session, .advance m'.port)

/-- The moves from one on, with a budget of further ones. -/
def onward : Nat → Move → List Move
  | 0, m => [m]
  | budget + 1, m =>
    match m.result with
    | (st, s, .advance port) => m :: onward budget ⟨st, s, port⟩
    | _ => [m]

/-- What comes of an advance whose last move this is. -/
def land (limit : Nat) (m : Move) : Except SessionError SessionState × Stage :=
  match m.result with
  | (st, s, .pause) => (.ok .awaitingInput, { st with session := some s })
  | (st, s, .finish) => (.ok .ended, st.close s)
  | (st, s, .fail e) => (.error e, st.abort s e)
  | (st, s, .advance _) => (.error (.autoAdvanceLimit limit), st.abort s (.autoAdvanceLimit limit))

/-! ### The list of moves -/

/-- A move after which the session does not go on by itself. -/
def Rests (budget : Nat) (m : Move) : Prop := budget = 0 ∨ ∀ m', ¬ m.Leads m'

theorem onward_of_leads {m m' : Move} (h : m.Leads m') (budget : Nat) :
    m.onward (budget + 1) = m :: m'.onward budget := by
  rw [onward, h]

theorem onward_of_rests {m : Move} {budget : Nat} (h : m.Rests budget) : m.onward budget = [m] := by
  cases budget with
  | zero => rfl
  | succ budget =>
    have hstays := h.resolve_left (Nat.succ_ne_zero budget)
    unfold onward
    split
    · rename_i st s port hresult
      exact absurd hresult (hstays ⟨st, s, port⟩)
    · rfl

/-- Induction along the moves from one on. -/
@[elab_as_elim]
theorem onward_induction {P : Nat → Move → Prop} (budget : Nat) (m : Move)
    (rests : ∀ budget m, m.Rests budget → P budget m)
    (leads : ∀ budget m m', m.Leads m' → P budget m' → P (budget + 1) m) : P budget m := by
  induction budget generalizing m with
  | zero => exact rests 0 m (Or.inl rfl)
  | succ budget ih =>
    by_cases h : ∃ m', m.Leads m'
    · obtain ⟨m', hm'⟩ := h
      exact leads budget m m' hm' (ih m')
    · exact rests _ m (Or.inr (not_exists.mp h))

theorem forall_onward {P : Move → Prop} (hstep : ∀ a b, P a → a.Leads b → P b) (budget : Nat)
    (m : Move) : P m → ∀ x ∈ m.onward budget, P x := by
  induction budget, m using onward_induction with
  | rests budget m h =>
    intro hm x hx
    rw [onward_of_rests h] at hx
    rwa [List.mem_singleton.mp hx]
  | leads budget m m' h ih =>
    intro hm x hx
    rw [onward_of_leads h] at hx
    rcases List.mem_cons.mp hx with rfl | hx
    · exact hm
    · exact ih (hstep m m' hm h) x hx

theorem onward_ne_nil (budget : Nat) (m : Move) : m.onward budget ≠ [] := by
  induction budget, m using onward_induction with
  | rests budget m h => simp [onward_of_rests h]
  | leads budget m m' h ih => simp [onward_of_leads h]

theorem length_onward (budget : Nat) (m : Move) : (m.onward budget).length ≤ budget + 1 ∧
    ∀ l l', (m.onward budget).getLast? = some l → l.Leads l' →
      (m.onward budget).length = budget + 1 := by
  induction budget, m using onward_induction with
  | rests budget m h =>
    rw [onward_of_rests h]
    refine ⟨by simp, fun l l' hl hleads => ?_⟩
    obtain rfl : m = l := Option.some.inj hl
    rcases h with rfl | h
    · rfl
    · exact absurd hleads (h l')
  | leads budget m m' h ih =>
    obtain ⟨hle, heq⟩ := ih
    rw [onward_of_leads h, List.getLast?_cons_of_ne_nil (onward_ne_nil budget m'), List.length_cons]
    refine ⟨by omega, fun l l' hl hleads => ?_⟩
    rw [heq l l' hl hleads]

theorem leads_or_last (budget : Nat) (m : Move) : ∀ x ∈ m.onward budget,
    (∃ x', x.Leads x') ∨ (m.onward budget).getLast? = some x := by
  induction budget, m using onward_induction with
  | rests budget m h =>
    intro x hx
    rw [onward_of_rests h] at hx ⊢
    rw [List.mem_singleton.mp hx]
    exact Or.inr rfl
  | leads budget m m' h ih =>
    intro x hx
    rw [onward_of_leads h] at hx ⊢
    rw [List.getLast?_cons_of_ne_nil (onward_ne_nil budget m')]
    rcases List.mem_cons.mp hx with rfl | hx
    · exact Or.inl ⟨m', h⟩
    · exact ih x hx

theorem all_lead {budget : Nat} {m l l' : Move} (hlast : (m.onward budget).getLast? = some l)
    (hleads : l.Leads l') : (m.onward budget).length = budget + 1 ∧
      ∀ x ∈ m.onward budget, ∃ x', x.Leads x' := by
  refine ⟨(m.length_onward budget).2 l l' hlast hleads, fun x hx => ?_⟩
  rcases m.leads_or_last budget x hx with hx | hx
  · exact hx
  · rw [hlast] at hx
    rw [← Option.some.inj hx]
    exact ⟨l', hleads⟩

theorem mem_onward (budget : Nat) (m : Move) : m ∈ m.onward budget := by
  induction budget, m using onward_induction with
  | rests budget m h => simp [onward_of_rests h]
  | leads budget m m' h ih => simp [onward_of_leads h]

theorem advance_of_leads {m m' : Move} (h : m.Leads m') (limit budget : Nat) :
    Stage.advance limit (budget + 1) m.stage m.session m.port =
      Stage.advance limit budget m'.stage m'.session m'.port := by
  rw [Stage.advance, show m.stage.step m.session m.port = _ from h]

theorem advance_of_rests {m : Move} {budget : Nat} (h : m.Rests budget) (limit : Nat) :
    Stage.advance limit budget m.stage m.session m.port = m.land limit := by
  obtain ⟨st, s, verdict, hresult⟩ : ∃ st s verdict, m.result = (st, s, verdict) := ⟨_, _, _, rfl⟩
  unfold Stage.advance land
  rw [show m.stage.step m.session m.port = m.result from rfl, hresult]
  cases verdict with
  | advance port =>
    rcases h with rfl | h
    · rfl
    · exact absurd hresult (h ⟨st, s, port⟩)
  | _ => rfl

theorem advance_eq_land (limit budget : Nat) (m : Move) : ∃ l,
    (m.onward budget).getLast? = some l ∧
      Stage.advance limit budget m.stage m.session m.port = l.land limit := by
  induction budget, m using onward_induction with
  | rests budget m h =>
    rw [onward_of_rests h]
    exact ⟨m, rfl, advance_of_rests h limit⟩
  | leads budget m m' h ih =>
    obtain ⟨l, hl, hland⟩ := ih
    refine ⟨l, ?_, (advance_of_leads h limit budget).trans hland⟩
    rw [onward_of_leads h, List.getLast?_cons, hl]
    rfl

/-! ### Sound moves -/

/-- The session is moving and live. -/
structure Sound (m : Move) : Prop where
  active : m.session.state = .active
  silent : m.session.presentation = none
  live : ∃ g, m.stage.Live m.session g

def notices (m : Move) : List Notice :=
  match m.graph?, m.arrival? with
  | some g, some n => g.notices m.stage.config m.session.actor n
  | _, _ => []

def line? (m : Move) : Option Presentation :=
  match m.graph?, m.arrival? with
  | some g, some n => g.line? m.stage.config m.session.actor n
  | _, _ => none

/-- The answer of a call whose last move this is. -/
def outcome (limit : Nat) (m : Move) : Except SessionError SessionState :=
  match m.graph?, m.arrival? with
  | some g, some n =>
    match g.verdict n with
    | .advance _ => .error (.autoAdvanceLimit limit)
    | .pause => .ok .awaitingInput
    | .finish => .ok .ended
    | .fail e => .error e
  | _, _ => .ok .ended

theorem lines_notices (m : Move) : m.notices.filterMap Notice.line? = m.line?.toList := by
  unfold notices line?
  split
  · exact Graph.lines_notices _ _ _ _
  · rfl

theorem arrival?_of_live {m : Move} {g : Graph} (h : m.stage.Live m.session g) :
    m.arrival? = g.next? m.session.cursor m.port := by
  unfold arrival? Stage.ahead?
  rw [h.1]
  rfl

theorem result_of_lost {m : Move} (h : m.arrival? = none) :
    m.result = (m.stage, m.session, .finish) := by
  unfold result Stage.step
  rw [show m.stage.ahead? m.session m.port = none from h]

theorem result_of_arrival {m : Move} {n : Node} (h : m.arrival? = some n) : m.result =
    (m.stage.record (.entered n.guid)).act { m.session with cursor := n.guid } n := by
  unfold result Stage.step
  rw [show m.stage.ahead? m.session m.port = some n from h]

theorem acted {m : Move} {g : Graph} {n : Node} (hlive : m.stage.Live m.session g)
    (h : m.arrival? = some n) : (m.stage.record (.entered n.guid)).Acted
      { m.session with cursor := n.guid } g n m.result := by
  have hentered : (m.stage.record (.entered n.guid)).Live { m.session with cursor := n.guid } g :=
    hlive
  rw [result_of_arrival h]
  exact Stage.acted_act _ _ hentered n

theorem arrival?_of_leads {m m' : Move} (h : m.Leads m') : ∃ n, m.arrival? = some n := by
  cases harr : m.arrival? with
  | some n => exact ⟨n, rfl⟩
  | none =>
    rw [Leads, result_of_lost harr] at h
    simp at h

theorem Sound.leads {m m' : Move} (hs : m.Sound) (h : m.Leads m') : m'.Sound := by
  obtain ⟨g, hlive⟩ := hs.live
  obtain ⟨n, harr⟩ := arrival?_of_leads h
  have hact := acted hlive harr
  rw [h] at hact
  obtain ⟨hstate, hpresentation⟩ := hact.moving (by simp)
  obtain ⟨g', hlive', -⟩ := hact.live
  exact ⟨hstate.trans hs.active, hpresentation.trans hs.silent, g', hlive'⟩

theorem Sound.onward {m : Move} (hs : m.Sound) (budget : Nat) : ∀ x ∈ m.onward budget, x.Sound :=
  forall_onward (fun _ _ ha hab => ha.leads hab) budget m hs

theorem notices_of_live {m : Move} {g : Graph} (h : m.stage.Live m.session g) :
    m.notices = m.arrival?.elim [] (g.notices m.stage.config m.session.actor) := by
  unfold notices graph?
  rw [h.1]
  cases m.arrival? <;> rfl

theorem Sound.notices_result {m : Move} (hs : m.Sound) :
    m.result.1.notices = m.stage.notices ++ m.notices := by
  obtain ⟨g, hlive⟩ := hs.live
  rw [notices_of_live hlive]
  cases harr : m.arrival? with
  | none =>
    rw [result_of_lost harr]
    exact (List.append_nil _).symm
  | some n =>
    have hact := acted hlive harr
    exact hact.notices.trans (congrArg (· ++ _) (m.stage.notices_entered n.guid))

theorem visits_result (m : Move) :
    m.result.1.visits = m.stage.visits ++ (m.arrival?.map Node.guid).toList := by
  cases harr : m.arrival? with
  | none =>
    rw [result_of_lost harr]
    exact (List.append_nil _).symm
  | some n =>
    rw [result_of_arrival harr, Stage.visits_act]
    exact m.stage.visits_entered n.guid

theorem visits_onward (budget : Nat) (m : Move) : ∀ l, (m.onward budget).getLast? = some l →
    l.result.1.visits =
      m.stage.visits ++ ((m.onward budget).filterMap arrival?).map Node.guid := by
  induction budget, m using onward_induction with
  | rests budget m h =>
    intro l hl
    rw [onward_of_rests h] at hl ⊢
    obtain rfl : m = l := Option.some.inj hl
    rw [m.visits_result]
    cases harr : m.arrival? <;> simp [harr]
  | leads budget m m' h ih =>
    intro l hl
    obtain ⟨n, harr⟩ := arrival?_of_leads h
    rw [onward_of_leads h] at hl ⊢
    rw [List.getLast?_cons_of_ne_nil (onward_ne_nil budget m')] at hl
    have hv := m.visits_result
    rw [h] at hv
    rw [ih l hl, hv, List.filterMap_cons, harr, List.append_assoc]
    rfl

/-! ### Moves of one session -/

/-- A later stage of the same session: settings, listeners and outlines are the same, and so are the
graph and the actor of the session. -/
structure Akin (m : Move) (st : Stage) (s : Session) : Prop where
  config : st.config = m.stage.config
  registry : st.registry = m.stage.registry
  outline : st.blackboard.outline = m.stage.blackboard.outline
  graph : s.graph = m.session.graph
  actor : s.actor = m.session.actor

theorem akin_refl (m : Move) : m.Akin m.stage m.session := ⟨rfl, rfl, rfl, rfl, rfl⟩

theorem Akin.trans {m m' : Move} {st : Stage} {s : Session} (h : m.Akin m'.stage m'.session)
    (h' : m'.Akin st s) : m.Akin st s where
  config := h'.config.trans h.config
  registry := h'.registry.trans h.registry
  outline := h'.outline.trans h.outline
  graph := h'.graph.trans h.graph
  actor := h'.actor.trans h.actor

theorem Sound.akin_result {m : Move} (hs : m.Sound) : m.Akin m.result.1 m.result.2.1 := by
  obtain ⟨g, hlive⟩ := hs.live
  cases harr : m.arrival? with
  | none =>
    rw [result_of_lost harr]
    exact m.akin_refl
  | some n =>
    have hact := acted hlive harr
    exact ⟨hact.config, hact.registry, hact.outline, hact.graph, hact.actor⟩

theorem Sound.akin_onward {m : Move} (hs : m.Sound) (budget : Nat) :
    ∀ x ∈ m.onward budget, m.Akin x.stage x.session := by
  have hboth := forall_onward (P := fun x => x.Sound ∧ m.Akin x.stage x.session)
    (fun a b ha hab => by
      refine ⟨ha.1.leads hab, ha.2.trans ?_⟩
      have := ha.1.akin_result
      rwa [hab] at this) budget m ⟨hs, m.akin_refl⟩
  exact fun x hx => (hboth x hx).2

theorem Sound.notices_onward (budget : Nat) (m : Move) : m.Sound → ∀ l,
    (m.onward budget).getLast? = some l →
      l.result.1.notices = m.stage.notices ++ (m.onward budget).flatMap notices := by
  induction budget, m using onward_induction with
  | rests budget m h =>
    intro hs l hl
    rw [onward_of_rests h] at hl ⊢
    obtain rfl : m = l := Option.some.inj hl
    rw [hs.notices_result, List.flatMap_singleton]
  | leads budget m m' h ih =>
    intro hs l hl
    rw [onward_of_leads h] at hl ⊢
    rw [List.getLast?_cons_of_ne_nil (onward_ne_nil budget m')] at hl
    have hn := hs.notices_result
    rw [h] at hn
    rw [ih (hs.leads h) l hl, hn, List.flatMap_cons, List.append_assoc]

end Move

end Dialogue

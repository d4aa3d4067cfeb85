import Dialogue.Proofs.Session.Landing
import Dialogue.Call

/-!
# Calls, one by one

A turn is a call with the stage that it is made on, and a run is a list of turns (`Stage.turns`). Some
calls make a session move: those that start one on a registered graph, and the choice of a port that
is offered. `Turn.departure?` is the first move of such a call, and `Turn.moves` are all of them.
-/

namespace Dialogue

/-- A call and the stage that it is made on. -/
structure Turn where
  before : Stage
  call : Call

namespace Turn

def reply (t : Turn) : Reply := (t.before.call t.call).1

def after (t : Turn) : Stage := (t.before.call t.call).2

end Turn

/-! ### Runs -/

namespace Stage

def turns (st : Stage) : List Call → List Turn
  | [] => []
  | c :: cs => ⟨st, c⟩ :: turns (st.call c).2 cs

theorem run_cons (st : Stage) (c : Call) (cs : List Call) :
    st.run (c :: cs) =
      ((st.call c).1 :: ((st.call c).2.run cs).1, ((st.call c).2.run cs).2) :=
  rfl

theorem forall_turns {P : Stage → Prop} (hstep : ∀ t : Turn, P t.before → P t.after)
    (cs : List Call) (st : Stage) :
    P st → (∀ t ∈ st.turns cs, P t.before ∧ P t.after) ∧ P (st.run cs).2 := by
  induction cs generalizing st with
  | nil =>
    intro h
    exact ⟨fun t ht => absurd ht List.not_mem_nil, h⟩
  | cons c cs ih =>
    intro h
    have hafter := hstep ⟨st, c⟩ h
    obtain ⟨hturns, hrun⟩ := ih _ hafter
    refine ⟨fun t ht => ?_, hrun⟩
    rcases List.mem_cons.mp ht with rfl | ht
    · exact ⟨h, hafter⟩
    · exact hturns t ht

theorem isRunning_of_some {st : Stage} {s : Session} (h : st.session = some s) :
    st.isRunning = true := by
  rw [isRunning, h]
  rfl

theorem isRunning_of_none {st : Stage} (h : st.session = none) : st.isRunning = false := by
  rw [isRunning, h]
  rfl

theorem session_of_idle {st : Stage} (h : st.isRunning = false) : st.session = none := by
  simpa [isRunning] using h

theorem session_of_running {st : Stage} (h : st.isRunning = true) : ∃ s, st.session = some s :=
  Option.isSome_iff_exists.mp h

/-! ### Departures -/

/-- The first move of a session that would be started on a graph. -/
def opening? (st : Stage) (id : GraphId) (actor : Option Actor) : Option Move :=
  match st.session, st.blackboard.graph? id with
  | none, some g => some ⟨(st.tell .snapshot).tell (.started id), .start g actor, 0⟩
  | _, _ => none

/-- The first move after the player's choice of a port. -/
def answer? (st : Stage) (port : PortIndex) : Option Move :=
  st.session.bind fun s =>
    if s.state ≠ .awaitingInput ∨ (s.presentation.any fun p => !p.offers port) then none
    else some ⟨st, { s with presentation := none, state := .active }, port⟩

/-- The first move that a call makes. -/
def departure? (st : Stage) : Call → Option Move
  | .start id actor => st.opening? id actor
  | .serve server => st.opening? server.graph server.actor
  | .select port => st.answer? port
  | _ => none

section

variable {st : Stage} {s : Session} {id : GraphId} {g : Graph} {n : Node} {line : Presentation}

theorem start_of_session (h : st.session = some s) (id : GraphId) (actor : Option Actor) :
    st.opening? id actor = none ∧ st.start id actor = (.error .rejected, st) := by
  simp only [opening?, start, h, and_self]

theorem start_of_missing (h : st.session = none) (hgraph : st.blackboard.graph? id = none)
    (actor : Option Actor) : st.opening? id actor = none ∧
      st.start id actor = (.error (.graphNotRegistered id), st) := by
  simp only [opening?, start, h, hgraph, and_self]

theorem start_of_graph (h : st.session = none) (hgraph : st.blackboard.graph? id = some g)
    (actor : Option Actor) : st.opening? id actor =
        some ⟨(st.tell .snapshot).tell (.started id), .start g actor, 0⟩ ∧
      st.start id actor = advance st.config.maxAutoAdvance st.config.maxAutoAdvance
        ((st.tell .snapshot).tell (.started id)) (.start g actor) 0 := by
  simp only [opening?, start, h, hgraph, true_and]
  rfl

theorem select_of_idle (h : st.session = none) (port : PortIndex) :
    st.answer? port = none ∧ st.select port = (.ok .idle, st) := by
  simp only [answer?, select, h, Option.bind_none, and_self]

theorem select_of_refused (h : st.session = some s) (hpaused : st.Paused s g n line)
    {port : PortIndex} (hoffers : line.offers port = false) :
    st.answer? port = none ∧ st.select port = (.ok .awaitingInput, st) := by
  simp [answer?, select, h, hpaused.waiting, hpaused.shown, hoffers]

theorem select_of_offered (h : st.session = some s) (hpaused : st.Paused s g n line)
    {port : PortIndex} (hoffers : line.offers port = true) : st.answer? port =
        some ⟨st, { s with presentation := none, state := .active }, port⟩ ∧
      st.select port = advance st.config.maxAutoAdvance st.config.maxAutoAdvance st
        { s with presentation := none, state := .active } port := by
  simp [answer?, select, h, hpaused.waiting, hpaused.shown, hoffers, resume]

theorem opening?_stage {m : Move} {actor : Option Actor} (h : st.opening? id actor = some m) :
    m.stage = (st.tell .snapshot).tell (.started id) := by
  unfold opening? at h
  split at h
  · cases h
    rfl
  · cases h

theorem answer?_stage {m : Move} {port : PortIndex} (h : st.answer? port = some m) :
    m.stage = st := by
  obtain ⟨s, -, hs⟩ := Option.bind_eq_some_iff.mp h
  split at hs
  · cases hs
  · cases hs
    rfl

theorem start_of_opening {m : Move} {actor : Option Actor} (h : st.opening? id actor = some m) :
    st.start id actor =
      advance st.config.maxAutoAdvance st.config.maxAutoAdvance m.stage m.session m.port := by
  unfold opening? at h
  split at h
  · rename_i g hsession hgraph
    cases h
    exact (start_of_graph hsession hgraph actor).2
  · cases h

theorem select_of_answer {m : Move} {port : PortIndex} (h : st.answer? port = some m) :
    st.select port =
      advance st.config.maxAutoAdvance st.config.maxAutoAdvance m.stage m.session m.port := by
  obtain ⟨s, hsession, hs⟩ := Option.bind_eq_some_iff.mp h
  split at hs
  · cases hs
  · rename_i haccepted
    obtain ⟨hwaits, hoffered⟩ := not_or.mp haccepted
    cases hs
    simp only [select, hsession, hwaits, hoffered, if_false]
    rfl

/-- What a call leaves is what an advance from its first move leaves, if it makes one. -/
def Advances (st st' : Stage) (first : Option Move) : Prop :=
  (first = none ∧ st' = st) ∨ ∃ m, first = some m ∧
    st' = (advance st.config.maxAutoAdvance st.config.maxAutoAdvance m.stage m.session m.port).2

theorem advances_start (st : Stage) (id : GraphId) (actor : Option Actor) :
    st.Advances (st.start id actor).2 (st.opening? id actor) := by
  cases hs : st.session with
  | some s =>
    obtain ⟨hnone, hstart⟩ := start_of_session hs id actor
    exact Or.inl ⟨hnone, congrArg Prod.snd hstart⟩
  | none =>
    cases hg : st.blackboard.graph? id with
    | none =>
      obtain ⟨hnone, hstart⟩ := start_of_missing hs hg actor
      exact Or.inl ⟨hnone, congrArg Prod.snd hstart⟩
    | some g =>
      obtain ⟨hsome, hstart⟩ := start_of_graph hs hg actor
      exact Or.inr ⟨_, hsome, congrArg Prod.snd hstart⟩

theorem advances_select (st : Stage) (port : PortIndex) :
    st.Advances (st.select port).2 (st.answer? port) := by
  unfold answer? select
  cases hs : st.session with
  | none => exact Or.inl ⟨rfl, rfl⟩
  | some s =>
    by_cases hrefused : s.state ≠ .awaitingInput ∨ (s.presentation.any fun p => !p.offers port)
    · refine Or.inl ⟨if_pos hrefused, ?_⟩
      simp only
      split
      · rfl
      · rename_i hwaiting
        rw [if_pos (hrefused.resolve_left hwaiting)]
    · obtain ⟨hwaiting, hoffered⟩ := not_or.mp hrefused
      refine Or.inr ⟨_, if_neg hrefused, ?_⟩
      simp only [hwaiting, hoffered]
      rfl

end

end Stage

/-- The graph and the actor with which a call asks for a session. -/
def Call.asks? : Call → Option (GraphId × Option Actor)
  | .start id actor => some (id, actor)
  | .serve server => some (server.graph, server.actor)
  | _ => none

/-- The reply to a call that asks for a session in vain. -/
def Reply.refuses : Reply → Bool
  | .session (.error .rejected) | .session (.error (.graphNotRegistered _)) => true
  | _ => false

namespace Turn

def departure? (t : Turn) : Option Move := t.before.departure? t.call

/-- The moves that the call makes. -/
def moves (t : Turn) : List Move :=
  t.departure?.elim [] (Move.onward t.before.config.maxAutoAdvance)

/-- The graph and the actor with which the call starts a session. -/
def opening? (t : Turn) : Option (GraphId × Option Actor) :=
  if t.reply.refuses then none else t.call.asks?

/-- The port that the call takes as the player's choice: one that the line which waits offers. -/
def pick? (t : Turn) : Option PortIndex :=
  match t.call with
  | .select port => if t.before.presentation?.any (·.offers port) then some port else none
  | _ => none

theorem departure_stage {t : Turn} {m : Move} (h : t.departure? = some m) :
    m.stage = t.before ∨ ∃ id, m.stage = (t.before.tell .snapshot).tell (.started id) := by
  obtain ⟨st, c⟩ := t
  cases c with
  | start id actor => exact Or.inr ⟨id, Stage.opening?_stage h⟩
  | serve server => exact Or.inr ⟨server.graph, Stage.opening?_stage h⟩
  | select port => exact Or.inl (Stage.answer?_stage h)
  | _ => simp [departure?, Stage.departure?] at h

theorem advances_of_session {t : Turn} {r : Except SessionError SessionState}
    (h : t.reply = .session r) : t.before.Advances t.after t.departure? := by
  obtain ⟨st, c⟩ := t
  cases c with
  | start id actor => exact st.advances_start id actor
  | serve server => exact st.advances_start server.graph server.actor
  | select port => exact st.advances_select port
  | _ => cases h

theorem call_of_departure {t : Turn} {m : Move} (h : t.departure? = some m) : t.reply =
      .session (Stage.advance t.before.config.maxAutoAdvance t.before.config.maxAutoAdvance m.stage
        m.session m.port).1 ∧
    t.after = (Stage.advance t.before.config.maxAutoAdvance t.before.config.maxAutoAdvance m.stage
      m.session m.port).2 := by
  obtain ⟨st, c⟩ := t
  cases c with
  | start id actor =>
    have hstart := Stage.start_of_opening h
    exact ⟨congrArg Reply.session (congrArg Prod.fst hstart), congrArg Prod.snd hstart⟩
  | serve server =>
    have hstart := Stage.start_of_opening h
    exact ⟨congrArg Reply.session (congrArg Prod.fst hstart), congrArg Prod.snd hstart⟩
  | select port =>
    have hselect := Stage.select_of_answer h
    exact ⟨congrArg Reply.session (congrArg Prod.fst hselect), congrArg Prod.snd hselect⟩
  | _ => cases h

/-! ### When a call moves a session -/

theorem refuses_start {st : Stage} {id : GraphId} {actor : Option Actor}
    (h : st.opening? id actor = none) : (Reply.session (st.start id actor).1).refuses = true := by
  cases hsession : st.session with
  | some s =>
    rw [(Stage.start_of_session hsession id actor).2]
    rfl
  | none =>
    cases hgraph : st.blackboard.graph? id with
    | none =>
      rw [(Stage.start_of_missing hsession hgraph actor).2]
      rfl
    | some g =>
      rw [(Stage.start_of_graph hsession hgraph actor).1] at h
      simp at h

theorem opening?_of_none {t : Turn} (h : t.departure? = none) : t.opening? = none := by
  obtain ⟨st, c⟩ := t
  cases c with
  | start id actor => exact if_pos (refuses_start h)
  | serve server => exact if_pos (refuses_start h)
  | _ => exact ite_self _

theorem answer_of_departure {t : Turn} {m : Move} {s : Session} {g : Graph} {n : Node}
    {line : Presentation} (hsession : t.before.session = some s) (hpaused : t.before.Paused s g n line)
    (h : t.departure? = some m) : ∃ port, t.call = .select port ∧ line.offers port = true ∧
      m = ⟨t.before, { s with presentation := none, state := .active }, port⟩ := by
  obtain ⟨st, c⟩ := t
  cases c with
  | select port =>
    have h : st.answer? port = some m := h
    cases hoffers : line.offers port with
    | false =>
      rw [(Stage.select_of_refused hsession hpaused hoffers).1] at h
      simp at h
    | true =>
      rw [(Stage.select_of_offered hsession hpaused hoffers).1] at h
      exact ⟨port, rfl, hoffers, (Option.some.inj h).symm⟩
  | start id actor =>
    have h : st.opening? id actor = some m := h
    rw [(Stage.start_of_session hsession id actor).1] at h
    simp at h
  | serve server =>
    have h : st.opening? server.graph server.actor = some m := h
    rw [(Stage.start_of_session hsession server.graph server.actor).1] at h
    simp at h
  | _ => simp [departure?, Stage.departure?] at h

theorem ask_of_departure {t : Turn} {m : Move} (hsession : t.before.session = none)
    (h : t.departure? = some m) : ∃ id actor g, t.call.asks? = some (id, actor) ∧
      t.before.blackboard.graph? id = some g ∧
        m = ⟨(t.before.tell .snapshot).tell (.started id), .start g actor, 0⟩ := by
  have hask : ∀ id actor, t.before.opening? id actor = some m → ∃ g,
      t.before.blackboard.graph? id = some g ∧
        m = ⟨(t.before.tell .snapshot).tell (.started id), .start g actor, 0⟩ := by
    intro id actor h
    cases hgraph : t.before.blackboard.graph? id with
    | none =>
      rw [(Stage.start_of_missing hsession hgraph actor).1] at h
      simp at h
    | some g =>
      rw [(Stage.start_of_graph hsession hgraph actor).1] at h
      exact ⟨g, rfl, (Option.some.inj h).symm⟩
  obtain ⟨st, c⟩ := t
  cases c with
  | start id actor =>
    obtain ⟨g, hg, hm⟩ := hask id actor h
    exact ⟨id, actor, g, rfl, hg, hm⟩
  | serve server =>
    obtain ⟨g, hg, hm⟩ := hask server.graph server.actor h
    exact ⟨server.graph, server.actor, g, rfl, hg, hm⟩
  | select port =>
    have h : st.answer? port = some m := h
    rw [(Stage.select_of_idle hsession port).1] at h
    simp at h
  | _ => simp [departure?, Stage.departure?] at h

theorem opening?_of_running {t : Turn} {s : Session} (hsession : t.before.session = some s) :
    t.opening? = none := by
  obtain ⟨st, c⟩ := t
  cases c with
  | start id actor => exact opening?_of_none (Stage.start_of_session hsession id actor).1
  | serve server =>
    exact opening?_of_none (Stage.start_of_session hsession server.graph server.actor).1
  | _ => exact ite_self _

theorem idle_of_opening {t : Turn} {o : GraphId × Option Actor} (h : t.opening? = some o) :
    t.before.isRunning = false := by
  cases hrunning : t.before.isRunning with
  | false => rfl
  | true =>
    obtain ⟨s, hs⟩ := Stage.session_of_running hrunning
    rw [opening?_of_running hs] at h
    simp at h

theorem pick?_of_none {t : Turn} (hst : t.before.Settled) (h : t.departure? = none) :
    t.pick? = none := by
  obtain ⟨st, c⟩ := t
  cases c with
  | select port =>
    show (if st.presentation?.any (·.offers port) then some port else none) = none
    cases hsession : st.session with
    | none => simp [Stage.presentation?, hsession]
    | some s =>
      obtain ⟨g, n, line, hpaused⟩ := hst s hsession
      have h : st.answer? port = none := h
      cases hoffers : line.offers port with
      | false => simp [Stage.presentation?, hsession, hpaused.shown, hoffers]
      | true =>
        rw [(Stage.select_of_offered hsession hpaused hoffers).1] at h
        simp at h
  | _ => rfl

end Turn

end Dialogue

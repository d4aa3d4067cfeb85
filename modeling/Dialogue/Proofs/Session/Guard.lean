import Dialogue.Proofs.Session.Limit

/-!
# The guard of an advance

An advance may pass as many nodes as the limit says. It fails at the node after that if the session
would go on from there as well, and by then it has acted on that node (`limit_exact`). Nothing is
assumed of the stage here: what a session does at a node, and from which it goes on by itself
(`Move.Passes`), does not depend on whether its graph is registered or its template is current.

A loop that counts the nodes passed, with a counter that ends somewhere above the limit, comes to the
same as the advance and never gets to the end of its counter (`counted_eq`). Neither the moves nor what
they do depends on the limit, so a greater one changes nothing where the limit was not exceeded
(`advance_withLimit`).
-/

namespace Dialogue

/-! ### Moves from which the session goes on -/

theorem Stage.act_advances_iff (st : Stage) (s : Session) (n : Node) :
    (∃ port, (st.act s n).2.2 = .advance port) ↔ n.kind.isPassed = true ∧
      ∀ flag, n.kind = .condition flag → s.template.check flag ≠ .unknown := by
  obtain ⟨guid, position, text, kind⟩ := n
  cases kind with
  | condition flag => cases hcheck : s.template.check flag <;> simp [act, NodeKind.isPassed, hcheck]
  | basic target => cases target <;> simp [act, present, NodeKind.isPassed]
  | _ => simp [act, present, NodeKind.isPassed]

theorem Stage.unknown_of_act_fails {st : Stage} {s : Session} {n : Node} {e : SessionError}
    (h : (st.act s n).2.2 = .fail e) : ∃ flag, e = .unknownCondition n.guid flag := by
  obtain ⟨guid, position, text, kind⟩ := n
  cases kind with
  | condition flag =>
    cases hcheck : s.template.check flag with
    | unknown =>
      simp only [act, hcheck, Verdict.fail.injEq] at h
      exact ⟨flag, h.symm⟩
    | _ => simp [act, hcheck] at h
  | basic target => cases target <;> simp [act, present] at h
  | _ => simp [act, present] at h

namespace Move

/-- The session comes to a node and goes on by itself: from the start, an event, a change of viewpoint,
or a branch whose name its template knows. -/
def Passes (m : Move) : Prop :=
  ∃ n, m.arrival? = some n ∧ n.kind.isPassed = true ∧
    ∀ flag, n.kind = .condition flag → m.session.template.check flag ≠ .unknown

theorem leads_iff {m : Move} : (∃ m', m.Leads m') ↔ ∃ port, m.result.2.2 = .advance port := by
  constructor
  · rintro ⟨m', h⟩
    exact ⟨m'.port, by rw [h]⟩
  · rintro ⟨port, h⟩
    exact ⟨⟨m.result.1, m.result.2.1, port⟩, Prod.ext rfl (Prod.ext rfl h)⟩

theorem passes_iff_leads {m : Move} : m.Passes ↔ ∃ m', m.Leads m' := by
  rw [leads_iff, Passes]
  cases harr : m.arrival? with
  | none =>
    rw [result_of_lost harr]
    simp
  | some n =>
    rw [result_of_arrival harr, Stage.act_advances_iff]
    simp

theorem not_fail_limit (m : Move) (limit : Nat) :
    m.result.2.2 ≠ .fail (.autoAdvanceLimit limit) := by
  intro h
  cases harr : m.arrival? with
  | none =>
    rw [result_of_lost harr] at h
    simp at h
  | some n =>
    rw [result_of_arrival harr] at h
    obtain ⟨flag, he⟩ := Stage.unknown_of_act_fails h
    simp at he

theorem land_of_leads {m m' : Move} (h : m.Leads m') (limit : Nat) : m.land limit =
    (.error (.autoAdvanceLimit limit), m.result.1.abort m.result.2.1 (.autoAdvanceLimit limit)) := by
  rw [land, h]

theorem land_fst_eq_limit_iff {m : Move} {limit limit' : Nat} :
    (m.land limit).1 = .error (.autoAdvanceLimit limit') ↔ limit' = limit ∧ m.Passes := by
  rw [passes_iff_leads]
  constructor
  · intro h
    have hfail := m.not_fail_limit limit'
    unfold land at h
    split at h
    · simp at h
    · simp at h
    · rename_i st s e hresult
      simp only [Except.error.injEq] at h
      simp [hresult, h] at hfail
    · rename_i st s port hresult
      simp only [Except.error.injEq, SessionError.autoAdvanceLimit.injEq] at h
      exact ⟨h.symm, ⟨st, s, port⟩, hresult⟩
  · rintro ⟨rfl, m', hleads⟩
    rw [land_of_leads hleads]

end Move

/-! ### The counting loop -/

/-- An advance as a loop that counts the nodes passed, by a counter whose greatest value is `top`. No
result if the counter overflows. -/
def Stage.counted (top limit count : Nat) (st : Stage) (s : Session) (port : PortIndex) :
    Option (Except SessionError SessionState × Stage) :=
  match st.step s port with
  | (st, s, .pause) => some (.ok .awaitingInput, { st with session := some s })
  | (st, s, .finish) => some (.ok .ended, st.close s)
  | (st, s, .fail e) => some (.error e, st.abort s e)
  | (st, s, .advance port) =>
    if count = top then none
    else if limit < count + 1 then
      some (.error (.autoAdvanceLimit limit), st.abort s (.autoAdvanceLimit limit))
    else counted top limit (count + 1) st s port
termination_by limit - count

namespace Move

/-- **The loop comes to what the advance comes to**, and its counter does not overflow. What has been
counted and what is left of the budget is the limit all the time. -/
theorem counted_eq {top limit : Nat} (htop : limit < top) (budget : Nat) (m : Move) : ∀ count,
    count + budget = limit → Stage.counted top limit count m.stage m.session m.port =
      some (Stage.advance limit budget m.stage m.session m.port) := by
  induction budget, m using onward_induction with
  | rests budget m h =>
    intro count hcount
    obtain ⟨st, s, verdict, hresult⟩ : ∃ st s verdict, m.result = (st, s, verdict) := ⟨_, _, _, rfl⟩
    have hstep : m.stage.step m.session m.port = (st, s, verdict) := hresult
    rw [advance_of_rests h, land, hresult, Stage.counted, hstep]
    cases verdict with
    | advance port =>
      rcases h with rfl | h
      · have hroom : count ≠ top := by omega
        have hover : limit < count + 1 := by omega
        simp only [hroom, hover, if_false, if_true]
      · exact absurd hresult (h ⟨st, s, port⟩)
    | _ => rfl
  | leads budget m m' h ih =>
    intro count hcount
    have hstep : m.stage.step m.session m.port = (m'.stage, m'.session, .advance m'.port) := h
    have hroom : count ≠ top := by omega
    have hwithin : ¬ limit < count + 1 := by omega
    rw [advance_of_leads h, Stage.counted, hstep]
    simp only [hroom, hwithin, if_false]
    exact ih (count + 1) (by omega)

end Move

/-! ### Another limit -/

/-- The stage with another limit in its settings. -/
def Stage.withLimit (st : Stage) (limit : Nat) : Stage :=
  { st with config := { st.config with maxAutoAdvance := limit } }

def Move.withLimit (m : Move) (limit : Nat) : Move := ⟨m.stage.withLimit limit, m.session, m.port⟩

def Turn.withLimit (t : Turn) (limit : Nat) : Turn := ⟨t.before.withLimit limit, t.call⟩

namespace Stage

variable (st : Stage) (s : Session) (limit : Nat)

theorem tell_withLimit (n : Notice) :
    (st.withLimit limit).tell n = (st.tell n).withLimit limit := rfl

theorem focus_withLimit (actor : Option Actor) (target : FocusTarget) :
    (st.withLimit limit).focus actor target = (st.focus actor target).withLimit limit := by
  have hconfig : (st.withLimit limit).config.focusOnActor = st.config.focusOnActor := rfl
  unfold focus
  rw [hconfig, tell_withLimit]
  split
  · rfl
  · split <;> rfl

theorem close_withLimit : (st.withLimit limit).close s = (st.close s).withLimit limit := by
  have hconfig : (st.withLimit limit).config.restoreViewpointOnExit =
      st.config.restoreViewpointOnExit := rfl
  unfold close
  rw [hconfig]
  split <;> rfl

theorem abort_withLimit (e : SessionError) :
    (st.withLimit limit).abort s e = (st.abort s e).withLimit limit :=
  (st.tell (.failed e)).close_withLimit s limit

theorem act_withLimit (n : Node) : (st.withLimit limit).act s n =
    ((st.act s n).1.withLimit limit, (st.act s n).2) := by
  obtain ⟨guid, position, text, kind⟩ := n
  cases kind with
  | focus target => simp only [act, focus_withLimit]
  | condition flag =>
    simp only [act]
    split <;> rfl
  | basic target =>
    cases target with
    | none => rfl
    | some target =>
      simp only [act, focus_withLimit]
      rfl
  | _ => rfl

end Stage

namespace Move

variable {m m' : Move}

theorem result_withLimit (m : Move) (limit : Nat) :
    (m.withLimit limit).result = (m.result.1.withLimit limit, m.result.2) := by
  cases harr : m.arrival? with
  | none =>
    have harr' : (m.withLimit limit).arrival? = none := harr
    rw [result_of_lost harr, result_of_lost harr']
    rfl
  | some n =>
    have harr' : (m.withLimit limit).arrival? = some n := harr
    rw [result_of_arrival harr, result_of_arrival harr']
    exact (m.stage.record (.entered n.guid)).act_withLimit { m.session with cursor := n.guid } limit n

theorem Leads.withLimit (h : m.Leads m') (limit : Nat) :
    (m.withLimit limit).Leads (m'.withLimit limit) := by
  rw [Leads, result_withLimit, h]
  rfl

theorem not_leads_withLimit (h : ∀ x, ¬ m.Leads x) (limit : Nat) :
    ∀ x, ¬ (m.withLimit limit).Leads x := by
  intro x hx
  have hport : m.result.2.2 = .advance x.port := by
    have hresult := congrArg (fun r => r.2.2) hx
    rwa [result_withLimit] at hresult
  obtain ⟨m', hm'⟩ := leads_iff.mpr ⟨_, hport⟩
  exact h m' hm'

theorem land_withLimit (h : ∀ x, ¬ m.Leads x) (limit limit' : Nat) :
    (m.withLimit limit').land limit' =
      ((m.land limit).1, (m.land limit).2.withLimit limit') := by
  obtain ⟨st, s, verdict, hresult⟩ : ∃ st s verdict, m.result = (st, s, verdict) := ⟨_, _, _, rfl⟩
  rw [land, land, result_withLimit, hresult]
  cases verdict with
  | pause => rfl
  | finish => exact congrArg _ (st.close_withLimit s limit')
  | fail e => exact congrArg _ (st.abort_withLimit s limit' e)
  | advance port => exact absurd hresult (h ⟨st, s, port⟩)

/-- **A greater limit changes nothing where the limit is not exceeded.** -/
theorem advance_withLimit (limit limit' budget : Nat) (m : Move) : ∀ budget',
    budget ≤ budget' →
      (Stage.advance limit budget m.stage m.session m.port).1 ≠ .error (.autoAdvanceLimit limit) →
        Stage.advance limit' budget' (m.withLimit limit').stage m.session m.port =
          ((Stage.advance limit budget m.stage m.session m.port).1,
            (Stage.advance limit budget m.stage m.session m.port).2.withLimit limit') := by
  induction budget, m using onward_induction with
  | rests budget m h =>
    intro budget' _ hwithin
    rw [advance_of_rests h] at hwithin ⊢
    have hstays : ∀ x, ¬ m.Leads x := fun x hx =>
      hwithin (by rw [land_of_leads hx])
    have hrests : (m.withLimit limit').Rests budget' := Or.inr (not_leads_withLimit hstays limit')
    rw [← land_withLimit hstays, ← advance_of_rests hrests]
    rfl
  | leads budget m m' h ih =>
    intro budget' hle hwithin
    obtain ⟨rest, rfl⟩ : ∃ rest, budget' = rest + 1 := ⟨budget' - 1, by omega⟩
    rw [advance_of_leads h] at hwithin ⊢
    rw [← ih rest (by omega) hwithin]
    exact advance_of_leads (h.withLimit limit') limit' rest

end Move

/-! ### Calls -/

namespace Stage

variable {st : Stage} {m : Move}

theorem opening?_withLimit (limit : Nat) {id : GraphId} {actor : Option Actor}
    (h : st.opening? id actor = some m) :
    (st.withLimit limit).opening? id actor = some (m.withLimit limit) := by
  unfold opening? at h
  split at h
  · rename_i g hsession hgraph
    cases h
    have hidle : (st.withLimit limit).session = none := hsession
    exact (start_of_graph hidle hgraph actor).1
  · cases h

theorem answer?_withLimit (limit : Nat) {port : PortIndex} (h : st.answer? port = some m) :
    (st.withLimit limit).answer? port = some (m.withLimit limit) := by
  obtain ⟨s, hsession, hs⟩ := Option.bind_eq_some_iff.mp h
  refine Option.bind_eq_some_iff.mpr ⟨s, hsession, ?_⟩
  split at hs
  · cases hs
  · rename_i haccepted
    cases hs
    exact if_neg haccepted

end Stage

namespace Turn

variable {t : Turn} {m : Move}

theorem departure?_withLimit (h : t.departure? = some m) (limit : Nat) :
    (t.withLimit limit).departure? = some (m.withLimit limit) := by
  obtain ⟨st, c⟩ := t
  cases c with
  | start id actor => exact Stage.opening?_withLimit limit h
  | serve server => exact Stage.opening?_withLimit limit h
  | select port => exact Stage.answer?_withLimit limit h
  | _ => cases h

theorem visits_of_departure (h : t.departure? = some m) :
    t.visits = (t.moves.filterMap Move.arrival?).map Node.guid := by
  obtain ⟨l, hlast, -, hafter⟩ := landing h
  have hfirst : m.stage.visits = t.before.visits := by
    rcases departure_stage h with hstage | ⟨id, hstage⟩
    · rw [hstage]
    · rw [hstage, Stage.visits_tell, Stage.visits_tell]
  rw [moves_of_departure h] at hlast ⊢
  refine visits_of_append ?_
  rw [hafter, (l.land_frame _).2.2.2, m.visits_onward _ l hlast, hfirst]

theorem reply_eq_limit_iff (h : t.departure? = some m) {limit : Nat} :
    t.reply = .session (.error (.autoAdvanceLimit limit)) ↔
      limit = t.before.config.maxAutoAdvance ∧
        t.moves.length = t.before.config.maxAutoAdvance + 1 ∧ ∀ x ∈ t.moves, x.Passes := by
  obtain ⟨l, hlast, hreply, -⟩ := landing h
  rw [hreply, Reply.session.injEq, Move.land_fst_eq_limit_iff]
  refine and_congr_right fun _ => ⟨fun hpasses => ?_, fun hall =>
    hall.2 l (List.mem_of_getLast? hlast)⟩
  obtain ⟨l', hleads⟩ := Move.passes_iff_leads.mp hpasses
  rw [moves_of_departure h] at hlast ⊢
  obtain ⟨hlength, hall⟩ := Move.all_lead hlast hleads
  exact ⟨hlength, fun x hx => Move.passes_iff_leads.mpr (hall x hx)⟩

theorem length_visits_le (h : t.departure? = some m) :
    t.visits.length ≤ t.before.config.maxAutoAdvance + 1 := by
  have hmoves : t.moves.length ≤ t.before.config.maxAutoAdvance + 1 := by
    rw [moves_of_departure h]
    exact (m.length_onward _).1
  rw [visits_of_departure h, List.length_map]
  exact Nat.le_trans (List.length_filterMap_le _ _) hmoves

theorem arrivals_of_passes (hall : ∀ x ∈ t.moves, x.Passes) :
    (t.moves.filterMap Move.arrival?).length = t.moves.length := by
  rw [List.filterMap_length_eq_length]
  intro x hx
  obtain ⟨n, harr, -⟩ := hall x hx
  rw [harr]
  rfl

theorem withLimit_eq (h : t.departure? = some m) {limit : Nat}
    (hle : t.before.config.maxAutoAdvance ≤ limit)
    (hwithin : t.reply ≠ .session (.error (.autoAdvanceLimit t.before.config.maxAutoAdvance))) :
    (t.withLimit limit).reply = t.reply ∧ (t.withLimit limit).after = t.after.withLimit limit := by
  obtain ⟨hreply, hafter⟩ := call_of_departure h
  obtain ⟨hreply', hafter'⟩ := call_of_departure (departure?_withLimit h limit)
  have hadvance := Move.advance_withLimit t.before.config.maxAutoAdvance limit
    t.before.config.maxAutoAdvance m limit hle fun hover => hwithin (by rw [hreply, hover])
  have hanswer := congrArg Prod.fst hadvance
  rw [hreply, hafter]
  exact ⟨hreply'.trans (congrArg Reply.session hanswer), hafter'.trans (congrArg Prod.snd hadvance)⟩

end Turn

namespace Stage

/-- **The guard is exact and monotone.** On every stage, whatever the graph and the listeners, a call
that makes a session move enters at most one node more than the limit. It fails for the limit exactly
if it has come to that many nodes and would go on from all of them, and then it has acted on the last one
as well. It comes to what the loop comes to that counts the nodes, whose counter does not overflow. And
if it does not fail for the limit, then with any greater limit it gives the same reply and leaves the
same stage. -/
theorem limit_exact {t : Turn} {m : Move} (h : t.departure? = some m) {limit : Nat}
    (hlimit : t.before.config.maxAutoAdvance = limit) :
    t.visits = (t.moves.filterMap Move.arrival?).map Node.guid ∧ t.visits.length ≤ limit + 1 ∧
    (∀ top, limit < top → ∃ r, counted top limit 0 m.stage m.session m.port = some (r, t.after) ∧
      t.reply = .session r) ∧
    (∀ limit', t.reply = .session (.error (.autoAdvanceLimit limit')) ↔
      limit' = limit ∧ t.moves.length = limit + 1 ∧ ∀ x ∈ t.moves, x.Passes) ∧
    (t.reply = .session (.error (.autoAdvanceLimit limit)) → t.visits.length = limit + 1 ∧
      ∃ l, t.moves.getLast? = some l ∧
        t.after = l.result.1.abort l.result.2.1 (.autoAdvanceLimit limit)) ∧
    ∀ limit', limit ≤ limit' → t.reply ≠ .session (.error (.autoAdvanceLimit limit)) →
      (t.withLimit limit').reply = t.reply ∧
        (t.withLimit limit').after = t.after.withLimit limit' := by
  subst hlimit
  refine ⟨Turn.visits_of_departure h, Turn.length_visits_le h, fun top htop => ?_,
    fun limit' => Turn.reply_eq_limit_iff h, fun hover => ?_,
    fun limit' hle hwithin => Turn.withLimit_eq h hle hwithin⟩
  · obtain ⟨hreply, hafter⟩ := Turn.call_of_departure h
    refine ⟨_, ?_, hreply⟩
    rw [m.counted_eq htop t.before.config.maxAutoAdvance 0 (Nat.zero_add _), hafter]
  · obtain ⟨-, hlength, hall⟩ := (Turn.reply_eq_limit_iff h).mp hover
    have hvisits : t.visits.length = t.before.config.maxAutoAdvance + 1 := by
      rw [Turn.visits_of_departure h, List.length_map, Turn.arrivals_of_passes hall, hlength]
    refine ⟨hvisits, ?_⟩
    obtain ⟨l, hlast, -, hafter⟩ := Turn.landing h
    obtain ⟨l', hleads⟩ := Move.passes_iff_leads.mp (hall l (List.mem_of_getLast? hlast))
    refine ⟨l, hlast, ?_⟩
    rw [hafter, Move.land_of_leads hleads]

/-- On the causeway three nodes are passed before the line. A limit of two is exceeded at the third
of them; a limit of three is used up, but not exceeded, and a greater one makes no difference. -/
theorem limit_exact_causeway : ∃ t t' : Turn,
    t = ⟨((new { maxAutoAdvance := 2 }).run [.register .causeway, .listen .lamplighter]).2,
      .start ⟨14⟩ none⟩ ∧ t' = t.withLimit 3 ∧
    t.reply = .session (.error (.autoAdvanceLimit 2)) ∧ t.visits.length = 3 ∧
    (∀ x ∈ t.moves, x.Passes) ∧ t.after.notices.getLast? = some (.ended ⟨14⟩) ∧
    t'.reply = .session (.ok .awaitingInput) ∧ t'.visits.length ≤ 4 ∧
    (t'.withLimit 10).reply = t'.reply ∧ (t'.withLimit 10).after = t'.after.withLimit 10 := by
  have hopening : Turn.departure? ⟨((new { maxAutoAdvance := 2 }).run
      [.register .causeway, .listen .lamplighter]).2, .start ⟨14⟩ none⟩ = some _ := rfl
  obtain ⟨-, -, -, hiff, hover, -⟩ := limit_exact hopening rfl
  obtain ⟨-, hle, -, -, -, hgreater⟩ := limit_exact (Turn.departure?_withLimit hopening 3) rfl
  obtain ⟨hreply, hafter⟩ := hgreater 10 (by decide) fun hfails => by cases hfails
  exact ⟨_, _, rfl, rfl, rfl, (hover rfl).1, ((hiff 2).mp rfl).2.2, rfl, rfl, hle, hreply, hafter⟩

end Stage

end Dialogue

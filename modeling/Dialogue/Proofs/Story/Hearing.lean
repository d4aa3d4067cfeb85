import Dialogue.Proofs.Story.Deeds

/-!
# Hearings

An event is told to the listeners one after the other. At its hearing a listener finds the properties
as the one before left them and knows what was handled so far, and if it reacts to the event, its script
runs: what it reads, writes and reports depends on these alone (`Script.run_alone`). A dispatch is the
hearings of the registered listeners in order, and nothing else is done during it
(`Registry.dispatch_heard`).
-/

namespace Dialogue

/-- The script with what it remembers given to it. -/
def Script.remembering {α : Type} (past : Journal) : Script α → Script α
  | done a => done a
  | get name next => get name fun r => (next r).remembering past
  | set name v next => set name v fun r => (next r).remembering past
  | remember next => (next past).remembering past

/-- A listener who is told an event, the properties as it finds them, and what was handled before. -/
structure Hearing where
  listener : Listener
  event : String
  board : Blackboard
  past : Journal

namespace Hearing

/-- What the script of the listener does with the properties. -/
def run (h : Hearing) : List Outcome × Scope :=
  ((h.listener.handler h.event).remembering h.past).run ⟨h.board, none, []⟩

/-- The properties as the listener leaves them. -/
def left (h : Hearing) : Blackboard :=
  if h.listener.hears h.event then h.run.2.blackboard else h.board

/-- What is done: the writes of the script, then its report, if the listener reacts to the event. -/
def deeds (h : Hearing) : List Entry :=
  if h.listener.hears h.event then
    h.run.2.journal.reverse ++ [.handled h.listener.key h.event h.run.1]
  else []

/-- What has been handled when the listener is done. -/
def known (h : Hearing) : Journal :=
  if h.listener.hears h.event then .handled h.listener.key h.event h.run.1 :: h.past else h.past

/-- Each listener finds the properties as the one before left them, and knows what was handled so
far. -/
def Thread : Blackboard → Journal → List Hearing → Blackboard → Journal → Prop
  | b, past, [], b', past' => b' = b ∧ past' = past
  | b, past, h :: hs, b', past' => h.board = b ∧ h.past = past ∧ Thread h.left h.known hs b' past'

theorem Thread.append {hs hs' : List Hearing} {b b' b'' : Blackboard} {past past' past'' : Journal}
    (h : Thread b past hs b' past') (h' : Thread b' past' hs' b'' past'') :
    Thread b past (hs ++ hs') b'' past'' := by
  induction hs generalizing b past with
  | nil =>
    obtain ⟨rfl, rfl⟩ := h
    exact h'
  | cons x hs ih => exact ⟨h.1, h.2.1, ih h.2.2⟩

end Hearing

/-! ### Scripts -/

theorem Journal.heard_append (j j' : Journal) : heard (j ++ j') = heard j ++ heard j' :=
  List.filter_append j j'

theorem Script.run_alone {α : Type} (p : Script α) (j : Journal) : ∀ s t : Scope,
    t.blackboard = s.blackboard → t.journal = s.journal ++ j → Journal.heard s.journal = [] →
      (p.run t).1 = ((p.remembering j.heard).run s).1 ∧
        (p.run t).2.blackboard = ((p.remembering j.heard).run s).2.blackboard ∧
        (p.run t).2.journal = ((p.remembering j.heard).run s).2.journal ++ j ∧
          Journal.heard ((p.remembering j.heard).run s).2.journal = [] := by
  induction p with
  | done a => exact fun s t hboard hjournal hquiet => ⟨rfl, hboard, hjournal, hquiet⟩
  | get name next ih =>
    intro s t hboard hjournal hquiet
    have hget : t.get name = s.get name := congrArg (fun b : Blackboard => b.get name) hboard
    rw [run, remembering, run, hget]
    exact ih _ s t hboard hjournal hquiet
  | set name v next ih =>
    intro s t hboard hjournal hquiet
    rw [run, remembering, run]
    cases h : s.blackboard.set name v with
    | error e =>
      have h' : t.blackboard.set name v = .error e := by rw [hboard, h]
      rw [Scope.set_of_error h, Scope.set_of_error h']
      exact ih _ s t hboard hjournal hquiet
    | ok r =>
      have h' : t.blackboard.set name v = .ok r := by rw [hboard, h]
      rw [Scope.set_of_ok h, Scope.set_of_ok h']
      exact ih _ _ _ rfl (congrArg (Entry.wrote r.1 name v :: ·) hjournal) hquiet
  | remember next ih =>
    intro s t hboard hjournal hquiet
    have hpast : Journal.heard t.journal = j.heard := by
      rw [hjournal, Journal.heard_append, hquiet]
      rfl
    rw [run, remembering, hpast]
    exact ih _ s t hboard hjournal hquiet

theorem Script.deeds_run {α : Type} (p : Script α) (b : Blackboard) :
    (p.run ⟨b, none, []⟩).2.journal.filter Entry.isDeed = (p.run ⟨b, none, []⟩).2.journal := by
  have hplain : (p.run ⟨b, none, []⟩).2 = (p.run ⟨b, none, []⟩).2.plain :=
    congrArg Prod.snd (p.run_plain ⟨b, none, []⟩)
  exact (congrArg Scope.journal hplain).symm

/-! ### Dispatches -/

namespace Registry

theorem handle_heard (event : String) (s : Scope) (l : Listener) :
    (handle event s l).blackboard = Hearing.left ⟨l, event, s.blackboard, s.journal.heard⟩ ∧
      (handle event s l).journal.heard = Hearing.known ⟨l, event, s.blackboard, s.journal.heard⟩ ∧
        Journal.deeds (handle event s l).journal =
          Journal.deeds s.journal ++ Hearing.deeds ⟨l, event, s.blackboard, s.journal.heard⟩ := by
  obtain ⟨hreport, hboard, hjournal, hquiet⟩ :=
    (l.handler event).run_alone s.journal ⟨s.blackboard, none, []⟩ s rfl rfl rfl
  unfold handle Hearing.left Hearing.known Hearing.deeds
  split
  · refine ⟨hboard, ?_, ?_⟩
    · show Entry.handled l.key event ((l.handler event).run s).1 ::
        Journal.heard ((l.handler event).run s).2.journal = _
      rw [hjournal, hreport, Journal.heard_append, hquiet]
      rfl
    · rw [Journal.deeds_cons rfl, hjournal, hreport, Journal.deeds, List.filter_append,
        Script.deeds_run, List.reverse_append, List.append_assoc]
      rfl
  · exact ⟨rfl, rfl, (List.append_nil _).symm⟩

/-- **Every listener hears an event once, in order**, and the writes of each are seen by the next. -/
theorem dispatch_heard (r : Registry) (event : String) (s : Scope) : ∃ hs : List Hearing,
    hs.map (fun h => (h.listener, h.event)) = r.listeners.map (fun l => (l, event)) ∧
      Hearing.Thread s.blackboard s.journal.heard hs (r.dispatch event s).blackboard
        (r.dispatch event s).journal.heard ∧
        Journal.deeds (r.dispatch event s).journal =
          Journal.deeds s.journal ++ hs.flatMap Hearing.deeds := by
  unfold dispatch
  induction r.listeners generalizing s with
  | nil => exact ⟨[], rfl, ⟨rfl, rfl⟩, (List.append_nil _).symm⟩
  | cons l ls ih =>
    obtain ⟨hboard, hknown, hdeeds⟩ := handle_heard event s l
    obtain ⟨hs, hheard, hthread, hrest⟩ := ih (handle event s l)
    rw [hboard, hknown] at hthread
    refine ⟨⟨l, event, s.blackboard, s.journal.heard⟩ :: hs, ?_, ⟨rfl, rfl, hthread⟩, ?_⟩
    · rw [List.map_cons, List.map_cons, hheard]
    · rw [List.foldl_cons, hrest, hdeeds, List.flatMap_cons, List.append_assoc]

end Registry

end Dialogue

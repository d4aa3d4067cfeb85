import Dialogue.Proofs.Session.Protocol
import Dialogue.Proofs.Session.Ledger

/-!
# Work around a session that waits

While a session waits, graphs come and go around it, listeners too, and properties are read and
written. None of this touches the session, but for its template, which takes in what is written to its
own graph (`Stage.Undisturbed`). That holds of one call (`Turn.undisturbed`) and so of any number of
calls (`undisturbed_run`), whatever the order and wherever a name leads to by then. The line that waits
is the last thing that the host was told; it is rendered once and not again, so it stays what the host
was shown even when the properties in it are written (`pause_isolated`).
-/

namespace Dialogue

/-! ### Writes and the template of a graph -/

/-- The graph whose property an attempt writes, if it succeeds. -/
def Attempt.owner? (a : Attempt) : Option GraphId :=
  match a.scope.blackboard.set a.name a.value with
  | .ok (owner, _) => some owner
  | .error _ => none

/-- What an attempt writes to a graph. -/
def Attempt.reaching? (id : GraphId) (a : Attempt) : Option (String × PropertyValue) :=
  if a.owner? = some id then some (a.name, a.value) else none

/-- The template of a graph after attempts to write: it takes in what reaches the graph. -/
def Template.after (id : GraphId) (t : Template) (as : List Attempt) : Template :=
  (as.filterMap (Attempt.reaching? id)).foldl (fun t w => t.update w.1 w.2) t

theorem Template.after_append (id : GraphId) (t : Template) (as as' : List Attempt) :
    t.after id (as ++ as') = (t.after id as).after id as' := by
  rw [after, List.filterMap_append, List.foldl_append]
  rfl

theorem Template.after_of_elsewhere {id : GraphId} {as : List Attempt}
    (h : ∀ a ∈ as, a.owner? ≠ some id) (t : Template) : t.after id as = t := by
  have hnone : as.filterMap (Attempt.reaching? id) = [] :=
    List.filterMap_eq_nil_iff.mpr fun a ha => if_neg (h a ha)
  rw [after, hnone, List.foldl_nil]

theorem Scope.active_set (s : Scope) (name : String) (v : PropertyValue) :
    (s.set name v).2.active = s.active.map fun x => (x.1, x.2.after x.1 [⟨s, name, v⟩]) := by
  cases hset : s.blackboard.set name v with
  | error e =>
    rw [set_of_error hset]
    simp [Template.after, Attempt.reaching?, Attempt.owner?, hset]
  | ok r =>
    obtain ⟨owner, b⟩ := r
    rw [set_of_ok hset]
    refine congrArg (fun f => s.active.map f) (funext fun x => ?_)
    obtain ⟨id, t⟩ := x
    by_cases howner : id = owner
    · simp [Template.after, Attempt.reaching?, Attempt.owner?, hset, howner]
    · simp [Template.after, Attempt.reaching?, Attempt.owner?, hset, howner, Ne.symm howner]

theorem Script.active_run {α : Type} (p : Script α) (s : Scope) :
    (p.run s).2.active = s.active.map fun x => (x.1, x.2.after x.1 (p.attempts s)) := by
  induction p generalizing s with
  | done a =>
    cases h : s.active <;> simp [run, attempts, Template.after, h]
  | get name next ih => exact ih _ s
  | set name v next ih =>
    rw [run, ih, Scope.active_set, Option.map_map]
    refine congrArg (fun f => s.active.map f) (funext fun x => ?_)
    exact congrArg (Prod.mk x.1)
      (x.2.after_append x.1 [⟨s, name, v⟩] ((next (s.set name v).1).attempts (s.set name v).2)).symm
  | remember next ih => exact ih _ s

/-! ### One call -/

/-- What can be called around a session on a graph: all but what moves or ends a session. -/
def Call.Spares (id : GraphId) : Call → Prop
  | .unregister other => other ≠ id
  | .start _ _ | .serve _ | .select _ | .stop => False
  | _ => True

namespace Stage

/-- A session is as it was, but for what was written to its graph, and the host is told nothing. -/
structure Undisturbed (st st' : Stage) (s : Session) (as : List Attempt) : Prop where
  session : st'.session = some { s with template := s.template.after s.graph as }
  notices : st'.notices = st.notices

theorem undisturbed_of_session {st st' : Stage} {s : Session} (h : st'.session = some s)
    (hnotices : st'.notices = st.notices) : st.Undisturbed st' s [] :=
  ⟨h, hnotices⟩

theorem Undisturbed.trans {st st' st'' : Stage} {s : Session} {as as' : List Attempt}
    (h : st.Undisturbed st' s as)
    (h' : st'.Undisturbed st'' { s with template := s.template.after s.graph as } as') :
    st.Undisturbed st'' s (as ++ as') := by
  refine ⟨?_, h'.notices.trans h.notices⟩
  rw [h'.session, Template.after_append]

theorem undisturbed_perform {α : Type} {st : Stage} {s : Session} (h : st.session = some s)
    (p : Script α) : st.Undisturbed (st.perform p).2 s (p.attempts st.scope) := by
  have hactive : st.scope.active = some (s.graph, s.template) := by
    rw [scope, h]
    rfl
  refine ⟨?_, (p.worked_run st.scope).notices⟩
  show (st.withScope (p.run st.scope).2).session = _
  simp only [withScope, h, p.active_run, hactive, Option.map_some, Option.getD_some]

theorem undisturbed_register {st : Stage} {s : Session} (h : st.session = some s) (g : Graph) :
    st.Undisturbed (st.register g).2 s [] := by
  unfold register
  split
  · split
    · exact undisturbed_of_session h rfl
    · exact undisturbed_of_session h rfl
  · exact undisturbed_of_session h rfl

theorem undisturbed_unregister {st : Stage} {s : Session} (h : st.session = some s) {other : GraphId}
    (hne : other ≠ s.graph) : st.Undisturbed (st.unregister other).2 s [] := by
  have hactive : st.activeGraph? ≠ some other := by
    rw [activeGraph?, h]
    exact fun hid => hne (Option.some.inj hid).symm
  have hafter : (st.unregister other).2 =
      { st with blackboard := (st.blackboard.unregister other).2 } := by
    simp only [unregister, if_neg hactive]
  rw [hafter]
  exact undisturbed_of_session h rfl

end Stage

/-- **A call that spares the session leaves it undisturbed.** -/
theorem Turn.undisturbed {t : Turn} {s : Session} (h : t.before.session = some s)
    (hspares : t.call.Spares s.graph) : t.before.Undisturbed t.after s t.attempts := by
  obtain ⟨st, c⟩ := t
  cases c with
  | register g => exact Stage.undisturbed_register h g
  | unregister other => exact Stage.undisturbed_unregister h hspares
  | listen l => exact Stage.undisturbed_of_session h rfl
  | unlisten key => exact Stage.undisturbed_of_session h rfl
  | set name v => exact Stage.undisturbed_perform h (.set name v .done)
  | perform p =>
    have hattempts : attempts ⟨st, .perform p⟩ = p.attempts st.scope := List.append_nil _
    rw [hattempts]
    exact Stage.undisturbed_perform h p
  | start id actor => exact hspares.elim
  | serve server => exact hspares.elim
  | select port => exact hspares.elim
  | stop => exact hspares.elim

/-! ### Runs -/

namespace Stage

theorem undisturbed_run {cs : List Call} {st : Stage} {s : Session} : st.session = some s →
    (∀ c ∈ cs, c.Spares s.graph) →
      st.Undisturbed (st.run cs).2 s ((st.turns cs).flatMap Turn.attempts) := by
  induction cs generalizing st s with
  | nil =>
    intro h _
    exact undisturbed_of_session h rfl
  | cons c cs ih =>
    intro h hspares
    have hfirst : st.Undisturbed (st.call c).2 s (Turn.attempts ⟨st, c⟩) :=
      Turn.undisturbed (t := ⟨st, c⟩) h (hspares c List.mem_cons_self)
    rw [run_cons, turns, List.flatMap_cons]
    exact hfirst.trans (ih hfirst.session fun c' hc' => hspares c' (List.mem_cons_of_mem _ hc'))

/-- **A session that waits is isolated.** Whatever graphs and listeners come and go and whatever is
read and written, so long as the graph of the session stays: the session is the same and so is its line,
which is the one that the host was shown last, and the host is told nothing. Only the template changes,
by what is written to the graph of the session and by nothing else, so it is the same too when all
writes fail or go to other graphs. -/
theorem pause_isolated {config : Config} {cs : List Call} {st : Stage}
    (hst : ((new config).run cs).2 = st) {s : Session} (hsession : st.session = some s)
    {around : List Call} (hspares : ∀ c ∈ around, c.Spares s.graph) :
    s.state = .awaitingInput ∧
    (st.run around).2.session = some { s with
      template := s.template.after s.graph ((st.turns around).flatMap Turn.attempts) } ∧
    (st.run around).2.notices = st.notices ∧
    (∃ line, st.notices.getLast? = some (.presented line) ∧ st.presentation? = some line ∧
      (st.run around).2.presentation? = some line) ∧
    ((∀ a ∈ (st.turns around).flatMap Turn.attempts, a.owner? ≠ some s.graph) →
      (st.run around).2.session = st.session) := by
  have hkept := undisturbed_run hsession hspares
  have hsettled : st.Settled := hst ▸ (settled_turns config cs).2.1
  have hshown : st.Shown := hst ▸ shown_run config cs
  obtain ⟨g, n, shown, hpaused⟩ := hsettled s hsession
  obtain ⟨line, hline, hlast⟩ := hshown s hsession
  refine ⟨hpaused.waiting, hkept.session, hkept.notices, ⟨line, hlast, ?_, ?_⟩, fun helse => ?_⟩
  · rw [presentation?, hsession]
    exact hline
  · rw [presentation?, hkept.session]
    exact hline
  · rw [hkept.session, Template.after_of_elsewhere helse, hsession]

end Stage

/-- What a brewery has in stock. -/
def Graph.brewery : Graph := ⟨⟨22⟩, ⟨"start"⟩, .origin, [], [], [⟨⟨"stock"⟩, "casks", .int 5⟩]⟩

namespace Stage

/-- A write to the other graph and one in vain, then the other graph goes; and a write to the purse
that the line speaks of, which changes the template but not the line. -/
theorem pause_isolated_brewery : ∃ st s,
    ((new {}).run [.register .brewery, .register .inn, .start ⟨1⟩ none]).2 = st ∧
      st.session = some s ∧
      (st.run [.set "casks" (.int 4), .set "coins" (.bool true), .unregister ⟨22⟩]).2.session =
        some s ∧
      (st.run [.unregister ⟨22⟩, .listen .innkeeper, .set "coins" (.int 3)]).2.session =
        some { s with template := s.template.update "coins" (.int 3) } ∧
      s.template.replacement? "coins" = some "9" ∧
      ∃ line, st.presentation? = some line ∧
        (st.run [.unregister ⟨22⟩, .listen .innkeeper, .set "coins" (.int 3)]).2.presentation? =
          some line := by
  have hstock : ∀ c ∈ [Call.set "casks" (.int 4), .set "coins" (.bool true), .unregister ⟨22⟩],
      c.Spares ⟨1⟩ := by
    simp [Call.Spares]
  have hpurse : ∀ c ∈ [Call.unregister ⟨22⟩, .listen .innkeeper, .set "coins" (.int 3)],
      c.Spares ⟨1⟩ := by
    simp [Call.Spares]
  have hst : ((new {}).run [.register .brewery, .register .inn, .start ⟨1⟩ none]).2 = _ := rfl
  obtain ⟨-, -, -, -, helse⟩ := pause_isolated hst rfl hstock
  obtain ⟨-, hsession, -, ⟨line, -, hline⟩, -⟩ := pause_isolated hst rfl hpurse
  exact ⟨_, _, rfl, rfl, helse (by decide), hsession, by decide, line, hline⟩

end Stage

end Dialogue

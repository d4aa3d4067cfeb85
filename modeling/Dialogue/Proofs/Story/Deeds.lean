import Dialogue.Proofs.Story.Work
import Dialogue.Stage

/-!
# Deeds

The journal mixes what the host is told with what is done: nodes that are entered, values that are
written, events that are handled. The latter are the deeds. Scripts and listeners read of the journal
what was handled only, and tell the host nothing, so they do the same on a scope whose journal has the
deeds alone (`Scope.plain`, `Registry.dispatch_plain`).
-/

namespace Dialogue

/-- Something done, rather than told. -/
def Entry.isDeed : Entry → Bool
  | .told _ => false
  | _ => true

/-- All that was done, the earliest first. -/
def Journal.deeds (j : Journal) : List Entry := (j.filter Entry.isDeed).reverse

theorem Journal.deeds_cons {e : Entry} (h : e.isDeed = true) (j : Journal) :
    deeds (e :: j) = deeds j ++ [e] := by
  rw [deeds, List.filter_cons_of_pos h, List.reverse_cons]
  rfl

theorem Journal.heard_filter_isDeed (j : Journal) : heard (j.filter Entry.isDeed) = heard j := by
  rw [heard, heard, List.filter_filter]
  congr 1
  funext e
  cases e <;> rfl

theorem Journal.heard_of_deeds {j j' : Journal} (h : deeds j' = deeds j) : heard j' = heard j := by
  have hfilter : j'.filter Entry.isDeed = j.filter Entry.isDeed := List.reverse_inj.mp h
  rw [← heard_filter_isDeed j', hfilter, heard_filter_isDeed]

def Stage.deeds (st : Stage) : List Entry := Journal.deeds st.journal

/-! ### Scopes without what was told -/

/-- The scope whose journal has the deeds alone. -/
def Scope.plain (s : Scope) : Scope := { s with journal := s.journal.filter Entry.isDeed }

theorem Scope.set_plain (s : Scope) (name : String) (v : PropertyValue) :
    s.plain.set name v = ((s.set name v).1, (s.set name v).2.plain) := by
  cases h : s.blackboard.set name v with
  | error e => rw [set_of_error h, set_of_error (s := s.plain) h]
  | ok r =>
    rw [set_of_ok h, set_of_ok (s := s.plain) h]
    rfl

theorem Script.run_plain {α : Type} (p : Script α) (s : Scope) :
    p.run s.plain = ((p.run s).1, (p.run s).2.plain) := by
  induction p generalizing s with
  | done a => rfl
  | get name next ih => exact ih _ s
  | set name v next ih =>
    rw [run, run, Scope.set_plain]
    exact ih _ (s.set name v).2
  | remember next ih =>
    have hheard : Journal.heard s.plain.journal = Journal.heard s.journal :=
      Journal.heard_filter_isDeed s.journal
    rw [run, run, hheard]
    exact ih _ s

namespace Registry

theorem handle_plain (event : String) (s : Scope) (l : Listener) :
    handle event s.plain l = (handle event s l).plain := by
  unfold handle
  split
  · rw [Script.run_plain]
    rfl
  · rfl

theorem dispatch_plain (r : Registry) (event : String) (s : Scope) :
    r.dispatch event s.plain = (r.dispatch event s).plain := by
  unfold dispatch
  induction r.listeners generalizing s with
  | nil => rfl
  | cons l ls ih =>
    rw [List.foldl_cons, List.foldl_cons, handle_plain]
    exact ih (handle event s l)

end Registry

end Dialogue

import Dialogue.Blackboard
import Dialogue.Session

/-!
# Property access during a session

A scope is the blackboard together with the template of the running session, if any. A write goes
to the blackboard, and to the template when the session's graph owns the property, so that the next
line shows it. A `Script` is a finite program of reads and writes, each of which may depend on what
came before; that is all a listener can do to a scope. It may also go by what listeners have handled
so far, with what they reported, and so by anything that it took note of at earlier events.
-/

namespace Dialogue

/-- The blackboard, the template that writes keep up to date with the id of its graph, and the
journal that writes are recorded in. -/
structure Scope where
  blackboard : Blackboard
  active : Option (GraphId × Template)
  journal : Journal

namespace Scope

def get (s : Scope) (name : String) : Except PropertyError PropertyValue := s.blackboard.get name

/-- The active template after a write to a graph. -/
def refresh (active : Option (GraphId × Template)) (owner : GraphId) (name : String)
    (v : PropertyValue) : Option (GraphId × Template) :=
  active.map fun a => if a.1 = owner then (a.1, a.2.update name v) else a

/-- Writes a value under a name. A failed write changes nothing. -/
def set (s : Scope) (name : String) (v : PropertyValue) : Except PropertyError Unit × Scope :=
  match s.blackboard.set name v with
  | .error e => (.error e, s)
  | .ok (owner, b) => (.ok (), ⟨b, refresh s.active owner name v, .wrote owner name v :: s.journal⟩)

end Scope

/-! ### Scripts -/

/-- A listener handled an event. -/
def Entry.isHandled : Entry → Bool
  | .handled .. => true
  | _ => false

/-- What listeners have handled, the latest first. -/
def Journal.heard (j : Journal) : Journal := j.filter Entry.isHandled

/-- A finite program of property reads and writes. -/
inductive Script (α : Type) where
  | done (a : α)
  | get (name : String) (next : Except PropertyError PropertyValue → Script α)
  | set (name : String) (value : PropertyValue) (next : Except PropertyError Unit → Script α)
  /-- Goes by what listeners have handled so far. -/
  | remember (next : Journal → Script α)

namespace Script

def run {α : Type} : Script α → Scope → α × Scope
  | done a, s => (a, s)
  | get name next, s => (next (s.get name)).run s
  | set name v next, s => (next (s.set name v).1).run (s.set name v).2
  | remember next, s => (next s.journal.heard).run s

/-- One script, then another that may depend on its answer. -/
def andThen {α β : Type} : Script α → (α → Script β) → Script β
  | done a, f => f a
  | get name next, f => get name fun r => (next r).andThen f
  | set name v next, f => set name v fun r => (next r).andThen f
  | remember next, f => remember fun past => (next past).andThen f

/-- The answers of scripts run in order. -/
def all {α : Type} : List (Script α) → Script (List α)
  | [] => done []
  | p :: ps => p.andThen fun a => (all ps).andThen fun as => done (a :: as)

end Script

/-! ### Actions -/

/-- The sum of two integers, held at the least or the greatest one. -/
def saturatingAdd (a b : Int32) : Int32 :=
  Int32.ofInt (max (-0x80000000) (min 0x7FFFFFFF (a.toInt + b.toInt)))

/-- A single thing to do with properties. -/
inductive Action where
  | get (name : String)
  | getInt (name : String)
  | getString (name : String)
  | getBool (name : String)
  | set (name : String) (value : PropertyValue)
  /-- Adds to an integer. -/
  | add (name : String) (amount : Int32)
  /-- Negates a truth value. -/
  | toggle (name : String)
  /-- Lengthens a text. -/
  | append (name : String) (text : String)
  /-- Writes the value of one name under another. -/
  | copy (source : String) (target : String)
deriving DecidableEq

namespace Action

def write (name : String) (v : PropertyValue) : Script Outcome :=
  .set name v fun r => .done (r.map fun _ => none)

/-- A read that a test may refuse, and what is done with its result. -/
def read {α : Type} (name : String) (test : PropertyValue → Except PropertyError α)
    (next : α → Script Outcome) : Script Outcome :=
  .get name fun r =>
    match r with
    | .error e => .done (.error e)
    | .ok v =>
      match test v with
      | .error e => .done (.error e)
      | .ok a => next a

/-- The script of an action. Its first failure is its outcome. -/
def script : Action → Script Outcome
  | get name => read name .ok fun v => .done (.ok (some v))
  | getInt name => read name (·.expectInt name) fun i => .done (.ok (some (.int i)))
  | getString name => read name (·.expectString name) fun s => .done (.ok (some (.string s)))
  | getBool name => read name (·.expectBool name) fun b => .done (.ok (some (.bool b)))
  | set name v => write name v
  | add name amount =>
    read name (·.expectInt name) fun i => write name (.int (saturatingAdd i amount))
  | toggle name => read name (·.expectBool name) fun b => write name (.bool !b)
  | append name text => read name (·.expectString name) fun s => write name (.string (s ++ text))
  | copy source target => read source .ok fun v => write target v

/-- The script that does actions in order, whatever comes of each. -/
def scriptOf (actions : List Action) : Script (List Outcome) := Script.all (actions.map script)

end Action

end Dialogue

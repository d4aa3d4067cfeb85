import Dialogue.Config
import Dialogue.Toml.Reader

/-!
# Settings from TOML

A settings file is a TOML document whose root table names the settings that it changes. Other keys
are passed over; a setting of the wrong type is refused, and so is a negative count.
-/

namespace Dialogue

open Toml

namespace Config

/-- The truth value under a key, or the default. -/
def truth? (es : Entries) (key : String) (default : Bool) : Option Bool :=
  match es.lookup key with
  | none => some default
  | some (.scalar (.boolean b)) => some b
  | some _ => none

/-- The text under a key, or the default. -/
def text? (es : Entries) (key : String) (default : String) : Option String :=
  match es.lookup key with
  | none => some default
  | some (.string s) => some s
  | some _ => none

/-- The count under a key, or the default. -/
def count? (es : Entries) (key : String) (default : Nat) : Option Nat :=
  match es.lookup key with
  | none => some default
  | some (.scalar (.integer i)) => if 0 ≤ i then some i.toNat else none
  | some _ => none

def ofEntries? (es : Entries) : Option Config := do
  let c : Config := {}
  some ⟨← truth? es "focus_on_actor" c.focusOnActor,
    ← truth? es "restore_viewpoint_on_exit" c.restoreViewpointOnExit,
    ← truth? es "display_actor_names" c.displayActorNames,
    ← text? es "continue_label" c.continueLabel,
    ← truth? es "strict_links" c.strictLinks,
    ← count? es "max_auto_advance" c.maxAutoAdvance⟩

def ofText (s : String) : Except ConfigError Config :=
  match (Toml.parse s).bind ofEntries? with
  | none => .error .malformed
  | some c => .ok c

/-- The settings that the bytes of a file hold; there are none when the file cannot be read. -/
def ofFile (bytes : Option ByteArray) : Except ConfigError Config :=
  match bytes.bind String.fromUTF8? with
  | none => .error .unreadable
  | some s => ofText s

end Config

end Dialogue

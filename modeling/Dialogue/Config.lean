import Dialogue.Text.Quoted

/-!
# Settings

The settings of a stage, each with a default.
-/

namespace Dialogue

/-- The settings of a stage. -/
structure Config where
  /-- Tell the host about changes of viewpoint. -/
  focusOnActor : Bool := true
  /-- Have the host restore its viewpoint when a session ends. -/
  restoreViewpointOnExit : Bool := true
  /-- Show the actor's name with each line. -/
  displayActorNames : Bool := false
  /-- Label of the only option of a basic node. -/
  continueLabel : String := "Continue"
  /-- Refuse graphs whose links dangle or bind a port twice. -/
  strictLinks : Bool := false
  /-- The most nodes that may be passed in one call without a pause. -/
  maxAutoAdvance : Nat := 10000
deriving DecidableEq, Inhabited

/-- Why settings cannot be had from a file. -/
inductive ConfigError where
  /-- The text is no settings file. -/
  | malformed
  /-- The file cannot be read as text. -/
  | unreadable
deriving DecidableEq

def ConfigError.message : ConfigError → String
  | malformed => "settings text is not a settings document"
  | unreadable => "settings file cannot be read"

/-- A settings failure as it is shown to a developer. -/
def ConfigError.debugText : ConfigError → String
  | malformed => "Toml(" ++ Text.quoted malformed.message ++ ")"
  | unreadable => "Io(" ++ Text.quoted unreadable.message ++ ")"

end Dialogue

import Dialogue.Interchange.Story
import Dialogue.Session
import Dialogue.Config

/-!
# JSON forms of sessions and settings
-/

namespace Dialogue

open Json

instance : Codec SessionState where
  encode
    | .idle => .text "Idle"
    | .active => .text "Active"
    | .awaitingInput => .text "AwaitingInput"
    | .ended => .text "Ended"
  decode? := Value.bareCase?
    [("Idle", .idle), ("Active", .active), ("AwaitingInput", .awaitingInput), ("Ended", .ended)]

instance : Codec ConditionResult where
  encode
    | .true => .text "True"
    | .false => .text "False"
    | .unknown => .text "Unknown"
  decode? := Value.bareCase? [("True", .true), ("False", .false), ("Unknown", .unknown)]

instance : Codec Actor where
  encode a := .record [("id", encode a.id), ("display_name", encode a.displayName)]
  decode? v := do
    let fs ← v.fields? ["id", "display_name"]
    some ⟨← fs.required "id", ← fs.optional "display_name"⟩

instance : Codec PresentedOption where
  encode o := .record [("port", encode o.port), ("label", encode o.label)]
  decode? v := do
    let fs ← v.fields? ["port", "label"]
    some ⟨← fs.required "port", ← fs.required "label"⟩

instance : Codec Presentation where
  encode p := .record [("node", encode p.node), ("text", encode p.text),
    ("options", encode p.options), ("actor_name", encode p.actorName)]
  decode? v := do
    let fs ← v.fields? ["node", "text", "options", "actor_name"]
    some ⟨← fs.required "node", ← fs.required "text", ← fs.required "options",
      ← fs.optional "actor_name"⟩

instance : Codec Server where
  encode s := .record [("graph", encode s.graph), ("actor", encode s.actor)]
  decode? v := do
    let fs ← v.fields? ["graph", "actor"]
    some ⟨← fs.required "graph", ← fs.optional "actor"⟩

/-! ### Settings -/

/-- A count is read when it fits in sixty-four bits. -/
instance : Codec Nat where
  encode n := .int n
  decode?
    | .number n => (n.intWithin? 0 0xFFFFFFFFFFFFFFFF).map Int.toNat
    | _ => none

/-- The names of the settings, in order. -/
def Config.fieldNames : List String :=
  ["focus_on_actor", "restore_viewpoint_on_exit", "display_actor_names", "continue_label",
    "strict_links", "max_auto_advance"]

instance : Codec Config where
  encode c := .record [("focus_on_actor", encode c.focusOnActor),
    ("restore_viewpoint_on_exit", encode c.restoreViewpointOnExit),
    ("display_actor_names", encode c.displayActorNames),
    ("continue_label", encode c.continueLabel), ("strict_links", encode c.strictLinks),
    ("max_auto_advance", encode c.maxAutoAdvance)]
  decode? v := do
    let c : Config := {}
    let fs ← v.fields? Config.fieldNames
    some ⟨← fs.withDefault "focus_on_actor" c.focusOnActor,
      ← fs.withDefault "restore_viewpoint_on_exit" c.restoreViewpointOnExit,
      ← fs.withDefault "display_actor_names" c.displayActorNames,
      ← fs.withDefault "continue_label" c.continueLabel,
      ← fs.withDefault "strict_links" c.strictLinks,
      ← fs.withDefault "max_auto_advance" c.maxAutoAdvance⟩

end Dialogue

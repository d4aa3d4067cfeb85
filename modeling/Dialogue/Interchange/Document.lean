import Dialogue.Interchange.Story
import Dialogue.Document

/-!
# JSON form of documents

Every record is written with all its fields in order. When read, only guids, the names that a
record is about, and the fields of links and properties have to be given; what else is left out has
the default value.
-/

namespace Dialogue

open Json

instance : Codec BasicRecord where
  encode r := .record [("guid", encode r.guid), ("text", encode r.text),
    ("position", encode r.position), ("focusChoice", encode r.focusChoice)]
  decode? v := do
    let fs ← v.fields? ["guid", "text", "position", "focusChoice"]
    some ⟨← fs.required "guid", ← fs.withDefault "text" "", ← fs.withDefault "position" .origin,
      ← fs.withDefault "focusChoice" 0⟩

instance : Codec ChoiceRecord where
  encode r := .record [("guid", encode r.guid), ("text", encode r.text),
    ("position", encode r.position), ("choices", encode r.choices)]
  decode? v := do
    let fs ← v.fields? ["guid", "text", "position", "choices"]
    some ⟨← fs.required "guid", ← fs.withDefault "text" "", ← fs.withDefault "position" .origin,
      ← fs.withDefault "choices" .empty⟩

instance : Codec ConditionRecord where
  encode r := .record [("guid", encode r.guid), ("text", encode r.text),
    ("position", encode r.position), ("variableName", encode r.variableName)]
  decode? v := do
    let fs ← v.fields? ["guid", "text", "position", "variableName"]
    some ⟨← fs.required "guid", ← fs.withDefault "text" "", ← fs.withDefault "position" .origin,
      ← fs.required "variableName"⟩

instance : Codec FocusRecord where
  encode r := .record [("guid", encode r.guid), ("text", encode r.text),
    ("position", encode r.position), ("focusChoice", encode r.focusChoice)]
  decode? v := do
    let fs ← v.fields? ["guid", "text", "position", "focusChoice"]
    some ⟨← fs.required "guid", ← fs.withDefault "text" "", ← fs.withDefault "position" .origin,
      ← fs.withDefault "focusChoice" 0⟩

instance : Codec EventRecord where
  encode r := .record [("guid", encode r.guid), ("text", encode r.text),
    ("position", encode r.position), ("eventName", encode r.eventName)]
  decode? v := do
    let fs ← v.fields? ["guid", "text", "position", "eventName"]
    some ⟨← fs.required "guid", ← fs.withDefault "text" "", ← fs.withDefault "position" .origin,
      ← fs.required "eventName"⟩

instance : Codec ExitRecord where
  encode r := .record [("guid", encode r.guid), ("position", encode r.position)]
  decode? v := do
    let fs ← v.fields? ["guid", "position"]
    some ⟨← fs.required "guid", ← fs.withDefault "position" .origin⟩

instance {α : Type} [Codec α] : Codec (PropertyRecord α) where
  encode r := .record [("guid", encode r.guid), ("propertyName", encode r.propertyName),
    ("value", encode r.value)]
  decode? v := do
    let fs ← v.fields? ["guid", "propertyName", "value"]
    some ⟨← fs.required "guid", ← fs.required "propertyName", ← fs.required "value"⟩

/-- The names of the fields of a document, in order. -/
def Document.fieldNames : List String :=
  ["entryGuid", "entryPosition", "basicNodes", "choiceNodes", "conditionNodes", "focusNodes",
    "eventNodes", "exitNodes", "links", "intProperties", "stringProperties", "boolProperties"]

instance : Codec Document where
  encode d := .record [("entryGuid", encode d.entryGuid),
    ("entryPosition", encode d.entryPosition), ("basicNodes", encode d.basicNodes),
    ("choiceNodes", encode d.choiceNodes), ("conditionNodes", encode d.conditionNodes),
    ("focusNodes", encode d.focusNodes), ("eventNodes", encode d.eventNodes),
    ("exitNodes", encode d.exitNodes), ("links", encode d.links),
    ("intProperties", encode d.intProperties), ("stringProperties", encode d.stringProperties),
    ("boolProperties", encode d.boolProperties)]
  decode? v := do
    let fs ← v.fields? Document.fieldNames
    some ⟨← fs.required "entryGuid", ← fs.withDefault "entryPosition" .origin,
      ← fs.withDefault "basicNodes" [], ← fs.withDefault "choiceNodes" [],
      ← fs.withDefault "conditionNodes" [], ← fs.withDefault "focusNodes" [],
      ← fs.withDefault "eventNodes" [], ← fs.withDefault "exitNodes" [],
      ← fs.withDefault "links" [], ← fs.withDefault "intProperties" [],
      ← fs.withDefault "stringProperties" [], ← fs.withDefault "boolProperties" []⟩

namespace Graph

/-! ### Graphs as text -/

/-- The graph that a text holds, under a given id. -/
def ofText (id : GraphId) (s : String) : Except GraphError Graph :=
  match (Codec.ofText? s : Option Document) with
  | none => .error .malformed
  | some d => ofDocument id d

/-- The graph that the bytes of a file hold; there are none when the file cannot be read. -/
def ofFile (id : GraphId) (bytes : Option ByteArray) : Except GraphError Graph :=
  match bytes.bind String.fromUTF8? with
  | none => .error .unreadable
  | some s => ofText id s

def compactText (g : Graph) : String := (encode (Document.ofGraph g)).compact

/-- The indented text of a graph, which is the one that is saved. -/
def prettyText (g : Graph) : String := (encode (Document.ofGraph g)).pretty

end Graph

end Dialogue

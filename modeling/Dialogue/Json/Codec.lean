import Dialogue.Json.Reader
import Dialogue.Json.Writer

/-!
# Types with a JSON form

A type has a JSON form when its values can be written as JSON and read back. Records are written as
objects with all their fields in order; they are read from an object, in which unknown fields are
passed over and a known one may stand only once, or from an array of their fields in order. A value
of an enumeration is the name of its case, or an object with that one name when the case carries
something.
-/

namespace Dialogue.Json

/-- How the values of a type are written as JSON, and read. -/
class Codec (α : Type) where
  encode : α → Value
  decode? : Value → Option α

export Codec (encode decode?)

namespace Codec

/-- The value that a text writes in JSON. -/
def ofText? {α : Type} [Codec α] (s : String) : Option α := (Value.parse s).bind decode?

def toText {α : Type} [Codec α] (a : α) : String := (encode a).compact

end Codec

/-! ### Plain values -/

instance : Codec String where
  encode := Value.text
  decode?
    | .string l => l.text?
    | _ => none

instance : Codec Bool where
  encode := .bool
  decode?
    | .bool b => some b
    | _ => none

instance : Codec UInt32 where
  encode n := .int n.toNat
  decode?
    | .number n => (n.intWithin? 0 0xFFFFFFFF).map fun i => UInt32.ofNat i.toNat
    | _ => none

instance : Codec Int32 where
  encode n := .int n.toInt
  decode?
    | .number n => (n.intWithin? (-0x80000000) 0x7FFFFFFF).map Int32.ofInt
    | _ => none

/-- A single that is not finite is written as null, which is not read as a number. -/
instance : Codec Binary.Single where
  encode x :=
    match Numeral.ofSingle? x with
    | some n => .number n
    | none => .null
  decode?
    | .number n => n.toSingle?
    | _ => none

instance {α : Type} [Codec α] : Codec (List α) where
  encode := Value.list encode
  decode?
    | .array items => items.mapM decode?
    | _ => none

instance {α : Type} [Codec α] : Codec (Option α) where
  encode
    | some a => encode a
    | none => .null
  decode?
    | .null => some none
    | v => (decode? v).map some

/-! ### Records -/

/-- The fields that a record is given, and whether they are given by name. -/
structure Fields where
  given : List (String × Value)
  byName : Bool

namespace Value

/-- The fields of a record with these field names. -/
def fields? (names : List String) : Value → Option Fields
  | .object members => do
    let named ← members.mapM fun m => (Literal.text? m.1).map fun name => (name, m.2)
    let known := named.filter fun f => names.contains f.1
    if (known.map (·.1)).Nodup then some ⟨known, true⟩ else none
  | .array items => if items.length ≤ names.length then some ⟨names.zip items, false⟩ else none
  | _ => none

end Value

namespace Fields

def get? (fs : Fields) (name : String) : Option Value := fs.given.lookup name

def required {α : Type} [Codec α] (fs : Fields) (name : String) : Option α :=
  (fs.get? name).bind decode?

/-- A field with a default for when it is not given. -/
def withDefault {α : Type} [Codec α] (fs : Fields) (name : String) (default : α) : Option α :=
  match fs.get? name with
  | none => some default
  | some v => decode? v

/-- A field that may be absent: null when fields are given by name and this one is not. -/
def optional {α : Type} [Codec α] (fs : Fields) (name : String) : Option (Option α) :=
  match fs.get? name with
  | none => if fs.byName then some none else none
  | some v => decode? v

end Fields

/-! ### Enumerations -/

namespace Value

/-- A case of an enumeration that carries something. -/
def case (name : String) (payload : Value) : Value := record [(name, payload)]

/-- The case that a value names, and what it carries. -/
def case? : Value → Option (String × Option Value)
  | .string l => l.text?.map fun name => (name, none)
  | .object [(l, payload)] => (Literal.text? l).map fun name => (name, some payload)
  | _ => none

/-- What a case without content may carry: nothing or null. -/
def isBare : Option Value → Bool
  | none | some .null => true
  | some _ => false

/-- A value of an enumeration whose cases carry nothing. -/
def bareCase? {α : Type} (cases : List (String × α)) (v : Value) : Option α :=
  match v.case? with
  | some (name, payload) => if isBare payload then cases.lookup name else none
  | none => none

end Value

end Dialogue.Json

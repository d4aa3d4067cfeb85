import Dialogue.Guid

/-!
# Story properties

A property is declared on a graph with a name and a value, which is an integer of thirty-two bits,
a text or a truth value. Names need not be unique. A value is displayed in dialogue lines.
-/

namespace Dialogue

/-- Declared type of a property. -/
inductive PropertyKind where
  | int
  | string
  | bool
deriving DecidableEq, Inhabited, Repr

def PropertyKind.name : PropertyKind → String
  | int => "int"
  | string => "string"
  | bool => "bool"

/-- A typed value. -/
inductive PropertyValue where
  | int (i : Int32)
  | string (s : String)
  | bool (b : Bool)
deriving DecidableEq, Inhabited

namespace PropertyValue

def kind : PropertyValue → PropertyKind
  | int _ => .int
  | string _ => .string
  | bool _ => .bool

def int? : PropertyValue → Option Int32
  | int i => some i
  | _ => none

def string? : PropertyValue → Option String
  | string s => some s
  | _ => none

def bool? : PropertyValue → Option Bool
  | bool b => some b
  | _ => none

/-- The text shown for a value: an integer in decimal, a text as it is, a truth value capitalised. -/
def display : PropertyValue → String
  | int i => toString i.toInt
  | string s => s
  | bool true => "True"
  | bool false => "False"

end PropertyValue

/-- A named property of a graph. -/
structure Property where
  guid : Guid
  name : String
  value : PropertyValue
deriving DecidableEq, Inhabited

def Property.kind (p : Property) : PropertyKind := p.value.kind

/-! ### Failures -/

/-- Why a property could not be read or written. -/
inductive PropertyError where
  /-- No registered graph declares the name. -/
  | notFound (name : String)
  /-- Several properties share the name. -/
  | ambiguous (name : String) (count : Nat)
  /-- The property has another kind than the one asked for or written. -/
  | typeMismatch (name : String) (expected found : PropertyKind)
deriving DecidableEq

def PropertyError.message : PropertyError → String
  | notFound name => "there is no property named '" ++ name ++ "'"
  | ambiguous name count =>
    "ambiguous property name '" ++ name ++ "': " ++ toString count ++ " properties share it"
  | typeMismatch name expected found =>
    "property '" ++ name ++ "' is declared as " ++ expected.name ++ ", got " ++ found.name

namespace PropertyValue

/-- The integer of a value read under a name. -/
def expectInt (v : PropertyValue) (name : String) : Except PropertyError Int32 :=
  match v with
  | int i => .ok i
  | v => .error (.typeMismatch name .int v.kind)

/-- The text of a value read under a name. -/
def expectString (v : PropertyValue) (name : String) : Except PropertyError String :=
  match v with
  | string s => .ok s
  | v => .error (.typeMismatch name .string v.kind)

/-- The truth value of a value read under a name. -/
def expectBool (v : PropertyValue) (name : String) : Except PropertyError Bool :=
  match v with
  | bool b => .ok b
  | v => .error (.typeMismatch name .bool v.kind)

end PropertyValue

end Dialogue

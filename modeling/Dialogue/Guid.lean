import Dialogue.Text.Quoted

/-!
# Names of nodes and graphs

Nodes and properties are named by a guid, which may be any text. A loaded graph is named by an id
of 128 bits that is not part of what is saved; it is written in groups of hexadecimal digits.
-/

namespace Dialogue

/-- Stable name of a node or a property. -/
structure Guid where
  text : String
deriving DecidableEq, Hashable, Inhabited, Repr

/-- A guid as it is shown to a developer. -/
def Guid.debugText (g : Guid) : String := "Guid(" ++ Text.quoted g.text ++ ")"

/-- Identity of a loaded graph. -/
structure GraphId where
  bits : BitVec 128
deriving DecidableEq, Hashable, Inhabited, Repr

namespace GraphId

/-! ### Written form -/

/-- The lengths of the groups of hexadecimal digits that an id is written in. -/
def groups : List Nat := [8, 4, 4, 4, 12]

/-- A run of digits cut into groups with hyphens between them. -/
def hyphenate : List Nat → List Char → List Char
  | [], cs => cs
  | [n], cs => cs.take n
  | n :: ns, cs => cs.take n ++ '-' :: hyphenate ns (cs.drop n)

/-- The digits of hyphenated groups, if each group has its length. -/
def unhyphenate? : List Nat → List Char → Option (List Char)
  | [], cs => if cs = [] then some [] else none
  | [n], cs => if cs.length = n then some cs else none
  | n :: ns, cs =>
    match cs.drop n with
    | '-' :: r => (unhyphenate? ns r).map (cs.take n ++ ·)
    | _ => none

/-- The id as lower-case hexadecimal digits in hyphenated groups. -/
def text (id : GraphId) : String :=
  String.ofList (hyphenate groups (HexDigit.text (HexDigit.ofNat 32 id.bits.toNat)))

/-- The id that thirty-two hexadecimal digits write. -/
def ofDigits? (cs : List Char) : Option GraphId :=
  if cs.length = 32 then
    (cs.mapM HexDigit.ofChar?).map fun ds => ⟨BitVec.ofNat 128 (HexDigit.value ds)⟩
  else none

/-- The name space under which an id may be written as a resource name; its letters stand for either
case. -/
def resourceName : List Char := "urn:uuid:".toList

/-- The id that a text writes: bare digits, or hyphenated groups, which may stand in braces or after
the name space of resource names in either case. -/
def ofChars? (cs : List Char) : Option GraphId :=
  if cs.length = 32 then ofDigits? cs
  else if cs.length = 36 then (unhyphenate? groups cs).bind ofDigits?
  else if cs.length = 38 then
    if cs.head? = some '\x7b' ∧ cs.getLast? = some '\x7d' then
      (unhyphenate? groups (cs.drop 1).dropLast).bind ofDigits?
    else none
  else if (cs.take 9).map Char.toLower = resourceName then (unhyphenate? groups (cs.drop 9)).bind ofDigits?
  else none

def ofText? (s : String) : Option GraphId := ofChars? s.toList

end GraphId

end Dialogue

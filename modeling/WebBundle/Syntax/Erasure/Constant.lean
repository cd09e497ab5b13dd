import WebBundle.Decimal.Text
import WebBundle.Syntax.Numeral
import WebBundle.Syntax.Tree

/-!
# Constants of enumerations

The members of an enumeration are numbers or texts as far as their values can be
computed from literals and from members that come before, also those of other
enumerations.  A member without a value is one more than the member before.
-/

namespace WebBundle.Syntax.Erasure

/-- The value of a member that is known. -/
inductive Constant where
  | number (value : Float)
  | text (value : String)
  deriving Inhabited

/-- The members of an enumeration, each with its value if that is known. -/
abbrev Members := List (String × Option Constant)

/-- The value of a member; members that come later hide those of the same name. -/
def valueOf? (members : Members) (name : String) : Option Constant :=
  ((members.reverse.find? fun member => member.1 = name).map Prod.snd).join

/-! ## Arithmetic -/

/-- The whole part of a float's magnitude. -/
def wholePart (value : Float) : Nat :=
  let binary := Decimal.Binary.ofBits value.toBits
  binary.mantissa * Nat.pow 2 binary.exponent.toNat / Nat.pow 2 (-binary.exponent).toNat

/-- A float as a word of 32 bits. -/
def toWord (value : Float) : UInt32 :=
  if value.isFinite then
    let magnitude := UInt32.ofNat (wholePart value)
    if value < 0 then 0 - magnitude else magnitude
  else 0

/-- A word with a sign as a float. -/
def ofSigned (word : UInt32) : Float := Float.ofInt word.toInt32.toInt

/-- The remainder of a division that rounds to zero. -/
def remainder (left right : Float) : Float :=
  if !left.isFinite || right == 0 || right.isNaN then 0 / 0
  else if !right.isFinite then left
  else
    let leftBinary := Decimal.Binary.ofBits left.toBits
    let rightBinary := Decimal.Binary.ofBits right.toBits
    let exponent := min leftBinary.exponent rightBinary.exponent
    let scaled (binary : Decimal.Binary) : Nat :=
      binary.mantissa * Nat.pow 2 (binary.exponent - exponent).toNat
    let rest := (Float.ofNat (scaled leftBinary % scaled rightBinary)).scaleB exponent
    if left < 0 then -rest else rest

/-- An operator between two numbers. -/
def operate? (operator : String) (left right : Float) : Option Float :=
  let shift := toWord right &&& 31
  match operator with
  | "+" => some (left + right)
  | "-" => some (left - right)
  | "*" => some (left * right)
  | "/" => some (left / right)
  | "%" => some (remainder left right)
  | "**" => some (Float.pow left right)
  | "|" => some (ofSigned (toWord left ||| toWord right))
  | "&" => some (ofSigned (toWord left &&& toWord right))
  | "^" => some (ofSigned (toWord left ^^^ toWord right))
  | "<<" => some (ofSigned (toWord left <<< shift))
  | ">>" => some (Float.ofInt ((toWord left).toInt32 >>> shift.toInt32).toInt)
  | ">>>" => some (Float.ofNat (toWord left >>> shift).toNat)
  | _ => none

namespace Constant

/-- A constant as a text. -/
def toText : Constant → String
  | number value => Decimal.textOfFloat value
  | text value => value

/-- An operator between two constants; a sum with a text is a text. -/
def operate? (operator : String) : Constant → Constant → Option Constant
  | number left, number right => (Erasure.operate? operator left right).map number
  | left, right => if operator = "+" then some (text (left.toText ++ right.toText)) else none

/-- An operator in front of a number. -/
def applied? (operator : String) : Constant → Option Constant
  | number value =>
    match operator with
    | "+" => some (number value)
    | "-" => some (number (-value))
    | "~" => some (number (ofSigned (~~~ toWord value)))
    | _ => none
  | text _ => none

end Constant

/-! ## Evaluation -/

/-- Enumerations by their names. -/
abbrev Enumerations := List (String × Members)

/-- The members of an enumeration so far. -/
def membersOf (known : Enumerations) (name : String) : Members :=
  ((known.find? fun entry => entry.1 = name).map Prod.snd).getD []

/-- The value of a variable in the enumeration whose members are given. -/
def variableValue? (members : Members) (name : String) : Option Constant :=
  if name = "Infinity" then some (.number (1 / 0))
  else if name = "NaN" then some (.number (0 / 0))
  else valueOf? members name

/-- The value of an expression, if it is constant. -/
def constant? (known : Enumerations) (members : Members) : Node → Option Constant
  | ⟨.numberLiteral spelling, _, _⟩ => some (.number (Numeral.value spelling))
  | ⟨.stringLiteral value _, _, _⟩ => some (.text value)
  | ⟨.templateLiteral [quasi], _, _⟩ => quasi.cooked.map .text
  | ⟨.reference name, _, _⟩ => variableValue? members name.text
  | ⟨.staticMember name _, _, [⟨.reference object, _, _⟩]⟩ => valueOf? (membersOf known object.text) name
  | ⟨.computedMember _, _, [⟨.reference object, _, _⟩, ⟨.stringLiteral name _, _, _⟩]⟩ =>
    valueOf? (membersOf known object.text) name
  | ⟨.parenthesized, _, [inner]⟩ => constant? known members inner
  | ⟨.unary operator, _, [operand]⟩ =>
    match constant? known members operand with
    | some value => value.applied? operator
    | none => none
  | ⟨.binary operator, _, [left, right]⟩ =>
    match constant? known members left, constant? known members right with
    | some left, some right => left.operate? operator right
    | _, _ => none
  | _ => none

/-- The name of a member. -/
def keyName : Node → String
  | ⟨.propertyName name, _, _⟩ => name
  | ⟨.stringLiteral value _, _, _⟩ => value
  | ⟨.templateLiteral [quasi], _, _⟩ => quasi.cooked.getD ""
  | _ => ""

/-- The value of a member without an own one, behind another member. -/
def following? : Option Constant → Option Constant
  | some (.number value) => some (.number (value + 1))
  | _ => none

/-- The members of an enumeration with their values, behind those that are known
already. -/
def evaluateMembers (known : Enumerations) (members : Members) (last : Option Constant) :
    List Node → Members
  | [] => []
  | ⟨.enumMember, _, [key, initial]⟩ :: rest =>
    let value := if initial.isPresent then constant? known members initial else following? last
    let member := (keyName key, value)
    member :: evaluateMembers known (members ++ [member]) value rest
  | _ :: rest => evaluateMembers known members last rest

/-- What has been found out about the enumerations of a program: their members by
name, and the values of the members of each by its offset. -/
structure Catalogue where
  known : Enumerations := []
  values : List (Nat × Members) := []

namespace Catalogue

/-- Adds an enumeration. -/
def add (catalogue : Catalogue) (name : String) (offset : Nat) (members : List Node) :
    Catalogue :=
  let earlier := membersOf catalogue.known name
  let found := evaluateMembers catalogue.known earlier (some (.number (-1))) members
  { known := (name, earlier ++ found) :: catalogue.known
    values := (offset, found) :: catalogue.values }

/-- The values of the members of the enumeration at an offset. -/
def valuesAt (catalogue : Catalogue) (offset : Nat) : Members :=
  ((catalogue.values.find? fun entry => entry.1 = offset).map Prod.snd).getD []

mutual

/-- Adds the enumerations of a tree in the order of the source. -/
def addTree (catalogue : Catalogue) : Node → Catalogue
  | ⟨.enumeration _ false, span, ⟨.binding name, _, _⟩ :: members⟩ =>
    catalogue.add name span.start members
  | ⟨_, _, children⟩ => addTrees catalogue children

/-- Adds the enumerations of several trees. -/
def addTrees (catalogue : Catalogue) : List Node → Catalogue
  | [] => catalogue
  | node :: rest => addTrees (addTree catalogue node) rest

end

end Catalogue

end WebBundle.Syntax.Erasure

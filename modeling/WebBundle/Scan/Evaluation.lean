import WebBundle.Syntax.Scope
import WebBundle.Syntax.Numeral
import WebBundle.Decimal.Text

/-!
# Static evaluation

Literals, templates and sums of such can be evaluated before a program runs.
-/

namespace WebBundle.Scan

open Syntax

/-- The value of an expression as far as it is known. -/
inductive Evaluated where
  | text (value : String)
  | number (value : Float)
  | boolean (value : Bool)
  | null
  | undefined
  | unknown
  deriving Inhabited

namespace Evaluated

/-- The text of a known value, as the program would convert it. -/
def toText? : Evaluated → Option String
  | text value => some value
  | number value => some (Decimal.textOfFloat value)
  | boolean value => some (if value then "true" else "false")
  | null => some "null"
  | undefined => some "undefined"
  | unknown => none

/-- The value if it is a text. -/
def text? : Evaluated → Option String
  | text value => some value
  | _ => none

/-- Whether the value is a text. -/
def isText (value : Evaluated) : Bool := value.text?.isSome

/-- The value of a sum: numbers are added, and with a text the other operand
becomes a text too.  Other sums are left alone. -/
def add : Evaluated → Evaluated → Evaluated
  | number left, number right => number (left + right)
  | left, right =>
    if left.isText || right.isText then
      match left.toText?, right.toText? with
      | some left, some right => text (left ++ right)
      | _, _ => unknown
    else unknown

end Evaluated

/-- The text of a template from its parts and the texts of its substitutions. -/
def joinTemplate : List Quasi → List (Option String) → Option String
  | [], _ => some ""
  | ⟨none, _⟩ :: _, _ => none
  | ⟨some cooked, _⟩ :: quasis, substitutions =>
    match substitutions with
    | [] => (joinTemplate quasis []).map (cooked ++ ·)
    | none :: _ => none
    | some text :: rest => (joinTemplate quasis rest).map (cooked ++ text ++ ·)

mutual

/-- Evaluates an expression where some names are declared. -/
def evaluate (bound : List String) : Node → Evaluated
  | ⟨.stringLiteral value _, _, _⟩ => .text value
  | ⟨.numberLiteral spelling, _, _⟩ => .number (Numeral.value spelling)
  | ⟨.booleanLiteral value, _, _⟩ => .boolean value
  | ⟨.nullLiteral, _, _⟩ => .null
  | ⟨.reference name, _, _⟩ =>
    if name.text = "undefined" && !bound.contains "undefined" then .undefined else .unknown
  | ⟨.parenthesized, _, [inner]⟩ => evaluate bound inner
  | ⟨.templateLiteral quasis, _, substitutions⟩ =>
    match joinTemplate quasis (evaluateTexts bound substitutions) with
    | some value => .text value
    | none => .unknown
  | ⟨.binary "+", _, [left, right]⟩ => (evaluate bound left).add (evaluate bound right)
  | _ => .unknown

/-- The texts of several expressions. -/
def evaluateTexts (bound : List String) : List Node → List (Option String)
  | [] => []
  | node :: rest => (evaluate bound node).toText? :: evaluateTexts bound rest

end

end WebBundle.Scan

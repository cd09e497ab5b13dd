import WebBundle.Syntax.Construct
import WebBundle.Syntax.Erasure.Constant

/-!
# Enumerations as objects

An enumeration becomes a variable with an object that a function fills.  A member that
is a number can be found by its name and by its value, one that is a text only by its
name.
-/

namespace WebBundle.Syntax.Erasure

/-- A number as an expression. -/
def numberNode (value : Float) : Node :=
  let isNegative := value.toBits ≥ 0x8000000000000000 && !value.isNaN
  let magnitude := if isNegative then -value else value
  let text := Decimal.textOfFloat magnitude
  let node := if magnitude.isFinite then Node.made (.numberLiteral text.toList) []
    else Node.variable_ text
  if isNegative then Node.made (.unary "-") [node] else node

/-- A constant as an expression. -/
def constantNode : Constant → Node
  | .number value => numberNode value
  | .text value => Node.string value

mutual

/-- An expression in which members are looked up in their enumeration. -/
def qualified (owner : String) (members : List String) : Node → Node
  | ⟨.reference name, span, children⟩ =>
    if members.contains name.text then Node.member (Node.variable_ owner) name.text
    else ⟨.reference name, span, children⟩
  | ⟨kind, span, children⟩ => ⟨kind, span, allQualified owner members children⟩

/-- Several expressions in which members are looked up in their enumeration. -/
def allQualified (owner : String) (members : List String) : List Node → List Node
  | [] => []
  | node :: rest => qualified owner members node :: allQualified owner members rest

end

/-- The value of a member as an expression: its constant, what it is said to be, or one
more than the member before. -/
def initialNode (owner : String) (before : List String) (initial : Node) :
    Option Constant → Node
  | some constant => constantNode constant
  | none =>
    if initial.isPresent then qualified owner before initial
    else
      match before.getLast? with
      | some last => Node.made (.binary "+")
          [numberNode 1, Node.element (Node.variable_ owner) (Node.string last)]
      | none => numberNode 0

/-- Whether an expression is a string. -/
def isString : Node → Bool
  | ⟨.stringLiteral _ _, _, _⟩ => true
  | _ => false

/-- The statement that adds a member to an enumeration. -/
def memberStatement (owner name : String) (span : Span) (value : Node) : Node :=
  let entry (key : Node) : Node := Node.element (Node.variable_ owner) key
  let byName := Node.assign (entry (Node.string name)) value
  Node.evaluating span
    (if isString value then byName else Node.assign (entry byName) (Node.string name))

/-- The statements that add members to an enumeration, of which the values are known
as far as they are constant. -/
def memberStatements (owner : String) (before : List String) :
    List Node → Members → List Node
  | ⟨.enumMember, span, [key, initial]⟩ :: rest, (_, value) :: values =>
    let name := keyName key
    memberStatement owner name span (initialNode owner before initial value) ::
      memberStatements owner (before ++ [name]) rest values
  | _, _ => []

/-- How the variable of an enumeration is declared. -/
inductive EnumerationPlace where
  /-- At the top of a program. -/
  | top
  /-- In a block, or exported. -/
  | inner
  /-- The name is declared already. -/
  | continued
  deriving DecidableEq, Repr

/-- Whether the value of a member is the result of a call. -/
def callsFunction : Node → Bool
  | ⟨.enumMember, _, [_, ⟨.call _, _, _⟩]⟩ => true
  | ⟨.enumMember, _, [_, ⟨.newCall, _, _⟩]⟩ => true
  | _ => false

/-- The statement that an enumeration becomes. -/
def enumerationStatement (catalogue : Catalogue) (place : EnumerationPlace) (span : Span)
    (name : String) (members : List Node) : Node :=
  let body := memberStatements name [] members (catalogue.valuesAt span.start) ++
    [Node.made .returnStatement [Node.variable_ name]]
  let start := match place with
    | .inner => Node.emptyObject
    | .top | .continued => Node.either (Node.variable_ name) Node.emptyObject
  let filled := Node.apply (Node.functionOf name span body) start
  let filled := if members.any callsFunction then filled else Node.made .pure [filled]
  match place with
  | .top => Node.declaring .functionScoped span (Node.bound name) filled
  | .inner => Node.declaring .blockScoped span (Node.bound name) filled
  | .continued => Node.evaluating span (Node.assign (Node.variable_ name) filled)

end WebBundle.Syntax.Erasure

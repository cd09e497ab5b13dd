import WebBundle.Syntax.Writing.Comment
import WebBundle.Syntax.Writing.Literal

/-!
# Places

How a node is written depends on its place: how tightly the operators around it
bind, whether it begins a statement, and how deep it is indented.  A tree is written
from its leaves up; every part becomes a function from places to texts.
-/

namespace WebBundle.Syntax.Writing

/-! ## Levels

An expression stands in parentheses if what is around it binds at least as tightly
as the expression itself. -/

namespace Level

/-- Nothing binds the expression. -/
def lowest : Nat := 0

/-- The expression is an item between commas. -/
def comma : Nat := 1

/-- The expression is a branch of a conditional. -/
def branch : Nat := 3

/-- Assignments and arrow functions. -/
def assignment : Nat := 4

/-- Conditionals. -/
def conditional : Nat := 5

/-- Powers. -/
def power : Nat := 17

/-- Operators in front of an operand. -/
def leading : Nat := 18

/-- Operators behind an operand; accesses. -/
def trailing : Nat := 19

/-- The callee of a creation. -/
def creation : Nat := 20

/-- Calls. -/
def call : Nat := 21

/-- The level of an infix operator. -/
def ofOperator (operator : String) : Nat :=
  let levels : List (List String) := [["??"], ["||"], ["&&"], ["|"], ["^"], ["&"],
    ["==", "!=", "===", "!=="], ["<", ">", "<=", ">=", "in", "instanceof"], ["<<", ">>", ">>>"],
    ["+", "-"], ["*", "/", "%"], ["**"]]
  levels.findIdx (·.contains operator) + 6

end Level

/-- What an expression begins while nothing of it is written yet. -/
inductive Opening where
  | nothing
  | statement
  | arrowBody
  | defaultExport
  deriving DecidableEq, Repr

/-- Where a node is written. -/
structure Place where
  /-- How deep lines are indented. -/
  depth : Nat := 0
  /-- How tightly the surroundings bind. -/
  level : Nat := Level.lowest
  opening : Opening := .nothing
  /-- Whether `in` would be taken for the head of a loop. -/
  forbidsIn : Bool := false
  /-- Whether arguments would be taken for those of a creation. -/
  forbidsCall : Bool := false
  /-- Whether an access or a call follows. -/
  isAccessed : Bool := false
  /-- Whether a pattern is the target of an assignment. -/
  isTarget : Bool := false
  /-- Whether a statement goes on behind its head on the same line. -/
  isAttached : Bool := false
  /-- Whether a statement is written as a part of another one, without a line of its
  own. -/
  isPart : Bool := false

namespace Place

/-- The place of an item between commas. -/
def item (place : Place) : Place := { depth := place.depth, level := Level.comma }

/-- The place of something between delimiters. -/
def enclosed (place : Place) : Place := { depth := place.depth }

/-- The place of what an expression begins with. -/
def first (place : Place) (level : Nat) : Place :=
  { depth := place.depth, level, opening := place.opening, forbidsIn := place.forbidsIn }

/-- The place of an operand that an expression does not begin with. -/
def later (place : Place) (level : Nat) : Place :=
  { depth := place.depth, level, forbidsIn := place.forbidsIn }

/-- The place of an object or a callee in front of an access or a call. -/
def accessed (place : Place) : Place :=
  { depth := place.depth, level := Level.trailing, opening := place.opening, isAccessed := true }

/-- The place of a line that is indented once more. -/
def deeper (place : Place) : Place := { depth := place.depth + 1 }

end Place

/-- A node that can be written, with its parts. -/
inductive Written where
  | mk (node : Node) (parts : List Written) (write : Place → String)

namespace Written

/-- The node itself. -/
def node : Written → Node
  | mk node _ _ => node

/-- The parts of the node. -/
def parts : Written → List Written
  | mk _ parts _ => parts

/-- The text of the node at a place. -/
def text : Written → Place → String
  | mk _ _ write => write

/-- What the node is. -/
def kind (written : Written) : Kind := written.node.kind

/-- Whether the node is there. -/
def isPresent (written : Written) : Bool := written.node.isPresent

end Written

/-- A node without the parentheses around it. -/
def unwrapped : Node → Node
  | ⟨.parenthesized, _, [inner]⟩ => unwrapped inner
  | node => node

/-- A text in parentheses if they are needed. -/
def inParentheses (needed : Bool) (text : String) : String :=
  if needed then "(" ++ text ++ ")" else text

/-- A place inside of parentheses, if they are needed. -/
def Place.within (place : Place) (needed : Bool) : Place :=
  if needed then { place with opening := .nothing } else place

/-- Texts with commas between them. -/
def commaSeparated (texts : List String) : String := String.intercalate ", " texts

/-- Items between commas. -/
def itemList (place : Place) (items : List Written) : String :=
  commaSeparated (items.map fun written => written.text place.item)

/-- Lines between braces; each line ends itself. -/
def braces (depth : Nat) (lines : List String) : String :=
  if lines.isEmpty then "\x7b\x7d" else "\x7b\n" ++ String.join lines ++ tabs depth ++ "\x7d"

/-- A key in brackets if it is computed. -/
def inBrackets (computed : Bool) (text : String) : String :=
  if computed then "[" ++ text ++ "]" else text

/-- A word and a space, if the word is there. -/
def wordIf (isThere : Bool) (word : String) : String := if isThere then word ++ " " else ""

end WebBundle.Syntax.Writing

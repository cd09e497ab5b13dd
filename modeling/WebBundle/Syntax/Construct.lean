import WebBundle.Syntax.Tree

/-!
# Nodes that stand in no source

Code that takes the place of something else is made of nodes without a place of
their own.
-/

namespace WebBundle.Syntax.Node

/-- A node that covers nothing. -/
def made (kind : Kind) (children : List Node) : Node := ⟨kind, ⟨0, 0⟩, children⟩

/-- A variable. -/
def variable_ (name : String) : Node := made (.reference (.ofText name)) []

/-- A declared name. -/
def bound (name : String) : Node := made (.binding name) []

/-- A string. -/
def string (value : String) : Node := made (.stringLiteral value false) []

/-- A property of an object. -/
def member (object : Node) (name : String) : Node := made (.staticMember name false) [object]

/-- An element of an object. -/
def element (object key : Node) : Node := made (.computedMember false) [object, key]

/-- An assignment. -/
def assign (target value : Node) : Node := made (.assignment "=") [target, value]

/-- A choice of the first operand that is true. -/
def either (left right : Node) : Node := made (.logical "||") [left, right]

/-- A call with one argument. -/
def apply (callee argument : Node) : Node :=
  made (.call false) [callee, made .list [argument]]

/-- An empty object. -/
def emptyObject : Node := made (.objectLiteral false) []

/-- A block without statements. -/
def emptyBlock : Node := made .block []

/-- A statement that evaluates an expression. -/
def evaluating (span : Span) (expression : Node) : Node :=
  ⟨.expressionStatement, span, [expression]⟩

/-- A declaration of one variable. -/
def declaring (kind : VariableKind) (span : Span) (name : Node) (value : Node) : Node :=
  ⟨.variableDeclaration kind false, span, [made .declarator [name, value]]⟩

/-- A function with one parameter. -/
def functionOf (parameter : String) (span : Span) (body : List Node) : Node :=
  made (.function .expression false false)
    [missing, made .parameters [made (.parameter {}) [made .list [], bound parameter]],
      ⟨.functionBody, span, body⟩]

/-- An exported declaration. -/
def exporting (span : Span) (declaration : Node) : Node :=
  ⟨.exportDeclaration, span, [declaration]⟩

end WebBundle.Syntax.Node

import WebBundle.Syntax.Construct
import WebBundle.Syntax.Program

/-!
# Members of classes without types

Members that only types know are left out.  A parameter that makes a field of the class
is assigned to the field when the object is made.
-/

namespace WebBundle.Syntax.Erasure

/-- Whether a member is known to types only: it is declared, abstract or has no body. -/
def isTypeMember : Node → Bool
  | ⟨.erased, _, _⟩ => true
  | ⟨.method _ _ modifiers, _, [_, _, ⟨_, _, [_, _, body]⟩]⟩ =>
    modifiers.isAbstract || !body.isPresent
  | ⟨.field _ modifiers, _, _⟩ => modifiers.isAbstract || modifiers.isDeclared
  | ⟨.accessor _ modifiers, _, _⟩ => modifiers.isAbstract || modifiers.isDeclared
  | _ => false

/-- The fields that parameters make. -/
def parameterFields (parameters : Node) : List String :=
  parameters.children.filterMap fun
    | ⟨.parameter modifiers, _, [_, pattern]⟩ =>
      if modifiers.isParameterField then
        match pattern with
        | ⟨.binding name, _, _⟩ => some name
        | ⟨.defaulted, _, [⟨.binding name, _, _⟩, _]⟩ => some name
        | _ => none
      else none
    | _ => none

/-- The statement that assigns a parameter to its field. -/
def fieldStatement (name : String) : Node :=
  Node.evaluating ⟨0, 0⟩
    (Node.assign (Node.member (Node.made .thisExpression []) name) (Node.variable_ name))

/-- Whether a statement calls the constructor of the superclass. -/
def isSuperCall : Node → Bool
  | ⟨.expressionStatement, _, [⟨.call _, _, ⟨.superExpression, _, _⟩ :: _⟩]⟩ => true
  | _ => false

/-- Whether a statement is a directive. -/
def isDirective : Node → Bool
  | ⟨.directive _, _, _⟩ => true
  | _ => false

/-- Puts statements behind every call of the constructor of the superclass, or in front
of all other statements if there is none. -/
def insertAssignments (assignments statements : List Node) : List Node :=
  if statements.any isSuperCall then
    statements.flatMap fun statement =>
      if isSuperCall statement then statement :: assignments else [statement]
  else
    statements.takeWhile isDirective ++ assignments ++ statements.dropWhile isDirective

/-- A member of a class with the assignments that its parameters stand for. -/
def withAssignments : Node → Node
  | ⟨.method .constructor computed modifiers, span,
      [decorators, key, ⟨functionKind, functionSpan, [name, parameters, body]⟩]⟩ =>
    let assignments := (parameterFields parameters).map fieldStatement
    let body : Node := if assignments.isEmpty then body
      else ⟨body.kind, body.span, insertAssignments assignments body.children⟩
    ⟨.method .constructor computed modifiers, span,
      [decorators, key, ⟨functionKind, functionSpan, [name, parameters, body]⟩]⟩
  | member => member

/-- The members of a class without those that only types know. -/
def valueMembers (members : List Node) : List Node :=
  (members.filter fun member => !isTypeMember member).map withAssignments

end WebBundle.Syntax.Erasure

import WebBundle.Syntax.Erasure.Class
import WebBundle.Syntax.Erasure.Namespace

/-!
# Trees without types

Types are taken out of a tree from the leaves up: an expression with a type is the
expression, a block loses what only types know, and enumerations in it become objects.
The statements of a namespace and of the program wait until the whole is known.
-/

namespace WebBundle.Syntax.Erasure

/-- A statement in a block without types; namespaces are known only at the top of a
program or of another namespace. -/
def valueStatement (facts : Facts) (before : List String) : Node → List Node
  | ⟨.namespaceDeclaration _, _, _⟩ => []
  | statement => valueDeclaration facts .inner before statement

/-- The statements of a block without types; `before` has the names that are declared in
front of them. -/
def valueStatements (facts : Facts) (before : List String) : List Node → List Node
  | [] => []
  | statement :: rest =>
    valueStatement facts before statement ++
      valueStatements facts (valueNames statement ++ before) rest

/-- Whether a statement that stands alone is known to types only or an object that would
have to be declared. -/
def isTypeBody : Node → Bool
  | ⟨.enumeration _ _, _, _⟩ => true
  | ⟨.namespaceDeclaration _, _, _⟩ => true
  | statement => isTypeStatement statement

/-- A statement that stands alone. -/
def valueBody (statement : Node) : Node :=
  if isTypeBody statement then Node.emptyBlock else statement

/-- The alternative of a condition. -/
def valueAlternative (statement : Node) : Node :=
  if isTypeBody statement then Node.missing else statement

/-- A node without types whose parts have none. -/
def withoutOwnTypes (facts : Facts) : Node → Node
  | ⟨.typed _, _, [inner]⟩ => inner
  | ⟨.classBody, span, members⟩ => ⟨.classBody, span, valueMembers members⟩
  | ⟨.block, span, statements⟩ => ⟨.block, span, valueStatements facts [] statements⟩
  | ⟨.functionBody, span, statements⟩ =>
    ⟨.functionBody, span, valueStatements facts [] statements⟩
  | ⟨.staticBlock, span, statements⟩ =>
    ⟨.staticBlock, span, valueStatements facts [] statements⟩
  | ⟨.switchCase, span, test :: statements⟩ =>
    ⟨.switchCase, span, test :: valueStatements facts [] statements⟩
  | ⟨.ifStatement, span, [test, body, alternative]⟩ =>
    ⟨.ifStatement, span, [test, valueBody body, valueAlternative alternative]⟩
  | ⟨.forStatement, span, [first, test, update, body]⟩ =>
    ⟨.forStatement, span, [first, test, update, valueBody body]⟩
  | ⟨.forIn, span, [target, object, body]⟩ => ⟨.forIn, span, [target, object, valueBody body]⟩
  | ⟨.forOf isAwait, span, [target, object, body]⟩ =>
    ⟨.forOf isAwait, span, [target, object, valueBody body]⟩
  | ⟨.whileStatement, span, [test, body]⟩ => ⟨.whileStatement, span, [test, valueBody body]⟩
  | ⟨.doWhile, span, [body, test]⟩ => ⟨.doWhile, span, [valueBody body, test]⟩
  | ⟨.labeled label, span, [body]⟩ => ⟨.labeled label, span, [valueBody body]⟩
  | node => node

mutual

/-- A tree without types. -/
def withoutTypes (facts : Facts) : Node → Node
  | ⟨.namespaceDeclaration isDeclared, span, [name, ⟨.block, inner, statements⟩]⟩ =>
    ⟨.namespaceDeclaration isDeclared, span,
      [name, ⟨.block, inner, allWithoutTypes facts statements⟩]⟩
  | ⟨kind, span, children⟩ => withoutOwnTypes facts ⟨kind, span, allWithoutTypes facts children⟩

/-- Several trees without types. -/
def allWithoutTypes (facts : Facts) : List Node → List Node
  | [] => []
  | node :: rest => withoutTypes facts node :: allWithoutTypes facts rest

end

end WebBundle.Syntax.Erasure

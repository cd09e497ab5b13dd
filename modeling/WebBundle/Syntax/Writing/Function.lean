import WebBundle.Syntax.Writing.Expression

/-!
# Writing patterns, functions and classes

A pattern that declares names has blanks inside of its braces; one that is assigned
to has none.
-/

namespace WebBundle.Syntax.Writing

/-! ## Patterns -/

/-- The place of a part of a pattern. -/
def Place.element (place : Place) : Place := { place.item with isTarget := place.isTarget }

/-- The node of a pattern without its default. -/
def withoutDefault : Node → Node
  | ⟨.defaulted, _, [pattern, _]⟩ => pattern
  | node => node

/-- Whether the name alone stands for a property of a pattern. -/
def isPatternShorthand (wasShorthand isTarget : Bool) (key value : Node) : Bool :=
  if isTarget then wasShorthand
  else
    match key.kind, (withoutDefault value).kind with
    | .propertyName name, .binding other => name = other
    | _, _ => false

/-- A property of an object pattern. -/
def patternPropertyText (wasShorthand computed : Bool) (key value : Written) (place : Place) :
    String :=
  let written := value.text place.element
  if isPatternShorthand wasShorthand place.isTarget key.node value.node then written
  else inBrackets computed (key.text place.item) ++ ": " ++ written

/-- An object pattern. -/
def objectPatternText (properties : List Written) (place : Place) : String :=
  let inner := commaSeparated (properties.map fun property => property.text place.element)
  let space := if place.isTarget || properties.isEmpty then "" else " "
  "\x7b" ++ space ++ inner ++ space ++ "\x7d"

/-- The texts of the elements of an array pattern; a hole at the end has a comma behind
it. -/
def patternTexts (place : Place) : List Written → List String
  | [] => []
  | [last] =>
    match last.kind with
    | .hole => [","]
    | _ => [last.text place.element]
  | element :: rest => element.text place.element :: patternTexts place rest

/-- The text of a pattern or a part of one. -/
def patternText? (node : Node) (parts : List Written) (place : Place) : Option String :=
  match node.kind, parts with
  | .objectPattern, properties => some (objectPatternText properties place)
  | .arrayPattern, elements =>
    some ("[" ++ commaSeparated (patternTexts place elements) ++ "]")
  | .patternProperty wasShorthand computed, [key, value] =>
    some (patternPropertyText wasShorthand computed key value place)
  | .defaulted, [pattern, value] =>
    some (pattern.text place.element ++ " = " ++ value.text place.item)
  | .rest, [inner] => some ("..." ++ inner.text place.element)
  | _, _ => none

/-! ## Functions -/

/-- Whether an expression that begins with a keyword needs parentheses where it
stands. -/
def opensDeclaration (role : Role) (place : Place) : Bool :=
  role = .expression && (place.opening = .statement || place.opening = .defaultExport)

/-- Decorators with a space behind each. -/
def decoratorsText (decorators : Written) (place : Place) : String :=
  String.join (decorators.parts.map fun decorator => decorator.text place.enclosed ++ " ")

/-- The parameters and the body of a function. -/
def signatureText (parameters body : Written) (place : Place) : String :=
  "(" ++ parameters.text place.enclosed ++ ") " ++ body.text place.enclosed

/-- A function. -/
def functionText (role : Role) (isAsync isGenerator : Bool) (name parameters body : Written)
    (place : Place) : String :=
  match role with
  | .member => signatureText parameters body place
  | _ =>
    let word := wordIf isAsync "async" ++ if isGenerator then "function* " else "function"
    let space := if name.isPresent && !isGenerator then " " else ""
    inParentheses (opensDeclaration role place)
      (word ++ space ++ name.text place.enclosed ++ signatureText parameters body place)

/-- An arrow function. -/
def arrowText (isAsync isExpression : Bool) (parameters body : Written) (place : Place) : String :=
  let wraps := Level.assignment ≤ place.level
  let inner := if isExpression then
      body.text { depth := place.depth, level := Level.comma, opening := .arrowBody
                  forbidsIn := place.forbidsIn }
    else body.text place.enclosed
  inParentheses wraps
    (wordIf isAsync "async" ++ "(" ++ parameters.text place.enclosed ++ ") => " ++ inner)

/-- Directives and statements.  A string that begins them without being a directive
stands in parentheses. -/
def statementTexts (statements : List Written) (place : Place) : List String :=
  match statements with
  | [] => []
  | first :: rest =>
    let firstText := match first.node with
      | ⟨.expressionStatement, _, [expression]⟩ =>
        match (unwrapped expression).kind with
        | .stringLiteral value hasLone => "(" ++ stringText value hasLone ++ ");\n"
        | _ => first.text place
      | _ => first.text place
    firstText :: rest.map fun statement => statement.text place

/-- The comments at the end of a list of statements, behind the last line. -/
def endComments (comments : Comments) (depth offset : Nat) : String :=
  let lead := leadOf depth false (commentsAt comments offset)
  lead.text

/-- The body of a function. -/
def functionBodyText (comments : Comments) (span : Span) (statements : List Written)
    (place : Place) : String :=
  let closing := endComments comments (place.depth + 1) (span.stop - 1)
  let lines := statementTexts statements place.deeper
  braces place.depth (if closing = "" then lines else lines ++ [closing])

/-- The text of a function or a part of one. -/
def functionText? (comments : Comments) (node : Node) (parts : List Written) (place : Place) :
    Option String :=
  match node.kind, parts with
  | .function role isAsync isGenerator, [name, parameters, body] =>
    some (functionText role isAsync isGenerator name parameters body place)
  | .parameters, items => some (itemList place items)
  | .parameter _, [decorators, pattern] =>
    some (decoratorsText decorators place ++ pattern.text place.enclosed)
  | .functionBody, statements => some (functionBodyText comments node.span statements place)
  | .arrow isAsync isExpression, [parameters, body] =>
    some (arrowText isAsync isExpression parameters body place)
  | _, _ => none

/-! ## Classes -/

/-- Whether the expression of a decorator can stand without parentheses. -/
def isPlainDecorator : Node → Bool
  | ⟨.reference _, _, _⟩ => true
  | ⟨.staticMember _ _, _, [object]⟩ => isPlainDecorator object
  | ⟨.privateMember _ _, _, [object]⟩ => isPlainDecorator object
  | ⟨.call _, _, callee :: _⟩ => isPlainDecorator callee
  | _ => false

/-- A decorator. -/
def decoratorText (expression : Written) (place : Place) : String :=
  "@" ++ inParentheses (!isPlainDecorator expression.node) (expression.text place.enclosed)

/-- A class. -/
def classText (role : Role) (decorators name superclass body : Written) (place : Place) :
    String :=
  let heritage := if superclass.isPresent then
      " extends " ++ superclass.text { depth := place.depth, level := Level.trailing }
    else ""
  let space := if name.isPresent then " " else ""
  inParentheses (opensDeclaration role place)
    (decoratorsText decorators place ++ "class" ++ space ++ name.text place.enclosed ++
      heritage ++ " " ++ body.text place.enclosed)

/-- A field with its value. -/
def fieldText (word : String) (computed : Bool) (key value : Written) (place : Place) : String :=
  let assigned := if value.isPresent then " = " ++ value.text place.item else ""
  word ++ inBrackets computed (key.text place.item) ++ assigned ++ ";"

/-- A member of a class, with the comments in front of it. -/
def memberLine (comments : Comments) (place : Place) (member : Written) : String :=
  let lead := leadOf place.depth false (commentsAt comments member.node.span.start)
  lead.text ++ (if lead.isAttached then " " else tabs place.depth) ++ member.text place ++ "\n"

/-- The text of a class or a part of one. -/
def classText? (comments : Comments) (node : Node) (parts : List Written) (place : Place) :
    Option String :=
  match node.kind, parts with
  | .classDefinition role _, [decorators, name, superclass, body] =>
    some (classText role decorators name superclass body place)
  | .classBody, members =>
    some (braces place.depth (members.map (memberLine comments place.deeper)))
  | .method form computed modifiers, [decorators, key, function] =>
    some (decoratorsText decorators place ++ wordIf modifiers.isStatic "static" ++
      methodText form computed key function place)
  | .field computed modifiers, [decorators, key, value] =>
    some (decoratorsText decorators place ++
      fieldText (wordIf modifiers.isStatic "static") computed key value place)
  | .accessor computed modifiers, [decorators, key, value] =>
    some (decoratorsText decorators place ++
      fieldText (wordIf modifiers.isStatic "static" ++ "accessor ") computed key value place)
  | .staticBlock, statements =>
    some ("static " ++
      braces place.depth (statements.map fun statement => statement.text place.deeper))
  | .decorator, [expression] => some (decoratorText expression place)
  | _, _ => none

end WebBundle.Syntax.Writing

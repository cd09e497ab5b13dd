import WebBundle.Syntax.Writing.Function

/-!
# Writing statements

Every statement stands on lines of its own, except that a single statement behind a
head stays on the line of the head.
-/

namespace WebBundle.Syntax.Writing

/-- The line of a statement that begins at an offset: comments, indentation, text and
the end of the line.  A part of another statement is its text alone. -/
def line (comments : Comments) (offset : Nat) (place : Place) (text ending : String) : String :=
  if place.isPart then text
  else
    let lead := leadOf place.depth place.isAttached (commentsAt comments offset)
    lead.text ++ (if lead.isAttached then " " else tabs place.depth) ++ text ++ ending

/-- The place of a statement that is written as a part. -/
def Place.part (place : Place) : Place := { depth := place.depth, isPart := true }

/-- A statement behind a head, with the end of its line. -/
def bodyText (body : Written) (place : Place) : String :=
  match body.kind with
  | .block => " " ++ body.text place.part ++ "\n"
  | .emptyStatement => ";\n"
  | _ => body.text { depth := place.depth, isAttached := true }

/-- A condition between parentheses behind a word. -/
def headText (word : String) (condition : Written) (place : Place) : String :=
  word ++ " (" ++ condition.text place.enclosed ++ ")"

/-! ## Conditions -/

/-- Whether an `else` behind a statement would belong to an `if` inside of it. -/
def capturesElse : Node → Bool
  | ⟨.ifStatement, _, [_, _, whenFalse]⟩ => !whenFalse.isPresent || capturesElse whenFalse
  | ⟨.forStatement, _, [_, _, _, body]⟩ => capturesElse body
  | ⟨.forIn, _, [_, _, body]⟩ => capturesElse body
  | ⟨.forOf _, _, [_, _, body]⟩ => capturesElse body
  | ⟨.whileStatement, _, [_, body]⟩ => capturesElse body
  | ⟨.withStatement, _, [_, body]⟩ => capturesElse body
  | ⟨.labeled _, _, [body]⟩ => capturesElse body
  | _ => false

/-- The statement behind the condition of an `if`, up to where an `else` may stand. -/
def whenTrueText (whenTrue : Written) (hasElse : Bool) (place : Place) : String :=
  let ending := if hasElse then " " else "\n"
  match whenTrue.kind with
  | .block => " " ++ whenTrue.text place.part ++ ending
  | _ =>
    if capturesElse whenTrue.node then
      " " ++ braces place.depth [whenTrue.text place.deeper] ++ ending
    else bodyText whenTrue place ++ if hasElse then tabs place.depth else ""

/-- The statement behind an `else`. -/
def whenFalseText (whenFalse : Written) (place : Place) : String :=
  match whenFalse.kind with
  | .absent => ""
  | .ifStatement => "else " ++ whenFalse.text place.part
  | _ => "else" ++ bodyText whenFalse place

/-- An `if` statement with the end of its line. -/
def ifText (test whenTrue whenFalse : Written) (place : Place) : String :=
  headText "if" test place ++ whenTrueText whenTrue whenFalse.isPresent place ++
    whenFalseText whenFalse place

/-! ## Loops -/

/-- An optional part of the head of a loop, behind a semicolon. -/
def headPart (part : Written) (place : Place) : String :=
  if part.isPresent then " " ++ part.text place.enclosed else ""

/-- The first part of the head of a loop. -/
def loopStart (first : Written) (place : Place) : String :=
  first.text { place.part with forbidsIn := true, isTarget := true }

/-- The head of a loop with three parts. -/
def forHead (first test update : Written) (place : Place) : String :=
  let start := if first.isPresent then first.text { place.part with forbidsIn := true } else ""
  "for (" ++ start ++ ";" ++ headPart test place ++ ";" ++ headPart update place ++ ")"

/-- A `do` statement. -/
def doText (body test : Written) (place : Place) : String :=
  let start := match body.kind with
    | .block => "do " ++ body.text place.part ++ " "
    | _ => "do" ++ bodyText body place ++ tabs place.depth
  start ++ headText "while" test place

/-- The text of a loop with the end of its line; a `do` statement has no end. -/
def loopText? (node : Node) (parts : List Written) (place : Place) : Option String :=
  match node.kind, parts with
  | .forStatement, [first, test, update, body] =>
    some (forHead first test update place ++ bodyText body place)
  | .forIn, [target, collection, body] =>
    some ("for (" ++ loopStart target place ++ " in " ++ collection.text place.enclosed ++ ")" ++
      bodyText body place)
  | .forOf isAwait, [target, collection, body] =>
    some ("for " ++ wordIf isAwait "await" ++ "(" ++ loopStart target place ++ " of " ++
      collection.text place.item ++ ")" ++ bodyText body place)
  | .whileStatement, [test, body] => some (headText "while" test place ++ bodyText body place)
  | .withStatement, [object, body] => some (headText "with" object place ++ bodyText body place)
  | .doWhile, [body, test] => some (doText body test place ++ ";\n")
  | _, _ => none

/-! ## Other statements -/

/-- The keyword of a variable declaration. -/
def variableWord : VariableKind → String
  | .functionScoped => "var"
  | .blockScoped => "let"
  | .constant => "const"
  | .resource => "using"
  | .asyncResource => "await using"

/-- A declared variable with its value. -/
def declaratorText (pattern value : Written) (place : Place) : String :=
  pattern.text place.enclosed ++
    if value.isPresent then " = " ++ value.text (place.later Level.comma) else ""

/-- A case of a `switch` statement with the ends of its lines. -/
def caseText (test : Written) (body : List Written) (place : Place) : String :=
  let head := if test.isPresent then "case " ++ test.text place.enclosed ++ ":" else "default:"
  tabs place.depth ++ head ++ match body with
    | [single] => bodyText single place
    | body => "\n" ++ String.join (body.map fun statement => statement.text place.deeper)

/-- A `try` statement. -/
def tryText (guarded handler finalizer : Written) (place : Place) : String :=
  "try " ++ guarded.text place.part ++
    (if handler.isPresent then " " ++ handler.text place else "") ++
    if finalizer.isPresent then " finally " ++ finalizer.text place.part else ""

/-- A handler. -/
def handlerText (parameter body : Written) (place : Place) : String :=
  (if parameter.isPresent then "catch (" ++ parameter.text place.enclosed ++ ") " else "catch ") ++
    body.text place.part

/-- A jump with its label. -/
def jumpText (word : String) (label : Option String) : String :=
  match label with
  | some label => word ++ " " ++ label
  | none => word

/-- A word with an expression behind it, if there is one. -/
def wordAndValue (word : String) (value : Written) (place : Place) : String :=
  if value.isPresent then word ++ " " ++ value.text place.enclosed else word

/-- The text of a statement of one line, and what ends the line. -/
def simpleStatement? (node : Node) (parts : List Written) (place : Place) :
    Option (String × String) :=
  match node.kind, parts with
  | .expressionStatement, [expression] =>
    some (expression.text { depth := place.depth, opening := .statement }, ";\n")
  | .directive raw, _ => some (directiveText raw, "\n")
  | .emptyStatement, _ => some (";", "\n")
  | .variableDeclaration kind _, declarators =>
    let texts := declarators.map fun declarator =>
      declarator.text { depth := place.depth, forbidsIn := place.forbidsIn }
    some (variableWord kind ++ " " ++ commaSeparated texts, ";\n")
  | .returnStatement, [value] => some (wordAndValue "return" value place, ";\n")
  | .throwStatement, [value] => some (wordAndValue "throw" value place, ";\n")
  | .breakStatement label, _ => some (jumpText "break" label, ";\n")
  | .continueStatement label, _ => some (jumpText "continue" label, ";\n")
  | .debuggerStatement, _ => some ("debugger", ";\n")
  | _, _ => none

/-- The text of a statement with further statements in it, and what ends its last
line. -/
def compoundStatement? (node : Node) (parts : List Written) (place : Place) :
    Option (String × String) :=
  match node.kind, parts with
  | .block, statements =>
    some (braces place.depth (statements.map fun statement => statement.text place.deeper), "\n")
  | .ifStatement, [test, whenTrue, whenFalse] => some (ifText test whenTrue whenFalse place, "")
  | .tryStatement, [guarded, handler, finalizer] =>
    some (tryText guarded handler finalizer place, "\n")
  | .switchStatement, discriminant :: cases =>
    some (headText "switch" discriminant place ++ " " ++
      braces place.depth (cases.map fun switchCase => switchCase.text place.deeper), "\n")
  | .labeled label, [body] => some (label ++ ":" ++ bodyText body place, "")
  | .function .declaration isAsync isGenerator, [name, parameters, body] =>
    some (functionText .declaration isAsync isGenerator name parameters body place, "\n")
  | .classDefinition .declaration _, [decorators, name, superclass, body] =>
    some (classText .declaration decorators name superclass body place, "\n")
  | _, _ => (loopText? node parts place).map fun text => (text, "")

/-- The text of a part of a statement. -/
def statementPart? (node : Node) (parts : List Written) (place : Place) : Option String :=
  match node.kind, parts with
  | .declarator, [pattern, value] => some (declaratorText pattern value place)
  | .switchCase, test :: body => some (caseText test body place)
  | .catchClause, [parameter, body] => some (handlerText parameter body place)
  | _, _ => none

/-- The text of a statement. -/
def statementText? (comments : Comments) (node : Node) (parts : List Written) (place : Place) :
    Option String :=
  let found := match simpleStatement? node parts place with
    | some found => some found
    | none => compoundStatement? node parts place
  found.map fun (text, ending) => line comments node.span.start place text ending

end WebBundle.Syntax.Writing

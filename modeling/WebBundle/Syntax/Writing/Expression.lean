import WebBundle.Syntax.Writing.Place

/-!
# Writing expressions

Parentheses of the source are dropped, and those that the levels ask for are
written.
-/

namespace WebBundle.Syntax.Writing

/-! ## Literals -/

/-- The text of a name, a literal or a keyword. -/
def simpleText? (kind : Kind) : Option String :=
  match kind with
  | .reference name => some name.text
  | .binding name | .propertyName name => some name
  | .privateName name => some ("#" ++ name)
  | .nullLiteral => some "null"
  | .booleanLiteral value => some (if value then "true" else "false")
  | .numberLiteral spelling => some (String.ofList (numberText (Numeral.value spelling)))
  | .bigintLiteral spelling => some (String.ofList (spelling.filter (· ≠ '_')))
  | .stringLiteral value hasLone => some (stringText value hasLone)
  | .regexLiteral spelling => some (String.ofList (breakTags spelling))
  | .thisExpression => some "this"
  | .superExpression => some "super"
  | .metaProperty base name => some (base ++ "." ++ name)
  | .absent | .hole => some ""
  | _ => none

/-- A template. -/
def template (quasis : List Quasi) (substitutions : List Written) (place : Place) : String :=
  "`" ++ templateText quasis (substitutions.map fun written => written.text place.enclosed) ++ "`"

/-- How many elements of an array stand on one line. -/
def arrayLineLimit : Nat := 2

/-- The text of the elements of an array; a hole at the end has a comma behind it. -/
def elementTexts (place : Place) : List Written → List String
  | [] => []
  | [last] =>
    match last.kind with
    | .hole => [","]
    | _ => [last.text place.item]
  | element :: rest => element.text place.item :: elementTexts place rest

/-- An array literal; more than two elements stand on lines of their own. -/
def arrayText (elements : List Written) (place : Place) : String :=
  if elements.length ≤ arrayLineLimit then
    "[" ++ commaSeparated (elementTexts place elements) ++ "]"
  else
    let texts := elementTexts { place with depth := place.depth + 1 } elements
    let line := "\n" ++ tabs (place.depth + 1)
    "[" ++ line ++ String.intercalate ("," ++ line) texts ++ "\n" ++ tabs place.depth ++ "]"

/-- An object literal; more than one property stand on lines of their own. -/
def objectText (properties : List Written) (place : Place) : String :=
  let wraps := place.opening = .statement || place.opening = .arrowBody
  inParentheses wraps <| match properties with
    | [] => "\x7b\x7d"
    | [property] => "\x7b " ++ property.text place.enclosed ++ " \x7d"
    | properties =>
      let line := "\n" ++ tabs (place.depth + 1)
      "\x7b" ++ line ++
        String.intercalate ("," ++ line) (properties.map fun property => property.text place.deeper) ++
        "\n" ++ tabs place.depth ++ "\x7d"

/-- Whether a property can be written as a name alone. -/
def isShorthand (wasShorthand : Bool) (key value : Node) : Bool :=
  match key.kind, (unwrapped value).kind with
  | .propertyName name, .reference other =>
    if name = "__proto__" then wasShorthand else name = other.text
  | _, _ => false

/-- A property of an object. -/
def propertyText (wasShorthand computed : Bool) (key value : Written) (place : Place) : String :=
  let written := value.text place.item
  if isShorthand wasShorthand key.node value.node then written
  else inBrackets computed (key.text place.item) ++ ": " ++ written

/-- The word in front of the key of an accessor. -/
def accessorWord : MemberForm → String
  | .getter => "get "
  | .setter => "set "
  | .method | .constructor => ""

/-- A method behind the words in front of it: marks, key and function. -/
def methodText (form : MemberForm) (computed : Bool) (key function : Written) (place : Place) :
    String :=
  let marks := match function.kind with
    | .function _ isAsync isGenerator =>
      wordIf isAsync "async" ++ if isGenerator then "*" else ""
    | _ => ""
  accessorWord form ++ marks ++ inBrackets computed (key.text place.item) ++
    function.text place.enclosed

/-! ## Operators -/

/-- Whether an operand is a logical expression that `??` may not be mixed with. -/
def isOtherLogical (operand : Node) : Bool :=
  match (unwrapped operand).kind with
  | .logical operator => operator ≠ "??"
  | _ => false

/-- Whether an operand begins with an operator in front of its own operand. -/
def isUnary (operand : Node) : Bool :=
  match (unwrapped operand).kind with
  | .unary _ => true
  | _ => false

/-- The levels at which the operands of an infix operator are written. -/
def operandLevels (operator : String) (left right : Node) : Nat × Nat :=
  let level := Level.ofOperator operator
  if operator = "**" then (if isUnary left then Level.call else level, level - 1)
  else if operator = "??" then
    (if isOtherLogical left then Level.leading else level - 1,
      if isOtherLogical right then Level.leading else level)
  else (level - 1, level)

/-- Two operands with an operator between them. -/
def infixText (operator : String) (left right : Written) (place : Place) : String :=
  let isForbidden := operator = "in" && place.forbidsIn
  let wraps := Level.ofOperator operator ≤ place.level || isForbidden
  let inner := if wraps then { place.within true with forbidsIn := false } else place
  let (leftLevel, rightLevel) := operandLevels operator left.node right.node
  inParentheses wraps (left.text (inner.first leftLevel) ++ " " ++ operator ++ " " ++
    right.text (inner.later rightLevel))

/-- Whether an operator is a word. -/
def isWordOperator (operator : String) : Bool :=
  operator = "typeof" || operator = "void" || operator = "delete"

/-- An operator in front of its operand; equal signs are kept apart. -/
def unaryText (operator : String) (operand : Written) (place : Place) : String :=
  let wraps := Level.leading ≤ place.level
  let text := operand.text ((place.within wraps).later Level.power)
  let isSign := operator = "+" || operator = "-"
  let space := if isWordOperator operator || (isSign && text.startsWith operator) then " " else ""
  inParentheses wraps (operator ++ space ++ text)

/-- An increment or a decrement. -/
def updateText (operator : String) (isPrefixed : Bool) (operand : Written) (place : Place) :
    String :=
  if isPrefixed then
    let wraps := Level.leading ≤ place.level
    inParentheses wraps (operator ++ operand.text ((place.within wraps).later Level.leading))
  else
    let wraps := Level.trailing ≤ place.level
    inParentheses wraps (operand.text ((place.within wraps).first Level.trailing) ++ operator)

/-- A condition with its branches. -/
def conditionalText (test whenTrue whenFalse : Written) (place : Place) : String :=
  let wraps := Level.conditional ≤ place.level
  let inner := place.within wraps
  inParentheses wraps (test.text (inner.first Level.conditional) ++ " ? " ++
    whenTrue.text { depth := place.depth, level := Level.branch } ++ " : " ++
    whenFalse.text (inner.later Level.branch))

/-- Whether an assignment begins with a brace. -/
def beginsWithBrace (target : Written) : Bool :=
  match target.kind with
  | .objectPattern => true
  | _ => false

/-- An assignment. -/
def assignmentText (operator : String) (target value : Written) (place : Place) : String :=
  let opens := place.opening = .statement || place.opening = .arrowBody
  let wraps := Level.assignment ≤ place.level || (beginsWithBrace target && opens)
  let inner := place.within wraps
  inParentheses wraps (
    target.text { inner.first Level.trailing with isTarget := true } ++ " " ++ operator ++ " " ++
    value.text (inner.later Level.comma))

/-- Expressions with commas between them. -/
def sequenceText (expressions : List Written) (place : Place) : String :=
  let wraps := Level.comma ≤ place.level
  let inner := place.within wraps
  inParentheses wraps <| commaSeparated <| match expressions with
    | [] => []
    | first :: rest =>
      first.text (inner.first Level.lowest) ::
        rest.map fun expression => expression.text (inner.later Level.lowest)

/-- An `await` expression. -/
def awaitText (operand : Written) (place : Place) : String :=
  let wraps := Level.leading ≤ place.level
  inParentheses wraps ("await " ++ operand.text ((place.within wraps).later Level.power))

/-- A `yield` expression. -/
def yieldText (delegate : Bool) (operand : Written) (place : Place) : String :=
  let wraps := Level.assignment ≤ place.level
  let mark := if delegate then "yield*" else "yield"
  inParentheses wraps <|
    if operand.isPresent then
      mark ++ " " ++ operand.text ((place.within wraps).later Level.branch)
    else mark

/-! ## Accesses and calls -/

/-- Whether the text of an object is a number that would take a point for its own. -/
def endsWithWholeNumber (object : Written) (text : String) : Bool :=
  match (unwrapped object.node).kind with
  | .numberLiteral _ => allDigits text.toList
  | _ => false

/-- A name behind an object. -/
def memberText (name : String) (optional : Bool) (object : Written) (place : Place) : String :=
  let text := object.text { place.accessed with forbidsCall := place.forbidsCall }
  let mark := if optional then "?." else if endsWithWholeNumber object text then " ." else "."
  text ++ mark ++ name

/-- A key in brackets behind an object. -/
def computedText (optional : Bool) (object key : Written) (place : Place) : String :=
  let isLet := match (unwrapped object.node).kind with
    | .reference name => name.text = "let"
    | _ => false
  let text := object.text { place.accessed with forbidsCall := place.forbidsCall }
  inParentheses isLet text ++ (if optional then "?." else "") ++
    "[" ++ key.text place.enclosed ++ "]"

/-- The comments of an argument, each on a line. -/
def argumentComments (comments : Comments) (depth offset : Nat) : String :=
  String.join ((commentsAt comments offset).map fun comment =>
    "\n" ++ tabs depth ++ commentText depth comment)

/-- Arguments on lines of their own, with the comments in front of them. -/
def commentedArguments (comments : Comments) (items : List Written) (closing : Nat)
    (place : Place) : String :=
  let depth := place.depth + 1
  let argument (item : Written) : String :=
    argumentComments comments depth item.node.span.start ++ "\n" ++ tabs depth ++
      item.text { depth, level := Level.comma }
  String.intercalate "," (items.map argument) ++ argumentComments comments depth closing ++
    "\n" ++ tabs place.depth

/-- The arguments of a call that ends at an offset. -/
def argumentsText (comments : Comments) (items : List Written) (stop : Nat) (place : Place) :
    String :=
  let hasComment (offset : Nat) : Bool := !(commentsAt comments offset).isEmpty
  let isCommented := hasComment (stop - 1) ||
    items.any fun item => hasComment item.node.span.start
  let text := if isCommented then commentedArguments comments items (stop - 1) place
    else itemList place items
  "(" ++ text ++ ")"

/-- The comment that is written in front of a call without effect. -/
def pureText : String := "/* @__PURE__ */ "

/-- A text in front of which the comment stands, in parentheses if an access follows. -/
def markedPure (isPure : Bool) (text : Place → String) (place : Place) : String :=
  if isPure then
    let wraps := Level.trailing ≤ place.level
    inParentheses wraps (pureText ++
      text (if wraps then { depth := place.depth } else place))
  else text place

/-- A call. -/
def callText (comments : Comments) (span : Span) (optional : Bool) (callee arguments : Written)
    (place : Place) : String :=
  let isPure := !place.isAccessed && isPureAt comments span.start
  markedPure isPure (fun place =>
    let wraps := Level.creation ≤ place.level || place.forbidsCall
    inParentheses wraps (
      callee.text ((place.within wraps).accessed) ++ (if optional then "?." else "") ++
      argumentsText comments arguments.parts span.stop place)) place

/-- A creation of an object. -/
def creationText (comments : Comments) (span : Span) (callee arguments : Written)
    (place : Place) : String :=
  let isPure := !place.isAccessed && isPureAt comments span.start
  markedPure isPure (fun place =>
    let wraps := Level.call ≤ place.level
    inParentheses wraps ("new " ++
      callee.text { depth := place.depth, level := Level.creation, forbidsCall := true
                    isAccessed := true } ++
      argumentsText comments arguments.parts span.stop place)) place

/-- A dynamic import. -/
def importText (comments : Comments) (span : Span) (phase : String) (parts : List Written)
    (place : Place) : String :=
  let wraps := Level.creation ≤ place.level || place.forbidsCall
  let word := if phase = "" then "import" else "import." ++ phase
  inParentheses wraps (word ++
    argumentsText comments (parts.filter Written.isPresent) span.stop place)

/-- A chain, which ends in front of an access that does not belong to it. -/
def chainText (inner : Written) (place : Place) : String :=
  let wraps := Level.trailing ≤ place.level
  inParentheses wraps (inner.text (if wraps then { depth := place.depth } else place))

/-! ## All expressions -/

/-- The text of an expression with operators. -/
def operationText? (node : Node) (parts : List Written) (place : Place) : Option String :=
  match node.kind, parts with
  | .unary operator, [operand] => some (unaryText operator operand place)
  | .update operator isPrefixed, [operand] => some (updateText operator isPrefixed operand place)
  | .binary operator, [left, right] => some (infixText operator left right place)
  | .logical operator, [left, right] => some (infixText operator left right place)
  | .assignment operator, [target, value] => some (assignmentText operator target value place)
  | .conditional, [test, whenTrue, whenFalse] =>
    some (conditionalText test whenTrue whenFalse place)
  | .sequence, expressions => some (sequenceText expressions place)
  | .awaitExpression, [operand] => some (awaitText operand place)
  | .yieldExpression delegate, [operand] => some (yieldText delegate operand place)
  | _, _ => none

/-- The text of an access or a call. -/
def accessText? (comments : Comments) (node : Node) (parts : List Written) (place : Place) :
    Option String :=
  match node.kind, parts with
  | .staticMember name optional, [object] => some (memberText name optional object place)
  | .privateMember name optional, [object] =>
    some (memberText ("#" ++ name) optional object place)
  | .computedMember optional, [object, key] => some (computedText optional object key place)
  | .call optional, [callee, arguments] =>
    some (callText comments node.span optional callee arguments place)
  | .pure, [inner] => some (markedPure true inner.text place)
  | .newCall, [callee, arguments] =>
    some (creationText comments node.span callee arguments place)
  | .importCall phase, parts => some (importText comments node.span phase parts place)
  | .chain, [inner] => some (chainText inner place)
  | .taggedTemplate, [tag, literal] => some (tag.text place.accessed ++ literal.text place.enclosed)
  | .parenthesized, [inner] => some (inner.text place)
  | .typed _, [inner] => some (inner.text place)
  | _, _ => none

/-- The text of a literal with parts. -/
def compositeText? (node : Node) (parts : List Written) (place : Place) : Option String :=
  match node.kind, parts with
  | .templateLiteral quasis, substitutions => some (template quasis substitutions place)
  | .arrayLiteral _, elements => some (arrayText elements place)
  | .objectLiteral _, properties => some (objectText properties place)
  | .spread, [inner] => some ("..." ++ inner.text place.item)
  | .property wasShorthand computed, [key, value] =>
    some (propertyText wasShorthand computed key value place)
  | .objectMethod form computed, [key, function] =>
    some (methodText form computed key function place)
  | .list, items => some (itemList place items)
  | _, _ => none

end WebBundle.Syntax.Writing

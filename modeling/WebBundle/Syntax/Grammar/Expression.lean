import WebBundle.Syntax.Grammar.Class

/-!
# Expressions

Expressions are read by levels: a primary expression, the accesses and calls
behind it, the operators in front of it, the operators between operands by
their precedence, and assignments.
-/

namespace WebBundle.Syntax.Grammar

open Reading

/-- A nested expression, in which `in` is an operator again. -/
def nested (context : Context) : Context := { context with allowIn := true, inDecorator := false }

/-- Expressions with commas between them. -/
def expression (grammar : Grammar) : Reading Node := do
  let start ← position
  match ← commaSequence (grammar .assignment) with
  | [single] => return single
  | parts => node .sequence start parts

/-! ## Literals and primary expressions -/

/-- An expression in parentheses, which stays a node of its own. -/
def parenthesized (grammar : Grammar) : Reading Node := do
  let start ← position
  expectMark .parenOpen
  let inner ← within nested (expression grammar)
  expectMark .parenClose
  node .parenthesized start [inner]

/-- A spread of an expression. -/
def spread (grammar : Grammar) : Reading Node := do
  let start ← position
  expectMark .ellipsis
  node .spread start [← within nested (grammar .assignment)]

/-- Whether a comma stands behind the last element of a list, given where the
last token of the list ends. -/
def listEndsWithComma (elements : List Node) (stop : Nat) : Bool :=
  match elements.getLast? with
  | some last => last.span.stop < stop
  | none => false

/-- An array literal.  A comma without an element in front of it is a hole. -/
def arrayLiteral (grammar : Grammar) : Reading Node := do
  let start ← position
  expectMark .bracketOpen
  let (elements, stop) ← within nested do
    let elements ← commaList .bracketClose do
      if ← isMark .comma then
        let here ← position
        return ⟨.hole, ⟨here, here⟩, []⟩
      else if ← isMark .ellipsis then spread grammar
      else grammar .assignment
    return (elements, (← progress).lastStop)
  expectMark .bracketClose
  node (.arrayLiteral (listEndsWithComma elements stop)) start elements

/-- A property whose value is the variable of the same name.  A default is only
right in a pattern; it is kept until the pattern is recognised. -/
def shorthandProperty (grammar : Grammar) : Reading Node := do
  let start ← position
  let token ← token
  let name ← reference
  let key : Node ← match token.kind with
    | .word _ name _ => pure ⟨.propertyName name, token.span, []⟩
    | _ => refuse
  let value ← if ← eatMark .assign then
      node .defaulted start [name, ← grammar .assignment]
    else pure name
  node (.property true false) start [key, value]

/-- A property or a method of an object literal. -/
def objectMember (grammar : Grammar) : Reading Node := do
  if ← isMark .ellipsis then spread grammar
  else
    let start ← position
    let isShorthand := (← atIdentifier) && match (← peek).kind with
      | .mark .comma | .mark .braceClose | .mark .assign => true
      | _ => false
    if isShorthand then shorthandProperty grammar
    else
      let head ← methodStart
      let (key, computed) ← propertyKey grammar
      check (computed || !(key.kind matches .privateName _))
      if head.isMarked || (← isMark .parenOpen) || (← isMark .less) then
        let function ← methodFunction grammar head.isAsync head.isGenerator
        node (.objectMethod head.form computed) start [key, function]
      else
        expectMark .colon
        node (.property false computed) start [key, ← grammar .assignment]

/-- An object literal. -/
def objectLiteral (grammar : Grammar) : Reading Node := do
  let start ← position
  expectMark .braceOpen
  let (members, stop) ← within nested do
    let members ← commaList .braceClose (objectMember grammar)
    return (members, (← progress).lastStop)
  expectMark .braceClose
  node (.objectLiteral (listEndsWithComma members stop)) start members

/-- The parts of a template and its substitutions. -/
structure TemplateProgress where
  quasis : List Quasi
  substitutions : List Node
  isComplete : Bool

/-- A template literal; without a tag every part must have a cooked form. -/
def templateLiteral (grammar : Grammar) (isTagged : Bool) : Reading Node := do
  let start ← position
  let (first, isLast) ← templatePart
  let complete ← iterate (fun (template : TemplateProgress) => do
    if template.isComplete then return none
    let inner ← within nested (expression grammar)
    let (quasi, isLast) ← templateContinuation
    return some ⟨template.quasis ++ [quasi], template.substitutions ++ [inner], isLast⟩)
    ⟨[first], [], isLast⟩
  check (isTagged || complete.quasis.all fun quasi => quasi.cooked.isSome)
  node (.templateLiteral complete.quasis) start complete.substitutions

/-- A regular expression literal. -/
def regexLiteral : Reading Node := do
  let start ← position
  match (← token).asRegex? with
  | some regex =>
    setToken regex
    let token ← advance
    node (.regexLiteral token.spelling) start []
  | none => refuse

/-- A literal or a keyword that is an expression by itself. -/
def simpleNode (kind : Kind) : Reading Node := do
  let start ← position
  let _ ← advance
  node kind start []

/-- Whether `async` begins a function here. -/
def atAsyncFunction : Reading Bool := do
  let next ← peek
  return (← isPlainWord .async_) && next.kind matches .word .function_ _ false &&
    !next.afterNewline

/-- An expression without accesses and operators. -/
def primary (grammar : Grammar) : Reading Node := do
  let token ← token
  match token.kind with
  | .number => simpleNode (.numberLiteral token.spelling)
  | .bigint => simpleNode (.bigintLiteral token.spelling)
  | .string value lone => simpleNode (.stringLiteral value lone)
  | .template _ _ => templateLiteral grammar false
  | .mark .slash | .mark .slashAssign => regexLiteral
  | .mark .parenOpen => parenthesized grammar
  | .mark .bracketOpen => arrayLiteral grammar
  | .mark .braceOpen => objectLiteral grammar
  | .mark .atSign => within nested (classDefinition grammar .expression {})
  | .word .this_ _ false => simpleNode .thisExpression
  | .word .null_ _ false => simpleNode .nullLiteral
  | .word .true_ _ false => simpleNode (.booleanLiteral true)
  | .word .false_ _ false => simpleNode (.booleanLiteral false)
  | .word .function_ _ false => functionExpression grammar .expression
  | .word .class_ _ false => classDefinition grammar .expression {}
  | .word .async_ _ false =>
    if ← atAsyncFunction then functionExpression grammar .expression else reference
  | _ => reference

/-! ## Accesses and calls -/

/-- An expression with accesses behind it so far. -/
structure Access where
  node : Node
  /-- Whether there is a `?.` in the chain. -/
  isOptional : Bool := false
  /-- Whether type arguments stand at the end. -/
  hasTypeArguments : Bool := false

/-- The name behind a point. -/
def memberName (start : Nat) (object : Node) (optional : Bool) : Reading Node := do
  match ← tokenKind with
  | .privateName name =>
    let _ ← advance
    node (.privateMember name optional) start [object]
  | _ => node (.staticMember (← anyWord) optional) start [object]

/-- The key between brackets. -/
def computedMember (grammar : Grammar) (start : Nat) (object : Node) (optional : Bool) :
    Reading Node := do
  expectMark .bracketOpen
  let key ← within nested (expression grammar)
  expectMark .bracketClose
  node (.computedMember optional) start [object, key]

/-- The expression without type arguments at its end. -/
def Access.bare (access : Access) : Node :=
  match access.hasTypeArguments, access.node with
  | true, ⟨.typed .instantiation, _, [inner]⟩ => inner
  | _, node => node

/-- A tagged template. -/
def taggedTemplate (grammar : Grammar) (start : Nat) (access : Access) : Reading Access := do
  check !access.isOptional
  let template ← templateLiteral grammar true
  return { node := ← node .taggedTemplate start [access.bare, template] }

/-- Type arguments behind an expression, if they can be such. -/
def instantiation (grammar : Grammar) (start : Nat) (access : Access) :
    Reading (Option Access) := do
  match ← optional (expressionTypeArguments grammar) with
  | some _ =>
    return some { access with
      node := ← node (.typed .instantiation) start [access.bare], hasTypeArguments := true }
  | none => return none

/-- One access behind an expression, if there is one. -/
def memberStep (grammar : Grammar) (start : Nat) (access : Access) : Reading (Option Access) := do
  let context ← context
  let plain (node : Node) : Option Access := some { node, isOptional := access.isOptional }
  match ← tokenKind with
  | .mark .dot =>
    let _ ← advance
    return plain (← memberName start access.node false)
  | .mark .bracketOpen =>
    if context.inDecorator then return none
    else return plain (← computedMember grammar start access.node false)
  | .mark .questionDot =>
    let next ← peek
    match next.kind with
    | .mark .bracketOpen =>
      if context.inDecorator then return none
      let _ ← advance
      return some { node := ← computedMember grammar start access.node true, isOptional := true }
    | .word _ _ _ | .privateName _ =>
      let _ ← advance
      return some { node := ← memberName start access.node true, isOptional := true }
    | _ => return none
  | .mark .not =>
    if context.hasTypes && !(← token).afterNewline then
      let _ ← advance
      return plain (← node (.typed .nonNull) start [access.node])
    else return none
  | .template _ _ => return some (← taggedTemplate grammar start access)
  | .mark .less | .mark .shiftLeft =>
    if context.hasTypes then instantiation grammar start access else return none
  | _ => return none

/-- Accesses behind an expression. -/
def memberRest (grammar : Grammar) (start : Nat) (access : Access) : Reading Access :=
  iterate (memberStep grammar start) access

/-- The arguments of a call. -/
def callArguments (grammar : Grammar) : Reading Node := do
  let start ← position
  expectMark .parenOpen
  let items ← within nested do
    commaList .parenClose do
      if ← isMark .ellipsis then spread grammar else grammar .assignment
  expectMark .parenClose
  node .list start items

/-- A call or an access behind an expression, if there is one. -/
def callStep (grammar : Grammar) (start : Nat) (access : Access) : Reading (Option Access) := do
  match ← tokenKind with
  | .mark .parenOpen =>
    let items ← callArguments grammar
    return some { node := ← node (.call false) start [access.bare, items],
                  isOptional := access.isOptional }
  | .mark .questionDot =>
    match ← memberStep grammar start access with
    | some access => return some access
    | none =>
      let _ ← advance
      if (← context).hasTypes then
        let _ ← optional (expressionTypeArguments grammar)
      let items ← callArguments grammar
      return some { node := ← node (.call true) start [access.bare, items], isOptional := true }
  | _ => memberStep grammar start access

/-- An `import` expression. -/
def importExpression (grammar : Grammar) : Reading Node := do
  let start ← position
  expectWord .import_
  if ← eatMark .dot then
    match ← tokenKind with
    | .word .meta_ name false =>
      let _ ← advance
      node (.metaProperty "import" name) start []
    | .word .source_ name false | .word .defer_ name false =>
      let _ ← advance
      call start name
    | _ => refuse
  else call start ""
where
  /-- The source and the options of a dynamic import. -/
  call (start : Nat) (phase : String) : Reading Node := do
    expectMark .parenOpen
    let parts ← within nested do
      let source ← grammar .assignment
      let options ← if (← eatMark .comma) && !(← isMark .parenClose) then
          let options ← grammar .assignment
          let _ ← eatMark .comma
          pure options
        else pure Node.missing
      return [source, options]
    expectMark .parenClose
    node (.importCall phase) start parts

/-- The superclass, which must be called or accessed. -/
def superExpression : Reading Node := do
  let node ← simpleNode .superExpression
  match ← tokenKind with
  | .mark .parenOpen | .mark .dot | .mark .bracketOpen => return node
  | _ => refuse

/-- The words `new` in front of a callee. -/
def newWords : Reading (List Nat) := collect do
  let start ← position
  if (← isPlainWord .new_) && (← peek).kind ≠ .mark .dot then
    let _ ← advance
    return some start
  else return none

/-- The meta property `new.target`. -/
def newTarget : Reading Node := do
  let start ← position
  expectWord .new_
  expectMark .dot
  let name ← anyWord
  check (name = "target")
  node (.metaProperty "new" name) start []

/-- An expression that accesses can stand behind. -/
def accessBase (grammar : Grammar) : Reading Node := do
  match ← tokenKind with
  | .word .super_ _ false => superExpression
  | .word .import_ _ false => importExpression grammar
  | .word .new_ _ false => newTarget
  | _ => primary grammar

/-- Creations of objects, the innermost first: each takes the accesses and the
arguments behind it. -/
def newCalls (grammar : Grammar) : (starts : List Nat) → Access → Reading Access
  | [], callee => return callee
  | start :: outer, callee => do
    check !callee.isOptional
    let items ← if ← isMark .parenOpen then callArguments grammar
      else pure ⟨.list, ⟨(← progress).lastStop, (← progress).lastStop⟩, []⟩
    let created ← node .newCall start [callee.bare, items]
    match outer with
    | [] => newCalls grammar [] { node := created }
    | outerStart :: outer => do
      let access ← memberRest grammar start { node := created }
      newCalls grammar (outerStart :: outer) access

/-- An expression with accesses and calls behind it. -/
def leftHand (grammar : Grammar) : Reading Node := do
  let starts ← newWords
  let baseStart ← position
  let base ← accessBase grammar
  let access ← match starts.reverse with
    | [] => pure { node := base }
    | starts => do
      check !(base.kind matches .importCall _)
      let callee ← memberRest grammar baseStart { node := base }
      newCalls grammar starts callee
  let start := starts.headD baseStart
  let access ← iterate (callStep grammar start) access
  if access.isOptional then
    match access.hasTypeArguments, access.node with
    | true, ⟨.typed .instantiation, span, [inner]⟩ =>
      return ⟨.typed .instantiation, span, [⟨.chain, inner.span, [inner]⟩]⟩
    | _, inner => return ⟨.chain, ⟨start, (← progress).lastStop⟩, [inner]⟩
  else return access.node

/-! ## Operators in front of and behind an operand -/

/-- Operators that are written in front of their operand. -/
def unaryOperator? : TokenKind → Option String
  | .mark .plus => some "+"
  | .mark .minus => some "-"
  | .mark .not => some "!"
  | .mark .bitNot => some "~"
  | .word .delete_ name false | .word .typeof_ name false | .word .void_ name false => some name
  | _ => none

/-- Whether a token on the same line shows that `await` or `yield` was meant as
a keyword. -/
def beginsKeywordOperand (token : Token) : Bool :=
  !token.afterNewline && match token.kind with
    | .word .in_ _ _ | .word .instanceof_ _ _ | .word .of_ _ _ | .word .as_ _ _
    | .word .satisfies_ _ _ => false
    | .word _ _ _ | .string _ _ | .number | .bigint | .template _ _ | .privateName _ => true
    | _ => false

/-- An increment or a decrement, or the operand alone. -/
def updateExpression (grammar : Grammar) : Reading Node := do
  let start ← position
  let sign? (kind : TokenKind) : Option String := match kind with
    | .mark .increment => some "++"
    | .mark .decrement => some "--"
    | _ => none
  match sign? (← tokenKind) with
  | some sign =>
    let _ ← advance
    let operand ← grammar .unary
    check (isSimpleTarget operand)
    node (.update sign true) start [operand]
  | none =>
    let operand ← grammar .leftHand
    let token ← token
    match sign? token.kind, token.afterNewline with
    | some sign, false =>
      check (isSimpleTarget operand)
      let _ ← advance
      node (.update sign false) start [operand]
    | _, _ => return operand

/-- An expression with a type in angle brackets in front of it. -/
def typeAssertion (grammar : Grammar) : Reading Node := do
  let start ← position
  expectMark .less
  if ← isWord .const_ then
    let _ ← advance
  else wholeType grammar
  expectAngleClose
  node (.typed .assertion) start [← grammar .unary]

/-- An operand with the operators in front of it. -/
def unaryExpression (grammar : Grammar) : Reading Node := do
  let start ← position
  let kind ← tokenKind
  match unaryOperator? kind with
  | some operator =>
    let _ ← advance
    node (.unary operator) start [← grammar .unary]
  | none =>
    if (← context).hasTypes && (← isMark .less) then typeAssertion grammar
    else if ← isPlainWord .await_ then
      if (← context).inAsync then
        let _ ← advance
        node .awaitExpression start [← grammar .unary]
      else
        check !(beginsKeywordOperand (← peek))
        updateExpression grammar
    else updateExpression grammar

/-! ## Operators between operands -/

/-- An operator between two operands. -/
structure InfixOperator where
  text : String
  level : Nat
  isLogical : Bool := false

/-- The infix operators written as punctuators, with their levels. -/
def markOperator? (mark : Mark) : Option InfixOperator :=
  let binary (level : Nat) : Option InfixOperator := some { text := mark.text, level }
  let logical (level : Nat) : Option InfixOperator :=
    some { text := mark.text, level, isLogical := true }
  match mark with
  | .coalesce => logical 1
  | .logicalOr => logical 2
  | .logicalAnd => logical 3
  | .bitOr => binary 4
  | .bitXor => binary 5
  | .bitAnd => binary 6
  | .equal | .notEqual | .same | .notSame => binary 7
  | .less | .greater | .lessEqual | .greaterEqual => binary 8
  | .shiftLeft | .shiftRight | .shiftRightZero => binary 9
  | .plus | .minus => binary 10
  | .star | .slash | .percent => binary 11
  | .power => binary 12
  | _ => none

/-- The infix operator at a token; `in` may be out of place. -/
def infixOperator? (allowIn : Bool) : TokenKind → Option InfixOperator
  | .mark mark => markOperator? mark
  | .word .instanceof_ name false => some { text := name, level := 8 }
  | .word .in_ name false => if allowIn then some { text := name, level := 8 } else none
  | _ => none

/-- Whether an operand may stand on the left of a power. -/
def mayBeRaised (operand : Node) : Bool :=
  match operand.kind with
  | .unary _ | .awaitExpression => false
  | .typed .assertion => false
  | _ => true

/-- Whether an operand mixes badly with an operator: `??` may not be combined
with the other logical operators without parentheses. -/
def mixesBadly (operator : InfixOperator) (operand : Node) : Bool :=
  operator.isLogical && match operand.kind with
    | .logical other => (operator.text = "??") != (other = "??")
    | _ => false

/-- A private name in front of `in`. -/
def privateOperand (grammar : Grammar) : Reading Node := do
  match ← tokenKind with
  | .privateName name =>
    check ((← context).allowIn && (← peek).kind matches .word .in_ _ false)
    simpleNode (.privateName name)
  | _ => grammar .unary

/-- Takes a type operator behind an operand, if there is one. -/
def typeOperator (grammar : Grammar) (level start : Nat) (operand : Node) :
    Reading (Option Node) := do
  let atOperator := (← isPlainWord .as_) || (← isPlainWord .satisfies_)
  if (← context).hasTypes && level < 8 && atOperator && !(← token).afterNewline then
    let _ ← advance
    if ← isWord .const_ then
      let _ ← advance
    else wholeType grammar
    return some (← node (.typed .assertion) start [operand])
  else return none

/-- One operator with its right operand, if it binds tighter than a level. -/
def operatorStep (grammar : Grammar) (level start : Nat) (left : Node) :
    Reading (Option Node) := do
  match ← typeOperator grammar level start left with
  | some node => return some node
  | none =>
    match infixOperator? (← context).allowIn (← tokenKind) with
    | none => return none
    | some operator =>
      let isPower := operator.text = "**"
      if operator.level < level || (operator.level = level && !isPower) then return none
      check !(isPower && !mayBeRaised left)
      let _ ← advance
      let right ← grammar (.operators operator.level)
      check !(mixesBadly operator left || mixesBadly operator right)
      let kind := if operator.isLogical then .logical operator.text else .binary operator.text
      return some (← node kind start [left, right])

/-- Operands with operators that bind tighter than a level between them. -/
def operators (grammar : Grammar) (level : Nat) : Reading Node := do
  let start ← position
  let first ← privateOperand grammar
  iterate (operatorStep grammar level start) first

/-! ## Assignments -/

/-- Assignment operators. -/
def assignmentOperator? : TokenKind → Option String
  | .mark mark =>
    match mark with
    | .assign | .plusAssign | .minusAssign | .starAssign | .slashAssign | .percentAssign
    | .powerAssign | .shiftLeftAssign | .shiftRightAssign | .shiftRightZeroAssign | .andAssign
    | .orAssign | .xorAssign | .logicalAndAssign | .logicalOrAssign | .coalesceAssign =>
      some mark.text
    | _ => none
  | _ => none

/-- A `yield` expression. -/
def yieldExpression (grammar : Grammar) : Reading Node := do
  let start ← position
  expectWord .yield_
  let token ← token
  let standsAlone := token.afterNewline || match token.kind with
    | .mark .parenClose | .mark .bracketClose | .mark .braceClose | .mark .comma | .mark .colon
    | .mark .semicolon | .finish => true
    | .word .in_ _ false | .word .of_ _ false => true
    | _ => false
  if standsAlone then node (.yieldExpression false) start [Node.missing]
  else
    let delegate ← eatMark .star
    node (.yieldExpression delegate) start [← grammar .assignment]

/-- The rest of a condition behind its test. -/
def conditionalRest (grammar : Grammar) (start : Nat) (test : Node) : Reading Node := do
  let whenTrue ← within (fun context => { nested context with allowArrowType := false })
    (grammar .assignment)
  expectMark .colon
  let whenFalse ← grammar .assignment
  node .conditional start [test, whenTrue, whenFalse]

/-- An assignment behind its left side. -/
def assignmentRest (grammar : Grammar) (start : Nat) (operator : String) (left : Node) :
    Reading Node := do
  let target? := if operator = "=" then toTarget? false left
    else if isSimpleTarget left then some left else none
  match target? with
  | some target =>
    let _ ← advance
    node (.assignment operator) start [target, ← grammar .assignment]
  | none => refuse

/-- Whether `yield` begins a `yield` expression here. -/
def atYield : Reading Bool := do
  if ← isPlainWord .yield_ then
    if (← context).inGenerator then return true
    check !(beginsKeywordOperand (← peek))
  return false

/-- An expression that is no list with commas. -/
def assignment (grammar : Grammar) : Reading Node := do
  if ← atYield then yieldExpression grammar
  else
    let arrow ← if ← mayBeginArrow then optional (arrowFunction grammar) else pure none
    match arrow with
    | some arrow => return arrow
    | none =>
      let start ← position
      let left ← within (fun context => { context with allowArrowType := true })
        (grammar (.operators 0))
      match assignmentOperator? (← tokenKind) with
      | some operator => assignmentRest grammar start operator left
      | none => if ← eatMark .question then conditionalRest grammar start left else return left

end WebBundle.Syntax.Grammar

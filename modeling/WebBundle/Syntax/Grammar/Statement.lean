import WebBundle.Syntax.Grammar.Module

/-!
# Statements

A statement ends with a semicolon, or where a line ends or a block closes if the
semicolon is left out.  Where only a single statement may stand, as behind
`if`, no block-scoped declaration is allowed.
-/

namespace WebBundle.Syntax.Grammar

open Reading

/-- A block of statements. -/
def block (grammar : Grammar) : Reading Node := do
  let start ← position
  expectMark .braceOpen
  let body ← statements grammar false
  expectMark .braceClose
  node .block start body

/-- A condition between parentheses. -/
def condition (grammar : Grammar) : Reading Node := do
  expectMark .parenOpen
  let test ← expression grammar
  expectMark .parenClose
  return test

/-- A statement that is part of another one. -/
def body (grammar : Grammar) : Reading Node := grammar (.statement true)

/-- An `if` statement. -/
def ifStatement (grammar : Grammar) : Reading Node := do
  let start ← position
  expectWord .if_
  let test ← condition grammar
  let whenTrue ← body grammar
  let whenFalse ← if ← eatWord .else_ then body grammar else pure Node.missing
  node .ifStatement start [test, whenTrue, whenFalse]

/-- A `while` statement. -/
def whileStatement (grammar : Grammar) : Reading Node := do
  let start ← position
  expectWord .while_
  let test ← condition grammar
  node .whileStatement start [test, ← body grammar]

/-- A `do` statement; the semicolon behind it may be left out anywhere. -/
def doWhile (grammar : Grammar) : Reading Node := do
  let start ← position
  expectWord .do_
  let inner ← body grammar
  expectWord .while_
  let test ← condition grammar
  let _ ← eatMark .semicolon
  node .doWhile start [inner, test]

/-! ## Loops -/

/-- Whether a `using` declaration begins at the current token. -/
def atUsing : Reading Bool := do
  let isBinding (token : Token) : Bool := !token.afterNewline && match token.kind with
    | .word word _ _ => !word.isReserved && word ≠ .of_
    | _ => false
  let next ← peek
  if ← isPlainWord .using_ then return isBinding next
  else if (← isPlainWord .await_) && (← context).inAsync && !next.afterNewline then
    return next.kind matches .word .using_ _ false && isBinding next.next
  else return false

/-- Whether a declaration stands in the head of a loop. -/
def atLoopDeclaration : Reading Bool := do
  match ← tokenKind with
  | .word .var_ _ false | .word .const_ _ false => return true
  | .word .let_ _ false =>
    match (← peek).kind with
    | .word .in_ _ _ => return false
    | .word .of_ _ _ =>
      match (← peek).next.kind with
      | .mark .assign | .mark .semicolon | .mark .comma | .word .in_ _ _ | .word .of_ _ _ =>
        return true
      | _ => return false
    | .word _ _ _ | .mark .braceOpen | .mark .bracketOpen => return true
    | _ => return false
  | _ => atUsing

/-- The rest of a loop with three parts in its head. -/
def forRest (grammar : Grammar) (start : Nat) (first : Node) : Reading Node := do
  expectMark .semicolon
  let test ← if ← isMark .semicolon then pure Node.missing else expression grammar
  expectMark .semicolon
  let update ← if ← isMark .parenClose then pure Node.missing else expression grammar
  expectMark .parenClose
  node .forStatement start [first, test, update, ← body grammar]

/-- The rest of a loop over a collection, if it is one. -/
def forEachRest (grammar : Grammar) (start : Nat) (isAwait : Bool) (target : Node) :
    Reading Node := do
  if ← isPlainWord .of_ then
    let _ ← advance
    let collection ← grammar .assignment
    expectMark .parenClose
    node (.forOf isAwait) start [target, collection, ← body grammar]
  else
    check !isAwait
    expectWord .in_
    let collection ← expression grammar
    expectMark .parenClose
    node .forIn start [target, collection, ← body grammar]

/-- Whether the head of a loop goes on with a collection. -/
def atCollection : Reading Bool := do return (← isPlainWord .in_) || (← isPlainWord .of_)

/-- A loop whose head begins with a declaration. -/
def forDeclaration (grammar : Grammar) (start : Nat) (isAwait : Bool) : Reading Node := do
  let declarationStart ← position
  let (kind, declarators) ← within (fun context => { context with allowIn := false })
    (variableList grammar)
  let declaration ← node (.variableDeclaration kind false) declarationStart declarators
  if ← atCollection then forEachRest grammar start isAwait declaration
  else
    check (!isAwait && declarators.all (hasNeededValue (← context) kind))
    forRest grammar start declaration

/-- A loop whose head begins with an expression. -/
def forExpression (grammar : Grammar) (start : Nat) (isAwait : Bool) : Reading Node := do
  let startsWithAsyncOf := (← isPlainWord .async_) && (← peek).kind matches .word .of_ _ _
  let startsWithLet := (← isPlainWord .let_) && (← peek).kind matches .word .of_ _ _
  let first ← within (fun context => { context with allowIn := false }) (expression grammar)
  if ← atCollection then
    check !(startsWithLet || (startsWithAsyncOf && !isAwait))
    match toTarget? false first with
    | some target => forEachRest grammar start isAwait target
    | none => refuse
  else
    check !isAwait
    forRest grammar start first

/-- A `for` statement. -/
def forStatement (grammar : Grammar) : Reading Node := do
  let start ← position
  expectWord .for_
  let isAwait ← if ← isPlainWord .await_ then
      check (← context).inAsync
      eatWord .await_
    else pure false
  expectMark .parenOpen
  if ← isMark .semicolon then
    check !isAwait
    forRest grammar start Node.missing
  else if ← atLoopDeclaration then forDeclaration grammar start isAwait
  else forExpression grammar start isAwait

/-! ## Jumps -/

/-- The label of a jump, if there is one on the same line. -/
def jumpLabel : Reading (Option String) := do
  let label ← if ← canEndStatement then pure none else pure (some (← identifier))
  endStatement
  return label

/-- A `break` or a `continue` statement. -/
def jump (word : Word) (kind : Option String → Kind) : Reading Node := do
  let start ← position
  expectWord word
  let label ← jumpLabel
  node (kind label) start []

/-- A `return` statement. -/
def returnStatement (grammar : Grammar) : Reading Node := do
  check (← context).inFunction
  let start ← position
  expectWord .return_
  let value ← if ← canEndStatement then pure Node.missing else expression grammar
  endStatement
  node .returnStatement start [value]

/-- A `throw` statement. -/
def throwStatement (grammar : Grammar) : Reading Node := do
  let start ← position
  expectWord .throw_
  check !(← token).afterNewline
  let value ← expression grammar
  endStatement
  node .throwStatement start [value]

/-! ## Other statements -/

/-- The handler of a `try` statement. -/
def catchClause (grammar : Grammar) : Reading Node := do
  let start ← position
  expectWord .catch_
  let parameter ← if ← eatMark .parenOpen then
      let pattern ← grammar .pattern
      typeAnnotation grammar
      expectMark .parenClose
      pure pattern
    else pure Node.missing
  node .catchClause start [parameter, ← block grammar]

/-- A `try` statement, which has a handler or a finalizer. -/
def tryStatement (grammar : Grammar) : Reading Node := do
  let start ← position
  expectWord .try_
  let guarded ← block grammar
  let handler ← if ← isPlainWord .catch_ then catchClause grammar else pure Node.missing
  let finalizer ← if ← eatWord .finally_ then block grammar else pure Node.missing
  check (handler.isPresent || finalizer.isPresent)
  node .tryStatement start [guarded, handler, finalizer]

/-- A case of a `switch` statement; the default case has no test. -/
def switchCase (grammar : Grammar) : Reading Node := do
  let start ← position
  let test ← if ← eatWord .default_ then pure Node.missing
    else
      expectWord .case_
      expression grammar
  expectMark .colon
  let body ← collect do
    match ← tokenKind with
    | .mark .braceClose | .finish | .word .case_ _ _ | .word .default_ _ _ => return none
    | _ => return some (← grammar (.statement false))
  node .switchCase start (test :: body)

/-- A `switch` statement. -/
def switchStatement (grammar : Grammar) : Reading Node := do
  let start ← position
  expectWord .switch_
  let discriminant ← condition grammar
  expectMark .braceOpen
  let cases ← collect do
    if ← isMark .braceClose then return none else return some (← switchCase grammar)
  expectMark .braceClose
  node .switchStatement start (discriminant :: cases)

/-- A `with` statement. -/
def withStatement (grammar : Grammar) : Reading Node := do
  let start ← position
  expectWord .with_
  let object ← condition grammar
  node .withStatement start [object, ← body grammar]

/-- A `debugger` statement. -/
def debuggerStatement : Reading Node := do
  let start ← position
  expectWord .debugger_
  endStatement
  node .debuggerStatement start []

/-- An empty statement. -/
def emptyStatement : Reading Node := do
  let start ← position
  expectMark .semicolon
  node .emptyStatement start []

/-- A statement that begins with an expression, or a label with its statement. -/
def expressionStatement (grammar : Grammar) : Reading Node := do
  let start ← position
  let expression ← expression grammar
  match expression.kind with
  | .reference name =>
    if ← eatMark .colon then node (.labeled name.text) start [← body grammar]
    else
      endStatement
      node .expressionStatement start [expression]
  | _ =>
    endStatement
    node .expressionStatement start [expression]

/-- What begins with the word `let`: a declaration, or an expression with a
variable of that name. -/
def letStatement (grammar : Grammar) (single : Bool) : Reading Node := do
  let next ← peek
  let isExpression := (assignmentOperator? next.kind).isSome ||
    (match infixOperator? true next.kind with
      | some operator => !operator.isLogical
      | none => false) ||
    (match next.kind with
      | .mark .dot | .mark .parenOpen | .mark .semicolon => true
      | .mark .bracketOpen => false
      | _ => single)
  if isExpression then expressionStatement grammar
  else
    check !single
    variableDeclaration grammar

/-- A function as a statement; a single statement is a plain function. -/
def functionStatement (grammar : Grammar) (single : Bool) : Reading Node := do
  let function ← functionDeclaration grammar
  match function.kind with
  | .function _ false false => return function
  | _ =>
    check !single
    return function

/-- A class or an export behind decorators. -/
def decoratedStatement (grammar : Grammar) (single : Bool) : Reading Node := do
  let start ← position
  let decorators ← decorators grammar
  if ← isPlainWord .export_ then exportDeclaration grammar (some decorators)
  else
    check !single
    let isAbstract ← if (← context).hasTypes then eatWord .abstract_ else pure false
    classRest grammar .declaration { isAbstract } start decorators

/-- A statement that begins with a keyword or a word like one, or with an
expression. -/
def wordStatement (grammar : Grammar) (single : Bool) (word : Word) : Reading Node := do
  match word with
  | .if_ => ifStatement grammar
  | .do_ => doWhile grammar
  | .while_ => whileStatement grammar
  | .for_ => forStatement grammar
  | .continue_ => jump .continue_ .continueStatement
  | .break_ => jump .break_ .breakStatement
  | .return_ => returnStatement grammar
  | .with_ => withStatement grammar
  | .switch_ => switchStatement grammar
  | .throw_ => throwStatement grammar
  | .try_ => tryStatement grammar
  | .debugger_ => debuggerStatement
  | .function_ => functionStatement grammar single
  | .class_ =>
    check !single
    classDefinition grammar .declaration {}
  | .import_ =>
    match (← peek).kind with
    | .mark .dot | .mark .parenOpen => expressionStatement grammar
    | _ => importDeclaration false
  | .export_ => exportDeclaration grammar none
  | .var_ => variableDeclaration grammar
  | .const_ =>
    check !single
    variableDeclaration grammar
  | .let_ => letStatement grammar single
  | .async_ =>
    if ← atAsyncFunction then functionStatement grammar single else expressionStatement grammar
  | _ =>
    if ← atUsing then
      check !single
      variableDeclaration grammar
    else expressionStatement grammar

/-- A statement. -/
def statement (grammar : Grammar) (single : Bool) : Reading Node := do
  if ← atTypedDeclaration then maybeDeclared grammar
  else
    match ← tokenKind with
    | .mark .braceOpen => block grammar
    | .mark .semicolon => emptyStatement
    | .mark .atSign => decoratedStatement grammar single
    | .word word _ false => wordStatement grammar single word
    | _ => expressionStatement grammar

end WebBundle.Syntax.Grammar

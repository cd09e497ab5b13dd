import WebBundle.Syntax.Grammar.Pattern

/-!
# Functions

A function has parameters and a body.  Inside of it `await` and `yield` are
keywords according to its own form and not to what surrounds it.
-/

namespace WebBundle.Syntax.Grammar

open Reading

/-- The context of the parameters and the body of a function. -/
def insideFunction (isAsync isGenerator : Bool) (context : Context) : Context :=
  { context with
    allowIn := true
    inAsync := isAsync
    inGenerator := isGenerator
    inFunction := true
    inDecorator := false
    allowArrowType := true }

/-- The string at the start of a directive, without its quotes. -/
def directiveText (token : Token) : List Char := (token.spelling.drop 1).dropLast

/-- Statements up to one of the ends of a block.  String literals in front of
all other statements are directives, if any are expected. -/
def statements (grammar : Grammar) (expectDirectives : Bool) : Reading (List Node) := do
  let list ← collect do
    match ← tokenKind with
    | .finish | .mark .braceClose => return none
    | .string _ _ =>
      let token ← token
      let statement ← grammar (.statement false)
      return some (statement, some token)
    | _ => return some (← grammar (.statement false), none)
  return if expectDirectives then withDirectives list else list.map Prod.fst
where
  /-- Turns the leading string statements into directives. -/
  withDirectives : List (Node × Option Token) → List Node
    | (⟨.expressionStatement, span, [⟨.stringLiteral _ _, _, _⟩]⟩, some token) :: rest =>
      ⟨.directive (directiveText token), span, []⟩ :: withDirectives rest
    | list => list.map Prod.fst

/-- The body of a function. -/
def functionBody (grammar : Grammar) : Reading Node := do
  let start ← position
  expectMark .braceOpen
  let body ← statements grammar true
  expectMark .braceClose
  node .functionBody start body

/-- The parameters, the result type and the body of a function.  Where types
may be written, a function may be declared without a body. -/
def functionRest (grammar : Grammar) (role : Role) (isAsync isGenerator : Bool) (start : Nat)
    (name : Node) : Reading Node := do
  let (parameters, body) ← within (insideFunction isAsync isGenerator) do
    typeParameters grammar
    let parameters ← parameters grammar
    typeAnnotation grammar
    if ← isMark .braceOpen then return (parameters, ← functionBody grammar)
    else
      check ((← context).hasTypes && role ≠ .expression)
      endStatement
      return (parameters, Node.missing)
  node (.function role isAsync isGenerator) start [name, parameters, body]

/-- A function that begins with the word `function`, perhaps behind `async`. -/
def functionExpression (grammar : Grammar) (role : Role) : Reading Node := do
  let start ← position
  let isAsync ← eatWord .async_
  expectWord .function_
  let isGenerator ← eatMark .star
  let inside (context : Context) := match role with
    | .declaration => context
    | _ => { context with inAsync := isAsync, inGenerator := isGenerator }
  let name ← within inside do
    if ← atIdentifier then bindingName else pure Node.missing
  functionRest grammar role isAsync isGenerator start name

/-- The function of a method, which begins at its parameters. -/
def methodFunction (grammar : Grammar) (isAsync isGenerator : Bool) : Reading Node := do
  functionRest grammar .member isAsync isGenerator (← position) Node.missing

/-! ## Arrow functions -/

/-- The arrow, which must stand on the line of what is in front of it. -/
def expectArrow : Reading Unit := do
  check !(← token).afterNewline
  expectMark .arrow

/-- The arrow and the body of an arrow function. -/
def arrowRest (grammar : Grammar) (isAsync : Bool) (start : Nat) (parameters : Node) :
    Reading Node := do
  expectArrow
  let inside (context : Context) :=
    { context with inAsync := isAsync, inGenerator := false, inDecorator := false }
  if ← isMark .braceOpen then
    let body ← within (fun context => { inside context with
      allowIn := true, inFunction := true, allowArrowType := true }) (functionBody grammar)
    node (.arrow isAsync false) start [parameters, body]
  else
    let body ← within inside (grammar .assignment)
    node (.arrow isAsync true) start [parameters, body]

/-- A single parameter without parentheses. -/
def simpleParameters : Reading Node := do
  let start ← position
  let name ← bindingName
  let parameter ← node (.parameter {}) start [⟨.list, ⟨start, start⟩, []⟩, name]
  node .parameters start [parameter]

/-- Takes the word `async` if it can stand in front of an arrow function. -/
def eatArrowAsync : Reading Bool := do
  if (← isPlainWord .async_) && !(← peek).afterNewline then eatWord .async_ else return false

/-- An arrow function with parameters in parentheses.  On the true side of a
condition it may only give the type of its result if the condition goes on
behind it. -/
def parenthesizedArrow (grammar : Grammar) : Reading Node := do
  let start ← position
  let isAsync ← eatArrowAsync
  let parameters ← within (fun context => { context with
      inAsync := context.inAsync || isAsync, inDecorator := false, allowArrowType := true }) do
    typeParameters grammar
    parameters grammar
  let hasResultType := (← context).hasTypes && (← isMark .colon)
  typeAnnotation grammar
  let arrow ← arrowRest grammar isAsync start parameters
  if hasResultType && !(← context).allowArrowType then check (← isMark .colon)
  return arrow

/-- An asynchronous arrow function with one parameter without parentheses. -/
def simpleAsyncArrow (grammar : Grammar) : Reading Node := do
  let start ← position
  check (← eatArrowAsync)
  let parameters ← within (fun context => { context with inAsync := true }) simpleParameters
  arrowRest grammar true start parameters

/-- An arrow function with one parameter without parentheses. -/
def simpleArrow (grammar : Grammar) : Reading Node := do
  let start ← position
  let parameters ← simpleParameters
  arrowRest grammar false start parameters

/-- Whether an arrow function may begin at the current token. -/
def mayBeginArrow : Reading Bool := do
  match (← tokenKind), (← peek).kind with
  | .mark .parenOpen, _ => return true
  | .mark .less, _ => return (← context).hasTypes
  | .word .async_ _ false, .mark .parenOpen => return true
  | .word .async_ _ false, .mark .less => return (← context).hasTypes
  | .word .async_ _ false, .word _ _ _ => return true
  | .word _ _ _, .mark .arrow => return true
  | _, _ => return false

/-- An arrow function. -/
def arrowFunction (grammar : Grammar) : Reading Node :=
  orElse (parenthesizedArrow grammar) (orElse (simpleArrow grammar) (simpleAsyncArrow grammar))

end WebBundle.Syntax.Grammar

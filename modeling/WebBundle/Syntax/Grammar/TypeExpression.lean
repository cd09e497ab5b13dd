import WebBundle.Syntax.Grammar.Name

/-!
# Types

Types are read to find out where they end; nothing of them is kept.  A closing
angle bracket may be the start of a longer punctuator and is then taken off its
front.
-/

namespace WebBundle.Syntax.Grammar

open Reading

/-- A node for something that only types know. -/
def erasedFrom (start : Nat) : Reading Node := node .erased start []

/-- Whether the current token begins with a closing angle bracket. -/
def atAngleClose : Reading Bool := do
  return ((← token).asSingle? '>' .greater).isSome

/-- Takes a closing angle bracket off the front of the current token. -/
def expectAngleClose : Reading Unit := do
  match (← token).asSingle? '>' .greater with
  | some single =>
    setToken single
    let _ ← advance
  | none => refuse

/-- Takes an opening angle bracket off the front of the current token. -/
def expectAngleOpen : Reading Unit := do
  match (← token).asSingle? '<' .less with
  | some single =>
    setToken single
    let _ ← advance
  | none => refuse

/-- Items between angle brackets. -/
def angleList (item : Reading Unit) : Reading Unit := do
  expectAngleOpen
  let _ ← collect do
    if ← atAngleClose then return none
    item
    if !(← atAngleClose) then expectMark .comma
    return some ()
  expectAngleClose

/-- A type, of which nothing is kept. -/
def anyType (grammar : Grammar) : Reading Unit := do
  let _ ← grammar .type

/-- A type in which a condition may stand. -/
def wholeType (grammar : Grammar) : Reading Unit :=
  within (fun context => { context with allowConditionalType := true }) (anyType grammar)

/-- The arguments of a generic. -/
def typeArguments (grammar : Grammar) : Reading Unit := angleList (wholeType grammar)

/-- One parameter of a generic. -/
def typeParameter (grammar : Grammar) : Reading Unit := do
  let _ ← collect do
    let isModifier := (← isWord .const_) || (← isWord .in_) || (← isWord .out_)
    let next ← peek
    match isModifier, next.kind with
    | true, .word .extends_ _ _ =>
      if ← isWord .out_ then return none
      let _ ← advance
      return some ()
    | true, .word _ _ _ =>
      let _ ← advance
      return some ()
    | _, _ => return none
  let _ ← anyWord
  if ← eatWord .extends_ then wholeType grammar
  if ← eatMark .assign then wholeType grammar

/-- The parameters of a generic, if there are any. -/
def typeParameters (grammar : Grammar) : Reading Unit := do
  if (← context).hasTypes && (← isMark .less) then angleList (typeParameter grammar)

/-- The type behind a colon, if there is one. -/
def typeAnnotation (grammar : Grammar) : Reading Unit := do
  if (← context).hasTypes then
    if ← eatMark .colon then wholeType grammar

/-- Names separated by points. -/
def entityName : Reading Unit := do
  let _ ← anyWord
  let _ ← collect do
    if ← eatMark .dot then
      let _ ← anyWord
      return some ()
    else return none

/-- Arguments of a generic on the same line, if there are any. -/
def trailingTypeArguments (grammar : Grammar) : Reading Unit := do
  let token ← token
  if !token.afterNewline && (token.asSingle? '<' .less).isSome then typeArguments grammar

/-- The end of a member of an object type. -/
def endTypeMember : Reading Unit := do
  if ← eatMark .comma then return ()
  endStatement

/-- An index signature. -/
def indexSignature (grammar : Grammar) : Reading Unit := do
  expectMark .bracketOpen
  let _ ← anyWord
  expectMark .colon
  wholeType grammar
  expectMark .bracketClose
  typeAnnotation grammar

/-- A parameter of a function type. -/
def functionTypeParameter (grammar : Grammar) : Reading Unit := do
  let _ ← eatMark .ellipsis
  if ← isWord .this_ then
    let _ ← advance
  else
    let _ ← grammar .pattern
  let _ ← eatMark .question
  typeAnnotation grammar

/-- The parameters and the result of a function type or of a signature. -/
def signature (grammar : Grammar) : Reading Unit := do
  typeParameters grammar
  expectMark .parenOpen
  let _ ← commaList .parenClose (functionTypeParameter grammar)
  expectMark .parenClose
  typeAnnotation grammar

/-- Whether the current word is a modifier of the member behind it. -/
def isMemberModifier (word : Word) : Reading Bool := do
  if ← isWord word then
    let next ← peek
    return beginsKey next && !next.afterNewline
  else return false

/-- A member of an object type. -/
def typeMember (grammar : Grammar) : Reading Unit := do
  let constructs ← isWord .new_
  let next ← peek
  if (← isMark .parenOpen) || (← isMark .less) then signature grammar
  else if constructs && (next.kind = .mark .parenOpen || next.kind = .mark .less) then
    let _ ← advance
    signature grammar
  else
    if ← isMemberModifier .readonly_ then
      let _ ← advance
    match ← optional (indexSignature grammar) with
    | some _ => pure ()
    | none =>
      if (← isMemberModifier .get_) || (← isMemberModifier .set_) then
        let _ ← advance
      let _ ← propertyKey grammar
      let _ ← eatMark .question
      if (← isMark .parenOpen) || (← isMark .less) then signature grammar
      else typeAnnotation grammar
  endTypeMember

/-- A sign in front of a modifier of a mapped type. -/
def mappedSign : Reading Unit := do
  if ← eatMark .plus then return ()
  let _ ← eatMark .minus

/-- The inside of a mapped type. -/
def mappedType (grammar : Grammar) : Reading Unit := do
  mappedSign
  let _ ← eatWord .readonly_
  expectMark .bracketOpen
  let _ ← anyWord
  expectWord .in_
  wholeType grammar
  if ← eatWord .as_ then wholeType grammar
  expectMark .bracketClose
  mappedSign
  let _ ← eatMark .question
  typeAnnotation grammar
  let _ ← eatMark .semicolon
  check (← isMark .braceClose)

/-- An object type or a mapped type. -/
def objectType (grammar : Grammar) : Reading Unit := do
  expectMark .braceOpen
  match ← optional (mappedType grammar) with
  | some _ => pure ()
  | none =>
    let _ ← collect do
      if ← isMark .braceClose then return none
      typeMember grammar
      return some ()
  expectMark .braceClose

/-- An element of a tuple type. -/
def tupleElement (grammar : Grammar) : Reading Unit := do
  let _ ← eatMark .ellipsis
  let labeled : Reading Unit := do
    let _ ← anyWord
    let _ ← eatMark .question
    expectMark .colon
    wholeType grammar
  orElse labeled do
    wholeType grammar
    let _ ← eatMark .question

/-- Takes a part of a template and tells whether it is the last one. -/
def templatePart : Reading (Quasi × Bool) := do
  match ← tokenKind with
  | .template quasi isLast =>
    let _ ← advance
    return (quasi, isLast)
  | _ => refuse

/-- Reads the closing brace of a substitution again as a part of the template. -/
def templateContinuation : Reading (Quasi × Bool) := do
  match (← token).asTemplate? with
  | some part =>
    setToken part
    templatePart
  | none => refuse

/-- A template literal type. -/
def templateType (grammar : Grammar) : Reading Unit := do
  let (_, isLast) ← templatePart
  let _ ← iterate (fun (isLast : Bool) => do
    if isLast then return none
    wholeType grammar
    let (_, isLast) ← templateContinuation
    return some isLast) isLast

/-- An import type. -/
def importType (grammar : Grammar) : Reading Unit := do
  expectWord .import_
  expectMark .parenOpen
  wholeType grammar
  if ← eatMark .comma then
    if !(← isMark .parenClose) then
      let _ ← grammar .assignment
      let _ ← eatMark .comma
  expectMark .parenClose
  if ← eatMark .dot then entityName
  trailingTypeArguments grammar

/-- Names of types that take no arguments. -/
def simpleTypeNames : List String :=
  ["any", "unknown", "never", "undefined", "boolean", "number", "bigint", "string", "symbol",
   "object"]

/-- A type that begins with a word. -/
def wordType (grammar : Grammar) (word : Word) (name : String) : Reading Unit := do
  match word with
  | .typeof_ =>
    let _ ← advance
    if ← isWord .import_ then importType grammar
    else
      entityName
      trailingTypeArguments grammar
  | .import_ => importType grammar
  | .asserts_ =>
    let next ← peek
    match next.kind, next.afterNewline with
    | .word .is_ _ _, _ => entityName
    | .word _ _ _, false =>
      let _ ← advance
      let _ ← anyWord
      if ← eatWord .is_ then wholeType grammar
    | _, _ =>
      entityName
      trailingTypeArguments grammar
  | .void_ | .null_ | .true_ | .false_ =>
    let _ ← advance
  | .this_ =>
    let _ ← advance
    let token ← token
    if !token.afterNewline then
      if ← eatWord .is_ then wholeType grammar
  | _ =>
    check (!word.isReserved)
    let isSimple := simpleTypeNames.contains name && (← peek).kind ≠ .mark .dot
    entityName
    let token ← token
    if !token.afterNewline && (← isWord .is_) then
      let _ ← advance
      wholeType grammar
    else if !isSimple then trailingTypeArguments grammar

/-- A type without operators. -/
def primaryType (grammar : Grammar) : Reading Unit := do
  match ← tokenKind with
  | .word word name _ => wordType grammar word name
  | .string _ _ | .number | .bigint =>
    let _ ← advance
  | .template _ _ => templateType grammar
  | .mark .minus =>
    let _ ← advance
    match ← tokenKind with
    | .number | .bigint =>
      let _ ← advance
    | _ => refuse
  | .mark .parenOpen =>
    let _ ← advance
    wholeType grammar
    expectMark .parenClose
  | .mark .bracketOpen =>
    let _ ← advance
    let _ ← commaList .bracketClose (tupleElement grammar)
    expectMark .bracketClose
  | .mark .braceOpen => objectType grammar
  | _ => refuse

/-- A type with array brackets and index accesses behind it. -/
def postfixType (grammar : Grammar) : Reading Unit := do
  primaryType grammar
  let _ ← collect do
    if (← isMark .bracketOpen) && !(← token).afterNewline then
      let _ ← advance
      if !(← isMark .bracketClose) then wholeType grammar
      expectMark .bracketClose
      return some ()
    else return none

/-- Whether a token can begin a type behind a type operator. -/
def beginsOperand (token : Token) : Bool :=
  match token.kind with
  | .word .extends_ _ _ | .word .is_ _ _ => false
  | .word _ _ _ | .string _ _ | .number | .template _ _ => true
  | .mark .parenOpen | .mark .bracketOpen | .mark .braceOpen => true
  | _ => false

/-- A type with operators in front of it. -/
def operatorType (grammar : Grammar) : Reading Unit := do
  let _ ← collect do
    let isOperator := (← isWord .keyof_) || (← isWord .unique_) || (← isWord .readonly_)
    if isOperator && beginsOperand (← peek) then
      let _ ← advance
      return some ()
    else return none
  if (← isWord .infer_) && beginsOperand (← peek) then
    let _ ← advance
    let _ ← anyWord
    let inferredBound : Reading Unit := do
      expectWord .extends_
      within (fun context => { context with allowConditionalType := false }) (anyType grammar)
      check (!(← context).allowConditionalType || !(← isMark .question))
    let _ ← optional inferredBound
  else postfixType grammar

/-- Types joined by a punctuator, which may also stand in front of the first. -/
def joinedTypes (mark : Mark) (operand : Reading Unit) : Reading Unit := do
  let _ ← eatMark mark
  operand
  let _ ← collect do
    if ← eatMark mark then
      operand
      return some ()
    else return none

/-- A function type or a constructor type. -/
def functionType (grammar : Grammar) : Reading Unit := do
  let next ← peek
  match (← tokenKind), next.kind with
  | .word .abstract_ _ _, .word .new_ _ _ =>
    let _ ← advance
  | _, _ => pure ()
  let _ ← eatWord .new_
  typeParameters grammar
  expectMark .parenOpen
  let _ ← commaList .parenClose (functionTypeParameter grammar)
  expectMark .parenClose
  expectMark .arrow
  anyType grammar

/-- A type. -/
def typeExpression (grammar : Grammar) : Reading Node := do
  let start ← position
  match ← optional (functionType grammar) with
  | some _ => pure ()
  | none =>
    joinedTypes .bitOr (joinedTypes .bitAnd (operatorType grammar))
    if (← context).allowConditionalType && !(← token).afterNewline && (← isWord .extends_) then
      let _ ← advance
      within (fun context => { context with allowConditionalType := false }) (anyType grammar)
      expectMark .question
      wholeType grammar
      expectMark .colon
      wholeType grammar
  erasedFrom start

/-- Whether a token can follow type arguments inside an expression. -/
def canFollowTypeArguments (token : Token) : Bool :=
  match token.kind with
  | .mark .parenOpen | .template _ _ => true
  | .mark .less | .mark .greater | .mark .plus | .mark .minus => false
  | .mark mark =>
    match mark with
    | .braceOpen | .bracketOpen | .not | .bitNot | .increment | .decrement | .slash
    | .slashAssign | .atSign => token.afterNewline
    | _ => true
  | .word word _ _ => token.afterNewline || word = .as_ || word = .satisfies_ || word = .in_ ||
      word = .instanceof_
  | .finish => true
  | _ => token.afterNewline

/-- Type arguments inside an expression. -/
def expressionTypeArguments (grammar : Grammar) : Reading Unit := do
  typeArguments grammar
  check (canFollowTypeArguments (← token))

end WebBundle.Syntax.Grammar

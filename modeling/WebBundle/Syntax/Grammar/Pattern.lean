import WebBundle.Syntax.Grammar.TypeExpression

/-!
# Patterns and parameters

A binding is a name, or a pattern of bindings with defaults and a rest at its
end.  An expression on the left of an assignment is read as an expression first
and becomes a pattern when the assignment is seen.
-/

namespace WebBundle.Syntax.Grammar

open Reading

/-- An assignment expression in which `in` is an operator. -/
def valueExpression (grammar : Grammar) : Reading Node :=
  within (fun context => { context with allowIn := true, inDecorator := false })
    (grammar .assignment)

/-- A pattern with its default, if it has one. -/
def bindingElement (grammar : Grammar) : Reading Node := do
  let start ← position
  let pattern ← grammar .pattern
  if (← context).hasTypes then
    let _ ← eatMark .question
  typeAnnotation grammar
  if ← eatMark .assign then node .defaulted start [pattern, ← valueExpression grammar]
  else return pattern

/-- A rest, which must be the last part of its pattern. -/
def bindingRest (grammar : Grammar) (close : Mark) : Reading Node := do
  let start ← position
  expectMark .ellipsis
  let pattern ← grammar .pattern
  let rest ← node .rest start [pattern]
  typeAnnotation grammar
  check (← isMark close)
  return rest

/-- An element of an array pattern. -/
def arrayPatternElement (grammar : Grammar) : Reading Node := do
  if (← isMark .comma) then
    let start ← position
    node .hole start []
  else if ← isMark .ellipsis then bindingRest grammar .bracketClose
  else bindingElement grammar

/-- A property of an object pattern. -/
def objectPatternProperty (grammar : Grammar) : Reading Node := do
  let start ← position
  if ← isMark .ellipsis then bindingRest grammar .braceClose
  else
    let next ← peek
    let isShorthand := (← atIdentifier) && (match next.kind with
      | .mark .comma | .mark .braceClose | .mark .assign => true
      | _ => false)
    if isShorthand then
      let key ← looking
      let name ← bindingName
      let value ← if ← eatMark .assign then
          node .defaulted start [name, ← valueExpression grammar]
        else pure name
      node (.patternProperty true false) start [key, value]
    else
      let (key, computed) ← propertyKey grammar
      check (match key.kind with
        | .privateName _ => computed
        | _ => true)
      expectMark .colon
      let value ← bindingElement grammar
      node (.patternProperty false computed) start [key, value]
where
  /-- The current word as a key; it is not taken. -/
  looking : Reading Node := do
    let token ← token
    match token.kind with
    | .word _ name _ => return ⟨.propertyName name, token.span, []⟩
    | _ => refuse

/-- A binding: a name or a pattern. -/
def bindingPattern (grammar : Grammar) : Reading Node := do
  let start ← position
  if ← eatMark .bracketOpen then
    let elements ← commaList .bracketClose (arrayPatternElement grammar)
    expectMark .bracketClose
    node .arrayPattern start elements
  else if ← eatMark .braceOpen then
    let properties ← commaList .braceClose (objectPatternProperty grammar)
    expectMark .braceClose
    node .objectPattern start properties
  else bindingName

/-- A decorator. -/
def decorator (grammar : Grammar) : Reading Node := do
  let start ← position
  expectMark .atSign
  let expression ← within (fun context => { context with inDecorator := true }) (grammar .leftHand)
  node .decorator start [expression]

/-- The decorators in front of something. -/
def decorators (grammar : Grammar) : Reading Node := do
  let start ← position
  let found ← collect do
    if ← isMark .atSign then return some (← decorator grammar) else return none
  let stop := (← progress).lastStop
  return ⟨.list, ⟨start, if found.isEmpty then start else stop⟩, found⟩

/-- Words in front of a parameter that make it a field of the class. -/
def parameterModifiers : Reading Modifiers := do
  if !(← context).hasTypes then return {}
  let found ← collect do
    match (← tokenKind), (← peek).kind with
    | .word word _ _, next =>
      let isModifier := word = .public_ || word = .private_ || word = .protected_ ||
        word = .readonly_ || word = .override_
      let continues := match next with
        | .word _ _ _ | .mark .braceOpen | .mark .bracketOpen => true
        | _ => false
      if isModifier && continues then
        let _ ← advance
        return some ()
      else return none
    | _, _ => return none
  return { isParameterField := !found.isEmpty }

/-- A parameter; one for `this` is only a type. -/
def parameter (grammar : Grammar) : Reading Node := do
  if ← isMark .ellipsis then bindingRest grammar .parenClose
  else
    let start ← position
    let decorators ← decorators grammar
    let modifiers ← parameterModifiers
    if (← context).hasTypes && (← isWord .this_) then
      let _ ← advance
      typeAnnotation grammar
      return Node.missing
    let patternStart ← position
    let pattern ← grammar .pattern
    if (← context).hasTypes then
      let _ ← eatMark .question
    typeAnnotation grammar
    let value ← if ← eatMark .assign then
        node .defaulted patternStart [pattern, ← valueExpression grammar]
      else pure pattern
    node (.parameter modifiers) start [decorators, value]

/-- The parameters of a function. -/
def parameters (grammar : Grammar) : Reading Node := do
  let start ← position
  expectMark .parenOpen
  let items ← commaList .parenClose (within (fun context => { context with allowIn := true })
    (parameter grammar))
  expectMark .parenClose
  node .parameters start (items.filter Node.isPresent)

/-! ## Assignment targets -/

/-- Whether an expression may be assigned to as it is.  A type given to a
target makes no difference. -/
def isSimpleTarget : Node → Bool
  | ⟨.reference _, _, _⟩ => true
  | ⟨.staticMember _ _, _, _⟩ => true
  | ⟨.computedMember _, _, _⟩ => true
  | ⟨.privateMember _ _, _, _⟩ => true
  | ⟨.parenthesized, _, [inner]⟩ => isSimpleTarget inner
  | ⟨.typed form, _, [inner]⟩ => form ≠ .instantiation && isSimpleTarget inner
  | _ => false

/-- Whether a list ends with a spread and a comma behind it, which no pattern may. -/
def endsWithSpreadComma (trailingComma : Bool) (elements : List Node) : Bool :=
  trailingComma && match elements.getLast? with
    | some ⟨.spread, _, _⟩ => true
    | _ => false

mutual

/-- The pattern that an expression on the left of an assignment stands for; an
element of a pattern may have a default and may be left out. -/
def toTarget? (isElement : Bool) : Node → Option Node
  | ⟨.arrayLiteral trailingComma, span, elements⟩ =>
    if endsWithSpreadComma trailingComma elements then none
    else (toElements? elements).map (⟨.arrayPattern, span, ·⟩)
  | ⟨.objectLiteral trailingComma, span, properties⟩ =>
    if endsWithSpreadComma trailingComma properties then none
    else (toProperties? properties).map (⟨.objectPattern, span, ·⟩)
  | ⟨.assignment operator, span, [target, value]⟩ =>
    if isElement && operator = "=" then some ⟨.defaulted, span, [target, value]⟩ else none
  | ⟨.hole, span, children⟩ => if isElement then some ⟨.hole, span, children⟩ else none
  | node => if isSimpleTarget node then some node else none

/-- The targets of the elements of an array; only the last may be a rest. -/
def toElements? : List Node → Option (List Node)
  | [] => some []
  | [⟨.spread, span, [inner]⟩] => (toTarget? false inner).map fun target => [⟨.rest, span, [target]⟩]
  | element :: rest =>
    match toTarget? true element, toElements? rest with
    | some element, some rest => some (element :: rest)
    | _, _ => none

/-- The targets of the properties of an object; only the last may be a rest. -/
def toProperties? : List Node → Option (List Node)
  | [] => some []
  | [⟨.spread, span, [inner]⟩] =>
    if isSimpleTarget inner then some [⟨.rest, span, [inner]⟩] else none
  | ⟨.property shorthand computed, span, [key, value]⟩ :: rest =>
    let target := match shorthand, value with
      | true, ⟨.defaulted, _, _⟩ => some value
      | _, _ => toTarget? true value
    match target, toProperties? rest with
    | some target, some rest =>
      some (⟨.patternProperty shorthand computed, span, [key, target]⟩ :: rest)
    | _, _ => none
  | _ :: _ => none

end

end WebBundle.Syntax.Grammar

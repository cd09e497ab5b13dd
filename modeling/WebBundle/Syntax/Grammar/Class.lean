import WebBundle.Syntax.Grammar.Function

/-!
# Classes

A class has a superclass and members: methods, accessors, fields and static
blocks.  Words in front of a member's key modify the member unless they are the
key themselves.
-/

namespace WebBundle.Syntax.Grammar

open Reading

/-- Whether a token can stand behind a modifier. -/
def canFollowModifier (token : Token) : Bool :=
  beginsKey token || token.kind = .mark .star

/-- Words that modify a member of a class; most of them are known to types only. -/
def isMemberModifierWord (hasTypes : Bool) : Word → Bool
  | .static_ | .accessor_ => true
  | .public_ | .private_ | .protected_ | .abstract_ | .override_ | .readonly_ | .declare_ => hasTypes
  | _ => false

/-- Takes the modifiers of a member and tells whether the member is an
automatic accessor. -/
def memberModifiers : Reading (Modifiers × Bool) := do
  let words ← collect do
    match ← tokenKind with
    | .word word _ false =>
      let next ← peek
      let modifies := isMemberModifierWord (← context).hasTypes word && canFollowModifier next &&
        (word = .static_ || !next.afterNewline)
      if modifies then
        let _ ← advance
        return some word
      else return none
    | _ => return none
  return ({ isStatic := words.contains .static_
            isAbstract := words.contains .abstract_
            isDeclared := words.contains .declare_ }, words.contains .accessor_)

/-- What stands in front of the key of a method. -/
structure MethodStart where
  form : MemberForm := .method
  isAsync : Bool := false
  isGenerator : Bool := false

/-- Takes `async`, `get`, `set` and a star in front of the key of a method. -/
def methodStart : Reading MethodStart := do
  let next ← peek
  match ← tokenKind with
  | .word .async_ _ false =>
    if canFollowModifier next && !next.afterNewline then
      let _ ← advance
      return { isAsync := true, isGenerator := ← eatMark .star }
    else return {}
  | .word .get_ _ false =>
    if beginsKey next then
      let _ ← advance
      return { form := .getter }
    else return {}
  | .word .set_ _ false =>
    if beginsKey next then
      let _ ← advance
      return { form := .setter }
    else return {}
  | .mark .star =>
    let _ ← advance
    return { isGenerator := true }
  | _ => return {}

/-- Whether something in front of the key makes a member a method for certain. -/
def MethodStart.isMarked (start : MethodStart) : Bool :=
  start.form ≠ .method || start.isAsync || start.isGenerator

/-- Whether a key that is not computed has a given name. -/
def keyIs (name : String) (computed : Bool) (key : Node) : Bool :=
  !computed && match key.kind with
    | .propertyName found => found = name
    | .stringLiteral found _ => found = name
    | _ => false

/-- Whether a key is a private name. -/
def isPrivateKey (name : String) (computed : Bool) (key : Node) : Bool :=
  !computed && match key.kind with
    | .privateName found => found = name
    | _ => false

/-- A block of statements that runs when the class is defined. -/
def staticBlock (grammar : Grammar) : Reading Node := do
  let start ← position
  expectWord .static_
  expectMark .braceOpen
  let body ← within (fun context => { context with
      allowIn := true, inAsync := true, inGenerator := false, inFunction := false })
    (statements grammar false)
  expectMark .braceClose
  node .staticBlock start body

/-- The value of a field and the end of the member. -/
def fieldRest (grammar : Grammar) : Reading Node := do
  if (← context).hasTypes then
    if !(← eatMark .question) then
      let _ ← eatMark .not
  typeAnnotation grammar
  let value ← if ← eatMark .assign then valueExpression grammar else pure Node.missing
  endStatement
  return value

/-- A method behind its key. -/
def methodRest (grammar : Grammar) (start : Nat) (decorators : Node) (modifiers : Modifiers)
    (head : MethodStart) (key : Node) (computed : Bool) : Reading Node := do
  let isConstructor := !modifiers.isStatic && keyIs "constructor" computed key
  check !(isConstructor && head.isMarked)
  check !(modifiers.isStatic && keyIs "prototype" computed key)
  let function ← methodFunction grammar head.isAsync head.isGenerator
  let form := if isConstructor then .constructor else head.form
  node (.method form computed modifiers) start [decorators, key, function]

/-- A member of a class. -/
def classMember (grammar : Grammar) : Reading Node := do
  let start ← position
  let decorators ← decorators grammar
  if (← isPlainWord .static_) && (← peek).kind = .mark .braceOpen then staticBlock grammar
  else
    let (modifiers, isAccessor) ← memberModifiers
    let signature : Reading Unit := do
      check (← context).hasTypes
      indexSignature grammar
      endTypeMember
    match ← optional signature with
    | some _ => erasedFrom start
    | none =>
      let head ← methodStart
      let (key, computed) ← propertyKey grammar
      check !(isPrivateKey "constructor" computed key)
      let isMethod := head.isMarked || (← isMark .parenOpen) ||
        ((← context).hasTypes && ((← isMark .less) || ((← isMark .question) &&
          ((← peek).kind = .mark .parenOpen || (← peek).kind = .mark .less))))
      if isMethod then
        let _ ← eatMark .question
        methodRest grammar start decorators modifiers head key computed
      else
        check !(keyIs "constructor" computed key)
        check !(modifiers.isStatic && keyIs "prototype" computed key)
        let value ← fieldRest grammar
        let kind := if isAccessor then .accessor computed modifiers else .field computed modifiers
        node kind start [decorators, key, value]

/-- The members of a class between braces. -/
def classBody (grammar : Grammar) : Reading Node := do
  let start ← position
  expectMark .braceOpen
  let skipSemicolons : Reading Unit := do
    let _ ← collect do if ← eatMark .semicolon then return some () else return none
  let members ← collect do
    skipSemicolons
    if ← isMark .braceClose then return none
    return some (← classMember grammar)
  expectMark .braceClose
  node .classBody start members

/-- Types that a class implements. -/
def implementedTypes (grammar : Grammar) : Reading Unit := do
  let _ ← commaSequence (do entityName; trailingTypeArguments grammar)

/-- The superclass, if there is one, and the types that are implemented. -/
def heritage (grammar : Grammar) : Reading Node := do
  let superclass ← if ← eatWord .extends_ then
      let superclass ← within (fun context => { context with inDecorator := false })
        (grammar .leftHand)
      if (← context).hasTypes && (← isMark .less) then typeArguments grammar
      pure superclass
    else pure Node.missing
  if (← context).hasTypes then
    if ← eatWord .implements_ then implementedTypes grammar
  return superclass

/-- A class from the word `class` on. -/
def classRest (grammar : Grammar) (role : Role) (modifiers : Modifiers) (start : Nat)
    (decorators : Node) : Reading Node := do
  expectWord .class_
  let isHeritage := (← context).hasTypes && (← isWord .implements_)
  let name ← if (← atIdentifier) && !isHeritage then bindingName else pure Node.missing
  typeParameters grammar
  let superclass ← heritage grammar
  let body ← within (fun context => { context with inDecorator := false }) (classBody grammar)
  node (.classDefinition role modifiers) start [decorators, name, superclass, body]

/-- A class with its decorators. -/
def classDefinition (grammar : Grammar) (role : Role) (modifiers : Modifiers) : Reading Node := do
  let start ← position
  let decorators ← decorators grammar
  let isAbstract ← if (← context).hasTypes then eatWord .abstract_ else pure false
  classRest grammar role { modifiers with isAbstract := modifiers.isAbstract || isAbstract } start
    decorators

end WebBundle.Syntax.Grammar

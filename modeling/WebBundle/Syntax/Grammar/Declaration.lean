import WebBundle.Syntax.Grammar.Expression

/-!
# Declarations

Variables, functions and classes are declared in scripts; types, enumerations
and namespaces only where types may be written.
-/

namespace WebBundle.Syntax.Grammar

open Reading

/-- Whether a declaration of this kind must give a value to every name. -/
def needsValue (context : Context) : VariableKind → Bool
  | .functionScoped | .blockScoped => false
  | .constant => !context.inAmbient
  | .resource | .asyncResource => true

/-- One declared variable or pattern; in the head of a loop over a collection
it has no value. -/
def declarator (grammar : Grammar) : Reading Node := do
  let start ← position
  let pattern ← within (fun context => { context with allowIn := true }) (grammar .pattern)
  if (← context).hasTypes then
    if pattern.kind matches .binding _ && !(← token).afterNewline then
      let _ ← eatMark .not
    let _ ← eatMark .question
  typeAnnotation grammar
  let value ← if ← eatMark .assign then
      within (fun context => { context with inDecorator := false }) (grammar .assignment)
    else pure Node.missing
  node .declarator start [pattern, value]

/-- Whether a declarator has the value it must have. -/
def hasNeededValue (context : Context) (kind : VariableKind) (declarator : Node) : Bool :=
  match declarator.children with
  | [pattern, value] =>
    value.isPresent || (!needsValue context kind &&
      (context.inAmbient || pattern.kind matches .binding _))
  | _ => false

/-- The keyword of a variable declaration. -/
def variableKeyword : Reading VariableKind := do
  match ← tokenKind with
  | .word .var_ _ false =>
    let _ ← advance
    return .functionScoped
  | .word .let_ _ false =>
    let _ ← advance
    return .blockScoped
  | .word .const_ _ false =>
    let _ ← advance
    return .constant
  | .word .using_ _ false =>
    let _ ← advance
    return .resource
  | .word .await_ _ false =>
    let _ ← advance
    expectWord .using_
    return .asyncResource
  | _ => refuse

/-- The keyword and the variables of a declaration. -/
def variableList (grammar : Grammar) : Reading (VariableKind × List Node) := do
  let kind ← variableKeyword
  return (kind, ← commaSequence (declarator grammar))

/-- A variable declaration. -/
def variableDeclaration (grammar : Grammar) : Reading Node := do
  let start ← position
  let (kind, declarators) ← variableList grammar
  let context ← context
  check (declarators.all (hasNeededValue context kind))
  endStatement
  node (.variableDeclaration kind context.inAmbient) start declarators

/-- A function that is declared by its name. -/
def functionDeclaration (grammar : Grammar) : Reading Node := do
  let function ← functionExpression grammar .declaration
  match function.children with
  | name :: _ =>
    check name.isPresent
    return function
  | [] => refuse

/-! ## Declarations that types know -/

/-- A type alias. -/
def typeAlias (grammar : Grammar) : Reading Node := do
  let start ← position
  expectWord .type_
  let name ← identifier
  typeParameters grammar
  expectMark .assign
  wholeType grammar
  endStatement
  node (.typeDeclaration .alias name) start []

/-- An interface. -/
def interfaceDeclaration (grammar : Grammar) : Reading Node := do
  let start ← position
  expectWord .interface_
  let name ← identifier
  typeParameters grammar
  if ← eatWord .extends_ then implementedTypes grammar
  objectType grammar
  node (.typeDeclaration .interface name) start []

/-- The key of a member of an enumeration. -/
def enumKey (grammar : Grammar) : Reading Node := do
  match ← tokenKind with
  | .word _ _ _ => wordKey
  | .string _ _ => stringLiteral
  | .mark .bracketOpen =>
    let _ ← advance
    let key ← grammar .assignment
    check (match key.kind with
      | .stringLiteral _ _ => true
      | .templateLiteral quasis => quasis.length = 1
      | _ => false)
    expectMark .bracketClose
    return key
  | _ => refuse

/-- A member of an enumeration. -/
def enumMember (grammar : Grammar) : Reading Node := do
  let start ← position
  let key ← enumKey grammar
  let value ← if ← eatMark .assign then valueExpression grammar else pure Node.missing
  node .enumMember start [key, value]

/-- An enumeration. -/
def enumDeclaration (grammar : Grammar) : Reading Node := do
  let start ← position
  let isConst ← eatWord .const_
  expectWord .enum_
  let name ← bindingName
  expectMark .braceOpen
  let members ← commaList .braceClose (enumMember grammar)
  expectMark .braceClose
  node (.enumeration isConst (← context).inAmbient) start (name :: members)

/-- The statements of a namespace. -/
def namespaceBlock (grammar : Grammar) : Reading Node := do
  let start ← position
  expectMark .braceOpen
  let body ← statements grammar false
  expectMark .braceClose
  node .block start body

/-- The names of a namespace, outermost first, with where each begins. -/
def namespaceNames : Reading (List (Nat × Node)) := do
  let start ← position
  let first ← bindingName
  let rest ← collect do
    if ← eatMark .dot then
      let start ← position
      return some (start, ← bindingName)
    else return none
  return (start, first) :: rest

/-- A namespace in which the namespaces of the remaining names are nested. -/
def nestNamespaces (isDeclared : Bool) (body : Node) : List (Nat × Node) → Node
  | [] => body
  | (start, name) :: rest =>
    ⟨.namespaceDeclaration isDeclared, ⟨start, body.span.stop⟩,
      [name, nestNamespaces isDeclared body rest]⟩

/-- A namespace, or a module of another name that is declared. -/
def namespaceDeclaration (grammar : Grammar) : Reading Node := do
  let start ← position
  let isDeclared := (← context).inAmbient
  if ← isWord .global_ then
    let _ ← advance
    let _ ← namespaceBlock grammar
    erasedFrom start
  else
    let _ ← advance
    match ← tokenKind with
    | .string _ _ =>
      let name ← stringLiteral
      if ← isMark .braceOpen then
        let _ ← within (fun context => { context with inAmbient := true }) (namespaceBlock grammar)
      else endStatement
      if isDeclared then erasedFrom start
      else node (.namespaceDeclaration false) start [name, Node.missing]
    | _ =>
      let names ← namespaceNames
      let body ← namespaceBlock grammar
      return (nestNamespaces isDeclared body names).withSpan ⟨start, body.span.stop⟩

/-- Words that can stand behind `declare`. -/
def isDeclarable : Word → Bool
  | .var_ | .let_ | .const_ | .function_ | .async_ | .class_ | .abstract_ | .enum_ | .namespace_
  | .module_ | .global_ | .type_ | .interface_ => true
  | _ => false

/-- Whether a declaration that only types know begins here. -/
def atTypedDeclaration : Reading Bool := do
  if !(← context).hasTypes then return false
  let next ← peek
  match ← tokenKind with
  | .word .type_ _ false | .word .interface_ _ false =>
    return !next.afterNewline && (next.kind matches .word _ _ _)
  | .word .namespace_ _ false | .word .module_ _ false =>
    return !next.afterNewline && (match next.kind with
      | .word word _ _ => !word.isReserved
      | .string _ _ => true
      | _ => false)
  | .word .enum_ _ false => return true
  | .word .const_ _ false => return (next.kind matches .word .enum_ _ false)
  | .word .abstract_ _ false =>
    return !next.afterNewline && (next.kind matches .word .class_ _ false)
  | .word .global_ _ false => return next.kind = .mark .braceOpen
  | .word .declare_ _ false =>
    return !next.afterNewline && (match next.kind with
      | .word word _ _ => isDeclarable word
      | _ => false)
  | _ => return false

/-- A declaration at a word that types know, without `declare`. -/
def typedDeclaration (grammar : Grammar) : Reading Node := do
  match ← tokenKind with
  | .word .type_ _ _ => typeAlias grammar
  | .word .interface_ _ _ => interfaceDeclaration grammar
  | .word .namespace_ _ _ | .word .module_ _ _ | .word .global_ _ _ => namespaceDeclaration grammar
  | .word .enum_ _ _ => enumDeclaration grammar
  | .word .const_ _ _ =>
    if (← peek).kind matches .word .enum_ _ _ then enumDeclaration grammar
    else variableDeclaration grammar
  | .word .var_ _ _ | .word .let_ _ _ => variableDeclaration grammar
  | .word .function_ _ _ | .word .async_ _ _ => functionDeclaration grammar
  | .word .class_ _ _ | .word .abstract_ _ _ =>
    classDefinition grammar .declaration { isDeclared := (← context).inAmbient }
  | _ => refuse

/-- A declaration that only types know, possibly behind `declare`. -/
def maybeDeclared (grammar : Grammar) : Reading Node := do
  let start ← position
  if ← eatWord .declare_ then
    let declared ← within (fun context => { context with inAmbient := true })
      (typedDeclaration grammar)
    return declared.withSpan ⟨start, declared.span.stop⟩
  else typedDeclaration grammar

end WebBundle.Syntax.Grammar

import WebBundle.Syntax.Grammar.Declaration

/-!
# Imports and exports

An import names a module and binds some of its exports; an export gives names
to bindings of its own module or passes on exports of another one.
-/

namespace WebBundle.Syntax.Grammar

open Reading

/-- The text of a module specifier, which has no half of a surrogate pair. -/
def moduleSource : Reading Node := do
  let source ← stringLiteral
  match source.kind with
  | .stringLiteral _ false => return source
  | _ => refuse

/-- An import attribute. -/
def importAttribute : Reading Node := do
  let start ← position
  let key ← match ← tokenKind with
    | .string _ _ => stringLiteral
    | _ => wordKey
  expectMark .colon
  node .attribute start [key, ← stringLiteral]

/-- The attributes of an import, if there are any. -/
def importAttributes : Reading Node := do
  let start ← position
  let hasAttributes ← if ← isPlainWord .with_ then pure true
    else match ← tokenKind with
      | .word .other name false => pure (name = "assert" && !(← token).afterNewline)
      | _ => pure false
  if hasAttributes then
    let _ ← advance
    expectMark .braceOpen
    let attributes ← commaList .braceClose importAttribute
    expectMark .braceClose
    node .list start attributes
  else return Node.missing

/-- Whether the next name is marked as a type: `type` with a name behind it. -/
def specifierIsType : Reading Bool := do
  if !(← context).hasTypes || !(← isPlainWord .type_) then return false
  let next ← peek
  match next.kind with
  | .word .as_ _ _ =>
    match next.next.kind with
    | .word .as_ _ _ => return (next.next.next.kind matches .word _ _ _)
    | .word _ _ _ | .string _ _ => return false
    | _ => return true
  | .word _ _ _ | .string _ _ => return true
  | _ => return false

/-- Takes the word `type` if it marks the next name. -/
def eatSpecifierType : Reading Bool := do
  if ← specifierIsType then eatWord .type_ else return false

/-- A name in an import list. -/
def importSpecifier : Reading Node := do
  let start ← position
  let typeOnly ← eatSpecifierType
  let canBind ← atIdentifier
  let localStart ← position
  let imported ← moduleName
  let localName ← if ← eatWord .as_ then bindingName
    else
      check (canBind && !imported.quoted)
      node (.binding imported.text) localStart []
  node (.importNamed imported typeOnly) start [localName]

/-- The names between braces in an import. -/
def importSpecifiers : Reading (List Node) := do
  expectMark .braceOpen
  let specifiers ← commaList .braceClose importSpecifier
  expectMark .braceClose
  return specifiers

/-- The namespace in an import. -/
def importNamespace : Reading Node := do
  let start ← position
  expectMark .star
  expectWord .as_
  node .importNamespace start [← bindingName]

/-- What an import binds. -/
def importClause : Reading Node := do
  let start ← position
  let specifiers ←
    if ← isMark .braceOpen then importSpecifiers
    else if ← isMark .star then pure [← importNamespace]
    else
      let first ← node .importDefault start [← bindingName]
      if ← eatMark .comma then
        if ← isMark .star then pure [first, ← importNamespace]
        else pure (first :: (← importSpecifiers))
      else pure [first]
  node .list start specifiers

/-- Whether a word in front of the names of an import is not a name itself:
another name, or `from` twice, follows. -/
def isImportMark (next : Token) : Bool :=
  match next.kind with
  | .mark .braceOpen | .mark .star => true
  | .word .from_ _ _ => match next.next.kind with
      | .word .from_ _ _ => true
      | .mark .assign => true
      | _ => false
  | .word _ _ _ => true
  | _ => false

/-- The rest of an import behind its marks. -/
def importRest (start : Nat) (typeOnly : Bool) (phase : String) : Reading Node := do
  let clause ← importClause
  expectWord .from_
  let source ← moduleSource
  let attributes ← importAttributes
  endStatement
  node (.importDeclaration typeOnly phase) start [clause, source, attributes]

/-- The entity that an import with an equals sign stands for. -/
def importedEntity : Reading Node := do
  let start ← position
  let next ← peek
  match ← tokenKind, next.kind with
  | .word .require_ _ _, .mark .parenOpen =>
    let _ ← advance
    expectMark .parenOpen
    let source ← stringLiteral
    expectMark .parenClose
    node .requireReference start [source]
  | _, _ =>
    let first ← reference
    iterate (fun (object : Node) => do
      if ← eatMark .dot then
        return some (← node (.staticMember (← anyWord) false) start [object])
      else return none) first

/-- An import with an equals sign, from the bound name on. -/
def importEquals (start : Nat) (typeOnly isExported : Bool) :
    Reading Node := do
  let name ← bindingName
  expectMark .assign
  let entity ← importedEntity
  endStatement
  node (.importEquals typeOnly isExported) start [name, entity]

/-- An import declaration. -/
def importDeclaration (isExported : Bool) : Reading Node := do
  let start ← position
  expectWord .import_
  match ← tokenKind with
  | .string _ _ =>
    let source ← moduleSource
    let attributes ← importAttributes
    endStatement
    node (.importDeclaration false "") start [Node.missing, source, attributes]
  | kind =>
    let context ← context
    let next ← peek
    let typeOnly ← if context.hasTypes && kind matches .word .type_ _ false && isImportMark next then
        eatWord .type_
      else pure false
    let isEquation := context.hasTypes && (← atIdentifier) && (← peek).kind = .mark .assign
    if isEquation then importEquals start typeOnly isExported
    else
      check !isExported
      match kind, next.kind with
      | .word .defer_ name false, .mark .star =>
        let _ ← advance
        importRest start typeOnly name
      | .word .source_ name false, .word _ _ _ =>
        if isImportMark next then
          let _ ← advance
          importRest start typeOnly name
        else importRest start typeOnly ""
      | _, _ => importRest start typeOnly ""

/-! ## Exports -/

/-- A name in an export list, and whether it can be the name of a binding. -/
def exportSpecifier : Reading (Node × Bool) := do
  let start ← position
  let typeOnly ← eatSpecifierType
  let canRefer ← atIdentifier
  let localName ← moduleName
  let exported ← if ← eatWord .as_ then moduleName else pure localName
  return (← node (.exportSpecifier localName exported typeOnly) start [], canRefer)

/-- The exports of a list, which are bindings of the module or come from
another one. -/
def exportList (start : Nat) (typeOnly : Bool) : Reading Node := do
  let listStart ← position
  expectMark .braceOpen
  let specifiers ← commaList .braceClose exportSpecifier
  expectMark .braceClose
  let list ← node .list listStart (specifiers.map Prod.fst)
  let (source, attributes) ← if ← eatWord .from_ then
      pure (← moduleSource, ← importAttributes)
    else
      check (specifiers.all Prod.snd)
      pure (Node.missing, Node.missing)
  endStatement
  node (.exportNamed typeOnly) start [list, source, attributes]

/-- All exports of another module. -/
def exportAll (start : Nat) (typeOnly : Bool) : Reading Node := do
  expectMark .star
  let exported ← if ← eatWord .as_ then pure (some (← moduleName)) else pure none
  expectWord .from_
  let source ← moduleSource
  let attributes ← importAttributes
  endStatement
  node (.exportAll exported typeOnly) start [source, attributes]

/-- A class that is exported; decorators may stand in front of the word
`export` instead of the class. -/
def exportedClass (grammar : Grammar) (decorators : Option Node) : Reading Node := do
  match decorators with
  | none => classDefinition grammar .declaration {}
  | some decorators =>
    let start ← position
    let isAbstract ← if (← context).hasTypes then eatWord .abstract_ else pure false
    classRest grammar .declaration { isAbstract } start decorators

/-- Whether a class begins here. -/
def atClass : Reading Bool := do
  if (← isMark .atSign) || (← isPlainWord .class_) then return true
  let next ← peek
  return (← context).hasTypes && (← isPlainWord .abstract_) && !next.afterNewline &&
    next.kind matches .word .class_ _ false

/-- The default export. -/
def exportDefault (grammar : Grammar) (start : Nat) (decorators : Option Node) : Reading Node := do
  expectWord .default_
  let next ← peek
  if ← atClass then node .exportDefault start [← exportedClass grammar decorators]
  else
    check decorators.isNone
    let isInterface := (← context).hasTypes && (← isPlainWord .interface_) &&
      !next.afterNewline && next.kind matches .word _ _ _
    let value ←
      if (← isPlainWord .function_) || (← atAsyncFunction) then
        functionExpression grammar .declaration
      else if isInterface then interfaceDeclaration grammar
      else
        let value ← within nested (grammar .assignment)
        endStatement
        pure value
    node .exportDefault start [value]

/-- Whether the current word is that of a declaration with types behind `export`,
where its name may stand on the next line. -/
def atExportedType : Reading Bool := do
  return (← context).hasTypes && ((← isPlainWord .type_) || (← isPlainWord .interface_) ||
    (← isPlainWord .namespace_) || (← isPlainWord .module_))

/-- A declaration that can be exported as it is. -/
def exportableDeclaration (grammar : Grammar) : Reading Node := do
  if (← atTypedDeclaration) || (← atExportedType) then maybeDeclared grammar
  else
    match ← tokenKind with
    | .word .var_ _ false | .word .let_ _ false | .word .const_ _ false =>
      variableDeclaration grammar
    | .word .function_ _ false => functionDeclaration grammar
    | _ =>
      check (← atAsyncFunction)
      functionDeclaration grammar

/-- An export that only types know, if there is one. -/
def typedExport (grammar : Grammar) (start : Nat) : Reading (Option Node) := do
  if !(← context).hasTypes then return none
  let next ← peek
  match ← tokenKind, next.kind with
  | .mark .assign, _ =>
    let _ ← advance
    let value ← expression grammar
    endStatement
    return some (← node .exportAssignment start [value])
  | .word .as_ _ _, .word .namespace_ _ _ =>
    let _ ← advance
    let _ ← advance
    let _ ← anyWord
    endStatement
    return some (← node .exportDeclaration start [← erasedFrom start])
  | .word .type_ _ false, .mark .braceOpen =>
    let _ ← advance
    return some (← exportList start true)
  | .word .type_ _ false, .mark .star =>
    let _ ← advance
    return some (← exportAll start true)
  | .word .import_ _ false, .word _ _ _ => return some (← importDeclaration true)
  | _, _ => return none

/-- An export declaration. -/
def exportDeclaration (grammar : Grammar) (decorators : Option Node) : Reading Node := do
  let start ← position
  expectWord .export_
  if ← isWord .default_ then exportDefault grammar start decorators
  else if ← atClass then node .exportDeclaration start [← exportedClass grammar decorators]
  else
    check decorators.isNone
    match ← typedExport grammar start with
    | some node => return node
    | none =>
      if ← isMark .braceOpen then exportList start false
      else if ← isMark .star then exportAll start false
      else node .exportDeclaration start [← exportableDeclaration grammar]

end WebBundle.Syntax.Grammar

import WebBundle.Syntax.Reading

/-!
# Names

A binding may have any name that is not reserved; `yield` and `await` are
reserved only where they are keywords.  The name of a property may be any word.
-/

namespace WebBundle.Syntax.Grammar

open Reading

/-- Whether a word may be a name under the given use of `yield` and `await`. -/
def isIdentifier (context : Context) (word : Word) : Bool :=
  !word.isReserved && !(word = .yield_ && context.inGenerator) &&
    !(word = .await_ && context.inAsync)

/-- Whether the current token may be the name of a binding or a reference. -/
def atIdentifier : Reading Bool := do
  match ← tokenKind with
  | .word word _ _ => return isIdentifier (← context) word
  | _ => return false

/-- Whether the current token is a word. -/
def atWord : Reading Bool := do
  match ← tokenKind with
  | .word _ _ _ => return true
  | _ => return false

/-- Takes a word of any kind. -/
def anyWord : Reading String := do
  match ← tokenKind with
  | .word _ name _ =>
    let _ ← advance
    return name
  | _ => refuse

/-- Takes the name of a binding or of a reference. -/
def identifier : Reading String := do
  check (← atIdentifier)
  anyWord

/-- A reference to a name. -/
def reference : Reading Node := do
  let start ← position
  node (.reference (.ofText (← identifier))) start []

/-- A binding of a name. -/
def bindingName : Reading Node := do
  let start ← position
  node (.binding (← identifier)) start []

/-- A word as the key of a property. -/
def wordKey : Reading Node := do
  let start ← position
  node (.propertyName (← anyWord)) start []

/-- A string literal. -/
def stringLiteral : Reading Node := do
  let start ← position
  match ← tokenKind with
  | .string value lone =>
    let _ ← advance
    node (.stringLiteral value lone) start []
  | _ => refuse

/-- The key of a property or of a member, and whether it is computed. -/
def propertyKey (grammar : Grammar) : Reading (Node × Bool) := do
  let start ← position
  match ← tokenKind with
  | .word _ _ _ => return (← wordKey, false)
  | .string _ _ => return (← stringLiteral, false)
  | .number =>
    let token ← advance
    return (← node (.numberLiteral token.spelling) start [], false)
  | .bigint =>
    let token ← advance
    return (← node (.bigintLiteral token.spelling) start [], false)
  | .privateName name =>
    let _ ← advance
    return (← node (.privateName name) start [], false)
  | .mark .bracketOpen =>
    let _ ← advance
    let key ← within (fun context => { context with allowIn := true, inDecorator := false })
      (grammar .assignment)
    expectMark .bracketClose
    return (key, true)
  | _ => refuse

/-- Whether a token can begin the key of a member. -/
def beginsKey (token : Token) : Bool :=
  match token.kind with
  | .word _ _ _ | .string _ _ | .number | .bigint | .privateName _ | .mark .bracketOpen => true
  | _ => false

/-- A name in an import or export list. -/
def moduleName : Reading ModuleName := do
  match ← tokenKind with
  | .string value lone =>
    check (!lone)
    let _ ← advance
    return ⟨value, true⟩
  | _ => return ⟨← anyWord, false⟩

end WebBundle.Syntax.Grammar

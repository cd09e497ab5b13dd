import WebBundle.Syntax.Lexer

/-!
# Reading a grammar

A reader looks at the current token and either takes some tokens and gives a
result, or refuses.  A reader that may be wrong about what follows is simply
tried, since a refused attempt leaves nothing behind.  Nested constructs are
read through the goals of this module: the grammar is a function from readers
of the goals to readers of the goals, and a bound on the depth of nesting ties
the knot.
-/

namespace WebBundle.Syntax

/-- What is known about the place where a construct stands. -/
structure Context where
  /-- Whether types may be written. -/
  hasTypes : Bool
  /-- A bound on the length of any list in the source. -/
  limit : Nat
  /-- Whether `in` is an operator. -/
  allowIn : Bool := true
  /-- Whether `yield` is a keyword. -/
  inGenerator : Bool := false
  /-- Whether `await` is a keyword. -/
  inAsync : Bool := true
  /-- Whether `return` may be used. -/
  inFunction : Bool := false
  /-- Whether the expression is a decorator, which ends before a bracket. -/
  inDecorator : Bool := false
  /-- Whether only the existence of something is declared. -/
  inAmbient : Bool := false
  /-- Whether an arrow function may give the type of its result here. -/
  allowArrowType : Bool := true
  /-- Whether a condition between types may be written here. -/
  allowConditionalType : Bool := true
  deriving Inhabited

/-- How far a source has been read. -/
structure Progress where
  token : Token
  /-- Where the last token that was taken ends. -/
  lastStop : Nat
  /-- Comments with the offset of the token they stand in front of, last first. -/
  comments : List (Nat × Comment)
  deriving Inhabited

/-- A reader gives a result and the progress behind it, or refuses. -/
def Reading (α : Type) : Type := Context → Progress → Option (α × Progress)

namespace Reading

/-- Gives a result without reading. -/
protected def pure {α : Type} (value : α) : Reading α := fun _ progress => some (value, progress)

/-- Reads one thing after the other. -/
protected def bind {α β : Type} (first : Reading α) (rest : α → Reading β) : Reading β :=
  fun context progress =>
    match first context progress with
    | none => none
    | some (value, progress) => rest value context progress

instance : Monad Reading where
  pure := Reading.pure
  bind := Reading.bind

/-- Refuses. -/
def refuse {α : Type} : Reading α := fun _ _ => none

instance {α : Type} : Inhabited (Reading α) := ⟨refuse⟩

/-- Refuses unless a condition holds. -/
def check (condition : Bool) : Reading Unit := if condition then pure () else refuse

/-- What is known about the place. -/
def context : Reading Context := fun context progress => some (context, progress)

/-- The progress so far. -/
def progress : Reading Progress := fun _ progress => some (progress, progress)

/-- Reads in another context. -/
def within {α : Type} (change : Context → Context) (reader : Reading α) : Reading α :=
  fun context progress => reader (change context) progress

/-- Reads one thing, or another if the first reader refuses. -/
def orElse {α : Type} (first second : Reading α) : Reading α := fun context progress =>
  match first context progress with
  | some result => some result
  | none => second context progress

/-- The result of a reader, or nothing if it refuses. -/
def optional {α : Type} (reader : Reading α) : Reading (Option α) :=
  orElse (do return some (← reader)) (pure none)

/-- Whether a reader would succeed; nothing is taken. -/
def looksLike {α : Type} (reader : Reading α) : Reading Bool := fun context progress =>
  some ((reader context progress).isSome, progress)

/-- The current token. -/
def token : Reading Token := do return (← progress).token

/-- What the current token is. -/
def tokenKind : Reading TokenKind := do return (← token).kind

/-- The token behind the current one. -/
def peek : Reading Token := do return (← token).next

/-- Where the current token begins. -/
def position : Reading Nat := do return (← token).start.offset

/-- Makes another token the current one. -/
def setToken (token : Token) : Reading Unit := fun _ progress => some ((), { progress with token })

/-- Takes the current token; an invalid one cannot be taken. -/
def advance : Reading Token := fun _ progress =>
  match progress.token.kind with
  | .invalid | .finish => none
  | _ =>
    let next := progress.token.next
    some (progress.token,
      { token := next
        lastStop := progress.token.stop.offset
        comments := next.comments.reverse.map (next.start.offset, ·) ++ progress.comments })

/-- A node from an offset to the end of the last token. -/
def node (kind : Kind) (start : Nat) (children : List Node) : Reading Node := do
  return ⟨kind, ⟨start, (← progress).lastStop⟩, children⟩

/-- Whether the current token is a punctuator. -/
def isMark (mark : Mark) : Reading Bool := do return (← tokenKind) = .mark mark

/-- Whether the current token is a word, possibly with escapes. -/
def isWord (word : Word) : Reading Bool := do
  match ← tokenKind with
  | .word found _ _ => return found = word
  | _ => return false

/-- Whether the current token is a word that is written without escapes. -/
def isPlainWord (word : Word) : Reading Bool := do
  match ← tokenKind with
  | .word found _ escaped => return found = word && !escaped
  | _ => return false

/-- Takes a punctuator if it is there. -/
def eatMark (mark : Mark) : Reading Bool := do
  if ← isMark mark then
    let _ ← advance
    return true
  else return false

/-- Takes a keyword if it is there; a keyword cannot be written with escapes. -/
def eatWord (word : Word) : Reading Bool := do
  if ← isWord word then
    check (← isPlainWord word)
    let _ ← advance
    return true
  else return false

/-- Takes a punctuator that must be there. -/
def expectMark (mark : Mark) : Reading Unit := do check (← eatMark mark)

/-- Takes a keyword that must be there. -/
def expectWord (word : Word) : Reading Unit := do check (← eatWord word)

/-- Whether the statement may end here without a semicolon. -/
def canEndStatement : Reading Bool := do
  let token ← token
  match token.kind with
  | .mark .semicolon | .mark .braceClose | .finish => return true
  | _ => return token.afterNewline

/-- Takes the end of a statement. -/
def endStatement : Reading Unit := do
  if ← eatMark .semicolon then return ()
  check (← canEndStatement)

/-- Repeats a step on a value until it gives nothing. -/
def iterateFor {α : Type} (step : α → Reading (Option α)) : (limit : Nat) → α → Reading α
  | 0, _ => refuse
  | limit + 1, value => do
    match ← step value with
    | none => return value
    | some value => iterateFor step limit value

/-- Repeats a step on a value until it gives nothing. -/
def iterate {α : Type} (step : α → Reading (Option α)) (value : α) : Reading α := do
  iterateFor step (← context).limit value

/-- Collects results until a reader gives nothing. -/
def collectFor {α : Type} (reader : Reading (Option α)) : (limit : Nat) → Reading (List α)
  | 0 => refuse
  | limit + 1 => do
    match ← reader with
    | none => return []
    | some value => return value :: (← collectFor reader limit)

/-- Collects results until a reader gives nothing. -/
def collect {α : Type} (reader : Reading (Option α)) : Reading (List α) := do
  collectFor reader (← context).limit

/-- Items with commas between them up to a closing punctuator, which is not
taken; a comma may stand behind the last item. -/
def commaList {α : Type} (close : Mark) (item : Reading α) : Reading (List α) :=
  collect do
    if ← isMark close then return none
    let value ← item
    if !(← isMark close) then expectMark .comma
    return some value

/-- One or more items with commas between them. -/
def commaSequence {α : Type} (item : Reading α) : Reading (List α) := do
  let first ← item
  let rest ← collect do
    if ← eatMark .comma then return some (← item) else return none
  return first :: rest

end Reading

/-- The constructs that nest. -/
inductive Goal where
  /-- A statement; a single one stands where no declaration may. -/
  | statement (single : Bool)
  | assignment
  /-- An operator expression that binds tighter than a level. -/
  | operators (level : Nat)
  | unary
  | leftHand
  | pattern
  | type
  deriving DecidableEq, Repr

/-- Readers of the nested constructs. -/
abbrev Grammar := Goal → Reading Node

end WebBundle.Syntax

import WebBundle.Syntax.Grammar.Statement

/-!
# Programs

A source text is a program if it consists of statements and nothing else.  A
default behind a shorthand property is only right in a pattern, and no name may
be exported twice.
-/

namespace WebBundle.Syntax

open Reading

/-- The readers of all constructs over readers of the nested ones. -/
def Grammar.step (grammar : Grammar) : Grammar
  | .statement single => Grammar.statement grammar single
  | .assignment => Grammar.assignment grammar
  | .operators level => Grammar.operators grammar level
  | .unary => Grammar.unaryExpression grammar
  | .leftHand => Grammar.leftHand grammar
  | .pattern => Grammar.bindingPattern grammar
  | .type => Grammar.typeExpression grammar

/-- The readers of all constructs up to a depth of nesting. -/
def Grammar.ofDepth : Nat → Grammar
  | 0, _ => refuse
  | depth + 1, goal => Grammar.step (Grammar.ofDepth depth) goal

/-! ## Conditions on the whole tree -/

mutual

/-- Whether every default of a shorthand property is part of a pattern. -/
def hasOnlyPatternDefaults : Node → Bool
  | ⟨.property true _, _, [_, ⟨.defaulted, _, _⟩]⟩ => false
  | ⟨_, _, children⟩ => haveOnlyPatternDefaults children

/-- Whether every default in several nodes is part of a pattern. -/
def haveOnlyPatternDefaults : List Node → Bool
  | [] => true
  | node :: rest => hasOnlyPatternDefaults node && haveOnlyPatternDefaults rest

end

mutual

/-- The names that a pattern binds. -/
def boundNames : Node → List String
  | ⟨.binding name, _, _⟩ => [name]
  | ⟨.objectPattern, _, children⟩ => allBoundNames children
  | ⟨.arrayPattern, _, children⟩ => allBoundNames children
  | ⟨.rest, _, children⟩ => allBoundNames children
  | ⟨.patternProperty _ _, _, [_, value]⟩ => boundNames value
  | ⟨.defaulted, _, [pattern, _]⟩ => boundNames pattern
  | _ => []

/-- The names that several patterns bind. -/
def allBoundNames : List Node → List String
  | [] => []
  | pattern :: rest => boundNames pattern ++ allBoundNames rest

end

/-- The names that a declaration binds where it stands. -/
def declaredNames : Node → List String
  | ⟨.variableDeclaration _ _, _, declarators⟩ => declarators.flatMap fun
    | ⟨.declarator, _, pattern :: _⟩ => boundNames pattern
    | _ => []
  | ⟨.function _ _ _, _, name :: _⟩ => boundNames name
  | ⟨.classDefinition _ _, _, _ :: name :: _⟩ => boundNames name
  | _ => []

/-- The names under which a statement exports something. -/
def exportedNames : Node → List String
  | ⟨.exportNamed _, _, ⟨_, _, specifiers⟩ :: _⟩ => specifiers.filterMap fun
    | ⟨.exportSpecifier _ exported _, _, _⟩ => some exported.text
    | _ => none
  | ⟨.exportDeclaration, _, [declaration]⟩ => declaredNames declaration
  | ⟨.exportDefault, _, _⟩ => ["default"]
  | ⟨.exportAll (some exported) _, _, _⟩ => [exported.text]
  | _ => []

mutual

/-- The names that are exported anywhere in a tree. -/
def allExportedNames : Node → List String
  | ⟨kind, span, children⟩ => exportedNames ⟨kind, span, children⟩ ++ exportedNamesIn children

/-- The names that are exported anywhere in several trees. -/
def exportedNamesIn : List Node → List String
  | [] => []
  | node :: rest => allExportedNames node ++ exportedNamesIn rest

end

/-! ## Reading a source -/

/-- A source text with its tree. -/
structure Program where
  source : String
  root : Node
  /-- Comments with the offset of the token they stand in front of, in order. -/
  comments : List (Nat × Comment)

/-- The statements of a program. -/
def programBody (grammar : Grammar) : Reading Node := do
  let body ← Grammar.statements grammar true
  check ((← tokenKind) = .finish)
  return ⟨.program, ⟨0, (← token).stop.offset⟩, body⟩

namespace Program

/-- Reads a source text as a module. -/
def read? (hasTypes : Bool) (source : String) : Option Program :=
  let cursor := Cursor.ofText source
  let size := cursor.chars.length
  let first := firstToken cursor
  let progress : Progress :=
    { token := first
      lastStop := 0
      comments := first.comments.reverse.map (first.start.offset, ·) }
  match programBody (Grammar.ofDepth (16 * (size + 4))) { hasTypes, limit := size + 4 } progress with
  | none => none
  | some (root, progress) =>
    let isValid := hasOnlyPatternDefaults root && (hasTypes || (allExportedNames root).Nodup)
    if isValid then some { source, root, comments := progress.comments.reverse } else none

/-- The statements of a program without its directives. -/
def body (program : Program) : List Node :=
  program.root.children.filter fun
    | ⟨.directive _, _, _⟩ => false
    | _ => true

end Program

end WebBundle.Syntax

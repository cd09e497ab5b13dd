import WebBundle.Syntax.Erasure.Enumeration
import WebBundle.Syntax.Program

/-!
# Namespaces as objects

A namespace becomes a variable with an object and a function that fills it.  Inside of
the function the object has a name of its own.  What the namespace exports is assigned
to the object as well; only constants, functions, classes, enumerations and further
namespaces can be exported.  A namespace must have a name that is not a text.
-/

namespace WebBundle.Syntax.Erasure

/-- Whether a statement is known to types only. -/
def isTypeStatement : Node → Bool
  | ⟨.erased, _, _⟩ => true
  | ⟨.typeDeclaration _ _, _, _⟩ => true
  | ⟨.variableDeclaration _ isDeclared, _, _⟩ => isDeclared
  | ⟨.function .declaration _ _, _, [_, _, body]⟩ => !body.isPresent
  | ⟨.classDefinition .declaration modifiers, _, _⟩ => modifiers.isDeclared
  | ⟨.enumeration _ isDeclared, _, _⟩ => isDeclared
  | ⟨.namespaceDeclaration isDeclared, _, _⟩ => isDeclared
  | _ => false

/-- The names that a statement declares as values. -/
def valueNames : Node → List String
  | ⟨.enumeration _ false, _, ⟨.binding name, _, _⟩ :: _⟩ => [name]
  | ⟨.namespaceDeclaration false, _, ⟨.binding name, _, _⟩ :: _⟩ => [name]
  | ⟨.exportDeclaration, _, [⟨.enumeration _ false, _, ⟨.binding name, _, _⟩ :: _⟩]⟩ => [name]
  | ⟨.exportDeclaration, _, [⟨.namespaceDeclaration false, _, ⟨.binding name, _, _⟩ :: _⟩]⟩ => [name]
  | ⟨.exportDeclaration, _, [declaration]⟩ =>
    if isTypeStatement declaration then [] else declaredNames declaration
  | statement => if isTypeStatement statement then [] else declaredNames statement

/-- What is known about a program before its types are taken out. -/
structure Facts where
  catalogue : Catalogue
  objects : List (Nat × String)

/-- The name of the object of the namespace at an offset. -/
def Facts.objectAt (facts : Facts) (offset : Nat) : String :=
  ((facts.objects.find? fun entry => entry.1 = offset).map Prod.snd).getD "_"

/-- A statement without types; an enumeration is declared at a place unless its name is
declared in front of it. -/
def valueDeclaration (facts : Facts) (place : EnumerationPlace) (before : List String) :
    Node → List Node
  | ⟨.enumeration _ false, span, ⟨.binding name, _, _⟩ :: members⟩ =>
    let place := if before.contains name then .continued else place
    [enumerationStatement facts.catalogue place span name members]
  | statement => if isTypeStatement statement then [] else [statement]

/-- An import with an equals sign as a variable. -/
def importVariable (span : Span) (name : Node) : Node → Node
  | ⟨.requireReference, _, [source]⟩ =>
    Node.declaring .constant span name (Node.apply (Node.variable_ "require") source)
  | entity => Node.declaring .functionScoped span name entity

/-! ## Names of objects -/

mutual

/-- The offsets and the names of the namespaces of a tree, outer ones first. -/
def namespacesOf : Node → List (Nat × String)
  | ⟨.namespaceDeclaration false, span, ⟨.binding name, _, _⟩ :: rest⟩ =>
    (span.start, name) :: namespacesIn rest
  | ⟨_, _, children⟩ => namespacesIn children

/-- The offsets and the names of the namespaces of several trees. -/
def namespacesIn : List Node → List (Nat × String)
  | [] => []
  | node :: rest => namespacesOf node ++ namespacesIn rest

end

mutual

/-- All names of variables in a tree. -/
def variableNames : Node → List String
  | ⟨.reference name, _, _⟩ => [name.text]
  | ⟨.binding name, _, _⟩ => [name]
  | ⟨_, _, children⟩ => variableNamesIn children

/-- All names of variables in several trees. -/
def variableNamesIn : List Node → List String
  | [] => []
  | node :: rest => variableNames node ++ variableNamesIn rest

end

/-- A name without the underscores in front of it and the digits at its end. -/
def stem (name : String) : String :=
  let name := name.toList.dropWhile (· = '_')
  String.ofList (name.reverse.dropWhile Char.isDigit).reverse

/-- The first of some numbered names that is not used, from a number on. -/
def firstUnused (used : List String) (base : String) : (attempts number : Nat) → String
  | 0, _ => base
  | attempts + 1, number =>
    let name := if number ≤ 1 then base else base ++ toString number
    if used.contains name then firstUnused used base attempts (number + 1) else name

/-- A name like another one that is not used. -/
def freshName (used : List String) (name : String) : String :=
  firstUnused used ("_" ++ stem name) (used.length + 1) 1

/-- Names for the objects of namespaces, by their offsets. -/
def objectNames (used : List String) : List (Nat × String) → List (Nat × String)
  | [] => []
  | (offset, name) :: rest =>
    let object := freshName used name
    (offset, object) :: objectNames (object :: used) rest

/-! ## The object of a namespace -/

/-- The statement that assigns a name to an object. -/
def exportStatement (object name : String) : Node :=
  Node.evaluating ⟨0, 0⟩
    (Node.assign (Node.member (Node.variable_ object) name) (Node.variable_ name))

/-- A declared variable whose value is assigned to an object as well. -/
def assignedDeclarator (object : String) : Node → Node
  | ⟨.declarator, span, [⟨.binding name, nameSpan, children⟩, value]⟩ =>
    let value := if value.isPresent then
        Node.assign (Node.member (Node.variable_ object) name) value
      else value
    ⟨.declarator, span, [⟨.binding name, nameSpan, children⟩, value]⟩
  | declarator => declarator

/-- Whether a declared variable is a name and not a pattern. -/
def bindsName : Node → Bool
  | ⟨.declarator, _, ⟨.binding _, _, _⟩ :: _⟩ => true
  | _ => false

/-- The statements for variables that a namespace exports. -/
def exportedVariables (object : String) (kind : VariableKind) (span : Span)
    (declarators : List Node) : List Node :=
  if declarators.all bindsName then
    [⟨.variableDeclaration kind false, span, declarators.map (assignedDeclarator object)⟩]
  else
    let declaration : Node := ⟨.variableDeclaration kind false, span, declarators⟩
    let assignments := (declaredNames declaration).map fun name =>
      Node.assign (Node.member (Node.variable_ object) name) (Node.variable_ name)
    let expression := match assignments with
      | [single] => single
      | assignments => Node.made .sequence assignments
    [declaration, Node.evaluating ⟨0, 0⟩ expression]

/-- The value from which the function of a namespace starts: the object if it is there
already, or a new one. -/
def startingObject (parent : Option String) (name : String) : Node :=
  let variable_ := Node.variable_ name
  match parent with
  | none => Node.either variable_ (Node.assign variable_ Node.emptyObject)
  | some parent =>
    let place := Node.member (Node.variable_ parent) name
    Node.either variable_
      (Node.assign variable_ (Node.either place (Node.assign place Node.emptyObject)))

/-- The statements of a namespace from the statements in its function. -/
def namespaceStatements (isDeclaredBefore isExported : Bool) (parent : Option String)
    (span : Span) (name object : String) (body : List Node) : List Node :=
  if body.isEmpty then []
  else
    let declaration := Node.declaring .blockScoped ⟨0, 0⟩ (Node.bound name) Node.missing
    let declaration := if isExported then Node.exporting ⟨0, 0⟩ declaration else declaration
    let filled := Node.apply (Node.functionOf object ⟨0, 0⟩ body) (startingObject parent name)
    (if isDeclaredBefore then [] else [declaration]) ++ [Node.evaluating span filled]

mutual

/-- The statements that a namespace becomes; `before` has the names that are declared in
front of it. -/
def lowerNamespace (facts : Facts) (before : List String) (isExported : Bool)
    (parent : Option String) : Node → List Node
  | ⟨.namespaceDeclaration _, span, [⟨.binding name, _, _⟩, ⟨.block, _, statements⟩]⟩ =>
    let object := facts.objectAt span.start
    namespaceStatements (before.contains name) isExported parent span name object
      (lowerExports facts object [] statements)
  | ⟨.namespaceDeclaration _, span, [⟨.binding name, _, _⟩, inner]⟩ =>
    let object := facts.objectAt span.start
    namespaceStatements (before.contains name) isExported parent span name object
      (lowerNamespace facts [] false (some object) inner)
  | _ => []

/-- The statements in the function of a namespace, whose exports are assigned to the
object. -/
def lowerExports (facts : Facts) (object : String) (before : List String) :
    List Node → List Node
  | [] => []
  | ⟨.exportDeclaration, span, [declaration]⟩ :: rest =>
    let statements := match declaration with
      | ⟨.variableDeclaration kind false, inner, declarators⟩ =>
        exportedVariables object kind inner declarators
      | ⟨.namespaceDeclaration false, inner, children⟩ =>
        lowerNamespace facts before false (some object) ⟨.namespaceDeclaration false, inner, children⟩
      | declaration =>
        valueDeclaration facts .inner before declaration ++
          (valueNames declaration).map (exportStatement object)
    statements ++ lowerExports facts object
      (valueNames ⟨.exportDeclaration, span, [declaration]⟩ ++ before) rest
  | ⟨.namespaceDeclaration isDeclared, span, children⟩ :: rest =>
    let statement : Node := ⟨.namespaceDeclaration isDeclared, span, children⟩
    (if isDeclared then [] else lowerNamespace facts before false none statement) ++
      lowerExports facts object (valueNames statement ++ before) rest
  | ⟨.importEquals typeOnly false, span, [⟨.binding name, inner, _⟩, entity]⟩ :: rest =>
    let isUsed := !typeOnly && (variableNamesIn rest).contains name
    (if isUsed then [importVariable span ⟨.binding name, inner, []⟩ entity] else []) ++
      lowerExports facts object (name :: before) rest
  | statement :: rest =>
    valueDeclaration facts .inner before statement ++
      lowerExports facts object (valueNames statement ++ before) rest

end

/-! ## What cannot be an object -/

/-- Whether a statement in a namespace exports variables that may change. -/
def exportsVariables : Node → Bool
  | ⟨.exportDeclaration, _, [⟨.variableDeclaration kind false, _, _⟩]⟩ => kind ≠ .constant
  | _ => false

mutual

/-- Whether all namespaces of a tree have names and export constants only. -/
def canLower : Node → Bool
  | ⟨.namespaceDeclaration true, _, _⟩ => true
  | ⟨.namespaceDeclaration false, _, ⟨.stringLiteral _ _, _, _⟩ :: _⟩ => false
  | ⟨.namespaceDeclaration false, _, [_, ⟨.block, _, statements⟩]⟩ =>
    !statements.any exportsVariables && canLowerAll statements
  | ⟨_, _, children⟩ => canLowerAll children

/-- Whether all namespaces of several trees have names and export constants only. -/
def canLowerAll : List Node → Bool
  | [] => true
  | node :: rest => canLower node && canLowerAll rest

end

end WebBundle.Syntax.Erasure

import WebBundle.Syntax.Erasure.Tree
import WebBundle.Syntax.Erasure.Usage
import WebBundle.Syntax.Writing.Module

/-!
# Modules without types

Imports and exports of types are taken out of a program.  If nothing is left of them,
the program stays a module by an export of nothing.
-/

namespace WebBundle.Syntax.Erasure

/-! ## Imports -/

/-- Whether a name in an import is needed when types are gone. -/
def keepsImport (usage : Usage) : Node → Bool
  | ⟨.importNamed _ typeOnly, _, name⟩ => !typeOnly && (allBoundNames name).any usage.needsImport
  | ⟨_, _, name⟩ => (allBoundNames name).any usage.needsImport

/-- An import without types, if anything is left of it. -/
def valueImport? (usage : Usage) : Node → Option Node
  | ⟨.importDeclaration true _, _, _⟩ => none
  | ⟨.importDeclaration false phase, span, [⟨.list, listSpan, specifiers⟩, source, attributes]⟩ =>
    let kept := specifiers.filter (keepsImport usage)
    let declaration (clause : Node) : Node :=
      ⟨.importDeclaration false phase, span, [clause, source, attributes]⟩
    if specifiers.isEmpty then some (declaration Node.missing)
    else if kept.isEmpty then none
    else some (declaration ⟨.list, listSpan, kept⟩)
  | statement => some statement

/-! ## Exports -/

/-- Whether a name in an export list is more than a type; names of another module are. -/
def keepsExport (usage : Usage) (isLocal : Bool) : Node → Bool
  | ⟨.exportSpecifier name _ typeOnly, _, _⟩ => !typeOnly && !(isLocal && usage.isType name.text)
  | _ => true

/-- An export list without types, if anything is left of it. -/
def valueExports? (usage : Usage) (span listSpan : Span) (specifiers : List Node)
    (source attributes : Node) : Option Node :=
  let kept := specifiers.filter (keepsExport usage !source.isPresent)
  if kept.isEmpty && !specifiers.isEmpty then none
  else some ⟨.exportNamed false, span, [⟨.list, listSpan, kept⟩, source, attributes]⟩

/-- Whether a default export is known to types only. -/
def isTypeDefault (usage : Usage) : Node → Bool
  | ⟨.reference name, _, _⟩ => usage.isType name.text
  | ⟨.classDefinition _ _, _, _⟩ => false
  | value => isTypeStatement value

/-- An export without types, if anything is left of it. -/
def valueExport? (usage : Usage) : Node → Option Node
  | ⟨.exportNamed true, _, _⟩ => none
  | ⟨.exportNamed false, span, [⟨_, listSpan, specifiers⟩, source, attributes]⟩ =>
    valueExports? usage span listSpan specifiers source attributes
  | ⟨.exportAll _ true, _, _⟩ => none
  | ⟨.exportDefault, span, [value]⟩ =>
    if isTypeDefault usage value then none else some ⟨.exportDefault, span, [value]⟩
  | ⟨.exportDeclaration, span, [declaration]⟩ =>
    if isTypeStatement declaration then none else some ⟨.exportDeclaration, span, [declaration]⟩
  | statement => some statement

/-! ## Programs -/

/-- Whether a statement is an import or an export. -/
def isModuleStatement : Node → Bool
  | ⟨.importDeclaration _ _, _, _⟩ => true
  | ⟨.exportNamed _, _, _⟩ => true
  | ⟨.exportDeclaration, _, _⟩ => true
  | ⟨.exportDefault, _, _⟩ => true
  | ⟨.exportAll _ _, _, _⟩ => true
  | _ => false

/-- A statement at the top of a program with enumerations, namespaces and equations as
values; `before` has the names that are declared in front of it. -/
def valueForms (facts : Facts) (usage : Usage) (before : List String) : Node → List Node
  | ⟨.exportDeclaration, span, [⟨.enumeration _ false, inner, ⟨.binding name, _, _⟩ :: members⟩]⟩ =>
    if before.contains name then
      [enumerationStatement facts.catalogue .continued inner name members]
    else
      [Node.exporting span (enumerationStatement facts.catalogue .inner inner name members)]
  | ⟨.exportDeclaration, _, [⟨.namespaceDeclaration isDeclared, inner, children⟩]⟩ =>
    if isDeclared then []
    else lowerNamespace facts before true none ⟨.namespaceDeclaration false, inner, children⟩
  | ⟨.importEquals typeOnly isExported, span, [name, entity]⟩ =>
    let variable_ := importVariable span name entity
    if isExported then [Node.exporting span variable_]
    else if !typeOnly && (boundNames name).any usage.used.contains then [variable_]
    else []
  | ⟨.exportAssignment, span, [value]⟩ =>
    let target := Node.member (Node.variable_ "module") "exports"
    [Node.evaluating span (Node.assign target value)]
  | ⟨.namespaceDeclaration isDeclared, span, children⟩ =>
    if isDeclared then []
    else lowerNamespace facts before false none ⟨.namespaceDeclaration false, span, children⟩
  | statement => valueDeclaration facts .top before statement

/-- The statements at the top of a program with enumerations, namespaces and equations
as values. -/
def allValueForms (facts : Facts) (usage : Usage) (before : List String) :
    List Node → List Node
  | [] => []
  | statement :: rest =>
    valueForms facts usage before statement ++
      allValueForms facts usage (valueNames statement ++ before) rest

/-- Statements at the top of a program without imports and exports of types. -/
def valueModule (usage : Usage) (statements : List Node) : List Node :=
  let kept := statements.filterMap fun statement =>
    (valueImport? usage statement).bind (valueExport? usage)
  let isModule := statements.any isModuleStatement
  if isModule && !kept.any isModuleStatement then
    kept ++ [Node.made (.exportNamed false) [Node.made .list [], Node.missing, Node.missing]]
  else kept

/-- The statements of a program without types; a namespace may not export variables
that change. -/
def valueProgram? (statements : List Node) : Option (List Node) :=
  let facts : Facts :=
    { catalogue := ({} : Catalogue).addTrees statements
      objects := objectNames (variableNamesIn statements) (namespacesIn statements) }
  let usage := Usage.ofStatements statements
  if canLowerAll statements then
    some (valueModule usage (allValueForms facts usage [] (allWithoutTypes facts statements)))
  else none

end WebBundle.Syntax.Erasure

namespace WebBundle.Syntax

/-- The text of a program without its types. -/
def Program.writeWithoutTypes? (program : Program) : Option String :=
  (Erasure.valueProgram? program.root.children).map fun statements =>
    Writing.scriptLine program.source.toList ++
      Writing.programText program.comments statements program.root.span.stop

end WebBundle.Syntax

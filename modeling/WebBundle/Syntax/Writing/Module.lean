import WebBundle.Syntax.Program
import WebBundle.Syntax.Writing.Statement

/-!
# Writing imports and exports
-/

namespace WebBundle.Syntax.Writing

/-- A name in an import or export list. -/
def moduleNameText (name : ModuleName) : String :=
  if name.quoted then stringText name.text false else name.text

/-- A name, and another one behind `as` unless it is the same. -/
def renamedText (first : String) (name : String) (second : String) (other : String) : String :=
  if name = other then first else first ++ " as " ++ second

/-- Names between braces. -/
def namesText (names : List String) : String :=
  if names.isEmpty then "\x7b\x7d" else "\x7b " ++ commaSeparated names ++ " \x7d"

/-- Whether an import specifier stands between braces. -/
def isNamed (specifier : Written) : Bool :=
  match specifier.kind with
  | .importNamed _ _ => true
  | _ => false

/-- What an import binds. -/
def clauseText (specifiers : List Written) (place : Place) : String :=
  let plain := (specifiers.filter fun specifier => !isNamed specifier).map fun specifier =>
    specifier.text place.enclosed
  let named := (specifiers.filter isNamed).map fun specifier => specifier.text place.enclosed
  commaSeparated (if specifiers.isEmpty || !named.isEmpty then plain ++ [namesText named] else plain)

/-- The attributes of an import. -/
def attributesText (attributes : Written) (place : Place) : String :=
  if attributes.isPresent then
    " with " ++ namesText (attributes.parts.map fun pair => pair.text place.enclosed)
  else ""

/-- A source with its attributes. -/
def sourceText (source attributes : Written) (place : Place) : String :=
  source.text place.enclosed ++ attributesText attributes place

/-- An import declaration. -/
def importDeclarationText (phase : String) (specifiers source attributes : Written)
    (place : Place) : String :=
  let clause := if specifiers.isPresent then clauseText specifiers.parts place ++ " from " else ""
  "import " ++ wordIf (phase ≠ "") phase ++ clause ++ sourceText source attributes place

/-- An export list. -/
def exportListText (specifiers source attributes : Written) (place : Place) : String :=
  let names := namesText (specifiers.parts.map fun specifier => specifier.text place.enclosed)
  let origin := if source.isPresent then " from " ++ sourceText source attributes place else ""
  "export " ++ names ++ origin

/-- What ends the line of an exported declaration. -/
def declarationEnd (declaration : Node) : String :=
  match declaration.kind with
  | .variableDeclaration _ _ => ";\n"
  | _ => "\n"

/-- A default export, and what ends its line. -/
def exportDefaultText (value : Written) (place : Place) : String × String :=
  match value.kind with
  | .function .declaration _ _ | .classDefinition .declaration _ =>
    ("export default " ++ value.text place.part, "\n")
  | _ =>
    ("export default " ++ value.text
      { depth := place.depth, level := Level.comma, opening := .defaultExport }, ";\n")

/-- The text of an import or an export, and what ends its line. -/
def moduleStatement? (node : Node) (parts : List Written) (place : Place) :
    Option (String × String) :=
  match node.kind, parts with
  | .importDeclaration _ phase, [specifiers, source, attributes] =>
    some (importDeclarationText phase specifiers source attributes place, ";\n")
  | .exportNamed _, [specifiers, source, attributes] =>
    some (exportListText specifiers source attributes place, ";\n")
  | .exportDeclaration, [declaration] =>
    some ("export " ++ declaration.text place.part, declarationEnd declaration.node)
  | .exportDefault, [value] => some (exportDefaultText value place)
  | .exportAll exported _, [source, attributes] =>
    let name := (exported.map fun name => " as " ++ moduleNameText name).getD ""
    some ("export *" ++ name ++ " from " ++ sourceText source attributes place, ";\n")
  | _, _ => none

/-- The text of a specifier or an attribute. -/
def specifierText? (node : Node) (parts : List Written) (place : Place) : Option String :=
  match node.kind, parts with
  | .importDefault, [name] => some (name.text place.enclosed)
  | .importNamespace, [name] => some ("* as " ++ name.text place.enclosed)
  | .importNamed imported _, [localName] =>
    let written := localName.text place.enclosed
    some (renamedText (moduleNameText imported) imported.text written written)
  | .exportSpecifier localName exported _, _ =>
    some (renamedText (moduleNameText localName) localName.text (moduleNameText exported)
      exported.text)
  | .attribute, [key, value] => some (key.text place.item ++ ": " ++ value.text place.item)
  | _, _ => none

/-- The text of a module statement. -/
def moduleText? (comments : Comments) (node : Node) (parts : List Written) (place : Place) :
    Option String :=
  match moduleStatement? node parts place with
  | some (text, ending) => some (line comments node.span.start place text ending)
  | none => specifierText? node parts place

/-! ## Trees and programs -/

/-- The text of a node from what its parts are. -/
def composed (comments : Comments) (node : Node) (parts : List Written) (place : Place) : String :=
  (simpleText? node.kind
    <|> operationText? node parts place
    <|> accessText? comments node parts place
    <|> compositeText? node parts place
    <|> patternText? node parts place
    <|> statementText? comments node parts place
    <|> moduleText? comments node parts place
    <|> functionText? comments node parts place
    <|> classText? comments node parts place
    <|> statementPart? node parts place).getD ""

mutual

/-- A tree as something that can be written. -/
def written (comments : Comments) : Node → Written
  | ⟨kind, span, children⟩ =>
    let node : Node := ⟨kind, span, children⟩
    let parts := writtenAll comments children
    .mk node parts (composed comments node parts)

/-- Several trees as something that can be written. -/
def writtenAll (comments : Comments) : List Node → List Written
  | [] => []
  | node :: rest => written comments node :: writtenAll comments rest

end

/-- The line at the start of a source that tells how to run it. -/
def scriptLine (source : List Char) : String :=
  match source with
  | '#' :: '!' :: _ => String.ofList (source.takeWhile (!isLineEnd ·)) ++ "\n"
  | _ => ""

/-- The text of a list of statements that is a program, with the comments in front of
its end. -/
def programText (comments : Comments) (statements : List Node) (stop : Nat) : String :=
  String.join (statementTexts (writtenAll comments statements) {}) ++ endComments comments 0 stop

end WebBundle.Syntax.Writing

namespace WebBundle.Syntax

/-- A program in its written form. -/
def Program.write (program : Program) : String :=
  Writing.scriptLine program.source.toList ++
    Writing.programText program.comments program.root.children program.root.span.stop

end WebBundle.Syntax

import WebBundle.Syntax.Erasure.Namespace
import WebBundle.Syntax.Scope

/-!
# Names of values and of types

An import stays only if its name is used as a value somewhere in the program.  An export
stays unless its name is known to types only: it is declared, but never as a value.
-/

namespace WebBundle.Syntax.Erasure

/-- Whether nodes of a kind may use a name at the top of the program. -/
def usesName : Kind → Bool
  | .reference _ => true
  | .exportNamed _ => true
  | _ => false

/-- The local names in an export list that are not marked as types. -/
def exportedLocals (specifiers : List Node) : List String :=
  specifiers.filterMap fun
    | ⟨.exportSpecifier name _ false, _, _⟩ => some name.text
    | _ => none

/-- The names at the top of the program that a node at a site uses as values. -/
def usedNames : Site → List String
  | ⟨⟨.reference name, _, _⟩, bound⟩ => if bound.contains name.text then [] else [name.text]
  | ⟨⟨.exportNamed false, _, [⟨_, _, specifiers⟩, ⟨.absent, _, _⟩, _]⟩, _⟩ =>
    exportedLocals specifiers
  | _ => []

/-- The names that an import binds, each with whether it is bound for types only. -/
def importedNames : Node → List (String × Bool)
  | ⟨.importDeclaration typeOnly _, _, ⟨_, _, specifiers⟩ :: _⟩ =>
    specifiers.flatMap fun
      | ⟨.importNamed _ marked, _, name⟩ => (allBoundNames name).map (·, typeOnly || marked)
      | ⟨_, _, name⟩ => (allBoundNames name).map (·, typeOnly)
  | ⟨.importEquals typeOnly _, _, name :: _⟩ => (boundNames name).map (·, typeOnly)
  | _ => []

/-- The names that a statement declares for types only. -/
def typeNames : Node → List String
  | ⟨.typeDeclaration _ name, _, _⟩ => [name]
  | ⟨.enumeration _ true, _, name :: _⟩ => boundNames name
  | ⟨.exportDeclaration, span, [⟨.typeDeclaration form name, _, _⟩]⟩ =>
    typeNames ⟨.typeDeclaration form name, span, []⟩
  | ⟨.exportDeclaration, _, [⟨.enumeration _ true, _, name :: _⟩]⟩ => boundNames name
  | ⟨.exportDeclaration, _, [declaration]⟩ =>
    if isTypeStatement declaration then declaredNames declaration else []
  | ⟨.exportDefault, _, [⟨.typeDeclaration _ name, _, _⟩]⟩ => [name]
  | statement => if isTypeStatement statement then declaredNames statement else []

/-- What the names at the top of a program stand for. -/
structure Usage where
  /-- Names that are used as values. -/
  used : List String
  /-- Names that are declared as values and not imported. -/
  values : List String
  /-- Names that are imported and may be values. -/
  imported : List String
  /-- Names that are declared or imported for types only. -/
  types : List String

/-- The usage of the names at the top of a program with some statements. -/
def Usage.ofStatements (statements : List Node) : Usage :=
  let imported := statements.flatMap importedNames
  { used := (sitesFromAll usesName [] [] 0 statements).flatMap usedNames
    values := statements.flatMap valueNames
    imported := (imported.filter fun entry => !entry.2).map Prod.fst
    types := (imported.filter fun entry => entry.2).map Prod.fst ++ statements.flatMap typeNames }

namespace Usage

/-- Whether an imported name is needed when types are gone. -/
def needsImport (usage : Usage) (name : String) : Bool :=
  usage.used.contains name && !usage.values.contains name

/-- Whether a name is known to types only. -/
def isType (usage : Usage) (name : String) : Bool :=
  usage.types.contains name && !usage.values.contains name && !usage.imported.contains name

end Usage

end WebBundle.Syntax.Erasure

import WebBundle.Scan.Hook
import WebBundle.Scan.View

/-!
# Scanning a program

The import and export declarations and the calls of a program are visited in
the order of the source.  Declarations give import records, edits and exports;
a call is shown to the hooks first and is then looked at as a possible
`require` call.
-/

namespace WebBundle.Scan

open Syntax

mutual

/-- The names that a pattern binds, apart from those of rest elements. -/
def singleNames : Node → List String
  | ⟨.binding name, _, _⟩ => [name]
  | ⟨.objectPattern, _, children⟩ => allSingleNames children
  | ⟨.arrayPattern, _, children⟩ => allSingleNames children
  | ⟨.patternProperty _ _, _, [_, value]⟩ => singleNames value
  | ⟨.defaulted, _, [pattern, _]⟩ => singleNames pattern
  | _ => []

/-- The names that several patterns bind, apart from those of rest elements. -/
def allSingleNames : List Node → List String
  | [] => []
  | pattern :: rest => singleNames pattern ++ allSingleNames rest

end

/-- The names that an exported declaration exports; rest elements are left out. -/
def declaredExports : Node → List String
  | ⟨.variableDeclaration _ _, _, declarators⟩ => declarators.flatMap fun
    | ⟨.declarator, _, pattern :: _⟩ => singleNames pattern
    | _ => []
  | declaration => declaredNames declaration

/-- The variable that holds the value of a nameless default export. -/
def defaultLocal : String := "__houdini_default__"

/-- What has been found so far. -/
structure Findings where
  records : List ImportRecord := []
  edits : List Edit := []
  hasDeclarations : Bool := false
  exports : List Export := []
  stars : List Nat := []
  /-- What the hooks did, all calls together. -/
  reaction : Reaction := {}
  /-- How many calls a hook accepted. -/
  accepted : Nat := 0

namespace Findings

/-- The number that the next record gets. -/
def nextRecord (findings : Findings) : Nat := findings.records.length

/-- Adds an import record. -/
def addRecord (findings : Findings) (record : ImportRecord) : Findings :=
  { findings with records := findings.records ++ [record] }

/-- Adds an edit. -/
def addEdit (findings : Findings) (edit : Edit) : Findings :=
  { findings with edits := findings.edits ++ [edit] }

/-- Adds exported names. -/
def addExports (findings : Findings) (exports : List Export) : Findings :=
  { findings with exports := findings.exports ++ exports }

/-- Adds a declaration that imports from a source. -/
def addImport (findings : Findings) (span : Span) (source : Node)
    (bindings : List ImportedBinding) : Findings :=
  match source with
  | ⟨.stringLiteral specifier _, sourceSpan, _⟩ =>
    (findings.addRecord ⟨specifier, .declaration, sourceSpan⟩).addEdit
      (.importing span findings.nextRecord bindings)
  | _ => findings

/-- The bindings of an import specifier. -/
def specifierBindings : Node → List ImportedBinding
  | ⟨.importDefault, _, [⟨.binding name, _, _⟩]⟩ => [⟨name, .default⟩]
  | ⟨.importNamespace, _, [⟨.binding name, _, _⟩]⟩ => [⟨name, .whole⟩]
  | ⟨.importNamed imported _, _, [⟨.binding name, _, _⟩]⟩ => [⟨name, .ofName imported.text⟩]
  | _ => []

/-- The names of an export list with a source. -/
def passedOnNames (record : Nat) : Node → List Export
  | ⟨.exportSpecifier localName exported _, _, _⟩ =>
    [.passedOn exported.text record (.ofName localName.text)]
  | _ => []

/-- The names of an export list without a source. -/
def localNames : Node → List Export
  | ⟨.exportSpecifier localName exported _, _, _⟩ => [.ofLocal exported.text localName.text]
  | _ => []

/-- The name of the function or class that is exported by default. -/
def defaultName? : Node → Option String
  | ⟨.function .declaration _ _, _, ⟨.binding name, _, _⟩ :: _⟩ => some name
  | ⟨.classDefinition .declaration _, _, _ :: ⟨.binding name, _, _⟩ :: _⟩ => some name
  | _ => none

/-- What stands in front of an exported declaration. -/
def exportWords (declaration inner : Node) : Span := ⟨declaration.span.start, inner.span.start⟩

/-- Adds an import or export declaration. -/
def addDeclaration (findings : Findings) (node : Node) : Findings :=
  let findings := { findings with hasDeclarations := true }
  match node with
  | ⟨.importDeclaration _ _, span, specifiers :: source :: _⟩ =>
    findings.addImport span source (specifiers.children.flatMap specifierBindings)
  | ⟨.exportNamed _, span, specifiers :: source :: _⟩ =>
    if source.isPresent then
      (findings.addExports (specifiers.children.flatMap (passedOnNames findings.nextRecord))).addImport
        span source []
    else
      (findings.addExports (specifiers.children.flatMap localNames)).addEdit (.replace span "")
  | ⟨.exportDeclaration, _, [inner]⟩ =>
    (findings.addExports ((declaredExports inner).map fun name => .ofLocal name name)).addEdit
      (.replace (exportWords node inner) "")
  | ⟨.exportDefault, _, [inner]⟩ =>
    match defaultName? inner with
    | some name =>
      (findings.addEdit (.replace (exportWords node inner) "")).addExports
        [.ofLocal "default" name]
    | none =>
      (findings.addEdit (.replace (exportWords node inner) ("var " ++ defaultLocal ++ " = "))).addExports
        [.ofLocal "default" defaultLocal]
  | ⟨.exportAll (some exported) _, span, source :: _⟩ =>
    (findings.addExports [.passedOn exported.text findings.nextRecord .whole]).addImport span source []
  | ⟨.exportAll none _, span, source :: _⟩ =>
    { findings with stars := findings.stars ++ [findings.nextRecord] }.addImport span source []
  | _ => findings

/-- The specifier of a call of the global `require` with one known text. -/
def requiredSpecifier? (site : Site) : Option String :=
  match site.node with
  | ⟨.call _, _, [⟨.reference callee, _, _⟩, ⟨_, _, [argument]⟩]⟩ =>
    match argument.kind with
    | .spread => none
    | _ =>
      if callee.text ≠ "require" || site.bound.contains "require" then none
      else (evaluate site.bound argument).text?
  | _ => none

/-- Adds a call if it is a `require` call. -/
def addRequire (findings : Findings) (site : Site) : Findings :=
  match requiredSpecifier? site with
  | some specifier =>
    (findings.addRecord ⟨specifier, .requireCall, site.node.span⟩).addEdit
      (.requiring site.node.span findings.nextRecord)
  | none => findings

/-- Adds what the hooks did with a call. -/
def addReaction (findings : Findings) (reaction : Reaction) : Findings :=
  { findings with
    reaction := findings.reaction.followedBy reaction
    accepted := findings.accepted + if reaction.isAccepted then 1 else 0 }

end Findings

/-- Whether scanning looks at nodes of a kind. -/
def isScanned : Kind → Bool
  | .call _ | .importDeclaration _ _ | .exportNamed _ | .exportDeclaration | .exportDefault
  | .exportAll _ _ => true
  | _ => false

/-- Looks at one node. -/
def visit {σ : Type} (hooks : List (Hook σ)) (found : Findings × σ) (site : Site) :
    Findings × σ :=
  let (findings, state) := found
  if isCall site.node.kind then
    let (findings, state) := match selected? site with
      | some selected =>
        let (reaction, state) := runHooks (.ofSite site selected) hooks state
        (findings.addReaction reaction, state)
      | none => (findings, state)
    (findings.addRequire site, state)
  else (findings.addDeclaration site.node, state)

/-- Scans a program. -/
def scan {σ : Type} (hooks : List (Hook σ)) (program : Program) (state : σ) : Findings × σ :=
  (program.sites isScanned).foldl (visit hooks) ({}, state)

namespace Findings

/-- The import records of the variables that hooks bound. -/
def variableRecords (findings : Findings) : List ImportRecord :=
  findings.reaction.boundRequests.map fun (_, request) => ⟨request, .generated, ⟨0, 0⟩⟩

/-- Whether the findings depend on the source alone. -/
def isCacheable (findings : Findings) : Bool :=
  findings.accepted = 0 && findings.reaction.warnings.isEmpty

/-- The view of a module: the variables of the hooks are its last imports, and
their replacements its last edits. -/
def toView (findings : Findings) (source : String) : View :=
  { source
    records := findings.records ++ findings.variableRecords
    edits := findings.edits ++ findings.reaction.replacements.map fun (span, text) =>
      .replace span text
    hasDeclarations := findings.hasDeclarations
    exports := findings.exports
    stars := findings.stars
    boundRecords := (findings.reaction.boundRequests.map Prod.fst).zipIdx findings.nextRecord
    isCacheable := findings.isCacheable }

end Findings

end WebBundle.Scan

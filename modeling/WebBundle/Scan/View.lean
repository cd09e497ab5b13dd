import WebBundle.Syntax.Tree

/-!
# What is known of a scanned module

The view of a module lists what it imports, what it exports and how its source
is edited before it becomes part of the output.  Imports are numbered by their
place in the list of records.
-/

namespace WebBundle.Scan

open Syntax (Span)

/-- Ways to ask for another module. -/
inductive ImportForm where
  | declaration
  | requireCall
  /-- A variable that a plugin binds to a generated request. -/
  | generated
  deriving DecidableEq, Repr, Inhabited

/-- A request for another module. -/
structure ImportRecord where
  specifier : String
  form : ImportForm
  span : Span
  deriving DecidableEq, Repr, Inhabited

/-- What is taken from an imported module. -/
inductive Imported where
  | default
  | whole
  | named (name : String)
  deriving DecidableEq, Repr, Inhabited

namespace Imported

/-- The export of a name. -/
def ofName (name : String) : Imported :=
  if name = "default" then .default else .named name

end Imported

/-- A local name for something imported. -/
structure ImportedBinding where
  localName : String
  imported : Imported
  deriving DecidableEq, Repr, Inhabited

/-- An edit of the source; `record` is the number of an import. -/
inductive Edit where
  | replace (span : Span) (text : String)
  /-- The declaration becomes variables that hold the module and the bindings. -/
  | importing (span : Span) (record : Nat) (bindings : List ImportedBinding)
  /-- The call becomes a call of the runtime. -/
  | requiring (span : Span) (record : Nat)
  deriving DecidableEq, Repr, Inhabited

namespace Edit

/-- The range of the source that an edit replaces. -/
def span : Edit → Span
  | replace span _ => span
  | importing span _ _ => span
  | requiring span _ => span

end Edit

/-- An exported name. -/
inductive Export where
  | ofLocal (exported localName : String)
  | passedOn (exported : String) (record : Nat) (imported : Imported)
  deriving DecidableEq, Repr, Inhabited

/-- What scanning a module gives. -/
structure View where
  source : String
  records : List ImportRecord := []
  edits : List Edit := []
  /-- Whether the module has import or export declarations. -/
  hasDeclarations : Bool := false
  exports : List Export := []
  /-- The imports of which everything is exported. -/
  stars : List Nat := []
  /-- Variables that plugins bind to imports. -/
  boundRecords : List (String × Nat) := []
  /-- Whether the view depends on the source alone. -/
  isCacheable : Bool := true
  deriving DecidableEq, Repr, Inhabited

end WebBundle.Scan

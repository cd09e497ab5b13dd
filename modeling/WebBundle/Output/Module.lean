import WebBundle.Graph.Basic
import WebBundle.Options
import WebBundle.Output.Chunk
import WebBundle.Output.Splice

/-!
# Code of modules

A module becomes a function of `module`, `exports` and the runtime.  Its source
is spliced: import declarations become variables, `require` calls become calls
of the runtime, and what only exports something is taken out.  In front of the
source stand the variables of plugins and the getters of the exports, behind it
the exports of whole modules.
-/

namespace WebBundle.Output

open Scan

/-- The variable that holds an imported module. -/
def importVariable (record : Nat) : String :=
  "__houdini_import_" ++ toString record ++ "__"

/-- The call that requires the module with a stable id. -/
def requireCode (stableId : String) : String :=
  runtimeNames.require ++ "(" ++ Quoted.literal stableId ++ ")"

/-- The value of something imported from a module that a variable holds. -/
def importedValue (holder : String) : Imported → String
  | .default => runtimeNames.defaultOf ++ "(" ++ holder ++ ")"
  | .whole => holder
  | .named name => Quoted.access holder name

/-- A function that runs a module. -/
def moduleFunction (body : String) : String :=
  "function (module, exports, " ++ runtimeNames.require ++ ") \x7b\n" ++ body ++ "\n\x7d"

/-- The declaration that stands for an import declaration. -/
def importCode (target : Nat → String) (record : Nat) (bindings : List ImportedBinding) : String :=
  let holder := importVariable record
  "var " ++ holder ++ " = " ++ requireCode (target record) ++ ";" ++
    String.join (bindings.map fun binding =>
      " var " ++ binding.localName ++ " = " ++ importedValue holder binding.imported ++ ";")

/-- The text that an edit puts in place of its range; `target` gives the stable
id behind an import record. -/
def editText (target : Nat → String) : Edit → String
  | .replace _ text => text
  | .importing _ record bindings => importCode target record bindings
  | .requiring _ record => requireCode (target record)

/-- The getter of an exported name. -/
def getterCode : Export → String
  | .ofLocal exported localName => Quoted.literal exported ++ ": () => " ++ localName
  | .passedOn exported record imported =>
    Quoted.literal exported ++ ": () => " ++ importedValue (importVariable record) imported

/-- What stands in front of the source. -/
def prologue (target : Nat → String) (view : View) : String :=
  let bound := view.boundRecords.map fun (name, record) =>
    "var " ++ name ++ " = " ++ requireCode (target record) ++ ";\n"
  let mark := if view.hasDeclarations then runtimeNames.markNamespace ++ "(exports);\n" else ""
  let getters := if view.exports.isEmpty then ""
    else runtimeNames.defineGetters ++ "(exports, \x7b " ++
      String.intercalate ", " (view.exports.map getterCode) ++ " \x7d);\n"
  String.join bound ++ mark ++ getters

/-- What stands behind the source. -/
def epilogue (view : View) : String :=
  String.join (view.stars.map fun record =>
    "\n" ++ runtimeNames.exportAll ++ "(exports, " ++ importVariable record ++ ");")

/-- The edits of a view as replacements. -/
def replacements (target : Nat → String) (view : View) : List Replacement :=
  view.edits.map fun edit => ⟨edit.span, (editText target edit).toList⟩

/-- The source of a script with its edits. -/
def editedSource (target : Nat → String) (view : View) : String :=
  String.ofList (splice (replacements target view) 0 view.source.toList)

/-- The function of a script. -/
def scriptCode (target : Nat → String) (view : View) : String :=
  moduleFunction (prologue target view ++ editedSource target view ++ epilogue view)

/-- The function of an emitted file: its url, or the compiled module behind it. -/
def assetCode (filename : String) (loading : WasmLoading) : String :=
  let url := runtimeNames.publicPath ++ " + " ++ Quoted.literal filename
  let value := match loading with
    | .fetch => runtimeNames.compileWasm ++ "(" ++ url ++ ")"
    | .none => url
  moduleFunction ("module.exports = " ++ value ++ ";")

end WebBundle.Output

import WebBundle.Module.Id
import WebBundle.Scan.View
import WebBundle.Text.Printable
import WebBundle.Text.Quoted

/-!
# Events

A plugin that is given by rules keeps a record of what it was asked.
-/

namespace WebBundle

/-- What a plugin was asked. -/
inductive Event where
  | start
  | resolve (specifier : String) (importer : Option ModuleId) (form : Scan.ImportForm)
  | load (id : ModuleId)
  /-- The value is the text of the first argument, if it is known. -/
  | call (selector member : String) (value : Option String)
  deriving DecidableEq, Repr

/-- The name of a way to import. -/
def importFormName : Scan.ImportForm → String
  | .declaration => "import-statement"
  | .requireCall => "require-call"
  | .generated => "parsed-variable"

/-- The line that reports an event. -/
def Event.text : Event → String
  | .start => "build_start"
  | .resolve specifier importer form =>
    "resolve_id " ++ Printable.quote specifier ++ " from " ++
      Printable.quote ((importer.map ModuleId.text).getD "-") ++ " as " ++ importFormName form
  | .load id => "load " ++ Printable.quote id.text
  | .call selector member value =>
    "call " ++ selector ++ "." ++ member ++ " " ++ (value.map Quoted.literal).getD "null"

end WebBundle

import WebBundle.Path

/-!
# Module ids

A module is identified by the absolute path of its file, or by a virtual id
that starts with NUL when a plugin provides it.  The stable id of a module does
not depend on where the build runs: a file is named relative to the working
directory and a virtual module loses its leading NULs.
-/

namespace WebBundle

/-- The identity of a module. -/
structure ModuleId where
  text : String
  deriving DecidableEq, Repr, Hashable, Inhabited

namespace ModuleId

/-- Virtual modules are provided by plugins. -/
def isVirtual (id : ModuleId) : Bool :=
  match id.text.toList with
  | '\x00' :: _ => true
  | _ => false

/-- Makes a relative path visibly relative. -/
def withDot (path : String) : String :=
  match path.toList with
  | '.' :: _ => path
  | _ => "./" ++ path

/-- The id under which a module is known in the output. -/
def stabilize (id : ModuleId) (workingDirectory : String) : String :=
  if id.isVirtual then String.ofList (id.text.toList.dropWhile (· = '\x00'))
  else if Path.isAbsolute id.text then withDot (Path.relative id.text workingDirectory)
  else id.text

end ModuleId

end WebBundle

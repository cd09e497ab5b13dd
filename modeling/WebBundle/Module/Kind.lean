/-!
# Kinds of modules

The kind of a module says how its content is read.  It is guessed from the text
behind the last dot of an id.
-/

namespace WebBundle

/-- How the content of a module is read. -/
inductive ModuleKind where
  | script
  | typedScript
  | json
  | wasm
  | empty
  deriving DecidableEq, Repr

namespace ModuleKind

/-- The kind of a file extension, given without its dot. -/
def ofExtension? (extension : String) : Option ModuleKind :=
  if extension ∈ ["js", "mjs", "cjs"] then some .script
  else if extension ∈ ["ts", "mts", "cts"] then some .typedScript
  else if extension = "json" then some .json
  else if extension = "wasm" then some .wasm
  else none

/-- The text behind the last dot, if there is a dot. -/
def lastExtension? (id : List Char) : Option (List Char) :=
  if '.' ∈ id then some (id.reverse.takeWhile (· ≠ '.')).reverse else none

/-- The kind that the end of an id suggests. -/
def ofId? (id : String) : Option ModuleKind :=
  (lastExtension? id.toList).bind fun extension => ofExtension? (String.ofList extension)

/-- Whether calls in modules of this kind are shown to plugins. -/
def isScript : ModuleKind → Bool
  | .script | .typedScript => true
  | _ => false

/-- The media type that names a kind. -/
def mediaType : ModuleKind → String
  | .script => "javascript/auto"
  | .typedScript => "javascript/typescript"
  | .json => "json"
  | .wasm => "webassembly/async"
  | .empty => "empty"

end ModuleKind

end WebBundle

import WebBundle.Json.Document
import WebBundle.Module.Kind
import WebBundle.Syntax.Erasure.Module

/-!
# Sources of modules

Every module but an emitted file is read as a script.  A JSON document becomes
a script that exports it, an empty module becomes an empty script, and types are
taken out of a script before it is read as a plain one.
-/

namespace WebBundle.ModuleSource

open Syntax

/-- Why a source is not a module. -/
inductive Fault where
  | notScript
  | notJson
  /-- Types cannot be taken out. -/
  | notErasable
  deriving DecidableEq, Repr

/-- The message of a fault in the file at a path. -/
def Fault.message (path : String) : Fault → String
  | .notScript => "Failed to parse"
  | .notErasable => "Failed to transform"
  | .notJson => "Failed to parse JSON file " ++ path

/-- A source as a program whose declarations do not clash. -/
def readProgram (hasTypes : Bool) (source : String) : Except Fault Program :=
  match Program.read? hasTypes source with
  | some program => if program.isValid then .ok program else .error .notScript
  | none => .error .notScript

/-- A source without types as a program. -/
def readScript (source : String) : Except Fault Program := readProgram false source

/-- A source with types as a program without them. -/
def readTypedScript (source : String) : Except Fault Program :=
  match readProgram true source with
  | .error fault => .error fault
  | .ok program =>
    match program.writeWithoutTypes? with
    | some text => readScript text
    | none => .error .notErasable

/-- A text without the white space around it. -/
def trim (text : List Char) : List Char :=
  (text.dropWhile Json.isBlank).reverse.dropWhile Json.isBlank |>.reverse

/-- The script that exports a JSON document. -/
def jsonScript (text : String) : String :=
  "module.exports = " ++ String.ofList (trim text.toList) ++ ";"

/-- The program that a source of some kind stands for. -/
def read (kind : ModuleKind) (source : String) : Except Fault Program :=
  match kind with
  | .json =>
    match Json.readDocument? source with
    | some _ => readScript (jsonScript source)
    | none => .error .notJson
  | .empty => readScript ""
  | .typedScript => readTypedScript source
  | .script | .wasm => readScript source

end WebBundle.ModuleSource

import WebBundle.Json.Record
import WebBundle.Text.Quoted

/-!
# Worklet requests

A rewritten module asks for a worklet by a loader request, and the request
resolves to a virtual module.  Both carry a JSON query between a fixed start and
an exclamation mark; everything behind the mark is the request of the worklet
itself, which may contain more of them.
-/

namespace WebBundle.Worklet

/-- The query of a loader request. -/
structure LoaderQuery where
  name : String
  deriving DecidableEq, Repr

/-- The query of a virtual worklet module. -/
structure ModuleQuery where
  name : String
  /-- Directory of the rewritten module, relative to the working directory. -/
  context : String
  deriving DecidableEq, Repr

/-- How a loader request starts. -/
def loaderStart : List Char := "css-worklet-loader?".toList

/-- How the id of a worklet module starts. -/
def moduleStart : List Char := '\x00' :: "css-worklet?".toList

/-- A member of the object that spells a query. -/
private def spellMember (key value : String) : List Char :=
  Quoted.encode key.toList ++ ':' :: Quoted.encode value.toList

/-- The JSON text of a loader query. -/
def LoaderQuery.spell (query : LoaderQuery) : List Char :=
  '\x7b' :: spellMember "name" query.name ++ ['\x7d']

/-- The JSON text of a module query. -/
def ModuleQuery.spell (query : ModuleQuery) : List Char :=
  '\x7b' :: spellMember "name" query.name ++ ',' :: spellMember "context" query.context ++ ['\x7d']

/-- The query that a JSON value gives for a loader request. -/
def LoaderQuery.ofJson? (json : Json) : Option LoaderQuery :=
  match Json.fields? ["name"] true json with
  | some [some (.string (some name))] => some ⟨name⟩
  | _ => none

/-- The query that a JSON value gives for a worklet module. -/
def ModuleQuery.ofJson? (json : Json) : Option ModuleQuery :=
  match Json.fields? ["name", "context"] true json with
  | some [some (.string (some name)), some (.string (some context))] => some ⟨name, context⟩
  | _ => none

/-- The text behind a fixed start. -/
def behind? : (start text : List Char) → Option (List Char)
  | [], text => some text
  | _ :: _, [] => none
  | expected :: start, c :: text => if c = expected then behind? start text else none

/-- A JSON value behind a fixed start, and the text behind the mark after it. -/
def split? (start text : List Char) : Option (Json × List Char) :=
  match behind? start text with
  | none => none
  | some text =>
    match Json.readPart? text with
    | some (json, '!' :: request) => some (json, request)
    | _ => none

/-- Whether a specifier is meant to be a loader request. -/
def isLoaderRequest (specifier : String) : Bool :=
  (behind? loaderStart specifier.toList).isSome

/-- Whether an id is meant to be that of a worklet module. -/
def isModuleId (id : String) : Bool :=
  (behind? moduleStart id.toList).isSome

/-- Writes a loader request. -/
def encodeLoaderRequest (query : LoaderQuery) (request : String) : String :=
  String.ofList (loaderStart ++ query.spell ++ '!' :: request.toList)

/-- Reads a loader request. -/
def decodeLoaderRequest? (specifier : String) : Option (LoaderQuery × String) :=
  match split? loaderStart specifier.toList with
  | some (json, request) => (LoaderQuery.ofJson? json).map (·, String.ofList request)
  | none => none

/-- Writes the id of a worklet module. -/
def encodeModuleId (query : ModuleQuery) (request : String) : String :=
  String.ofList (moduleStart ++ query.spell ++ '!' :: request.toList)

/-- Reads the id of a worklet module. -/
def decodeModuleId? (id : String) : Option (ModuleQuery × String) :=
  match split? moduleStart id.toList with
  | some (json, request) => (ModuleQuery.ofJson? json).map (·, String.ofList request)
  | none => none

end WebBundle.Worklet

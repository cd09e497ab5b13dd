import WebBundle.Diagnostics
import WebBundle.Filename.Worklet
import WebBundle.Module.Id
import WebBundle.Options
import WebBundle.Text.Printable
import WebBundle.Worklet.Request

/-!
# Compiling worklets

A worklet is compiled by a build of its own.  This module says which build that
is, what its outcome means for the module that refers to the worklet, and which
code stands for the worklet there.  Plugins of the nested build are given
directly or by the name of a plugin of the build around it.
-/

namespace WebBundle.Worklet

/-- A plugin that takes part in the builds of worklets. -/
inductive Forwarded (π : Type) where
  | direct (plugin : π)
  /-- The first plugin of the surrounding build with this name. -/
  | named (name : String)
  deriving DecidableEq, Repr

/-- Settings for worklets. -/
structure Settings (π : Type) where
  /-- The global object of worklets, `self` if none is given. -/
  globalObject : Option String := none
  plugins : List (Forwarded π) := []
  deriving DecidableEq, Repr

/-- The names in a list of JSON strings. -/
private def names? : List Json → Option (List String)
  | [] => some []
  | .string (some name) :: rest => (names? rest).map (name :: ·)
  | _ :: _ => none

/-- A text or null. -/
private def optionalText? : Json → Option (Option String)
  | .null => some none
  | .string (some text) => some (some text)
  | _ => none

/-- Reads settings from JSON; plugins can only be given by name there.  The
array form must give the global object. -/
def Settings.read? {π : Type} (text : String) : Option (Settings π) := do
  let json ← Json.read? text
  let fields ← Json.fields? ["globalObject", "plugins"] false json
  let (globalObject, plugins) ← match json, fields with
    | .array [], _ => none
    | _, [globalObject, plugins] => some (globalObject, plugins)
    | _, _ => none
  let globalObject ← optionalText? (globalObject.getD .null)
  let plugins ← match plugins with
    | none => some []
    | some (.array items) => names? items
    | some _ => none
  some { globalObject, plugins := plugins.map .named }

/-- A worklet that could not be compiled. -/
inductive Failure where
  | noEntry (request : String)
  | failed (request : String) (cause : Report)
  | cancelled (request : String)
  | invalidRequest (id : String)
  deriving DecidableEq, Repr

/-- The message of a failure. -/
def Failure.message : Failure → String
  | .noEntry request => "CssWorkletPlugin: no entry for " ++ request
  | .failed request cause => "CssWorkletPlugin: failed to compile " ++ request ++ ": " ++ cause.text
  | .cancelled request => "CssWorkletPlugin: compilation of " ++ request ++ " was cancelled"
  | .invalidRequest id => "CssWorkletPlugin: invalid worklet request " ++ Printable.quote id

/-- The name under which worklet builds and their warnings are known. -/
def pluginName : String := "css-worklet-plugin"

/-- The build that compiles one worklet. -/
structure Job (π : Type) where
  context : String
  entryName : String
  request : String
  entryFilenames : String
  chunkFilenames : String
  globalObject : String
  platform : Platform
  wasmLoading : WasmLoading
  plugins : List π
  cacheNamespace : String
  deriving DecidableEq, Repr

/-- The settings of the nested build that runs a job. -/
def Job.options {π : Type} (job : Job π) (parent : Options) : Options :=
  { input := [⟨some job.entryName, job.request⟩]
    workingDirectory := parent.workingDirectory
    context := job.context
    platform := job.platform
    entryFilenames := job.entryFilenames
    chunkFilenames := job.chunkFilenames
    assetFilenames := parent.assetFilenames
    directory := parent.directory
    publicPath := parent.publicPath
    globalObject := job.globalObject
    wasmLoading := job.wasmLoading }

/-- The warning for a build whose global object does not exist in worklets. -/
def globalObjectWarning : Report :=
  { message := "Warning (css-worklet-plugin): global_object is set to \"window\". " ++
      "It must be set to \"self\" to support HMR in Worklets." }

/-- The warning for a forwarded plugin that the surrounding build does not have. -/
def missingPluginWarning (name : String) : Report :=
  { message := "Warning (css-worklet-plugin): Plugin " ++ Printable.quote name ++ " is not found." }

/-- Finds the forwarded plugins among those of the surrounding build; a name
that is not found gives a warning. -/
def forward {π : Type} (available : List (String × π)) :
    List (Forwarded π) → Diagnostics → List π × Diagnostics
  | [], diagnostics => ([], diagnostics)
  | .direct plugin :: rest, diagnostics =>
    let (plugins, diagnostics) := forward available rest diagnostics
    (plugin :: plugins, diagnostics)
  | .named name :: rest, diagnostics =>
    match available.find? fun candidate => candidate.1 = name with
    | some (_, plugin) =>
      let (plugins, diagnostics) := forward available rest diagnostics
      (plugin :: plugins, diagnostics)
    | none => forward available rest (diagnostics.warn (missingPluginWarning name))

/-- Warns once a session when the surrounding build uses `window`. -/
def checkGlobalObject {π : Type} (settings : Settings π) (parent : Options)
    (diagnostics : Diagnostics) : Diagnostics :=
  if settings.globalObject = none && parent.globalObject = "window" then
    (diagnostics.warnOnce "css-worklet-plugin:global-object" globalObjectWarning).2
  else diagnostics

/-- The job that compiles a worklet, with the warnings given on the way. -/
def plan {π : Type} (settings : Settings π) (parent : Options) (available : List (String × π))
    (query : ModuleQuery) (request : String) (diagnostics : Diagnostics) :
    Job π × Diagnostics :=
  let (plugins, diagnostics) :=
    forward available settings.plugins (checkGlobalObject settings parent diagnostics)
  let chunkFilenames := Filename.workletChunkTemplate parent.chunkFilenames
  ({ context := Path.join parent.workingDirectory query.context
     entryName := query.name
     request
     entryFilenames := Filename.workletEntryTemplate chunkFilenames
     chunkFilenames
     globalObject := settings.globalObject.getD "self"
     platform := .worker
     wasmLoading := .fetch
     plugins
     cacheNamespace := "subcache " ++ pluginName ++ " " ++ request }, diagnostics)

/-- What a nested build came to: the files of each entry, or its errors. -/
structure Compilation where
  entries : List (List String) := []
  errors : List Report := []
  deriving DecidableEq, Repr

/-- The first file of the first entry. -/
def Compilation.firstFile? (compilation : Compilation) : Option String :=
  compilation.entries.head?.bind List.head?

/-- The file of a worklet whose build has ended; `cancelled` says whether the
build was cancelled by then. -/
def conclude (request : String) (cancelled : Bool) :
    Except Report Compilation → Except Failure String
  | .error cause => .error (if cancelled then .cancelled request else .failed request cause)
  | .ok compilation =>
    match compilation.errors, compilation.firstFile? with
    | cause :: _, _ => .error (.failed request cause)
    | [], some file => .ok file
    | [], none => .error (.noEntry request)

/-- The code of the module that stands for a worklet file. -/
def moduleCode (file : String) : String :=
  "module.exports = __houdini_require__.p + " ++ Quoted.literal file ++ ";"

/-- The virtual module a loader request resolves to, or nothing for any other
specifier.  The context is the directory of the importing file. -/
def resolve? (options : Options) (importer : Option ModuleId) (specifier : String) :
    Except Failure (Option ModuleId) :=
  if isLoaderRequest specifier then
    match decodeLoaderRequest? specifier with
    | none => .error (.invalidRequest specifier)
    | some (query, request) =>
      let directory := match importer with
        | some id =>
          if id.isVirtual then options.context else (Path.parent? id.text).getD options.context
        | none => options.context
      let context := Path.relative directory options.workingDirectory
      .ok (some ⟨encodeModuleId ⟨query.name, context⟩ request⟩)
  else .ok none

/-- The worklet that an id stands for, or nothing for any other id. -/
def query? (id : ModuleId) : Except Failure (Option (ModuleQuery × String)) :=
  if isModuleId id.text then
    match decodeModuleId? id.text with
    | none => .error (.invalidRequest id.text)
    | some found => .ok (some found)
  else .ok none

end WebBundle.Worklet

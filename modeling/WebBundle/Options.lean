import WebBundle.Path
import WebBundle.Json.Document
import WebBundle.Json.Record

/-!
# Options of a build

A build is told where it runs, what its entries are, which environment the
output is for and how its files are named.
-/

namespace WebBundle

/-- The environment the output runs in. -/
inductive Platform where
  | browser
  | node
  | neutral
  | worker
  deriving DecidableEq, Repr, Inhabited

namespace Platform

/-- The name of a platform in JSON. -/
def ofName? (name : String) : Option Platform :=
  if name = "browser" then some .browser
  else if name = "node" then some .node
  else if name = "neutral" then some .neutral
  else if name = "worker" then some .worker
  else none

/-- The object that holds the globals of a platform. -/
def globalObject : Platform → String
  | .browser => "window"
  | .node => "global"
  | .neutral => "globalThis"
  | .worker => "self"

end Platform

/-- How emitted WebAssembly files reach a script: compiled or as a bare url. -/
inductive WasmLoading where
  | fetch
  | none
  deriving DecidableEq, Repr, Inhabited

/-- The name of a loading mode in JSON. -/
def WasmLoading.ofName? (name : String) : Option WasmLoading :=
  if name = "fetch" then some .fetch
  else if name = "none" then some .none
  else Option.none

/-- The value of a choice that is spelled in a JSON document. -/
def readChoice? {α : Type} (ofName? : String → Option α) (text : String) : Option α :=
  ((Json.read? text).bind Json.choice?).bind ofName?

/-- An entry of a build: what to start from and how to call its chunk. -/
structure Entry where
  name : Option String := Option.none
  request : String
  deriving DecidableEq, Repr, Inhabited

/-- The settings of one build. -/
structure Options where
  input : List Entry := []
  workingDirectory : String
  /-- The directory from which entries are looked up. -/
  context : String := workingDirectory
  platform : Platform := .browser
  entryFilenames : String := "[name].js"
  chunkFilenames : String := "[name]-[hash].js"
  assetFilenames : String := "assets/[name]-[hash][extname]"
  directory : String := "dist"
  publicPath : String := ""
  globalObject : String := platform.globalObject
  wasmLoading : WasmLoading := .fetch
  deriving DecidableEq, Repr, Inhabited

namespace Options

/-- The directory that the output is written to. -/
def outputDirectory (options : Options) : String :=
  Path.join options.workingDirectory options.directory

/-- Whether the public path is found out when the output runs. -/
def hasAutoPublicPath (options : Options) : Bool := options.publicPath = "auto"

end Options

end WebBundle

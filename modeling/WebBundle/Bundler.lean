import WebBundle.Build.Run

/-!
# Bundlers

A bundler runs builds of one project, one after the other.  It keeps the cache
and what its plugins remember.  Each build has diagnostics of its own, and its
cancellation does not reach the next build.  The files of a build are written
only if the whole build succeeded.
-/

namespace WebBundle

/-- The files of a build, and its warnings. -/
structure Bundle where
  assets : List Asset
  warnings : List Report

/-- The builds of a project, where they stand. -/
structure Bundler where
  options : Options
  /-- All plugins that can be referred to. -/
  registry : List Plugin := []
  /-- The numbers of the plugins that builds start with. -/
  plugins : List Nat := []
  cache : Cache := .empty
  memory : PluginMemory := {}
  /-- Whether the next build is cancelled. -/
  isCancelled : Bool := false

namespace Bundler

/-- Cancels the next build. -/
def cancel (bundler : Bundler) : Bundler := { bundler with isCancelled := true }

/-- What plugins were asked since the last time, as lines. -/
def takeEvents (bundler : Bundler) : List String × Bundler :=
  (bundler.memory.events.map fun (name, event) => name ++ ": " ++ event.text,
    { bundler with memory := { bundler.memory with events := [] } })

/-- What the builds of a bundler are told. -/
def plan (bundler : Bundler) : BuildPlan :=
  { options := bundler.options, plugins := bundler.plugins }

/-- What a build that has ended gives. -/
def result (outcome : Outcome) (diagnostics : Diagnostics) : Except (List Report) Bundle :=
  match outcome with
  | .assets assets => .ok ⟨assets, diagnostics.take.1⟩
  | .reports reports => .error reports
  | .cancelled => .error [cancelledReport]

/-- Builds the project as its files stand; nothing if the limit is too small. -/
def generate (limit : Nat) (files : FileTree) (bundler : Bundler) :
    Option (Except (List Report) Bundle × Bundler) :=
  let session : Session := { cache := bundler.cache, plugins := bundler.memory }
  (World.run ⟨bundler.registry, files⟩ limit bundler.plan bundler.isCancelled session).map
    fun (ended, session) =>
      let session := session.settle
      (result ended.outcome session.diagnostics,
        { bundler with cache := session.cache, memory := session.plugins, isCancelled := false })

/-- A fault of the file tree, with what was tried. -/
def faultReport (tried path : String) (fault : FileFault) : Report :=
  ({ message := fault.message } : Report).within ("Failed to " ++ tried ++ " " ++ path)

/-- Writes a file below a directory. -/
def writeAsset (directory : String) (files : FileTree) (asset : Asset) :
    Except Report Unit × FileTree :=
  let path := Path.join directory asset.filename
  let parent := (Path.parent? path).getD ""
  match files.createDirectories parent with
  | .error fault => (.error (faultReport "create directory" parent fault), files)
  | .ok files =>
    match files.write path asset.content with
    | .error fault => (.error (faultReport "write" path fault), files)
    | .ok files => (.ok (), files)

/-- Writes files one after the other until one cannot be written; those before it stay. -/
def writeInTurn (write : FileTree → Asset → Except Report Unit × FileTree) :
    List Asset → FileTree → Except Report Unit × FileTree
  | [], files => (.ok (), files)
  | asset :: rest, files =>
    match write files asset with
    | (.error report, files) => (.error report, files)
    | (.ok (), files) => writeInTurn write rest files

/-- Writes files below a directory. -/
def writeAssets (directory : String) : List Asset → FileTree → Except Report Unit × FileTree :=
  writeInTurn (writeAsset directory)

/-- Builds the project and writes its files to the output directory. -/
def write (limit : Nat) (files : FileTree) (bundler : Bundler) :
    Option (Except (List Report) Bundle × FileTree × Bundler) :=
  (bundler.generate limit files).map fun (result, bundler) =>
    match result with
    | .error reports => (.error reports, files, bundler)
    | .ok bundle =>
      match writeAssets bundler.options.outputDirectory bundle.assets files with
      | (.ok (), files) => (.ok bundle, files, bundler)
      | (.error report, files) => (.error [report], files, bundler)

end Bundler

end WebBundle

import WebBundle.Build.Session
import WebBundle.Module.Source
import WebBundle.Output.Asset
import WebBundle.Resolver.Basic
import WebBundle.Scan.Findings

/-!
# Builds

A build starts its plugins, resolves its entries, loads the graph of modules and
generates the output.  Plugins answer first; the resolver and the file tree
answer what they leave.  A plugin for worklets loads a worklet module by a
nested build, which differs from the build around it only in its settings and
uses a partition of its cache.  The files of nested builds become part of the
output.

A cancelled build ends once the wave it is in has run.  A task that waits
forever keeps its build waiting, and a build that waits keeps those around it
waiting until then.
-/

namespace WebBundle

/-- What is given for a build. -/
structure BuildPlan where
  options : Options
  /-- Plugins by their numbers. -/
  plugins : List Nat
  /-- The partitions that lead to the cache of the build. -/
  partition : List String := []

/-- What all builds of a session look at. -/
structure World where
  registry : List Plugin
  files : FileTree

/-- How a build ended. -/
inductive Outcome where
  | assets (assets : List Asset)
  | reports (reports : List Report)
  | cancelled

/-- The end of a build, and whether it had to wait for it. -/
structure Ended where
  outcome : Outcome
  hasWaited : Bool := false

/-- The message of a cancelled build. -/
def cancelledReport : Report := { message := "Build was cancelled" }

/-- A build while it runs. -/
structure Running where
  session : Session
  isCancelled : Bool := false
  /-- The files that nested builds gave. -/
  emitted : List Asset := []
  /-- The partitions of nested builds that wait. -/
  waiting : List String := []
  /-- Whether a task of the build waits. -/
  hasWaited : Bool := false

namespace World

/-- The plugins with some numbers. -/
def pluginsOf (world : World) (numbers : List Nat) : List Numbered :=
  numbers.filterMap fun number => world.registry[number]?.map fun plugin => ⟨number, plugin⟩

/-- The file that a request comes from; entries and imports of virtual modules have none. -/
def importingFile (importer : Option ModuleId) : Option String :=
  (importer.filter fun id => !id.isVirtual).map ModuleId.text

/-- Resolves a request of a build. -/
def resolve (world : World) (plan : BuildPlan) (importer : Option ModuleId) (specifier : String)
    (form : Scan.ImportForm) (running : Running) : Except Report Resolved × Running :=
  let options := plan.options
  let (answer, plugins) := resolveWith options importer specifier form
    (world.pluginsOf plan.plugins) running.session.plugins
  let running := { running with session := { running.session with plugins } }
  match answer with
  | .error report => (.error report, running)
  | .ok (some resolved) => (.ok resolved, running)
  | .ok none =>
    let place : Resolver.Place := ⟨Resolver.Rules.ofPlatform options.platform, world.files⟩
    match (Resolver.resolve place options.workingDirectory (importingFile importer)
      (some options.context) specifier []).1 with
    | .ok path => (.ok ⟨⟨path⟩, none⟩, running)
    | .error failure =>
      let place := match importer with
        | some id => Printable.quote specifier ++ " from " ++
            Printable.quote (id.stabilize options.workingDirectory)
        | none => "entry module " ++ Printable.quote specifier
      (.error { message := "Could not resolve " ++ place ++ ": " ++ failure.message }, running)

/-- Loads a module from the file tree. -/
def loadFile (world : World) (resolved : Resolved) : Except Report Loaded :=
  if resolved.id.isVirtual then
    .error { message := "No plugin loaded the virtual module " ++
      Printable.quote resolved.id.text }
  else
    let path := resolved.id.text
    let fault (fault : FileFault) : Report :=
      { message := fault.message, context := ["Failed to read " ++ path] }
    match (resolved.kind.or (ModuleKind.ofId? path)).getD .script with
    | .wasm =>
      match world.files.read path with
      | .ok content => .ok (.bytes .wasm content)
      | .error reason => .error (fault reason)
    | .empty => .ok (.text .empty "")
    | kind =>
      match world.files.readText path with
      | .ok source => .ok (.text kind source)
      | .error reason => .error (fault reason)

/-- The kind of a module whose code a plugin gives. -/
def givenKind (resolved : Resolved) (kind : Option ModuleKind) : ModuleKind :=
  (kind.or (resolved.kind.or (ModuleKind.ofId? resolved.id.text))).getD .script

/-- What the cache of a build keeps of a source. -/
def cached? (plan : BuildPlan) (id : ModuleId) (kind : ModuleKind) (source : String)
    (session : Session) : Option CachedModule :=
  ((session.cache.at? plan.partition).bind fun cache => cache.get? id (Digest.ofText source)).filter
    fun module => module.kind = kind

/-- The hooks of a build on modules of a kind. -/
def hooks (world : World) (plan : BuildPlan) (kind : ModuleKind) :
    List (Scan.Hook PluginMemory) :=
  Numbered.hooks kind (world.pluginsOf plan.plugins)

/-- Scans a program and keeps its view if that depends on the source alone. -/
def scanProgram (world : World) (plan : BuildPlan) (id : ModuleId) (kind : ModuleKind)
    (source : String) (program : Syntax.Program) (session : Session) : Scan.View × Session :=
  let (findings, plugins) := WebBundle.Scan.scan (world.hooks plan kind) program session.plugins
  let stableId := id.stabilize plan.options.workingDirectory
  let session := findings.reaction.warnings.foldl (fun session warning =>
    session.warn { message := stableId ++ ": " ++ warning.text }) { session with plugins }
  let view := findings.toView program.source
  let keep (cache : Cache) : Cache := cache.insert id ⟨Digest.ofText source, kind, view⟩
  (view, if view.isCacheable then
      { session with cache := session.cache.modifyAt keep plan.partition }
    else session)

/-- Scans a script, or takes its view from the cache. -/
def scanText (world : World) (plan : BuildPlan) (id : ModuleId) (kind : ModuleKind)
    (source : String) (session : Session) : Except (List Report) Scan.View × Session :=
  match cached? plan id kind source session with
  | some module => (.ok module.view, session)
  | none =>
    match ModuleSource.read kind source with
    | .error fault =>
      let stableId := id.stabilize plan.options.workingDirectory
      (.error [({ message := fault.message id.text } : Report).within stableId], session)
    | .ok program =>
      let (view, session) := world.scanProgram plan id kind source program session
      (.ok view, session)

/-- Scans a loaded module. -/
def scan (world : World) (plan : BuildPlan) (id : ModuleId) (loaded : Loaded) (running : Running) :
    Except (List Report) ModuleContent × Running :=
  match loaded with
  | .bytes _ content => (.ok (.asset content), running)
  | .text kind source =>
    let (view, session) := world.scanText plan id kind source running.session
    (view.map .script, { running with session })

/-- Notes the end of the nested build of a worklet, and gives the code of the
module that stands for it. -/
def concludeWorklet (plan : BuildPlan) (job : Worklet.Job Nat) (ended : Ended)
    (running : Running) : Except Report (String × ModuleKind) × Running :=
  let waits := { running with hasWaited := running.hasWaited || ended.hasWaited }
  let finish (cancelled : Bool) (result : Except Report Worklet.Compilation) (running : Running) :
      Except Report (String × ModuleKind) × Running :=
    match Worklet.conclude job.request cancelled result with
    | .ok file => (.ok (Worklet.moduleCode file, .script), running)
    | .error failure => (.error { message := failure.message }, running)
  match ended.outcome with
  | .assets assets =>
    finish false (.ok { entries := [assets.map Asset.filename] })
      { waits with emitted := waits.emitted ++ assets }
  | .reports reports =>
    finish false (.ok { errors := reports })
      (if ended.hasWaited then { waits with waiting := waits.waiting ++ [job.cacheNamespace] }
      else waits)
  | .cancelled =>
    let session := if ended.hasWaited then
        waits.session.releaseLater plan.partition job.cacheNamespace
      else waits.session.release plan.partition job.cacheNamespace
    finish true (.error cancelledReport) { waits with session }

/-- The plugins of a build by their names. -/
def available (world : World) (plan : BuildPlan) : List (String × Nat) :=
  (world.pluginsOf plan.plugins).map fun numbered => (numbered.plugin.name, numbered.number)

/-- The plan of the nested build that runs a job. -/
def innerPlan (plan : BuildPlan) (job : Worklet.Job Nat) : BuildPlan :=
  { options := job.options plan.options
    plugins := job.plugins
    partition := plan.partition ++ [job.cacheNamespace] }

/-- The job that compiles a worklet of a build, and the session in which its nested
build starts. -/
def prepareWorklet (world : World) (plan : BuildPlan) (settings : Worklet.Settings Nat)
    (query : Worklet.ModuleQuery) (request : String) (session : Session) :
    Worklet.Job Nat × Session :=
  let (job, diagnostics) := Worklet.plan settings plan.options (world.available plan) query
    request session.diagnostics
  (job, { session with diagnostics }.claim plan.partition job.cacheNamespace)

/-- Compiles a worklet by a nested build. -/
def compileWorklet (world : World) (plan : BuildPlan)
    (nested : BuildPlan → Bool → Session → Option (Ended × Session))
    (settings : Worklet.Settings Nat) (query : Worklet.ModuleQuery) (request : String)
    (running : Running) : Option (Except Report (String × ModuleKind) × Running) :=
  let (job, session) := world.prepareWorklet plan settings query request running.session
  match nested (innerPlan plan job) running.isCancelled session with
  | none => none
  | some (ended, session) => some (concludeWorklet plan job ended { running with session })

/-- Asks a plugin to load a module; a module that is not loaded by it is given
back. -/
def loadBy (world : World) (plan : BuildPlan)
    (nested : BuildPlan → Bool → Session → Option (Ended × Session)) (numbered : Numbered)
    (id : ModuleId) (running : Running) :
    Option (Except Report (Option (String × Option ModuleKind)) × Running) :=
  match numbered.plugin with
  | .plain => some (.ok none, running)
  | .worklets settings =>
    match Worklet.query? id with
    | .error failure => some (.error { message := failure.message }, running)
    | .ok none => some (.ok none, running)
    | .ok (some (query, request)) =>
      match world.compileWorklet plan nested settings query request running with
      | none => none
      | some (.error report, running) => some (.error report, running)
      | some (.ok (code, kind), running) => some (.ok (some (code, some kind)), running)
  | .ruled rules =>
    let running := { running with session := { running.session with
      plugins := running.session.plugins.record rules.name (.load id) } }
    match rules.load? id with
    | none => some (.ok none, running)
    | some .cancel =>
      some (.error cancelledReport, { running with isCancelled := true, hasWaited := true })
    | some (.fail message) => some (.error { message }, running)
    | some (.code text kind) => some (.ok (some (text, kind)), running)

/-- Loads a module: plugins answer first. -/
def load (world : World) (plan : BuildPlan)
    (nested : BuildPlan → Bool → Session → Option (Ended × Session)) (resolved : Resolved) :
    List Numbered → Running → Option (Except Report Loaded × Running)
  | [], running => some (world.loadFile resolved, running)
  | numbered :: rest, running =>
    match world.loadBy plan nested numbered resolved.id running with
    | none => none
    | some (.error report, running) => some (.error report, running)
    | some (.ok none, running) => load world plan nested resolved rest running
    | some (.ok (some (code, kind)), running) =>
      some (.ok (.text (givenKind resolved kind) code), running)

end World

end WebBundle

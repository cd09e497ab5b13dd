import WebBundle.Build.Run
import WebBundle.Proofs.Path.Names
import WebBundle.Proofs.Worklet.Request

/-!
# Where worklets are looked up

The request of a worklet is resolved by a nested build, from the context of that build.  The
context goes from the directory of the importing file through the id of the virtual module, as a
path relative to the working directory, and is joined to the working directory again.  It denotes
the directory from which an import of the same file is resolved.
-/

namespace WebBundle

open World (importingFile)

theorem Path.components_ne_nil {path : String} (hpath : isAbsolute path = true) :
    components path ≠ [] := by
  rw [components]
  split
  · rename_i hsegments
    have hlength := congrArg List.length hsegments
    rw [segments_eq_splitOn, List.length_nil] at hlength
    exact absurd (List.eq_nil_of_length_eq_zero hlength) (List.splitOn_ne_nil _ _)
  · simp [hpath]

namespace Worklet

theorem isLoaderRequest_of_decode {specifier request : String} {query : LoaderQuery}
    (hdecode : decodeLoaderRequest? specifier = some (query, request)) :
    isLoaderRequest specifier = true := by
  rw [decodeLoaderRequest?, split?] at hdecode
  rw [isLoaderRequest]
  cases hbehind : behind? loaderStart specifier.toList with
  | none => simp [hbehind] at hdecode
  | some text => rfl

theorem query?_encodeModuleId (query : ModuleQuery) (request : String) :
    query? ⟨encodeModuleId query request⟩ = .ok (some (query, request)) := by
  rw [query?, if_pos (isModuleId_encode query request), decode_encodeModuleId]

end Worklet

/-- An importer that is missing, virtual, or a file with an absolute path. -/
def IsPlaced (importer : Option ModuleId) : Prop :=
  ∀ file ∈ importingFile importer, Path.isAbsolute file = true

/-- Options whose directories are absolute paths. -/
structure Options.ArePlaced (options : Options) : Prop where
  workingDirectory : Path.isAbsolute options.workingDirectory = true
  context : Path.isAbsolute options.context = true

/-- The directory from which a build resolves what an importer asks for. -/
def Options.lookupDirectory (options : Options) (importer : Option ModuleId) : String :=
  Resolver.directoryOf options.workingDirectory (importingFile importer) (some options.context)

/-- A build resolves its entries from its context. -/
theorem Options.lookupDirectory_none (options : Options) :
    options.lookupDirectory none = options.context := rfl

theorem directoryOf_eq {workingDirectory context : String} {file : Option String}
    (hfile : ∀ path ∈ file, Path.isAbsolute path = true) :
    Resolver.directoryOf workingDirectory file (some context) =
      (file.bind Path.parent?).getD context := by
  rw [Resolver.directoryOf, Option.getD_some]
  cases hparent : file.bind Path.parent? with
  | none => rfl
  | some parent =>
      obtain ⟨path, hpath, hparent⟩ := Option.bind_eq_some_iff.mp hparent
      have hne := Path.components_ne_nil
        (Path.isAbsolute_of_parent? (hfile path hpath) hparent)
      rw [Option.filter_some, if_pos (by simpa using hne)]

theorem isAbsolute_lookupDirectory {options : Options} {importer : Option ModuleId}
    (hoptions : options.ArePlaced) (himporter : IsPlaced importer) :
    Path.isAbsolute (options.lookupDirectory importer) = true := by
  rw [Options.lookupDirectory, directoryOf_eq himporter]
  cases hparent : (importingFile importer).bind Path.parent? with
  | none => exact hoptions.context
  | some parent =>
      obtain ⟨path, hpath, hparent⟩ := Option.bind_eq_some_iff.mp hparent
      exact Path.isAbsolute_of_parent? (himporter path hpath) hparent

/-- A loader request becomes the id of a virtual module that names the directory of the importer. -/
theorem Worklet.resolve?_of_decode {options : Options} {importer : Option ModuleId}
    {specifier name request : String} (himporter : IsPlaced importer)
    (hdecode : decodeLoaderRequest? specifier = some (⟨name⟩, request)) :
    resolve? options importer specifier = .ok (some ⟨encodeModuleId
      ⟨name, Path.relative (options.lookupDirectory importer) options.workingDirectory⟩
      request⟩) := by
  rw [resolve?.eq_def, if_pos (isLoaderRequest_of_decode hdecode), hdecode,
    Options.lookupDirectory, directoryOf_eq himporter]
  cases importer with
  | none => rfl
  | some id =>
      rw [importingFile, Option.filter_some]
      cases hvirtual : id.isVirtual <;> simp [hvirtual]

namespace World

/-- What a plugin gives for a worklet whose nested build has ended. -/
def loadedWorklet (plan : BuildPlan) (job : Worklet.Job Nat) (running : Running)
    (given : Ended × Session) : Except Report (Option (String × Option ModuleKind)) × Running :=
  let (result, running) := concludeWorklet plan job given.1 { running with session := given.2 }
  (result.map fun (code, kind) => some (code, some kind), running)

/-- A plugin for worklets loads a virtual module by one nested build. -/
theorem loadBy_worklet (world : World) (plan : BuildPlan)
    (nested : BuildPlan → Bool → Session → Option (Ended × Session))
    (settings : Worklet.Settings Nat) (number : Nat) (query : Worklet.ModuleQuery)
    (request : String) (running : Running) {job : Worklet.Job Nat} {session : Session}
    (hjob : world.prepareWorklet plan settings query request running.session = (job, session)) :
    world.loadBy plan nested ⟨number, .worklets settings⟩
        ⟨Worklet.encodeModuleId query request⟩ running =
      (nested (innerPlan plan job) running.isCancelled session).map
        (loadedWorklet plan job running) := by
  rw [loadBy]
  simp only [Worklet.query?_encodeModuleId, compileWorklet, hjob]
  cases nested (innerPlan plan job) running.isCancelled session with
  | none => simp only [Option.map_none]
  | some given =>
      simp only [Option.map_some, loadedWorklet]
      rcases concludeWorklet plan job given.1 { running with session := given.2 } with
        ⟨_ | loaded, last⟩ <;> rfl

/-- The job of a worklet keeps its name and its request, and finds its context from the working
directory. -/
theorem prepareWorklet_job {world : World} {plan : BuildPlan} {settings : Worklet.Settings Nat}
    {query : Worklet.ModuleQuery} {request : String} {before session : Session}
    {job : Worklet.Job Nat}
    (hjob : world.prepareWorklet plan settings query request before = (job, session)) :
    job.entryName = query.name ∧ job.request = request ∧
      job.context = Path.join plan.options.workingDirectory query.context := by
  rw [prepareWorklet, Worklet.plan] at hjob
  cases hjob
  exact ⟨rfl, rfl, rfl⟩

/-- A loader request resolves to a module that is loaded by a nested build of its name and
request, and the context of this build is the directory from which an import of the same importer
is resolved. -/
theorem worklet_looked_up_like_import (world : World) (plan : BuildPlan)
    (settings : Worklet.Settings Nat) (importer : Option ModuleId)
    (specifier name request : String)
    (hoptions : plan.options.ArePlaced) (himporter : IsPlaced importer)
    (hdecode : Worklet.decodeLoaderRequest? specifier = some (⟨name⟩, request)) :
    ∃ id, (Plugin.worklets settings).resolve plan.options importer specifier =
        .ok (some ⟨id, some .script⟩) ∧
      ∀ number running, ∃ inner session finish,
        (∀ nested, world.loadBy plan nested ⟨number, .worklets settings⟩ id running =
          (nested inner running.isCancelled session).map finish) ∧
        inner.options.input = [⟨some name, request⟩] ∧
        Path.normalize (inner.options.lookupDirectory none) =
          Path.normalize (plan.options.lookupDirectory importer) := by
  refine ⟨_, by rw [Plugin.resolve, Worklet.resolve?_of_decode himporter hdecode], ?_⟩
  intro number running
  cases hjob : world.prepareWorklet plan settings
    ⟨name, Path.relative (plan.options.lookupDirectory importer) plan.options.workingDirectory⟩
    request running.session with
  | mk job session =>
      obtain ⟨hname, hrequest, hjoin⟩ := prepareWorklet_job hjob
      refine ⟨innerPlan plan job, session, loadedWorklet plan job running,
        fun nested => world.loadBy_worklet plan nested settings number _ request running hjob,
        ?_, ?_⟩
      · rw [innerPlan, Worklet.Job.options, hname, hrequest]
      · have hplace := isAbsolute_lookupDirectory hoptions himporter
        have hcontinued := Path.names_join_relative hplace plan.options.workingDirectory
        rw [Path.normalize, Path.normalize, Options.lookupDirectory_none, ← hcontinued, ← hjoin]
        rfl

/-- The options of a build beside a directory with a quote in its name. -/
def quotedOptions : Options :=
  { input := [], workingDirectory := "/p/app", context := "/p/app/src" }

theorem worklet_looked_up_like_import_beside :
    ∃ id, (Plugin.worklets {}).resolve quotedOptions (some ⟨"/p/li\"b/./m.js"⟩)
        (Worklet.encodeLoaderRequest ⟨"0"⟩ "./w.js") = .ok (some ⟨id, some .script⟩) ∧
      ∃ inner session finish,
        (∀ nested, (World.mk [] ⟨[]⟩).loadBy ⟨quotedOptions, [0], []⟩ nested
            ⟨0, .worklets {}⟩ id { session := {} } =
          (nested inner false session).map finish) ∧
        inner.options.input = [⟨some "0", "./w.js"⟩] ∧
        Path.normalize (inner.options.lookupDirectory none) = "/p/li\"b" := by
  obtain ⟨id, hid, hload⟩ := worklet_looked_up_like_import ⟨[], ⟨[]⟩⟩ ⟨quotedOptions, [0], []⟩ {}
    (some ⟨"/p/li\"b/./m.js"⟩) (Worklet.encodeLoaderRequest ⟨"0"⟩ "./w.js") "0" "./w.js"
    ⟨by decide, by decide⟩ (by simp [IsPlaced, importingFile]; decide)
    (Worklet.decode_encodeLoaderRequest ⟨"0"⟩ "./w.js")
  obtain ⟨inner, session, finish, hnested, hinput, hplace⟩ := hload 0 { session := {} }
  refine ⟨id, hid, inner, session, finish, hnested, hinput, ?_⟩
  rw [hplace]
  decide +kernel

end World

end WebBundle

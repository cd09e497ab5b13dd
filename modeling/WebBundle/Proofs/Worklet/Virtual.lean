import WebBundle.Proofs.Build.Answers
import WebBundle.Proofs.Build.Forwarding
import WebBundle.Proofs.Resolver.Absolute
import WebBundle.Proofs.Worklet.Request

/-!
# Virtual modules of worklets

A plugin for worklets answers to loader requests, which lead to virtual modules, and loads
these.  Every other request leads where it would without the plugin, to a file, and files
are loaded without it.
-/

namespace WebBundle

/-- Whether an id is that of the virtual module of a worklet. -/
def isWorklet (id : ModuleId) : Bool := Worklet.isModuleId id.text

/-- Whether an id is that of a file. -/
def isFile (id : ModuleId) : Bool := !isWorklet id

/-- No path of a file is taken for a virtual module. -/
theorem not_isWorklet_of_isAbsolute {path : String} (habsolute : Path.isAbsolute path = true) :
    isWorklet ⟨path⟩ = false := by
  rw [Path.isAbsolute] at habsolute
  rw [isWorklet, Worklet.isModuleId]
  split at habsolute
  · rename_i rest htext
    rw [htext]
    rfl
  · cases habsolute

/-- The same build without plugins. -/
def BuildPlan.withoutPlugins (plan : BuildPlan) : BuildPlan := { plan with plugins := [] }

namespace World

variable {world : World} {plan : BuildPlan} {importer : Option ModuleId} {specifier : String}
  {form : Scan.ImportForm} {target : Resolved}

/-! ## Requests -/

/-- Without plugins, a request leads to a file. -/
theorem isAbsolute_of_answer
    (htarget : world.answer plan.withoutPlugins importer specifier form = .ok target) :
    Path.isAbsolute target.id.text = true := by
  rw [answer, resolve.eq_def] at htarget
  have hnone : world.pluginsOf plan.withoutPlugins.plugins = [] := rfl
  simp only [hnone, resolveWith] at htarget
  split at htarget
  · rename_i path hresolve
    cases htarget
    exact Resolver.isAbsolute_resolve hresolve
  · cases htarget

theorem not_isWorklet_of_answer
    (htarget : world.answer plan.withoutPlugins importer specifier form = .ok target) :
    isWorklet target.id = false :=
  not_isWorklet_of_isAbsolute (isAbsolute_of_answer htarget)

/-! ## Nested builds -/

/-- The nested build of a worklet that is loaded has given files, and the code of the
module names the first one. -/
theorem concludeWorklet_eq_ok {job : Worklet.Job Nat} {ended : Ended} {running : Running}
    {code : String × ModuleKind} (h : (concludeWorklet plan job ended running).1 = .ok code) :
    ∃ assets file, ended.outcome = .assets assets ∧
      (assets.map Asset.filename).head? = some file ∧
      code = (Worklet.moduleCode file, .script) ∧
      (concludeWorklet plan job ended running).2 = { running with
        hasWaited := running.hasWaited || ended.hasWaited
        emitted := running.emitted ++ assets } := by
  rw [concludeWorklet] at h ⊢
  cases houtcome : ended.outcome with
  | assets assets =>
      simp only [houtcome, Worklet.conclude, Worklet.Compilation.firstFile?, List.head?_cons,
        Option.bind_some] at h ⊢
      cases hfile : (assets.map Asset.filename).head? with
      | none =>
          rw [hfile] at h
          cases h
      | some file =>
          rw [hfile] at h
          cases h
          exact ⟨assets, file, rfl, hfile, rfl, rfl⟩
  | reports reports =>
      cases reports <;> simp [houtcome, Worklet.conclude, Worklet.Compilation.firstFile?] at h
  | cancelled => simp [houtcome, Worklet.conclude] at h

/-- The job of a nested build is for the worklet that the id of the module names. -/
theorem job_of_nested {resolved : Resolved} {running before : Running} {plugins : List Numbered}
    {job : Worklet.Job Nat}
    (hloading : world.loading plan resolved plugins running = .nested job before)
    {query : Worklet.ModuleQuery} {request : String}
    (hid : resolved.id.text = Worklet.encodeModuleId query request) :
    job.entryName = query.name ∧ job.request = request ∧
      job.context = Path.join plan.options.workingDirectory query.context := by
  obtain ⟨_, asked, wanted, _, _, hquery, _, rfl, _⟩ := loading_eq_nested hloading
  rw [Worklet.query?, hid, Worklet.isModuleId_encode, Worklet.decode_encodeModuleId] at hquery
  simp only [if_true, Except.ok.injEq, Option.some.injEq, Prod.mk.injEq] at hquery
  obtain ⟨rfl, rfl⟩ := hquery
  exact ⟨rfl, rfl, rfl⟩

/-- A text that is not empty by its kind is that of a file. -/
theorem loadFile_text {resolved : Resolved} {kind : ModuleKind} {source : String}
    (hload : world.loadFile resolved = .ok (.text kind source)) (hkind : kind ≠ .empty) :
    resolved.id.isVirtual = false ∧ world.files.readText resolved.id.text = .ok source := by
  rw [loadFile] at hload
  split at hload
  · cases hload
  · rename_i hvirtual
    refine ⟨Bool.eq_false_iff.mpr hvirtual, ?_⟩
    dsimp only at hload
    split at hload
    · split at hload <;> cases hload
    · cases hload
      exact absurd rfl hkind
    · split at hload
      · rename_i hread
        cases hload
        exact hread
      · cases hload

section OnePlugin

variable {number : Nat} {settings : Worklet.Settings Nat}
  (hplugins : world.pluginsOf plan.plugins = [⟨number, .worklets settings⟩])
include hplugins

/-- A request that is no loader request leads where it leads without the plugin. -/
theorem answer_withoutPlugins (hspecifier : Worklet.isLoaderRequest specifier = false) :
    world.answer plan.withoutPlugins importer specifier form =
      world.answer plan importer specifier form := by
  have hnone : world.pluginsOf plan.withoutPlugins.plugins = [] := rfl
  have hleft : Worklet.resolve? plan.options importer specifier = .ok none := by
    rw [Worklet.resolve?.eq_def, hspecifier]
    rfl
  rw [answer, answer, resolve.eq_def, resolve.eq_def]
  simp only [hnone, hplugins, resolveWith, Plugin.resolve, hleft]
  rfl

/-- A loader request leads to a virtual module. -/
theorem isWorklet_of_answer (hspecifier : Worklet.isLoaderRequest specifier = true)
    (htarget : world.answer plan importer specifier form = .ok target) :
    isWorklet target.id = true := by
  rw [answer, resolve.eq_def] at htarget
  simp only [hplugins, resolveWith, Plugin.resolve, Worklet.resolve?, hspecifier, if_true]
    at htarget
  cases hdecode : Worklet.decodeLoaderRequest? specifier with
  | none =>
      simp only [hdecode] at htarget
      cases htarget
  | some asked =>
      simp only [hdecode] at htarget
      cases htarget
      exact Worklet.isModuleId_encode _ _

/-- A request leads to the module of a worklet or to a file. -/
theorem worklet_or_file_of_answer
    (htarget : world.answer plan importer specifier form = .ok target) :
    isWorklet target.id = true ∨ Path.isAbsolute target.id.text = true := by
  cases hspecifier : Worklet.isLoaderRequest specifier with
  | true => exact .inl (isWorklet_of_answer hplugins hspecifier htarget)
  | false =>
      rw [← answer_withoutPlugins hplugins hspecifier] at htarget
      exact .inr (isAbsolute_of_answer htarget)

/-- A loader request leads to the module of its worklet, which is looked up from the directory of
the importing file. -/
theorem id_of_answer {importer : ModuleId} (hvirtual : importer.isVirtual = false)
    {directory : String} (hparent : Path.parent? importer.text = some directory)
    {query : Worklet.LoaderQuery} {request : String}
    (htarget : world.answer plan (some importer) (Worklet.encodeLoaderRequest query request) form =
      .ok target) :
    target.id.text = Worklet.encodeModuleId
      ⟨query.name, Path.relative directory plan.options.workingDirectory⟩ request := by
  rw [answer, resolve.eq_def] at htarget
  simp only [hplugins, resolveWith, Plugin.resolve, Worklet.resolve?,
    Worklet.isLoaderRequest_encode, Worklet.decode_encodeLoaderRequest, hvirtual, hparent,
    if_true, Bool.false_eq_true, if_false, Option.getD_some] at htarget
  cases htarget
  rfl

/-! ## Loads -/

variable {nested : BuildPlan → Bool → Session → Option (Ended × Session)} {resolved : Resolved}
  {running next : Running}

/-- A file is loaded without the plugin. -/
theorem load_file (hfile : isWorklet resolved.id = false) :
    world.load plan nested resolved (world.pluginsOf plan.plugins) running =
      some (world.loadFile resolved, running) := by
  have hquery : Worklet.query? resolved.id = .ok none := by
    rw [isWorklet] at hfile
    rw [Worklet.query?, hfile]
    rfl
  rw [load_eq, hplugins]
  simp only [loading, hquery]

/-- A virtual module is loaded by a nested build, as the code that names its first file. -/
theorem load_worklet (hworklet : isWorklet resolved.id = true) {loaded : Loaded}
    (hload : world.load plan nested resolved (world.pluginsOf plan.plugins) running =
      some (.ok loaded, next)) :
    ∃ job before ended session assets file,
      world.loading plan resolved (world.pluginsOf plan.plugins) running = .nested job before ∧
      nested (innerPlan plan job) before.isCancelled before.session = some (ended, session) ∧
      ended.outcome = .assets assets ∧ (assets.map Asset.filename).head? = some file ∧
      loaded = .text .script (Worklet.moduleCode file) ∧
      next = { before with
        session
        hasWaited := before.hasWaited || ended.hasWaited
        emitted := before.emitted ++ assets } := by
  rw [isWorklet] at hworklet
  rcases load_cases hload with hdone | ⟨job, before, ended, session, hbegun, hended, hfinish⟩
  · rw [hplugins] at hdone
    simp only [loading, Worklet.query?, hworklet, if_true] at hdone
    cases hdecode : Worklet.decodeModuleId? resolved.id.text with
    | none => simp [hdecode] at hdone
    | some asked => simp [hdecode] at hdone
  · rw [finishLoading] at hfinish
    cases hresult : (concludeWorklet plan job ended { before with session }).1 with
    | error report =>
        simp only [hresult] at hfinish
        cases hfinish
    | ok code =>
        obtain ⟨assets, file, hassets, hfile, rfl, hlast⟩ := concludeWorklet_eq_ok hresult
        simp only [hresult, hlast] at hfinish
        cases hfinish
        exact ⟨job, before, ended, session, assets, file, hbegun, hended, hassets, hfile, rfl, rfl⟩

end OnePlugin

end World

end WebBundle

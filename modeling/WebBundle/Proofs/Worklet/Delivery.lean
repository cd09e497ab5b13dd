import WebBundle.Proofs.Build.Scanned
import WebBundle.Proofs.Output.Keys
import WebBundle.Proofs.Worklet.Codec
import WebBundle.Proofs.Worklet.Declared
import WebBundle.Proofs.Worklet.Emitted
import WebBundle.Proofs.Worklet.Locality

/-!
# Calls reach their worklets

A rewritten call asks for a worklet by a request, which leads to a virtual module, whose id
names the worklet again; a nested build compiles it and gives a chunk, whose name is in the code
of the virtual module; and the files of the nested build end up in the output.  Nothing is lost
on this way: the variable of the call is what the code of its own worklet exports, wherever the
module of the call is put, and the code names the file that its nested build has made.
-/

namespace WebBundle

open Syntax Scan Output

/-! ## Keys of worklets -/

theorem canonical_of_isWorklet {id : ModuleId} (hworklet : isWorklet id = true) : id.Canonical := by
  rw [isWorklet, Worklet.isModuleId, Option.isSome_iff_exists] at hworklet
  obtain ⟨behind, hbehind⟩ := hworklet
  have htext : id.text.toList = '\x00' :: 'c' :: ("ss-worklet?".toList ++ behind) :=
    Worklet.behind?_eq_some_iff.mp hbehind
  exact .virtual _ htext (by simp) (by simp)

/-- No other module has the key of a worklet. -/
theorem eq_of_stabilize {worklet other : ModuleId} (hworklet : isWorklet worklet = true)
    (hother : isWorklet other = true ∨ Path.isAbsolute other.text = true) {directory : String}
    (hsame : other.stabilize directory = worklet.stabilize directory) : other = worklet := by
  rcases hother with hother | habsolute
  · exact (canonical_of_isWorklet hother).stabilize_injective (canonical_of_isWorklet hworklet) hsame
  · have hhead := ModuleId.head?_withDot (Path.relative other.text directory)
    rw [← ModuleId.stabilize_of_absolute habsolute, hsame] at hhead
    cases canonical_of_isWorklet hworklet with
    | file habsolute _ =>
        rw [not_isWorklet_of_isAbsolute habsolute] at hworklet
        cases hworklet
    | virtual name htext hnul hdot =>
        rw [ModuleId.stabilize_of_virtual htext hnul, String.toList_ofList] at hhead
        exact absurd hhead hdot

/-- The code of a worklet asks for no worklets itself. -/
theorem Worklet.knownModules_moduleCode {file : String} {program : Program}
    (hread : ModuleSource.read .script (Worklet.moduleCode file) = .ok program) :
    knownModules program = [] := by
  rw [knownModules, moduleCalls, ← filter_isScanned, (read_moduleCode hread).2]
  rfl

namespace World

variable {world : World}

/-! ## Modules of a graph -/

/-- The import behind a record of a module leads to a module of the graph. -/
theorem exists_dependency {limit : Nat} {start : BuildStart} {graph : Graph} {last : Running}
    (hstage : world.scanStage limit start = some (.ok (graph, last))) {module : Module}
    (hmodule : module ∈ graph.modules) {index : Nat} {record : ImportRecord}
    (hrecord : module.content.records[index]? = some record) :
    ∃ number target resolved, module.dependencies[index]? = some number ∧
      graph.modules[number]? = some target ∧ target.id = resolved.id ∧
      world.answer start.plan (some module.id) record.specifier record.form = .ok resolved := by
  obtain ⟨entries, running, hopening, hload⟩ := scanStage_eq_ok.mp hstage
  obtain ⟨_, hfound, _⟩ := Loader.load_found hload
  obtain ⟨load, _, ⟨found⟩⟩ := Loader.exists_left_of_forall₂ hfound hmodule
  rw [found.numbered.content_eq] at hrecord
  obtain ⟨resolved, hresolved, state, hanswer⟩ :=
    Loader.exists_getElem?_of_forall₂ found.examined.resolved hrecord
  obtain ⟨number, hnumber, hknown⟩ :=
    Loader.exists_getElem?_of_forall₂ found.numbered.numbers hresolved
  rw [List.getElem?_map, Option.map_eq_some_iff] at hknown
  obtain ⟨target, htarget, hid⟩ := hknown
  refine ⟨number, target, resolved, hnumber, htarget, hid, ?_⟩
  rw [found.numbered.id_eq, ← resolve_fst]
  exact hanswer

theorem stableId_of_stage {limit : Nat} {start : BuildStart} {graph : Graph} {last : Running}
    (hstage : world.scanStage limit start = some (.ok (graph, last))) :
    (graph.modules.map Module.id).Nodup ∧ ∀ module ∈ graph.modules,
      module.stableId = module.id.stabilize start.plan.options.workingDirectory := by
  obtain ⟨_, _, _, hload⟩ := scanStage_eq_ok.mp hstage
  obtain ⟨hnodup, hfound, _⟩ := Loader.load_found hload
  refine ⟨hnodup, fun module hmodule => ?_⟩
  obtain ⟨load, _, ⟨found⟩⟩ := Loader.exists_left_of_forall₂ hfound hmodule
  rw [found.numbered.stableId_eq, found.numbered.id_eq]
  exact found.examined.stableId_eq

section OnePlugin

variable {start : BuildStart} {number : Nat} {settings : Worklet.Settings Nat}
  (hplugins : world.pluginsOf start.plan.plugins = [⟨number, .worklets settings⟩])
  {limit : Nat} {graph : Graph} {last : Running}
  (hstage : world.scanStage limit start = some (.ok (graph, last)))
include hplugins hstage

/-- The modules of a graph are those of worklets, and files. -/
theorem worklet_or_file : ∀ module ∈ graph.modules,
    isWorklet module.id = true ∨ Path.isAbsolute module.id.text = true := by
  obtain ⟨entries, running, hopening, hload⟩ := scanStage_eq_ok.mp hstage
  refine @Loader.holds_ids _ _ (fun id => isWorklet id = true ∨ Path.isAbsolute id.text = true)
    _ _ _ _ _ hload ?_ ?_
  · intro entry hentry
    obtain ⟨request, hanswer⟩ := exists_answer (entries_of_opening hopening) hentry
    exact worklet_or_file_of_answer hplugins hanswer
  · intro importer specifier form state target hanswer
    change (world.resolve start.plan (some importer) specifier form state).1 = _ at hanswer
    rw [resolve_fst] at hanswer
    exact worklet_or_file_of_answer hplugins hanswer

/-- The record of a loader request leads to the module of its worklet. -/
theorem exists_virtual {module : Module} (hmodule : module ∈ graph.modules)
    (hvirtual : module.id.isVirtual = false) {directory : String}
    (hparent : Path.parent? module.id.text = some directory) {index : Nat}
    {query : Worklet.LoaderQuery} {request : String} {form : ImportForm} {span : Span}
    (hrecord : module.content.records[index]? =
      some ⟨Worklet.encodeLoaderRequest query request, form, span⟩) :
    ∃ other worklet, module.dependencies[index]? = some other ∧
      graph.modules[other]? = some worklet ∧ isWorklet worklet.id = true ∧
      worklet.id.text = Worklet.encodeModuleId
        ⟨query.name, Path.relative directory start.plan.options.workingDirectory⟩ request := by
  obtain ⟨other, worklet, resolved, hdependency, hother, hsame, hanswer⟩ :=
    exists_dependency hstage hmodule hrecord
  have hid := id_of_answer hplugins hvirtual hparent hanswer
  refine ⟨other, worklet, hdependency, hother, ?_, hsame ▸ hid⟩
  rw [isWorklet, hsame, hid]
  exact Worklet.isModuleId_encode _ _

/-- In every chunk that has the module of a worklet, its key stands for its code alone. -/
theorem lookup?_worklet {other : Nat} {worklet : Module}
    (hother : graph.modules[other]? = some worklet) (hworklet : isWorklet worklet.id = true)
    (options : Options) {entry : Nat} (hreachable : other ∈ graph.reachable entry) :
    lookup? (table options graph entry) worklet.stableId =
      some (moduleCode options graph worklet) := by
  obtain ⟨hnodup, hstable⟩ := stableId_of_stage hstage
  have hmem := List.mem_of_getElem? hother
  refine @lookup?_of_unique _ (worklet.stableId, moduleCode options graph worklet) ?_ ?_
  · exact List.mem_filterMap.mpr ⟨other, hreachable, by rw [hother]; rfl⟩
  · intro row hrow hkey
    obtain ⟨place, _, hgiven⟩ := List.mem_filterMap.mp hrow
    obtain ⟨module, hmodule, rfl⟩ := Option.map_eq_some_iff.mp hgiven
    have hmodule := List.mem_of_getElem? hmodule
    dsimp only at hkey
    rw [hstable module hmodule, hstable worklet hmem] at hkey
    have hid := eq_of_stabilize hworklet (worklet_or_file hplugins hstage module hmodule) hkey
    rw [List.inj_on_of_nodup_map hnodup hmodule hmem hid]

section Scanned

variable {plugins : List Nat} {known : List (ModuleId × String)} (hseparates : Separates known)
  (hkeeps : world.KeepsScans plugins known start)
  (hknown : world.sourcesIn (limit + 1) start ⊆ known)
include hseparates hkeeps hknown

/-- The module of a worklet is compiled by a nested build for the request that its id names,
and its code names the first file of this build.  All files of the build are collected. -/
theorem exists_compiled {module : Module} (hmodule : module ∈ graph.modules)
    {query : Worklet.ModuleQuery} {request : String}
    (hid : module.id.text = Worklet.encodeModuleId query request) :
    ∃ inner assets file, world.LoadsBy (limit + 1) start module.id inner ∧
      inner.plan.options.input = [⟨some query.name, request⟩] ∧
      inner.plan.options.context =
        Path.join start.plan.options.workingDirectory query.context ∧
      world.Gives limit inner assets ∧ (assets.map Asset.filename).head? = some file ∧
      assets ⊆ last.emitted ∧ module.content = .script (workletView file) := by
  obtain ⟨entries, running, hopening, hload⟩ := scanStage_eq_ok.mp hstage
  obtain ⟨_, hfound, _⟩ := Loader.load_found hload
  obtain ⟨load, hvisit, ⟨found⟩⟩ := Loader.exists_left_of_forall₂ hfound hmodule
  have hscans := scansTo_of_found hseparates hkeeps hknown hopening found
  have hsame : module.id = load.1.id := found.numbered.id_eq.trans found.examined.id_eq
  have hworklet : isWorklet load.1.id = true := by
    rw [← hsame, isWorklet, hid]
    exact Worklet.isModuleId_encode _ _
  obtain ⟨job, before, ended, session, assets, file, hloading, hrun, hassets, hfile, hloaded,
    hnext⟩ := load_worklet hplugins hworklet found.examined.load_eq
  obtain ⟨hname, hrequest, hcontext⟩ := job_of_nested hloading (hsame ▸ hid)
  have hstarted : world.startedBy start.plan load =
      some ⟨innerPlan start.plan job, before.isCancelled, before.session⟩ := by
    rw [startedBy, hloading]
    rfl
  refine ⟨_, assets, file, ⟨load, ?_, hsame.symm, hstarted⟩, ?_, hcontext,
    ⟨ended, session, hrun, hassets⟩, hfile, ?_, ?_⟩
  · simp only [loadsIn, hopening]
    exact hvisit
  · rw [← hname, ← hrequest]
    rfl
  · refine (keeps_emitted limit assets).after_load hload hvisit fun result next hagain => ?_
    rw [found.examined.load_eq] at hagain
    cases hagain
    rw [hnext]
    exact List.subset_append_right _ _
  · rw [hloaded] at hscans
    generalize module.content = content at hscans
    cases hscans with
    | text memory hread =>
        obtain ⟨hsource, hnothing⟩ := scan_moduleCode hread (world.hooks start.plan .script) memory
        rw [hnothing, hsource]
        rfl

/-- A script with calls that add worklets is the text of a file. -/
theorem exists_source {module : Module} (hmodule : module ∈ graph.modules) {view : View}
    (hview : module.content = .script view) :
    ∃ source program memory, ModuleSource.read module.kind source = .ok program ∧
      view = (WebBundle.Scan.scan (world.hooks start.plan module.kind) program memory).1.toView
        program.source ∧
      (askedWorklets module.kind program ≠ [] →
        module.id.isVirtual = false ∧ world.files.readText module.id.text = .ok source) := by
  obtain ⟨entries, running, hopening, hload⟩ := scanStage_eq_ok.mp hstage
  obtain ⟨_, hfound, _⟩ := Loader.load_found hload
  obtain ⟨load, _, ⟨found⟩⟩ := Loader.exists_left_of_forall₂ hfound hmodule
  have hscans := scansTo_of_found hseparates hkeeps hknown hopening found
  have hsame : module.id = load.1.id := found.numbered.id_eq.trans found.examined.id_eq
  have hkind : module.kind = found.examined.loaded.kind :=
    found.numbered.kind_eq.trans found.examined.kind_eq
  have hloadEq := found.examined.load_eq
  rw [hview] at hscans
  generalize found.examined.loaded = loaded at hscans hkind hloadEq
  cases hscans with
  | @text kind source program memory hread =>
      obtain rfl : module.kind = kind := hkind
      refine ⟨source, program, memory, hread, rfl, fun hasked => ?_⟩
      change world.load start.plan (world.run limit) load.1
        (world.pluginsOf start.plan.plugins) load.2 = _ at hloadEq
      cases hworklet : isWorklet load.1.id with
      | true =>
          obtain ⟨_, _, _, _, _, file, _, _, _, _, hloaded, _⟩ :=
            load_worklet hplugins hworklet hloadEq
          rw [Loaded.text.injEq] at hloaded
          obtain ⟨hscript, rfl⟩ := hloaded
          rw [hscript] at hread hasked
          exact absurd (Worklet.knownModules_moduleCode hread) hasked
      | false =>
          rw [load_file hplugins hworklet, Option.some.injEq, Prod.mk.injEq] at hloadEq
          rw [hsame]
          exact loadFile_text hloadEq.1 fun hempty => hasked (by rw [hempty]; rfl)

end Scanned

end OnePlugin

/-! ## Calls -/

/-- A call whose argument is replaced reaches the worklet that it requests. -/
structure ReachesWorklet (world : World) (limit : Nat) (start : BuildStart) (graph : Graph)
    (assets : List Asset) (index : Nat) (module : Module) (view : View) (span : Span)
    (request : String) (number : UInt32) (worklet : Module) (inner : BuildStart) (chunk : Asset)
    (others : List Asset) : Prop where
  /-- The argument becomes a variable. -/
  replaced : .replace span (Worklet.variableName number) ∈ view.edits
  /-- The variable is what the module of the worklet exports. -/
  declared : DeclaresOnce (targets graph module) view (Worklet.variableName number)
    worklet.stableId
  /-- In every chunk with the call, this module has the code that names the first file of the
  nested build. -/
  required : ∀ given entry, (given, entry) ∈ graph.entries → index ∈ graph.reachable entry →
    lookup? (table start.plan.options graph entry) worklet.stableId =
      some (moduleFunction (Worklet.moduleCode chunk.filename))
  loaded : world.LoadsBy (limit + 1) start worklet.id inner
  input : inner.plan.options.input = [⟨some (toString number.toNat), request⟩]
  /-- The request is looked up from the directory of the call. -/
  context : ∃ directory, Path.parent? module.id.text = some directory ∧
    Path.names inner.plan.options.context = Path.names directory
  gives : world.GivesChunk limit inner (toString number.toNat) chunk others
  /-- The names of all files of the nested build stand for these files in the output. -/
  output : ∀ asset ∈ chunk :: others, asset ∈ assets ∧
    ∀ other ∈ assets, other.filename = asset.filename → other = asset

section Reaching

variable {start : BuildStart} {number : Nat} {settings : Worklet.Settings Nat}
  (hplugins : world.pluginsOf start.plan.plugins = [⟨number, .worklets settings⟩])
  {limit : Nat} {graph : Graph} {last : Running}
  (hstage : world.scanStage limit start = some (.ok (graph, last)))
  {plugins : List Nat} {known : List (ModuleId × String)}
  (hseparates : Separates known) (hkeeps : world.KeepsScans plugins known start)
  (hknown : world.sourcesIn (limit + 1) start ⊆ known)
  {assets : List Asset} (hfinish : finish start.plan graph last = .assets assets)
include hplugins hstage hseparates hkeeps hknown hfinish

/-- A rewritten call of a module that is read from a file reaches its worklet. -/
theorem exists_reached {index : Nat} {module : Module}
    (hindex : graph.modules[index]? = some module) {view : View}
    (hview : module.content = .script view) {source : String} {program : Program}
    {memory : PluginMemory}
    (hread : ModuleSource.read module.kind source = .ok program)
    (hscan : view = (WebBundle.Scan.scan (world.hooks start.plan module.kind) program memory).1.toView
      program.source)
    (hvirtual : module.id.isVirtual = false)
    (htext : world.files.readText module.id.text = .ok source)
    (hsmall : view.source.utf8ByteSize ≤ 2 ^ 32) {place : Nat} {span : Span} {request : String}
    (hasked : (askedWorklets module.kind program)[place]? = some (span, request)) :
    ∃ worklet inner chunk others, world.ReachesWorklet limit start graph assets index module view
      span request (.ofNat ((memory.counter number).toNat + place)) worklet inner chunk others := by
  have hmodule := List.mem_of_getElem? hindex
  have hadds := addsWorklets_scan hplugins module.kind program memory
  have hrecords := records_scan hplugins module.kind program memory
  have hfew := length_askedWorklets_le hplugins hread memory
  rw [← hscan] at hadds hrecords
  rw [← show view.source = program.source from hadds.source] at hfew
  generalize hplain : (declared program).toView program.source = plain at hadds hrecords
  obtain ⟨directory, hparent, habsolute⟩ := FileTree.exists_parent_of_readText htext
  have hrecord := getElem?_workletRecords hasked (memory.counter number).toNat
  have hplace : module.content.records[plain.records.length + place]? =
      (workletRecords (askedWorklets module.kind program) (memory.counter number).toNat)[place]? := by
    rw [hview]
    change view.records[_]? = _
    rw [hrecords, List.getElem?_append_right (Nat.le_add_right _ _), Nat.add_sub_cancel_left]
  obtain ⟨other, worklet, hdependency, hother, hworklet, hid⟩ :=
    exists_virtual hplugins hstage hmodule hvirtual hparent (hplace.trans hrecord)
  obtain ⟨inner, given, file, hloaded, hinput, hcontext, hgives, hfile, hemitted, hcontent⟩ :=
    exists_compiled hplugins hstage hseparates hkeeps hknown (List.mem_of_getElem? hother) hid
  obtain ⟨chunk, others, rfl, hchunk⟩ := givesChunk_of_gives hinput hgives
  have htarget : targets graph module (plain.records.length + place) = worklet.stableId := by
    rw [targets, hdependency, Option.bind_some, hother]
  refine ⟨worklet, inner, chunk, others, ?_, ?_, ?_, hloaded, hinput, ?_, hchunk, ?_⟩
  · rw [hadds.edits]
    refine List.mem_append_right _ (List.mem_map.mpr
      ⟨((span, request), (memory.counter number).toNat + place), ?_, rfl⟩)
    simp [List.mk_mem_zipIdx_iff_le_and_getElem?_sub, hasked]
  · rw [← htarget]
    exact hadds.declaresOnce (Nat.le_trans hfew hsmall) hasked (targets graph module)
  · intro name entry _ hreachable
    have hcode : moduleCode start.plan.options graph worklet =
        moduleFunction (Worklet.moduleCode chunk.filename) := by
      rw [List.map_cons, List.head?_cons, Option.some.injEq] at hfile
      simp only [moduleCode, hcontent, scriptCode_workletView, hfile]
    rw [← hcode]
    exact lookup?_worklet hplugins hstage hother hworklet _
      (reachable_of_dependency hreachable hindex hdependency)
  · refine ⟨directory, hparent, ?_⟩
    rw [hcontext]
    exact Path.names_join_relative habsolute _
  · exact fun asset hasset => mem_of_emitted hfinish (hemitted hasset)

end Reaching

/-- A project whose worklet is in another directory than its first module. -/
def deepWorklet : FileTree :=
  ⟨[(["p"], .directory), (["p", "m.js"], .file "import './x/b.js'".toUTF8),
    (["p", "x"], .directory),
    (["p", "x", "b.js"], .file "CSS.paintWorklet.addModule('./a.js')".toUTF8),
    (["p", "x", "a.js"], .file "1".toUTF8)]⟩

end World

end WebBundle

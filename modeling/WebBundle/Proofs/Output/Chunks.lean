import WebBundle.Proofs.Output.Order
import WebBundle.Proofs.Output.Reachable
import WebBundle.Proofs.Output.Requires

/-!
# Chunks stand by themselves

The table of a chunk has a row for each module that its entry needs.  A module requires only
what it depends on, so the key of every call is the key of a row.  A module that is emitted
as a file names a file of the output that has its bytes, since no other file of that name is
left when the files are put together.
-/

namespace WebBundle

open Scan

/-! ## Graphs -/

/-- A graph in which every import has a number, and every number a module. -/
structure Graph.Complete (graph : Graph) : Prop where
  dependencies : ∀ module ∈ graph.modules,
    module.dependencies.length = module.content.records.length
  numbers : ∀ module ∈ graph.modules, ∀ number ∈ module.dependencies,
    number < graph.modules.length
  entries : ∀ entry ∈ graph.entries, entry.2 < graph.modules.length

namespace Graph

variable {graph : Graph}

theorem dependsOn_iff {number other : Nat} : graph.DependsOn number other ↔
    ∃ module, graph.modules[number]? = some module ∧ other ∈ module.dependencies := by
  rw [DependsOn, dependenciesOf]
  cases graph.modules[number]? with
  | none => simp
  | some module => simp

theorem dependsOn_of_map (graph : Graph) {dependencies : List (List Nat)}
    (h : graph.modules.map Module.dependencies = dependencies) {number other : Nat}
    {given : List Nat} (hgiven : dependencies[number]? = some given) (hother : other ∈ given) :
    graph.DependsOn number other := by
  rw [← h, List.getElem?_map, Option.map_eq_some_iff] at hgiven
  obtain ⟨module, hmodule, rfl⟩ := hgiven
  exact dependsOn_iff.mpr ⟨module, hmodule, hother⟩

/-- Dependencies lead to modules. -/
theorem Complete.lt_of_leadsTo (h : graph.Complete) {entry number : Nat}
    (hentry : entry < graph.modules.length) (hleads : graph.LeadsTo entry number) :
    number < graph.modules.length := by
  induction hleads with
  | refl => exact hentry
  | tail _ hdependency _ =>
      obtain ⟨module, hmodule, hnumber⟩ := dependsOn_iff.mp hdependency
      exact h.numbers module (List.mem_of_getElem? hmodule) _ hnumber

end Graph

namespace Loader

variable {σ : Type} {steps : Steps σ}

/-- A search that succeeds leaves no number without a module. -/
theorem complete_of_load {limit : Nat} {entries : List (Option String × Resolved)}
    {state last : σ} {graph : Graph}
    (hload : Loader.load steps limit entries state = some (.ok graph, last)) : graph.Complete := by
  obtain ⟨_, hfound, hnumbers, hentries⟩ := load_found hload
  refine ⟨length_dependencies_of_load hload, ?_, ?_⟩
  · intro module hmodule number hnumber
    obtain ⟨load, _, ⟨found⟩⟩ := exists_left_of_forall₂ hfound hmodule
    have hless := found.numbered.numbers.lt hnumber
    rwa [List.length_map] at hless
  · intro entry hentry
    rw [hentries] at hentry
    have hless := hnumbers.lt (List.of_mem_zip hentry).2
    rwa [List.length_map] at hless

end Loader

/-! ## Tables -/

namespace Output

variable {options : Options} {graph : Graph} {entry : Nat}

/-- The keys of a table. -/
def keys (options : Options) (graph : Graph) (entry : Nat) : List String :=
  (table options graph entry).map Prod.fst

/-- A chunk that has everything it asks for. -/
structure SelfContained (options : Options) (graph : Graph) (entry : Nat) : Prop where
  /-- The chunk consists of the modules that dependencies lead to from the entry. -/
  mem_iff : ∀ number, number ∈ graph.reachable entry ↔ graph.LeadsTo entry number
  /-- They stand in the order of their numbers, and none of them twice. -/
  ordered : (graph.reachable entry).Pairwise (· < ·)
  /-- The table has a row for each of them. -/
  rows : List.Forall₂ (fun number row => ∃ module, graph.modules[number]? = some module ∧
    row = (module.stableId, moduleCode options graph module))
    (graph.reachable entry) (table options graph entry)
  /-- The chunk is made of the table, and the key that it requires is in the table. -/
  entry_mem : ∃ module, graph.modules[entry]? = some module ∧
    module.stableId ∈ keys options graph entry ∧
    ∀ hash given index, ∃ asset depth,
      chunk options graph hash ((given, entry), index) = some asset ∧
      asset.content = (chunkCode ⟨table options graph entry, module.stableId,
        options.globalObject, options.publicPath, depth⟩).toUTF8
  /-- So is every key that a script of the chunk requires. -/
  requires : ∀ number ∈ graph.reachable entry, ∀ module, graph.modules[number]? = some module →
    ∀ view, module.content = .script view →
      moduleCode options graph module = assemble (targets graph module) (scriptPieces view) ∧
        ∀ record, .call record ∈ scriptPieces view →
          targets graph module record ∈ keys options graph entry

theorem mem_keys {number : Nat} {module : Module} (hnumber : number ∈ graph.reachable entry)
    (hmodule : graph.modules[number]? = some module) :
    module.stableId ∈ keys options graph entry := by
  refine List.mem_map.mpr ⟨(module.stableId, moduleCode options graph module), ?_, rfl⟩
  exact List.mem_filterMap.mpr ⟨number, hnumber, by rw [hmodule]; rfl⟩

theorem forall₂_filterMap {α β : Type} {give : α → Option β} {items : List α}
    (hgiven : ∀ item ∈ items, ∃ value, give item = some value) :
    List.Forall₂ (fun item value => give item = some value) items (items.filterMap give) := by
  induction items with
  | nil => exact .nil
  | cons item rest ih =>
      rw [List.forall_mem_cons] at hgiven
      obtain ⟨⟨value, hvalue⟩, hrest⟩ := hgiven
      rw [List.filterMap_cons_some hvalue]
      exact .cons hvalue (ih hrest)

/-- The id behind an import record is that of a module of the graph. -/
theorem exists_target (h : graph.Complete) {module : Module} (hmodule : module ∈ graph.modules)
    {record : Nat} (hrecord : record < module.content.records.length) :
    ∃ number target, module.dependencies[record]? = some number ∧
      graph.modules[number]? = some target ∧
      targets graph module record = target.stableId := by
  rw [← h.dependencies module hmodule] at hrecord
  have hdependency := List.getElem?_eq_getElem hrecord
  have hnumber := h.numbers module hmodule _ (List.getElem_mem hrecord)
  have htarget := List.getElem?_eq_getElem hnumber
  refine ⟨_, _, hdependency, htarget, ?_⟩
  rw [targets, hdependency, Option.bind_some, htarget]

theorem reachable_of_dependency {number : Nat} {module : Module}
    (hnumber : number ∈ graph.reachable entry) (hmodule : graph.modules[number]? = some module)
    {record other : Nat} (hother : module.dependencies[record]? = some other) :
    other ∈ graph.reachable entry :=
  Graph.mem_reachable.mpr ((Graph.mem_reachable.mp hnumber).tail
    (Graph.dependsOn_iff.mpr ⟨module, hmodule, List.mem_of_getElem? hother⟩))

/-- The chunks of a complete graph whose views are intact have everything they ask for. -/
theorem selfContained (h : graph.Complete)
    (hviews : ∀ module ∈ graph.modules, module.content.Holds Intact)
    (hentry : entry < graph.modules.length) : SelfContained options graph entry := by
  have hmodules : ∀ number ∈ graph.reachable entry, ∃ module,
      graph.modules[number]? = some module := fun number hnumber =>
    ⟨_, List.getElem?_eq_getElem (h.lt_of_leadsTo hentry (Graph.mem_reachable.mp hnumber))⟩
  have hself : entry ∈ graph.reachable entry := Graph.mem_reachable.mpr .refl
  refine ⟨fun number => Graph.mem_reachable, graph.pairwise_reachable entry, ?_, ?_, ?_⟩
  · refine (forall₂_filterMap fun number hnumber => ?_).imp fun number row hrow => ?_
    · obtain ⟨module, hmodule⟩ := hmodules number hnumber
      exact ⟨_, by rw [hmodule]; rfl⟩
    · obtain ⟨module, hmodule, rfl⟩ := Option.map_eq_some_iff.mp hrow
      exact ⟨module, hmodule, rfl⟩
  · obtain ⟨module, hmodule⟩ := hmodules entry hself
    refine ⟨module, hmodule, mem_keys hself hmodule, fun hash given index => ?_⟩
    simp only [chunk, hmodule, Option.map_some]
    exact ⟨_, _, rfl, rfl⟩
  · intro number hnumber module hmodule view hview
    have hmem := List.mem_of_getElem? hmodule
    refine ⟨?_, fun record hrecord => ?_⟩
    · simp only [moduleCode, hview]
      exact scriptCode_eq _ view
    · have hintact := hviews module hmem
      rw [hview] at hintact
      have hless := hintact record (mem_scriptPieces hrecord)
      obtain ⟨other, target, hother, htarget, heq⟩ := exists_target h hmem
        (show record < module.content.records.length by rw [hview]; exact hless)
      rw [heq]
      exact mem_keys (reachable_of_dependency hnumber hmodule hother) htarget

/-- A module that is emitted as a file names the file of the output that has its bytes. -/
theorem exists_emitted {emitted assets : List Asset} {module : Module}
    (hfinal : finalize (generate options graph ++ sortByName emitted) = .ok assets)
    (hmodule : module ∈ graph.modules) {bytes : ByteArray} (hbytes : module.content = .asset bytes) :
    ∃ asset ∈ assets, moduleCode options graph module =
        assetCode asset.filename options.wasmLoading ∧ asset.content = bytes ∧
      asset.isChunk = false ∧ ∀ other ∈ assets, other.filename = asset.filename → other = asset := by
  obtain ⟨asset, hasset, hcontent, hchunk⟩ : ∃ asset, emittedFile? options module = some asset ∧
      asset.content = bytes ∧ asset.isChunk = false := by
    simp only [emittedFile?, hbytes, ModuleContent.bytes?, Option.map_some]
    exact ⟨_, rfl, rfl, rfl⟩
  have hmem : asset ∈ assets := by
    refine ((kept_of_finalize hfinal).1 asset).mpr (List.mem_append_left _ ?_)
    exact List.mem_append_right _ (List.mem_filterMap.mpr ⟨module, hmodule, hasset⟩)
  refine ⟨asset, hmem, ?_, hcontent, hchunk, fun other hother hname =>
    eq_of_filename hfinal hother hmem hname⟩
  simp only [moduleCode, hbytes, hasset, Option.map_some, Option.getD_some]

end Output

/-! ## Builds -/

namespace World

/-- Whatever was done with a bundler before, every graph that one of its builds finds, nested
ones included, gives chunks that have everything they ask for; and when such a build succeeds,
every file that a module of a chunk names is in the output with the bytes of the module. -/
theorem chunks_selfContained {options : Options} {registry : List Plugin} {plugins : List Nat}
    {known : List (ModuleId × String)} {bundler : Bundler}
    (hreached : Bundler.Reached (.fresh options registry plugins) known bundler)
    {files : FileTree} {limit : Nat} {build : BuildStart}
    (hbuild : build ∈ (bundler.world files).buildsIn limit bundler.start) {depth : Nat}
    {graph : Graph} {last : Running}
    (hstage : (bundler.world files).scanStage depth build = some (.ok (graph, last)))
    {given : Option String} {entry : Nat} (hentry : (given, entry) ∈ graph.entries) :
    Output.SelfContained build.plan.options graph entry ∧
      ∀ assets, finish build.plan graph last = .assets assets →
        ∀ number ∈ graph.reachable entry, ∀ module, graph.modules[number]? = some module →
          ∀ bytes, module.content = .asset bytes →
            ∃ asset ∈ assets, Output.moduleCode build.plan.options graph module =
                Output.assetCode asset.filename build.plan.options.wasmLoading ∧
              asset.content = bytes ∧ asset.isChunk = false ∧
              ∀ other ∈ assets, other.filename = asset.filename → other = asset := by
  have hobeys := obeys_buildsIn Output.intact_of_scan
    (hreached.obeys Output.intact_of_scan rfl) build hbuild
  obtain ⟨_, _, _, hload⟩ := scanStage_eq_ok.mp hstage
  have hcomplete := Loader.complete_of_load hload
  refine ⟨Output.selfContained hcomplete (holds_of_scanStage Output.intact_of_scan hobeys hstage)
    (hcomplete.entries _ hentry), ?_⟩
  intro assets hfinish number _ module hmodule bytes hbytes
  rw [finish] at hfinish
  split at hfinish
  · rename_i hfinal
    cases hfinish
    exact Output.exists_emitted hfinal (List.mem_of_getElem? hmodule) hbytes
  · cases hfinish

/-- Two modules that import each other, and a file that one of them requires. -/
def circle : FileTree :=
  ⟨[(["p"], .directory), (["p", "m.js"], .file "import './n.js'".toUTF8),
    (["p", "n.js"], .file "import './m.js'; require('./w.wasm')".toUTF8),
    (["p", "w.wasm"], .file ⟨#[0]⟩)]⟩

/-- A bundler for these modules. -/
def forCircle : Bundler :=
  .fresh { input := [⟨none, "./m.js"⟩], workingDirectory := "/p", assetFilenames := "[name].[ext]" }
    [.worklets {}] [0]

set_option maxRecDepth 10000 in
/-- The chunk of the circle has both modules and the file, whose name is that of an output. -/
theorem chunks_selfContained_circle :
    ∃ graph last assets file,
      (forCircle.world circle).scanStage 3 forCircle.start = some (.ok (graph, last)) ∧
      finish forCircle.plan graph last = .assets assets ∧
      graph.modules.map Module.dependencies = [[1], [0, 2], []] ∧
      Output.SelfContained forCircle.options graph 0 ∧
      2 ∈ graph.reachable 0 ∧ graph.modules[2]? = some file ∧
      ∃ asset ∈ assets, Output.moduleCode forCircle.options graph file =
        Output.assetCode asset.filename .fetch ∧ asset.content.data = #[0] := by
  have hstage : (((forCircle.world circle).scanStage 3 forCircle.start).any fun stage =>
      stage.toOption.any fun found =>
        decide (found.1.modules.map Module.dependencies = [[1], [0, 2], []]) &&
          decide (found.1.entries = [(none, 0)]) &&
          (found.1.modules[2]?.any fun file =>
            file.content.bytes?.any fun bytes => decide (bytes.data = #[0])) &&
          (finish forCircle.plan found.1 found.2).assets?.isSome) = true := by
    decide +kernel
  obtain ⟨stage, hstage, hfound⟩ := (Option.any_eq_true _ _).mp hstage
  cases stage with
  | error ended => cases hfound
  | ok found =>
      obtain ⟨graph, last⟩ := found
      simp only [Except.toOption, Option.any_some, Bool.and_eq_true, decide_eq_true_eq,
        Option.any_eq_true, Option.isSome_iff_exists, Outcome.assets?_eq_some] at hfound
      obtain ⟨⟨⟨hgraph, hentries⟩, file, hfile, bytes, hbytes, hsame⟩, assets, hfinish⟩ := hfound
      have hcontent : file.content = .asset bytes := by
        cases hfileContent : file.content with
        | script view =>
            rw [hfileContent] at hbytes
            cases hbytes
        | asset given =>
            rw [hfileContent] at hbytes
            cases hbytes
            rfl
      have hentry : ((none, 0) : Option String × Nat) ∈ graph.entries := by rw [hentries]; simp
      have hbuild : forCircle.start ∈ (forCircle.world circle).buildsIn 0 forCircle.start :=
        List.mem_cons_self
      obtain ⟨hself, houtput⟩ := chunks_selfContained .first hbuild hstage hentry
      have hleads : graph.LeadsTo 0 2 := .tail (.single (graph.dependsOn_of_map hgraph rfl
        (List.mem_singleton_self 1))) (graph.dependsOn_of_map hgraph rfl (by decide))
      have hneeds := (hself.mem_iff 2).mpr hleads
      obtain ⟨asset, hasset, hcode, hgiven, _⟩ := houtput assets hfinish 2 hneeds file hfile
        bytes hcontent
      exact ⟨graph, last, assets, file, hstage, hfinish, hgraph, hself, hneeds, hfile,
        asset, hasset, hcode, hgiven ▸ hsame⟩

end World

end WebBundle

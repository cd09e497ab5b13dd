import WebBundle.Proofs.Build.Partition
import WebBundle.Proofs.Build.Stages
import WebBundle.Proofs.Search.Omission
import WebBundle.Proofs.Worklet.Additions
import WebBundle.Proofs.Worklet.Distinct
import WebBundle.Proofs.Worklet.ModuleCode
import WebBundle.Proofs.Worklet.Virtual

/-!
# Builds with and without worklets

A plugin for worklets adds virtual modules to a graph, and imports that lead to them.
Whatever else is found would be found without the plugin, in the same order.  Both searches
run in step, although the first one runs nested builds: these keep nothing in the cache of
the build around them.
-/

namespace WebBundle

open Syntax Scan

/-- A session keeps nothing but some modules in a partition. -/
def Session.KeepsOnly (session : Session) (path : List String) (ids : List ModuleId) : Prop :=
  ∀ entry ∈ session.keptAt path, entry.1 ∈ ids

/-- The contents of a module in a build with one plugin for worklets and without plugins. -/
inductive GainsWorklets : Loader.Likeness
  | asset {kind : ModuleKind} (bytes : ByteArray) : GainsWorklets kind (.asset bytes) (.asset bytes)
  | script {kind : ModuleKind} {source : String} {program : Program} {number : Nat} {view : View}
      (hread : ModuleSource.read kind source = .ok program)
      (himports : ∀ record ∈ (declared program).records,
        Worklet.isLoaderRequest record.specifier = false)
      (hadds : AddsWorklets (askedWorklets kind program) number
        ((declared program).toView program.source) view) :
      GainsWorklets kind (.script view) (.script ((declared program).toView program.source))

/-- No import that stands in the source of a module is a loader request. -/
def ModuleContent.ImportsNoWorklets (content : ModuleContent) : Prop :=
  ∀ record ∈ content.records, record.form ≠ .generated →
    Worklet.isLoaderRequest record.specifier = false

/-- The states of both builds when some modules have been scanned. -/
structure InStep (plan : BuildPlan) (ids : List ModuleId) (first second : Running) : Prop where
  first_keeps : first.session.KeepsOnly plan.partition ids
  second_keeps : second.session.KeepsOnly plan.partition ids
  isCancelled : second.isCancelled = false

theorem records_toView_declared (program : Program) :
    ((declared program).toView program.source).records = (declared program).records := by
  rw [Findings.toView, Findings.variableRecords, (declared_reaction program).1]
  exact List.append_nil _

theorem boundRecords_toView_declared (program : Program) :
    ((declared program).toView program.source).boundRecords = [] := by
  rw [Findings.toView, (declared_reaction program).1]
  rfl

namespace World

variable {world : World} {plan : BuildPlan}

theorem cached?_eq_none {session : Session} {ids : List ModuleId}
    (hkeeps : session.KeepsOnly plan.partition ids) {id : ModuleId} (hid : id ∉ ids)
    (kind : ModuleKind) (source : String) : cached? plan id kind source session = none := by
  rw [Session.KeepsOnly, Session.keptAt, Cache.keptAt] at hkeeps
  rw [cached?]
  cases hinner : session.cache.at? plan.partition with
  | none => rfl
  | some inner =>
      rw [hinner] at hkeeps
      have hnone : inner.modules.find? (fun entry => entry.1 = id) = none := by
        rw [List.find?_eq_none]
        intro entry hentry hsame
        rw [decide_eq_true_eq] at hsame
        exact hid (hsame ▸ hkeeps entry hentry)
      rw [Option.bind_some, Cache.get?, hnone]
      rfl

/-- After a scan, at most the scanned module is kept besides those that were. -/
theorem keepsOnly_scan {running : Running} {ids : List ModuleId}
    (hkeeps : running.session.KeepsOnly plan.partition ids) (id : ModuleId) (loaded : Loaded) :
    (world.scan plan id loaded running).2.session.KeepsOnly plan.partition (ids ++ [id]) := by
  intro entry hentry
  rcases mem_keptAt_scan hentry with hsame | hbefore
  · exact List.mem_append_right _ (List.mem_singleton.mpr hsame)
  · exact List.mem_append_left _ (hkeeps entry hbefore)

theorem keepsOnly_resolve {running : Running} {ids : List ModuleId}
    (hkeeps : running.session.KeepsOnly plan.partition ids) (importer : Option ModuleId)
    (specifier : String) (form : ImportForm) :
    (world.resolve plan importer specifier form running).2.session.KeepsOnly plan.partition
      ids := by
  rw [Session.KeepsOnly, keptAt_resolve]
  exact hkeeps

/-- A scan without a kept view is one of the source. -/
theorem scan_text {running : Running} {id : ModuleId} {kind : ModuleKind} {source : String}
    (hcold : cached? plan id kind source running.session = none) {content : ModuleContent}
    (hscan : (world.scan plan id (.text kind source) running).1 = .ok content) :
    ∃ program, ModuleSource.read kind source = .ok program ∧ content = .script
      ((WebBundle.Scan.scan (world.hooks plan kind) program running.session.plugins).1.toView
        program.source) := by
  rw [scan, scanText, hcold] at hscan
  cases hread : ModuleSource.read kind source with
  | error fault =>
      simp only [hread] at hscan
      cases hscan
  | ok program =>
      simp only [hread, scanProgram_eq] at hscan
      cases hscan
      exact ⟨program, rfl, rfl⟩

theorem scan_text_ok {running : Running} {id : ModuleId} {kind : ModuleKind} {source : String}
    (hcold : cached? plan id kind source running.session = none) {program : Program}
    (hread : ModuleSource.read kind source = .ok program) :
    (world.scan plan id (.text kind source) running).1 = .ok (.script
      ((WebBundle.Scan.scan (world.hooks plan kind) program running.session.plugins).1.toView
        program.source)) := by
  rw [scan, scanText, hcold, hread]
  simp only [scanProgram_eq]
  rfl

theorem hooks_withoutPlugins (kind : ModuleKind) : world.hooks plan.withoutPlugins kind = [] := by
  have hnone : world.pluginsOf plan.withoutPlugins.plugins = [] := rfl
  rw [hooks, hnone, Numbered.hooks]
  split <;> rfl

section OnePlugin

variable {number : Nat} {settings : Worklet.Settings Nat}
  (hplugins : world.pluginsOf plan.plugins = [⟨number, .worklets settings⟩])
include hplugins

/-- What a scan with one plugin for worklets finds: only scripts are shown to the plugin. -/
theorem scan_fst (kind : ModuleKind) (program : Program) (memory : PluginMemory) :
    (WebBundle.Scan.scan (world.hooks plan kind) program memory).1 =
      if kind.isScript then (declared program).addReactions
        (Worklet.reactionsFrom 0 (memory.counter number).toNat (shownCalls program))
      else declared program := by
  rw [hooks, hplugins, Numbered.hooks]
  cases hkind : kind.isScript with
  | false => simp only [Bool.false_eq_true, if_false, scan_nil]
  | true =>
      have hnumber : memory.counter number = .ofNat (memory.counter number).toNat :=
        UInt32.ofNat_toNat.symm
      obtain ⟨hfound, _⟩ := @scan_hooks PluginMemory (fun memory => memory.counter number)
        (fun value memory => memory.setCounter number value)
        (fun value memory => memory.counter_setCounter_self number value) program _ _ hnumber
      have hhooks : [(⟨number, .worklets settings⟩ : Numbered)].flatMap
            (fun numbered => numbered.plugin.hooks numbered.number kind) =
          Worklet.hooks (fun memory : PluginMemory => memory.counter number)
            (fun value memory => memory.setCounter number value) :=
        List.append_nil _
      simp only [if_true, hhooks, hfound]

/-- What a scan with one plugin for worklets adds to the view of a program. -/
theorem addsWorklets_scan (kind : ModuleKind) (program : Program) (memory : PluginMemory) :
    AddsWorklets (askedWorklets kind program) (memory.counter number).toNat
      ((declared program).toView program.source)
      ((WebBundle.Scan.scan (world.hooks plan kind) program memory).1.toView program.source) := by
  rw [scan_fst hplugins, askedWorklets]
  split
  · exact .addReactions program _
  · exact .nil (boundRecords_toView_declared program) _

/-- The import records that a scan with one plugin for worklets adds ask for the worklets by
their numbers. -/
theorem records_scan (kind : ModuleKind) (program : Program) (memory : PluginMemory) :
    ((WebBundle.Scan.scan (world.hooks plan kind) program memory).1.toView program.source).records =
      ((declared program).toView program.source).records ++
        workletRecords (askedWorklets kind program) (memory.counter number).toNat := by
  rw [scan_fst hplugins, askedWorklets]
  split
  · exact records_addReactions program _
  · exact (List.append_nil _).symm

/-! ## Both searches -/

/-- A module that is no virtual one is scanned to what it is without the plugin, and what
worklets add. -/
theorem scan_file {ids : List ModuleId} {running other : Running}
    (hstep : InStep plan ids running other)
    {id : ModuleId} (hfresh : id ∉ ids) {loaded : Loaded} {content : ModuleContent}
    (hscan : (world.scan plan id loaded running).1 = .ok content)
    (himports : content.ImportsNoWorklets) :
    ∃ plain, (world.scan plan.withoutPlugins id loaded other).1 = .ok plain ∧
      GainsWorklets loaded.kind content plain := by
  cases loaded with
  | bytes kind bytes =>
      cases hscan
      exact ⟨.asset bytes, rfl, .asset bytes⟩
  | text kind source =>
      obtain ⟨program, hread, rfl⟩ :=
        scan_text (cached?_eq_none hstep.first_keeps hfresh kind source) hscan
      have hcold : cached? plan.withoutPlugins id kind source other.session = none :=
        cached?_eq_none hstep.second_keeps hfresh kind source
      have hadds := addsWorklets_scan hplugins kind program running.session.plugins
      refine ⟨_, scan_text_ok hcold hread, ?_⟩
      rw [hooks_withoutPlugins, scan_nil]
      refine .script hread ?_ hadds
      intro record hrecord
      obtain ⟨requests, _, _, hrecords⟩ := hadds.records
      refine himports record ?_ ((declared_sound program).records record hrecord)
      change record ∈ View.records _
      rw [hrecords]
      refine List.mem_append_left _ ?_
      rwa [records_toView_declared]

omit hplugins in
/-- The code of a virtual module imports nothing. -/
theorem scan_worklet {ids : List ModuleId} {running other : Running}
    (hstep : InStep plan ids running other)
    {id : ModuleId} (hfresh : id ∉ ids) {file : String} {content : ModuleContent}
    (hscan : (world.scan plan id (.text .script (Worklet.moduleCode file)) running).1 =
      .ok content) : content.records = [] := by
  obtain ⟨program, hread, rfl⟩ :=
    scan_text (cached?_eq_none hstep.first_keeps hfresh .script _) hscan
  obtain ⟨_, hsites⟩ := Worklet.read_moduleCode hread
  rw [WebBundle.Scan.scan, hsites]
  rfl

/-- A build without plugins finds what a build with one plugin for worklets finds, but for
the virtual modules. -/
theorem omits_worklets (limit : Nat)
    (nested : BuildPlan → Bool → Session → Option (Ended × Session)) :
    Loader.Omits (world.steps plan (world.run limit)) (world.steps plan.withoutPlugins nested)
      isFile GainsWorklets ModuleContent.ImportsNoWorklets
      (fun loaded => ∃ file, loaded = .text .script (Worklet.moduleCode file))
      (fun record => Worklet.isLoaderRequest record.specifier = false) (InStep plan) where
  load := by
    intro ids running other resolved loaded next hstep hfile hload
    rw [isFile, Bool.not_eq_true'] at hfile
    change world.load plan _ resolved (world.pluginsOf plan.plugins) running = _ at hload
    rw [load_file hplugins hfile, Option.some.injEq, Prod.mk.injEq] at hload
    obtain ⟨hloaded, rfl⟩ := hload
    exact ⟨other, congrArg (fun result => some (result, other)) hloaded, hstep⟩
  load_dropped := by
    intro ids running other resolved loaded next hstep hworklet hload
    rw [isFile, Bool.not_eq_false'] at hworklet
    obtain ⟨_, _, _, _, _, file, _, _, _, _, hloaded, _⟩ :=
      load_worklet hplugins hworklet hload
    refine ⟨⟨file, hloaded⟩, { hstep with first_keeps := ?_ }⟩
    have hkept := keptAt_load List.prefix_rfl (fun start hstart ended session hrun => by
      obtain ⟨_, name, hpartition⟩ := startedBy_plan hstart
      exact world.keptAt_run hpartition hrun) hload
    rw [Session.KeepsOnly, hkept]
    exact hstep.first_keeps
  scan := by
    intro ids running other id loaded content hstep _ hfresh hscan himports
    obtain ⟨plain, hplain, hgains⟩ := scan_file hplugins hstep hfresh hscan himports
    refine ⟨plain, hplain, hgains, ?_, ?_, ?_⟩
    · exact keepsOnly_scan hstep.first_keeps id loaded
    · exact @keepsOnly_scan world plan.withoutPlugins other ids hstep.second_keeps id loaded
    · exact (isCancelled_scan id loaded other).trans hstep.isCancelled
  scan_dropped := by
    intro ids running other id loaded content hstep _ hfresh hstub hscan
    obtain ⟨file, rfl⟩ := hstub
    change (world.scan plan id _ running).1 = _ at hscan
    refine ⟨scan_worklet hstep hfresh hscan, keepsOnly_scan hstep.first_keeps id _, ?_,
      hstep.isCancelled⟩
    exact fun entry hentry => List.mem_append_left _ (hstep.second_keeps entry hentry)
  records := by
    intro kind content plain hgains
    cases hgains with
    | asset bytes => exact ⟨[], rfl, List.forall_mem_nil _, List.forall_mem_nil _⟩
    | script hread himports hadds =>
        obtain ⟨requests, _, hrequests, hrecords⟩ := hadds.records
        refine ⟨_, hrecords, ?_, ?_⟩
        · change ∀ record ∈ View.records _, _
          rwa [records_toView_declared]
        · rw [List.forall_mem_map]
          exact fun request hrequest hnot => by
            rw [hrequests request hrequest] at hnot
            cases hnot
  resolve := by
    intro ids running other importer target record hstep hfollows hresolve
    change (world.resolve plan (some importer) record.specifier record.form running).1 = _
      at hresolve
    rw [resolve_fst] at hresolve
    have hagain := hresolve
    rw [← answer_withoutPlugins hplugins hfollows] at hagain
    refine ⟨?_, ?_, ?_⟩
    · rw [isFile, not_isWorklet_of_answer hagain]
      rfl
    · exact (world.resolve_fst _ _ _ _ _).trans hagain
    · refine ⟨keepsOnly_resolve hstep.first_keeps _ _ _,
        @keepsOnly_resolve world plan.withoutPlugins other ids hstep.second_keeps _ _ _, ?_⟩
      change (world.resolve plan.withoutPlugins _ _ _ other).2.isCancelled = false
      rw [resolve_snd]
      exact hstep.isCancelled
  resolve_dropped := by
    intro ids running other importer target record hstep hfollows hresolve
    rw [Bool.not_eq_false] at hfollows
    change (world.resolve plan (some importer) record.specifier record.form running).1 = _
      at hresolve
    rw [resolve_fst] at hresolve
    refine ⟨?_, ?_⟩
    · rw [isFile, isWorklet_of_answer hplugins hfollows hresolve]
      rfl
    · exact { hstep with first_keeps := keepsOnly_resolve hstep.first_keeps _ _ _ }
  stableId := fun id => rfl
  isCancelled := fun hstep => hstep.isCancelled

/-! ## Both graphs -/

omit hplugins in
theorem not_isWorklet_of_entries {entries : List (Option String × Resolved)}
    {running last : Running}
    (hentries : world.resolveEntries plan.withoutPlugins running = (.ok entries, last)) :
    ∀ entry ∈ entries, isWorklet entry.2.id = false := by
  intro entry hentry
  obtain ⟨request, hanswer⟩ := exists_answer
    ((world.resolveEntries_fst plan.withoutPlugins running).symm.trans
      (congrArg Prod.fst hentries)) hentry
  exact not_isWorklet_of_answer hanswer

/-- Entries that are no loader requests lead where they lead without the plugin. -/
theorem resolveEntries_withoutPlugins
    (hrequests : ∀ entry ∈ plan.options.input, Worklet.isLoaderRequest entry.request = false)
    (running other : Running) :
    (world.resolveEntries plan.withoutPlugins other).1 = (world.resolveEntries plan running).1 := by
  rw [resolveEntries_fst, resolveEntries_fst]
  refine congrArg Loader.collect (List.map_congr_left fun entry hentry => ?_)
  rw [entryAnswer, entryAnswer, answer_withoutPlugins hplugins (hrequests entry hentry)]

end OnePlugin

/-- A build that comes to its search comes to it without the plugin. -/
theorem opening_withoutPlugins {start : BuildStart} {number : Nat} {settings : Worklet.Settings Nat}
    (hplugins : world.pluginsOf start.plan.plugins = [⟨number, .worklets settings⟩])
    (hrequests : ∀ entry ∈ start.plan.options.input,
      Worklet.isLoaderRequest entry.request = false)
    {entries : List (Option String × Resolved)} {running : Running}
    (hopening : world.opening start = .ok (entries, running)) (session : Session) :
    (∀ entry ∈ entries, isWorklet entry.2.id = false) ∧
      ∃ reached,
        world.opening ⟨start.plan.withoutPlugins, false, session⟩ = .ok (entries, reached) ∧
        reached.session.cache = session.cache ∧ reached.isCancelled = false := by
  obtain ⟨_, plugins, _, hinput, hentries⟩ := opening_eq_ok hopening
  have hsame := resolveEntries_withoutPlugins hplugins hrequests
    { session := { start.session with plugins } } { session }
  obtain ⟨last, hlast⟩ := world.resolveEntries_snd start.plan.withoutPlugins { session }
  have hagain : world.resolveEntries start.plan.withoutPlugins { session } =
      (.ok entries, { session := { session with plugins := last } }) := by
    rw [hentries] at hsame
    exact Prod.ext hsame hlast
  refine ⟨not_isWorklet_of_entries hagain, { session := { session with plugins := last } }, ?_, rfl,
    rfl⟩
  have hstarted : Numbered.startAll (world.pluginsOf start.plan.withoutPlugins.plugins)
      session.plugins = (none, session.plugins) := rfl
  have hempty : start.plan.withoutPlugins.options.input.isEmpty = false := hinput
  simp only [opening, hstarted, hempty, hagain, Bool.false_eq_true, if_false]

end World

/-! ## Conservativity -/

open Output

/-- The content and the code of a module in a graph with worklets and in the graph without
them. -/
inductive SameButWorklets (options : Options) (first second : Graph) (module other : Module) : Prop
  /-- An emitted file is the same. -/
  | asset {bytes : ByteArray} (hmodule : module.content = .asset bytes)
      (hother : other.content = .asset bytes)
      (hcode : Output.moduleCode options first module = Output.moduleCode options second other)
  /-- A script is what its program declares, with the worklets that the program asks for and
  without them. -/
  | script {source : String} {program : Program} {number : Nat} {plain view : View}
      (hread : ModuleSource.read module.kind source = .ok program)
      (hplain : plain = (declared program).toView program.source)
      (hmodule : module.content = .script view) (hother : other.content = .script plain)
      (hadds : AddsWorklets (askedWorklets module.kind program) number plain view)
      (hcode : AddsWorklets.CodeGains (targets first module) (targets second other)
        (askedWorklets module.kind program) number plain view)

/-- A module of a graph with worklets, and the same module in the graph without them. -/
structure ConservedModule (options : Options) (first second : Graph) (module other : Module) :
    Prop where
  id_eq : other.id = module.id
  stableId_eq : other.stableId = module.stableId
  kind_eq : other.kind = module.kind
  /-- The imports that lead to files, which are numbered without the virtual modules. -/
  imports_eq : Loader.importsOf other =
    Loader.keptImports isFile (first.modules.map Module.id) module
  code : SameButWorklets options first second module other

/-- A graph with worklets, and the same graph without them. -/
structure ConservedGraph (options : Options) (first second : Graph) : Prop where
  modules : List.Forall₂ (ConservedModule options first second)
    (first.modules.filter fun module => isFile module.id) second.modules
  entries : second.entries = first.entries.map fun entry =>
    (entry.1, Loader.rank isFile (first.modules.map Module.id) entry.2)

theorem emittedFile?_congr (options : Options) {module other : Module} (hid : other.id = module.id)
    (hcontent : other.content = module.content) :
    emittedFile? options other = emittedFile? options module := by
  rw [emittedFile?, emittedFile?, hid, hcontent]

/-- The edits of a program without worklets refer to its imports. -/
theorem sound_toView_declared (program : Program) :
    ∀ edit ∈ ((declared program).toView program.source).edits, ∀ record,
      edit.record? = some record →
        record < ((declared program).toView program.source).records.length := by
  rw [records_toView_declared, Findings.toView, (declared_reaction program).1]
  simp only [List.map_nil, List.append_nil]
  exact (declared_sound program).edits

theorem conservedModule {options : Options} {first second : Graph}
    (hthin : Loader.ThinGraph isFile GainsWorklets first second) {module other : Module}
    (hsame : Loader.ThinModule isFile GainsWorklets (first.modules.map Module.id) module other)
    (hlength : other.dependencies.length = other.content.records.length) :
    ConservedModule options first second module other := by
  have hgains := hsame.content
  have htargets := fun record => @targets_eq _ _ _ _ hthin _ _ hsame record
  have himports := fun more => @hsame.imports_eq _ _ _ _ _ more
  generalize hmodule : module.content = content at hgains himports
  generalize hother : other.content = plain at hgains himports hlength
  rw [hlength] at htargets
  cases hgains with
  | asset bytes =>
      refine ⟨hsame.id_eq, hsame.stableId_eq, hsame.kind_eq,
        himports [] (List.append_nil _).symm hlength, .asset hmodule hother ?_⟩
      rw [Output.moduleCode, Output.moduleCode, hmodule, hother,
        emittedFile?_congr options hsame.id_eq (hother.trans hmodule.symm)]
  | script hread _ hadds =>
      obtain ⟨requests, _, _, hrecords⟩ := hadds.records
      have hcode := hadds.codeGains (boundRecords_toView_declared _) (sound_toView_declared _)
        htargets
      exact ⟨hsame.id_eq, hsame.stableId_eq, hsame.kind_eq, himports _ hrecords hlength,
        .script hread rfl hmodule hother hadds hcode⟩

namespace World

/-- A build whose graph is found with one plugin for worklets finds its graph without the
plugin, if nothing asks for worklets by an import.  This graph is the first one without the
virtual modules and the imports that lead to them. -/
theorem scanStage_conservative (world : World) {limit : Nat} {start : BuildStart} {number : Nat}
    {settings : Worklet.Settings Nat}
    (hplugins : world.pluginsOf start.plan.plugins = [⟨number, .worklets settings⟩])
    (hcold : start.session.KeepsOnly start.plan.partition [])
    (hrequests : ∀ entry ∈ start.plan.options.input,
      Worklet.isLoaderRequest entry.request = false)
    {graph : Graph} {last : Running}
    (hscan : world.scanStage limit start = some (.ok (graph, last)))
    (himports : ∀ module ∈ graph.modules, module.content.ImportsNoWorklets) {session : Session}
    (hother : session.KeepsOnly start.plan.partition []) :
    ∃ plain reached,
      world.scanStage limit ⟨start.plan.withoutPlugins, false, session⟩ =
        some (.ok (plain, reached)) ∧
      ConservedGraph start.plan.options graph plain := by
  obtain ⟨entries, running, hopening, hload⟩ := scanStage_eq_ok.mp hscan
  obtain ⟨hfiles, begun, hbegun, hcache, hcancelled⟩ :=
    opening_withoutPlugins hplugins hrequests hopening session
  obtain ⟨plugins, rfl⟩ := (world.opening_session start).2 entries running hopening
  have hstep : InStep start.plan [] { session := { start.session with plugins } } begun := by
    refine ⟨hcold, ?_, hcancelled⟩
    rw [Session.KeepsOnly, Session.keptAt, hcache]
    exact hother
  have hkept : ∀ entry ∈ entries, isFile entry.2.id = true := fun entry hentry => by
    rw [isFile, hfiles entry hentry]
    rfl
  obtain ⟨plain, reached, hagain, hthin⟩ := (omits_worklets hplugins limit
    (world.run limit)).search hkept hstep hload fun module hmodule _ => himports module hmodule
  have hlength := Loader.length_dependencies_of_load hagain
  refine ⟨plain, reached, scanStage_eq_ok.mpr ⟨entries, begun, hbegun, hagain⟩, ?_, hthin.entries⟩
  obtain ⟨hcount, hmodules⟩ := List.forall₂_iff_zip.mp hthin.modules
  refine List.forall₂_iff_zip.mpr ⟨hcount, fun {module other} hpair => ?_⟩
  exact conservedModule hthin (hmodules hpair) (hlength other (List.of_mem_zip hpair).2)

instance (content : ModuleContent) : Decidable content.ImportsNoWorklets := by
  unfold ModuleContent.ImportsNoWorklets
  infer_instance

set_option maxRecDepth 10000 in
/-- Two worklets, which are found in different waves, are taken out of a graph of four
modules. -/
theorem scanStage_conservative_lateWorklet :
    ∃ graph last plain reached,
      World.scanStage ⟨[.worklets {}], lateWorklet⟩ 3 lateStart = some (.ok (graph, last)) ∧
      World.scanStage ⟨[.worklets {}], lateWorklet⟩ 3 ⟨lateStart.plan.withoutPlugins, false, {}⟩ =
        some (.ok (plain, reached)) ∧
      graph.modules.length = 4 ∧ plain.modules.length = 2 ∧
      ConservedGraph lateStart.plan.options graph plain := by
  have hcases : ((World.scanStage ⟨[.worklets {}], lateWorklet⟩ 3 lateStart).any fun stage =>
      stage.toOption.any fun found =>
        found.1.modules.length = 4 &&
          (found.1.modules.filter fun module => isFile module.id).length = 2 &&
          found.1.modules.all fun module => module.content.ImportsNoWorklets) = true := by
    decide +kernel
  rw [Option.any_eq_true] at hcases
  obtain ⟨stage, hscan, hstage⟩ := hcases
  cases stage with
  | error ended => cases hstage
  | ok found =>
      obtain ⟨graph, last⟩ := found
      simp only [Except.toOption, Option.any_some, Bool.and_eq_true, decide_eq_true_eq,
        List.all_eq_true] at hstage
      obtain ⟨⟨hcount, hfiles⟩, himports⟩ := hstage
      have hcold : Session.KeepsOnly {} lateStart.plan.partition [] := List.forall_mem_nil _
      obtain ⟨plain, reached, hplain, hconserved⟩ := @scanStage_conservative
        ⟨[.worklets {}], lateWorklet⟩ 3 lateStart 0 {} rfl hcold (by decide) graph last hscan
        himports {} hcold
      exact ⟨graph, last, plain, reached, hscan, hplain, hcount,
        hconserved.modules.length_eq.symm.trans hfiles, hconserved⟩

end World

end WebBundle

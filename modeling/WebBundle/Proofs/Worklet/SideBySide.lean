import WebBundle.Proofs.Build.Edited
import WebBundle.Proofs.Worklet.Conservative

/-!
# Builds of worklets side by side

A build with one plugin for worklets runs a nested build for each of them.  The nested builds
share a session with the build, but they leave its counters as they are, and what they keep in
the cache they keep in partitions of their own.  So two such builds, in trees that differ in one
file that is no module of the first one, search for their modules side by side: they differ in
nothing but the names of the files that worklets are compiled to, and only where a nested build
contains the one file.
-/

namespace WebBundle

open Syntax Scan PluginMemory

/-- The view of the module that stands for a worklet, by the file that it was compiled to. -/
def workletView (file : String) : View := ({} : Findings).toView (Worklet.moduleCode file)

namespace World

variable {world : World} {plan : BuildPlan} {place : List String}

/-- A build loads a module by a nested build. -/
def LoadsBy (world : World) (limit : Nat) (start : BuildStart) (id : ModuleId)
    (inner : BuildStart) : Prop :=
  ∃ visit ∈ world.loadsIn limit start, visit.1.id = id ∧
    world.startedBy start.plan visit = some inner

/-- A build gives some files. -/
def Gives (world : World) (limit : Nat) (start : BuildStart) (assets : List Asset) : Prop :=
  ∃ ended session, world.runFrom limit start = some (ended, session) ∧
    ended.outcome = .assets assets

/-! ## Builds without plugins -/

/-- A build without plugins has no nested builds. -/
theorem startedBy_plain (hplain : world.pluginsOf plan.plugins = []) (visit : Resolved × Running) :
    world.startedBy plan visit = none := by
  rw [startedBy, hplain]
  rfl

theorem buildsIn_plain {start : BuildStart} (hplain : world.pluginsOf start.plan.plugins = [])
    (limit : Nat) : world.buildsIn limit start = [start] := by
  cases limit with
  | zero => rfl
  | succ limit =>
      have hnone : world.nestedIn (limit + 1) start = [] := by
        rw [nestedIn, List.filterMap_eq_nil_iff]
        exact fun visit _ => startedBy_plain hplain visit
      rw [buildsIn, hnone]
      rfl

/-! ## Nested builds of worklets -/

/-- Only worklets are loaded by nested builds. -/
theorem isWorklet_of_startedBy {visit : Resolved × Running} {inner : BuildStart}
    (hinner : world.startedBy plan visit = some inner) : isWorklet visit.1.id = true := by
  rw [startedBy] at hinner
  cases hloading : world.loading plan visit.1 (world.pluginsOf plan.plugins) visit.2 with
  | done result running =>
      rw [hloading] at hinner
      cases hinner
  | nested job before =>
      obtain ⟨_, query, request, _, _, hquery, _⟩ := loading_eq_nested hloading
      rw [Worklet.query?] at hquery
      split at hquery
      · assumption
      · cases hquery

/-- What the load of a worklet has done. -/
structure WorkletLoad (world : World) (plan : BuildPlan) (limit number : Nat)
    (visit : Resolved × Running) (loaded : Loaded) (next : Running) where
  inner : BuildStart
  assets : List Asset
  file : String
  started : world.startedBy plan visit = some inner
  obeys : inner.session.Obeys world.KeptFiles
  gives : world.Gives limit inner assets
  file_eq : (assets.map Asset.filename).head? = some file
  loaded_eq : loaded = .text .script (Worklet.moduleCode file)
  keeps : ∀ ids, visit.2.session.KeepsOnly plan.partition ids →
    next.session.KeepsOnly plan.partition ids
  counter : next.session.plugins.counter number = visit.2.session.plugins.counter number
  next_obeys : next.session.Obeys world.KeptFiles

section OnePlugin

variable {number : Nat} {settings : Worklet.Settings Nat}
  (hplugins : world.pluginsOf plan.plugins = [⟨number, .worklets settings⟩])
  (hforwarded : settings.plugins = [])
include hplugins hforwarded

/-- The nested builds have no plugins, and partitions of their own. -/
theorem plain_startedBy {visit : Resolved × Running} {inner : BuildStart}
    (hinner : world.startedBy plan visit = some inner) :
    inner.plan.plugins = [] ∧ inner.plan.partition ≠ [] := by
  obtain ⟨hnone, name, hpartition⟩ := startedBy_plan hinner
  constructor
  · rw [hnone, forwarded, hplugins, Numbered.workletSettings?]
    dsimp only
    rw [hforwarded]
    rfl
  · rw [hpartition]
    exact List.append_ne_nil_of_right_ne_nil _ (List.cons_ne_nil _ _)

/-- A worklet is loaded by a nested build that gives files, and that leaves what the build around
it keeps and counts. -/
theorem workletLoad {limit : Nat} {resolved : Resolved} {running next : Running} {loaded : Loaded}
    (hworklet : isWorklet resolved.id = true) (hobeys : running.session.Obeys world.KeptFiles)
    (hload : world.load plan (world.run limit) resolved (world.pluginsOf plan.plugins) running =
      some (.ok loaded, next)) :
    Nonempty (WorkletLoad world plan limit number (resolved, running) loaded next) := by
  obtain ⟨job, before, ended, session, assets, file, hloading, hrun, hassets, hfile, hloaded,
    hnext⟩ := load_worklet hplugins hworklet hload
  have hstarted : world.startedBy plan (resolved, running) =
      some ⟨innerPlan plan job, before.isCancelled, before.session⟩ := by
    rw [startedBy, hloading]
    rfl
  have hinner := obeys_startedBy hobeys hstarted
  have hkept := keptAt_load List.prefix_rfl (fun start hstart ended session hrun => by
    obtain ⟨_, name, hpartition⟩ := startedBy_plan hstart
    exact world.keptAt_run hpartition hrun) hload
  have hcounter := @counter_load world plan (world.run limit) resolved running next (.ok loaded)
    number (fun start hstart ended session hrun => by
      obtain ⟨hnone, _⟩ := plain_startedBy hplugins hforwarded hstart
      refine counter_run world (fun build hbuild hruns => ?_) hrun
      rw [buildsIn_plain (by rw [hnone]; rfl), List.mem_singleton] at hbuild
      rw [hbuild, BuildStart.Runs, hnone] at hruns
      exact absurd hruns.2 List.not_mem_nil) hload
  obtain ⟨hnone, hpartition⟩ := plain_startedBy hplugins hforwarded hstarted
  refine ⟨⟨_, assets, file, hstarted, hinner, ⟨ended, session, hrun, hassets⟩, hfile, hloaded,
    fun ids hkeeps => ?_, hcounter, ?_⟩⟩
  · rw [Session.KeepsOnly, hkept]
    exact hkeeps
  · rw [hnext]
    exact obeys_run_plain (by rw [hnone]; rfl) hpartition hinner hrun hassets

end OnePlugin

/-! ## Scans of worklets -/

/-- Nothing is found in the code of the module that stands for a worklet, whatever the hooks. -/
theorem scan_moduleCode {σ : Type} {file : String} {program : Program}
    (hread : ModuleSource.read .script (Worklet.moduleCode file) = .ok program)
    (hooks : List (Hook σ)) (memory : σ) :
    program.source = Worklet.moduleCode file ∧
      WebBundle.Scan.scan hooks program memory = ({}, memory) := by
  obtain ⟨hsource, hsites⟩ := Worklet.read_moduleCode hread
  refine ⟨hsource, ?_⟩
  rw [WebBundle.Scan.scan, hsites]
  rfl

/-- The module that stands for a worklet is scanned to its view, which has nothing but the
code. -/
theorem scan_workletView {running : Running} {ids : List ModuleId}
    (hkeeps : running.session.KeepsOnly plan.partition ids) {id : ModuleId} (hfresh : id ∉ ids)
    {loaded : Loaded} {file : String} (hloaded : loaded = .text .script (Worklet.moduleCode file))
    {content : ModuleContent} (hscan : (world.scan plan id loaded running).1 = .ok content) :
    content = .script (workletView file) ∧
      (world.scan plan id loaded running).2.session.plugins = running.session.plugins := by
  subst hloaded
  have hcold := cached?_eq_none hkeeps hfresh .script (Worklet.moduleCode file)
  obtain ⟨program, hread, rfl⟩ := scan_text hcold hscan
  obtain ⟨hsource, hfound⟩ := scan_moduleCode hread (world.hooks plan .script)
    running.session.plugins
  constructor
  · rw [hfound, hsource]
    rfl
  · rw [scan, scanText, hcold, hread]
    simp only [scanProgram_eq, hfound]

/-! ## Two trees -/

/-- Which job compiles a worklet does not depend on the warnings given so far. -/
theorem prepareWorklet_fst {registry : List Plugin} {files edited : FileTree} (plan : BuildPlan)
    (settings : Worklet.Settings Nat) (query : Worklet.ModuleQuery) (request : String)
    (session other : Session) :
    ((World.mk registry files).prepareWorklet plan settings query request session).1 =
      ((World.mk registry edited).prepareWorklet plan settings query request other).1 := by
  have hplugins := Worklet.forward_fst ((World.mk registry files).available plan) settings.plugins
    (Worklet.checkGlobalObject settings plan.options session.diagnostics)
    (Worklet.checkGlobalObject settings plan.options other.diagnostics)
  change (_ : Worklet.Job Nat) = _
  rw [prepareWorklet, prepareWorklet, Worklet.plan, Worklet.plan]
  dsimp only
  rw [hplugins]
  rfl

/-- The states of two builds when some modules have been scanned: both keep nothing else for
themselves, they count alike, and their nested builds keep what their files declare. -/
structure SideBySide (registry : List Plugin) (files edited : FileTree) (plan : BuildPlan)
    (number : Nat) (ids : List ModuleId) (running other : Running) : Prop where
  first_keeps : running.session.KeepsOnly plan.partition ids
  second_keeps : other.session.KeepsOnly plan.partition ids
  counters : AgreeOn [number] running.session.plugins other.session.plugins
  first_obeys : running.session.Obeys (World.mk registry files).KeptFiles
  second_obeys : other.session.Obeys (World.mk registry edited).KeptFiles

/-- What two builds load for a module: the same, or the codes of worklets that were compiled to
different files by a nested build that contains the edited file. -/
inductive SameLoaded (world : World) (place : List String) (starts : ModuleId → BuildStart → Prop) :
    ModuleId → Loaded → Loaded → Prop
  | file {id : ModuleId} {loaded : Loaded} (hfile : isWorklet id = false) :
      SameLoaded world place starts id loaded loaded
  | worklet {id : ModuleId} {loaded again : Loaded} {inner : BuildStart} {file other : String}
      (hworklet : isWorklet id = true) (hstarts : starts id inner)
      (hloaded : loaded = .text .script (Worklet.moduleCode file))
      (hagain : again = .text .script (Worklet.moduleCode other))
      (hfile : file = other ∨ inner.Reads world place) : SameLoaded world place starts id loaded again

/-- The contents of a module in two builds: the same, or the views of worklets that were compiled
to different files by a nested build that contains the edited file. -/
inductive SameContent (world : World) (place : List String)
    (starts : ModuleId → BuildStart → Prop) : ModuleId → ModuleContent → ModuleContent → Prop
  | same (id : ModuleId) (content : ModuleContent) :
      SameContent world place starts id content content
  | worklet {id : ModuleId} {inner : BuildStart} (file other : String)
      (hworklet : isWorklet id = true) (hstarts : starts id inner)
      (hreads : inner.Reads world place) :
      SameContent world place starts id (.script (workletView file)) (.script (workletView other))

section TwoTrees

variable {registry : List Plugin} {files edited : FileTree}
variable (hfiles : FileTree.SameBut place files edited)
  (hplace : place.getLast? ≠ some "package.json")
variable {number : Nat} {settings : Worklet.Settings Nat}
  (hplugins : (World.mk registry files).pluginsOf plan.plugins = [⟨number, .worklets settings⟩])
  (hforwarded : settings.plugins = [])

include hplugins in
/-- A module is loaded by the same nested build in both trees, if it is loaded by one. -/
theorem startedBy_edited (resolved : Resolved) (running other : Running) :
    Option.Rel (fun inner twin => inner.plan = twin.plan)
      ((World.mk registry files).startedBy plan (resolved, running))
      ((World.mk registry edited).startedBy plan (resolved, other)) := by
  have hagain : (World.mk registry edited).pluginsOf plan.plugins =
      [⟨number, .worklets settings⟩] := hplugins
  rw [startedBy, startedBy, hplugins, hagain]
  simp only [loading]
  cases Worklet.query? resolved.id with
  | error failure => exact .none
  | ok found =>
      cases found with
      | none => exact .none
      | some worklet =>
          obtain ⟨query, request⟩ := worklet
          exact .some (congrArg (innerPlan plan) (prepareWorklet_fst plan settings query request _ _))

/-- Files are scanned alike in states that count alike. -/
theorem scan_sideBySide {ids : List ModuleId} {running other : Running}
    (h : SideBySide registry files edited plan number ids running other)
    (hnumbers : Numbered.workletNumbers ((World.mk registry files).pluginsOf plan.plugins) ⊆
      [number])
    {id : ModuleId} (hfresh : id ∉ ids) {loaded : Loaded} {content twin : ModuleContent}
    (hscan : ((World.mk registry files).scan plan id loaded running).1 = .ok content)
    (hagain : ((World.mk registry edited).scan plan id loaded other).1 = .ok twin) :
    content = twin ∧ AgreeOn [number]
      ((World.mk registry files).scan plan id loaded running).2.session.plugins
      ((World.mk registry edited).scan plan id loaded other).2.session.plugins := by
  cases loaded with
  | bytes kind bytes =>
      cases hscan
      cases hagain
      exact ⟨rfl, h.counters⟩
  | text kind source =>
      have hcold := cached?_eq_none h.first_keeps hfresh kind source
      have hrecold := cached?_eq_none h.second_keeps hfresh kind source
      obtain ⟨program, hread, hcontent⟩ := scan_text hcold hscan
      obtain ⟨again, hreread, htwin⟩ := scan_text hrecold hagain
      rw [hread, Except.ok.injEq] at hreread
      subst hreread
      obtain ⟨hfound, hlast⟩ := scan_respects
        (Numbered.hooks_respect hnumbers kind) program h.counters
      rw [scan, scan, scanText, scanText, hcold, hrecold, hread]
      simp only [scanProgram_eq]
      refine ⟨?_, hlast⟩
      rw [hcontent, htwin, hooks, hooks]
      exact congrArg (fun found => ModuleContent.script (Findings.toView found program.source))
        hfound

theorem Session.obeys_scan_root (hpartition : plan.partition = []) (id : ModuleId)
    (loaded : Loaded) {running : Running} (h : running.session.Obeys world.KeptFiles) :
    (world.scan plan id loaded running).2.session.Obeys world.KeptFiles := by
  rcases world.cache_scan plan id loaded running with hcache | ⟨module, hcache⟩
  · rw [Session.Obeys, hcache]
    exact h
  · rw [Session.Obeys, hcache, hpartition]
    exact Cache.Obeys.insert h (.inl rfl)

include hfiles hplace hplugins hforwarded

/-- A worklet is compiled by the same plan in both trees, and to the same files unless its nested
build contains the edited file. -/
theorem WorkletLoad.same {limit more : Nat} {resolved : Resolved}
    {running other next last : Running} {loaded again : Loaded}
    (load : WorkletLoad (World.mk registry files) plan limit number (resolved, running) loaded next)
    (reload : WorkletLoad (World.mk registry edited) plan more number (resolved, other) again
      last) :
    load.inner.plan = reload.inner.plan ∧
      (¬ load.inner.Reads (World.mk registry files) place → load.assets = reload.assets) := by
  have hplans := @startedBy_edited plan registry files edited number settings hplugins resolved
    running other
  rw [load.started, reload.started] at hplans
  obtain ⟨hnone, hbelow⟩ := plain_startedBy hplugins hforwarded load.started
  cases hplans with
  | some hplan =>
      refine ⟨hplan, fun hreads => ?_⟩
      obtain ⟨ended, session, hrun, hassets⟩ := load.gives
      obtain ⟨reended, resession, hrerun, hreassets⟩ := reload.gives
      exact assets_eq_of_edited hfiles hplace hplan (by rw [hnone]; rfl) hbelow load.obeys
        reload.obeys hreads hrun hassets hrerun hreassets

/-- The searches of two builds with one plugin for worklets are parallel, if the edited file is
no module of the first one. -/
theorem parallel_worklets (hpartition : plan.partition = []) (limit more : Nat)
    (visits : List (Resolved × Running)) :
    Loader.Parallel ((World.mk registry files).steps plan ((World.mk registry files).run limit))
      ((World.mk registry edited).steps plan ((World.mk registry edited).run more))
      (fun visit => ¬ Path.LeadsTo visit.1.id.text place ∧ visit ∈ visits)
      (SameLoaded (World.mk registry files) place fun id inner => ∃ visit ∈ visits,
        visit.1.id = id ∧ (World.mk registry files).startedBy plan visit = some inner)
      (SameContent (World.mk registry files) place fun id inner => ∃ visit ∈ visits,
        visit.1.id = id ∧ (World.mk registry files).startedBy plan visit = some inner)
      (SideBySide registry files edited plan number) where
  load := by
    intro ids running other resolved loaded again next last h hloadable hload hagain
    have hreplugins : (World.mk registry edited).pluginsOf plan.plugins =
      [⟨number, .worklets settings⟩] := hplugins
    change (World.mk registry files).load plan _ resolved
      ((World.mk registry files).pluginsOf plan.plugins) running = _ at hload
    change (World.mk registry edited).load plan _ resolved
      ((World.mk registry edited).pluginsOf plan.plugins) other = _ at hagain
    cases hworklet : isWorklet resolved.id with
    | false =>
        rw [load_file hplugins hworklet, Option.some.injEq, Prod.mk.injEq] at hload
        rw [load_file hreplugins hworklet, Option.some.injEq, Prod.mk.injEq] at hagain
        obtain ⟨hloaded, rfl⟩ := hload
        obtain ⟨hfound, rfl⟩ := hagain
        have hsame : (.ok loaded : Except Report Loaded) = .ok again :=
          hloaded.symm.trans ((loadFile_edited hfiles hloadable.1).trans hfound)
        cases hsame
        exact ⟨.file hworklet, h⟩
    | true =>
        obtain ⟨load⟩ := workletLoad hplugins hforwarded hworklet h.first_obeys hload
        obtain ⟨reload⟩ := workletLoad hreplugins hforwarded hworklet h.second_obeys hagain
        refine ⟨?_, load.keeps ids h.first_keeps, reload.keeps ids h.second_keeps, ?_,
          load.next_obeys, reload.next_obeys⟩
        · refine .worklet hworklet ⟨_, hloadable.2, rfl, load.started⟩ load.loaded_eq
            reload.loaded_eq ?_
          by_cases hreads : load.inner.Reads (World.mk registry files) place
          · exact .inr hreads
          · have hassets := (load.same hfiles hplace hplugins hforwarded reload).2 hreads
            have hfirst := load.file_eq
            rw [hassets, reload.file_eq, Option.some.injEq] at hfirst
            exact .inl hfirst.symm
        · intro plugin hplugin
          obtain rfl := List.mem_singleton.mp hplugin
          calc
            next.session.plugins.counter plugin = running.session.plugins.counter plugin :=
              load.counter
            _ = other.session.plugins.counter plugin := h.counters plugin hplugin
            _ = last.session.plugins.counter plugin := reload.counter.symm
  kind := by
    intro id loaded again hloaded
    cases hloaded with
    | file => rfl
    | worklet _ _ hloaded hagain =>
        rw [hloaded, hagain]
        rfl
  scan := by
    intro ids running other id loaded again content twin h hloaded hfresh hscan hagain
    have hafter : AgreeOn [number]
          ((World.mk registry files).scan plan id loaded running).2.session.plugins
          ((World.mk registry edited).scan plan id again other).2.session.plugins →
        SideBySide registry files edited plan number (ids ++ [id])
          ((World.mk registry files).scan plan id loaded running).2
          ((World.mk registry edited).scan plan id again other).2 := fun hcounters =>
      ⟨keepsOnly_scan h.first_keeps id loaded, keepsOnly_scan h.second_keeps id again, hcounters,
        Session.obeys_scan_root hpartition id loaded h.first_obeys,
        Session.obeys_scan_root hpartition id again h.second_obeys⟩
    cases hloaded with
    | file hfile =>
        have hnumbers : Numbered.workletNumbers
            ((World.mk registry files).pluginsOf plan.plugins) ⊆ [number] := by
          rw [hplugins]
          exact List.Subset.refl _
        obtain ⟨rfl, hcounters⟩ := scan_sideBySide h hnumbers hfresh hscan hagain
        exact ⟨.same id content, hafter hcounters⟩
    | worklet hworklet hstarts hloaded hreloaded hfile =>
        obtain ⟨hview, hkept⟩ := scan_workletView h.first_keeps hfresh hloaded hscan
        obtain ⟨hreview, hrekept⟩ := scan_workletView h.second_keeps hfresh hreloaded hagain
        refine ⟨?_, hafter ?_⟩
        · rw [hview, hreview]
          rcases hfile with rfl | hreads
          · exact .same _ _
          · exact .worklet _ _ hworklet hstarts hreads
        · intro plugin hplugin
          rw [hkept, hrekept]
          exact h.counters plugin hplugin
  records := by
    intro id content twin hcontent
    cases hcontent <;> rfl
  resolve := by
    intro ids running other importer target twin record h hresolve hagain
    change ((World.mk registry files).resolve plan (some importer) record.specifier record.form
      running).1 = _ at hresolve
    change ((World.mk registry edited).resolve plan (some importer) record.specifier record.form
      other).1 = _ at hagain
    rw [resolve_fst, answer_edited hfiles hplace] at hresolve
    rw [resolve_fst, hresolve, Except.ok.injEq] at hagain
    refine ⟨hagain, keepsOnly_resolve h.first_keeps _ _ _, keepsOnly_resolve h.second_keeps _ _ _,
      ?_, ?_, ?_⟩
    · exact h.counters.of_sameCounters (sameCounters_resolve _ _ _ _ _ _)
        (sameCounters_resolve _ _ _ _ _ _)
    · change Session.Obeys _ (World.resolve _ _ _ _ _ _).2.session
      rw [resolve_snd]
      exact h.first_obeys
    · change Session.Obeys _ (World.resolve _ _ _ _ _ _).2.session
      rw [resolve_snd]
      exact h.second_obeys
  stableId := fun _ => rfl

end TwoTrees

end World

end WebBundle

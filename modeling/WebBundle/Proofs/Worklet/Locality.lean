import WebBundle.Proofs.Output.Edited
import WebBundle.Proofs.Worklet.SideBySide

/-!
# Edits of worklets stay local

If a file is edited that is no module of a build with one plugin for worklets, the build finds
the same graph again, and the nested builds that do not contain the file give the same files.
What changes in the chunks of the build is at most the name of the file that a worklet was
compiled to.  The files of packages are left out of this: they say where requests lead, so that
an edit of one may change a graph of which it is no module.
-/

namespace WebBundle

open Syntax Scan PluginMemory Output

namespace Output

/-! ## The code of worklets -/

/-- The code of the module that stands for a worklet is its text. -/
theorem scriptCode_workletView (target : Nat → String) (file : String) :
    scriptCode target (workletView file) = moduleFunction (Worklet.moduleCode file) :=
  scriptCode_of_source target _

end Output

namespace World

variable {place : List String}

/-! ## What may differ -/

/-- Two nested builds have the same plan, and they give the same files unless the graph of the
first one contains the edited file. -/
structure SameNested (world edited : World) (place : List String) (limit more : Nat)
    (inner twin : BuildStart) : Prop where
  plan : inner.plan = twin.plan
  gives : ∃ assets others, world.Gives limit inner assets ∧ edited.Gives more twin others ∧
    (¬ inner.Reads world place → assets = others)

/-- Two modules in chunks have the same key and the same code, or they stand for a worklet whose
nested build contains the edited file, and their codes differ in the file that they name. -/
inductive SameRow (world : World) (place : List String) (starts : ModuleId → BuildStart → Prop)
    (graph : Graph) : String × String → String × String → Prop
  | same (row : String × String) : SameRow world place starts graph row row
  | worklet {module : Module} {inner : BuildStart} (file other : String)
      (hmodule : module ∈ graph.modules) (hworklet : isWorklet module.id = true)
      (hstarts : starts module.id inner) (hreads : inner.Reads world place) :
      SameRow world place starts graph
        (module.stableId, moduleFunction (Worklet.moduleCode file))
        (module.stableId, moduleFunction (Worklet.moduleCode other))

/-- Two builds differ in nothing but what the edited file brings into nested builds. -/
structure EditedLocally (world edited : World) (place : List String) (limit more : Nat)
    (start other : BuildStart) (graph twin : Graph) : Prop where
  modules : List.Forall₂
    (Loader.Twins (SameContent world place (world.LoadsBy (limit + 1) start)))
    graph.modules twin.modules
  entries : graph.entries = twin.entries
  nested : List.Forall₂ (SameNested world edited place limit more)
    (world.nestedIn (limit + 1) start) (edited.nestedIn (more + 1) other)
  chunks : List.Forall₂
    (SameChunk (SameRow world place (world.LoadsBy (limit + 1) start) graph))
    (chunks start.plan.options graph) (chunks other.plan.options twin)

/-! ## Rows -/

theorem sameRow_of_twins {world : World} {starts : ModuleId → BuildStart → Prop}
    {options : Options} {graph twin : Graph}
    (htwins : List.Forall₂ (Loader.Twins (SameContent world place starts)) graph.modules
      twin.modules) {module : Module} (hmodule : module ∈ graph.modules) {other : Module}
    (hsame : Loader.Twins (SameContent world place starts) module other) :
    SameRow world place starts graph (module.stableId, moduleCode options graph module)
      (other.stableId, moduleCode options twin other) := by
  have hcontent := hsame.content
  have hcode := @moduleCode_twins options graph twin _ htwins _ _ hsame
  rw [← hsame.stableId_eq]
  generalize hfirst : module.content = content at hcontent hcode
  generalize hsecond : other.content = again at hcontent hcode
  cases hcontent with
  | same =>
      rw [hcode rfl]
      exact .same _
  | worklet file refile hworklet hstarts hreads =>
      rw [moduleCode, moduleCode, hfirst, hsecond]
      dsimp only
      rw [scriptCode_workletView, scriptCode_workletView]
      exact .worklet file refile hmodule hworklet hstarts hreads

/-! ## Two trees -/

section TwoTrees

variable {registry : List Plugin} {files edited : FileTree}
  {number : Nat} {settings : Worklet.Settings Nat}

/-- A build with one plugin for worklets begins its search with nothing counted. -/
theorem counter_opening_worklets {world : World} {start : BuildStart}
    (hplugins : world.pluginsOf start.plan.plugins = [⟨number, .worklets settings⟩])
    {entries : List (Option String × Resolved)} {running : Running}
    (hopening : world.opening start = .ok (entries, running)) :
    running.session.plugins.counter number = 0 := by
  obtain ⟨_, plugins, hstarted, _, hentries⟩ := opening_eq_ok hopening
  rw [hplugins] at hstarted
  have hplugins : plugins = start.session.plugins.setCounter number 0 :=
    (congrArg Prod.snd hstarted).symm
  have hsame := sameCounters_resolveEntries world start.plan
    { session := { start.session with plugins } } number
  rw [hentries, hplugins] at hsame
  exact hsame.symm.trans (PluginMemory.counter_setCounter_self _ _ _)

theorem sideBySide_opening {start other : BuildStart} (hplan : start.plan = other.plan)
    (hplugins : (World.mk registry files).pluginsOf start.plan.plugins =
      [⟨number, .worklets settings⟩])
    (hpartition : start.plan.partition = []) (hcache : start.session.cache = .empty)
    (hother : other.session.cache = .empty) {entries others : List (Option String × Resolved)}
    {running reached : Running}
    (hopening : (World.mk registry files).opening start = .ok (entries, running))
    (hreopening : (World.mk registry edited).opening other = .ok (others, reached)) :
    SideBySide registry files edited start.plan number [] running reached := by
  have hreplugins : (World.mk registry edited).pluginsOf other.plan.plugins =
      [⟨number, .worklets settings⟩] := hplan ▸ hplugins
  have hcounter := counter_opening_worklets hplugins hopening
  have hrecounter := counter_opening_worklets hreplugins hreopening
  obtain ⟨plugins, rfl⟩ := ((World.mk registry files).opening_session start).2 _ _ hopening
  obtain ⟨memory, rfl⟩ := ((World.mk registry edited).opening_session other).2 _ _ hreopening
  have hkeeps : ∀ session : Session, session.cache = .empty →
      session.KeepsOnly start.plan.partition [] := by
    intro session hempty entry hentry
    rw [Session.keptAt, hempty, hpartition] at hentry
    exact absurd hentry List.not_mem_nil
  refine ⟨hkeeps _ hcache, hkeeps _ hother, ?_, ?_, ?_⟩
  · intro plugin hplugin
    rw [List.mem_singleton.mp hplugin, hcounter, hrecounter]
  · change Cache.Obeys _ 0 start.session.cache
    rw [hcache]
    exact Cache.obeys_empty
  · change Cache.Obeys _ 0 other.session.cache
    rw [hother]
    exact Cache.obeys_empty

/-- What is loaded by nested builds is loaded in both trees, by builds that give the same files
unless the first one contains the edited file. -/
theorem sameNested_of_visits (hfiles : FileTree.SameBut place files edited)
    (hplace : place.getLast? ≠ some "package.json") {plan : BuildPlan}
    (hplugins : (World.mk registry files).pluginsOf plan.plugins =
      [⟨number, .worklets settings⟩])
    (hforwarded : settings.plugins = []) {limit more : Nat} {visit again : Resolved × Running}
    (hvisit : Loader.SameVisit (fun running other => ∃ ids,
      SideBySide registry files edited plan number ids running other) visit again)
    {loaded reloaded : Loaded} {next last : Running}
    (hload : (World.mk registry files).load plan ((World.mk registry files).run limit) visit.1
      ((World.mk registry files).pluginsOf plan.plugins) visit.2 = some (.ok loaded, next))
    (hreload : (World.mk registry edited).load plan ((World.mk registry edited).run more) again.1
      ((World.mk registry edited).pluginsOf plan.plugins) again.2 = some (.ok reloaded, last)) :
    Option.Rel (SameNested (World.mk registry files) (World.mk registry edited) place limit more)
      ((World.mk registry files).startedBy plan visit)
      ((World.mk registry edited).startedBy plan again) := by
  obtain ⟨resolved, running⟩ := visit
  obtain ⟨_, other⟩ := again
  obtain ⟨rfl, ids, hstates⟩ := hvisit
  have hplans := @startedBy_edited plan registry files edited number settings hplugins resolved
    running other
  cases hstarted : (World.mk registry files).startedBy plan (resolved, running) with
  | none =>
      rw [hstarted] at hplans
      generalize (World.mk registry edited).startedBy plan (resolved, other) = restarted
        at hplans ⊢
      cases hplans
      exact .none
  | some inner =>
      have hworklet := isWorklet_of_startedBy hstarted
      have hreplugins : (World.mk registry edited).pluginsOf plan.plugins =
        [⟨number, .worklets settings⟩] := hplugins
      obtain ⟨load⟩ := workletLoad hplugins hforwarded hworklet hstates.first_obeys hload
      obtain ⟨reload⟩ := workletLoad hreplugins hforwarded hworklet hstates.second_obeys hreload
      obtain ⟨hplan, hassets⟩ := load.same hfiles hplace hplugins hforwarded reload
      rw [← hstarted, load.started, reload.started]
      exact .some ⟨hplan, load.assets, reload.assets, load.gives, reload.gives, hassets⟩

/-- If a file is edited that is neither the file of a package nor a module of a build with one
plugin for worklets, which forwards no plugins, the build finds the same modules in the same
order with the same dependencies; its nested builds give the same files, unless they contain
the edited file; and its chunks differ at most in the files that the modules of worklets name
whose nested builds contain it. -/
theorem scanStage_edited {registry : List Plugin} {files edited : FileTree}
    (hfiles : FileTree.SameBut place files edited)
    (hplace : place.getLast? ≠ some "package.json") {start other : BuildStart}
    (hplan : start.plan = other.plan) (hpartition : start.plan.partition = [])
    {number : Nat} {settings : Worklet.Settings Nat}
    (hplugins : (World.mk registry files).pluginsOf start.plan.plugins =
      [⟨number, .worklets settings⟩])
    (hforwarded : settings.plugins = []) (hcache : start.session.cache = .empty)
    (hother : other.session.cache = .empty) {limit more : Nat} {graph twin : Graph}
    {last reached : Running}
    (hstage : (World.mk registry files).scanStage limit start = some (.ok (graph, last)))
    (hrestage : (World.mk registry edited).scanStage more other = some (.ok (twin, reached)))
    (hout : ¬ graph.HasFile place) :
    EditedLocally (World.mk registry files) (World.mk registry edited) place limit more start other
      graph twin := by
  obtain ⟨entries, running, hopening, hload⟩ := scanStage_eq_ok.mp hstage
  obtain ⟨others, begun, hreopening, hreload⟩ := scanStage_eq_ok.mp hrestage
  have hanswer := @answer_edited place registry files edited hfiles hplace start.plan
  obtain rfl := entries_edited hplan hanswer hopening hreopening
  have hbegins := sideBySide_opening hplan hplugins hpartition hcache hother hopening hreopening
  have hloads : (World.mk registry files).loadsIn (limit + 1) start =
      Loader.loads ((World.mk registry files).steps start.plan
        ((World.mk registry files).run limit)) limit entries running := by
    simp only [loadsIn, hopening]
  have hreloads : (World.mk registry edited).loadsIn (more + 1) other =
      Loader.loads ((World.mk registry edited).steps other.plan
        ((World.mk registry edited).run more)) more entries begun := by
    simp only [loadsIn, hreopening]
  have hloaded := Loader.exists_loaded hload
  have hreloaded := Loader.exists_loaded hreload
  rw [← hloads] at hloaded
  rw [← hreloads] at hreloaded
  rw [← hplan] at hreload
  have hparallel := @parallel_worklets start.plan place registry files edited hfiles hplace number
    settings hplugins hforwarded hpartition limit more
    ((World.mk registry files).loadsIn (limit + 1) start)
  have hloadable : ∀ visit ∈ Loader.loads ((World.mk registry files).steps start.plan
      ((World.mk registry files).run limit)) limit entries running,
      ¬ Path.LeadsTo visit.1.id.text place ∧
        visit ∈ (World.mk registry files).loadsIn (limit + 1) start := by
    intro visit hvisit
    rw [← hloads] at hvisit
    obtain ⟨module, hmodule, hid, _⟩ := hloaded visit hvisit
    exact ⟨fun hleads => hout ⟨module, hmodule, hid ▸ hleads⟩, hvisit⟩
  obtain ⟨htwins, hentries, _, hvisits⟩ := hparallel.search hbegins hload hreload hloadable
  have hchunks := @chunks_twins start.plan.options graph twin _ htwins
    (SameRow (World.mk registry files) place
      ((World.mk registry files).LoadsBy (limit + 1) start) graph)
    (fun module hmodule other hsame => sameRow_of_twins htwins hmodule hsame) hentries
  refine ⟨htwins, hentries, ?_, hplan ▸ hchunks⟩
  rw [nestedIn, nestedIn, hloads, hreloads, ← hplan]
  rw [hloads] at hloaded
  rw [hreloads, ← hplan] at hreloaded
  have hall := (List.forall₂_and_left _ _).mpr ⟨hloaded,
    ((List.forall₂_and_left _ _).mpr ⟨hreloaded, hvisits.flip⟩).flip⟩
  refine List.rel_filterMap ?_ hall
  rintro visit again ⟨⟨_, _, _, loaded, next, hload⟩, ⟨_, _, _, reloaded, final, hreload⟩, hvisit⟩
  exact sameNested_of_visits hfiles hplace hplugins hforwarded hvisit hload hreload

end TwoTrees

instance (path : String) (place : List String) : Decidable (Path.LeadsTo path place) :=
  decidable_of_iff (Path.isAbsolute path = true ∧ Path.names path = place)
    ⟨fun h => ⟨h.1, h.2⟩, fun h => ⟨h.isAbsolute, h.names_eq⟩⟩

set_option maxRecDepth 10000 in
/-- One of two worklets is edited. -/
theorem scanStage_edited_lateWorklet :
    ∃ graph last twin reached,
      World.scanStage ⟨[.worklets {}], lateWorklet⟩ 3 lateStart = some (.ok (graph, last)) ∧
      World.scanStage ⟨[.worklets {}], lateWorklet.put ["p", "a.js"] (.file "3".toUTF8)⟩ 3
        lateStart = some (.ok (twin, reached)) ∧
      ¬ graph.HasFile ["p", "a.js"] ∧
      EditedLocally ⟨[.worklets {}], lateWorklet⟩
        ⟨[.worklets {}], lateWorklet.put ["p", "a.js"] (.file "3".toUTF8)⟩ ["p", "a.js"] 3 3
        lateStart lateStart graph twin := by
  have hcases : ((World.scanStage ⟨[.worklets {}], lateWorklet⟩ 3 lateStart).any fun stage =>
      stage.toOption.any fun found => found.1.modules.all fun module =>
        ¬ Path.LeadsTo module.id.text ["p", "a.js"]) = true := by
    decide +kernel
  have hrecases : ((World.scanStage
      ⟨[.worklets {}], lateWorklet.put ["p", "a.js"] (.file "3".toUTF8)⟩ 3 lateStart).any
        fun stage => stage.toOption.isSome) = true := by
    decide +kernel
  obtain ⟨stage, hstage, hfound⟩ := (Option.any_eq_true _ _).mp hcases
  obtain ⟨restage, hrestage, hrefound⟩ := (Option.any_eq_true _ _).mp hrecases
  cases stage with
  | error ended => cases hfound
  | ok found =>
      cases restage with
      | error ended => cases hrefound
      | ok again =>
          obtain ⟨graph, last⟩ := found
          obtain ⟨twin, reached⟩ := again
          simp only [Except.toOption, Option.any_some, List.all_eq_true, decide_eq_true_eq]
            at hfound
          have hout : ¬ graph.HasFile ["p", "a.js"] := by
            rintro ⟨module, hmodule, hleads⟩
            exact hfound module hmodule hleads
          have hfiles : FileTree.SameBut ["p", "a.js"] lateWorklet
              (lateWorklet.put ["p", "a.js"] (.file "3".toUTF8)) :=
            @FileTree.SameBut.put _ lateWorklet (by decide) "1".toUTF8 rfl _
          exact ⟨graph, last, twin, reached, hstage, hrestage, hout,
            scanStage_edited hfiles (by decide) rfl rfl rfl rfl rfl rfl hstage hrestage hout⟩

/-- A project whose package says where `#x` leads. -/
def aliased (target : String) : FileTree :=
  ⟨[(["p", "package.json"], .file target.toUTF8), (["p"], .directory),
    (["p", "m.js"], .file "import './a.js'; import './b.js'; import '#x'".toUTF8),
    (["p", "a.js"], .file "1".toUTF8), (["p", "b.js"], .file "2".toUTF8)]⟩

set_option maxRecDepth 10000 in
/-- If the file of a package is edited, the dependencies of a module may change, although the
file is no module of the build. -/
theorem scanStage_edited_package :
    ∃ first second, FileTree.SameBut ["p", "package.json"] (aliased first) (aliased second) ∧
      ∃ graph last twin reached assets others,
        World.scanStage ⟨[.worklets {}], aliased first⟩ 3 lateStart = some (.ok (graph, last)) ∧
        World.scanStage ⟨[.worklets {}], aliased second⟩ 3 lateStart =
          some (.ok (twin, reached)) ∧
        finish lateStart.plan graph last = .assets assets ∧
        finish lateStart.plan twin reached = .assets others ∧
        ¬ graph.HasFile ["p", "package.json"] ∧
        graph.modules.map Module.dependencies ≠ twin.modules.map Module.dependencies := by
  refine ⟨"\x7b\"imports\": \x7b\"#x\": \"./a.js\"\x7d\x7d",
    "\x7b\"imports\": \x7b\"#x\": \"./b.js\"\x7d\x7d", .put (by decide) rfl _, ?_⟩
  generalize hfirst : aliased "\x7b\"imports\": \x7b\"#x\": \"./a.js\"\x7d\x7d" = first
  generalize hsecond : aliased "\x7b\"imports\": \x7b\"#x\": \"./b.js\"\x7d\x7d" = second
  have hcases : ((World.scanStage ⟨[.worklets {}], first⟩ 3 lateStart).any fun stage =>
      stage.toOption.any fun found =>
        (finish lateStart.plan found.1 found.2).assets?.isSome &&
          found.1.modules.map Module.dependencies = [[1, 2, 1], [], []] &&
          found.1.modules.all fun module =>
            ¬ Path.LeadsTo module.id.text ["p", "package.json"]) = true := by
    rw [← hfirst]
    decide +kernel
  have hrecases : ((World.scanStage ⟨[.worklets {}], second⟩ 3 lateStart).any fun stage =>
      stage.toOption.any fun found =>
        (finish lateStart.plan found.1 found.2).assets?.isSome &&
          found.1.modules.map Module.dependencies = [[1, 2, 2], [], []]) = true := by
    rw [← hsecond]
    decide +kernel
  obtain ⟨stage, hstage, hfound⟩ := (Option.any_eq_true _ _).mp hcases
  obtain ⟨restage, hrestage, hrefound⟩ := (Option.any_eq_true _ _).mp hrecases
  cases stage with
  | error ended => cases hfound
  | ok found =>
      cases restage with
      | error ended => cases hrefound
      | ok again =>
          obtain ⟨graph, last⟩ := found
          obtain ⟨twin, reached⟩ := again
          simp only [Except.toOption, Option.any_some, Bool.and_eq_true, decide_eq_true_eq,
            List.all_eq_true, Option.isSome_iff_exists, Outcome.assets?_eq_some]
            at hfound hrefound
          obtain ⟨⟨⟨assets, hassets⟩, hdependencies⟩, hout⟩ := hfound
          obtain ⟨⟨others, hothers⟩, hredependencies⟩ := hrefound
          refine ⟨graph, last, twin, reached, assets, others, hstage, hrestage, hassets, hothers,
            ?_, ?_⟩
          · rintro ⟨module, hmodule, hleads⟩
            exact hout module hmodule hleads
          · rw [hdependencies, hredependencies]
            decide

end World

end WebBundle

import WebBundle.Proofs.Build.Partition
import WebBundle.Proofs.Build.Stages
import WebBundle.Proofs.Build.Views
import WebBundle.Proofs.Files.Edited
import WebBundle.Proofs.Resolver.Edited
import WebBundle.Proofs.Scan.Calls
import WebBundle.Proofs.Search.Parallel

/-!
# Builds without plugins in two file trees

If two file trees differ in the content of one file that is not the file of a package, every
request of a build leads to the same module in both.  A build without plugins is then the same
in both, unless its graph contains the one file.  What such a build finds in its cache was read
from the same tree, so the cache has no part in this.
-/

namespace WebBundle

open Syntax Scan

/-- A file stands for a module of a graph. -/
def Graph.HasFile (graph : Graph) (place : List String) : Prop :=
  ∃ module ∈ graph.modules, Path.LeadsTo module.id.text place

/-- A build finds a graph that contains a file. -/
def BuildStart.Reads (world : World) (place : List String) (start : BuildStart) : Prop :=
  ∃ limit graph last, world.scanStage limit start = some (.ok (graph, last)) ∧
    graph.HasFile place

namespace World

variable {world : World} {plan : BuildPlan} {place : List String}

/-! ## Loads and requests -/

/-- A module that was loaded is loaded again if its kind is known. -/
theorem loadFile_kind {resolved : Resolved} {loaded : Loaded}
    (hload : world.loadFile resolved = .ok loaded) :
    world.loadFile ⟨resolved.id, some loaded.kind⟩ = .ok loaded := by
  rw [loadFile] at hload ⊢
  cases hvirtual : resolved.id.isVirtual with
  | true => simp [hvirtual] at hload
  | false =>
      simp only [hvirtual, Bool.false_eq_true, if_false, Option.some_or, Option.getD_some]
        at hload ⊢
      generalize (resolved.kind.or (ModuleKind.ofId? resolved.id.text)).getD .script = kind
        at hload
      have hkind : loaded.kind = kind := by
        cases kind <;> dsimp only at hload <;> first
          | (cases hload; rfl)
          | (split at hload
             · cases hload
               rfl
             · cases hload)
      rw [hkind]
      exact hload

/-- The entries of a build lead where its requests for them lead. -/
theorem entries_of_opening {start : BuildStart} {entries : List (Option String × Resolved)}
    {running : Running} (hopening : world.opening start = .ok (entries, running)) :
    Loader.collect (start.plan.options.input.map (world.entryAnswer start.plan)) =
      .ok entries := by
  obtain ⟨_, plugins, _, _, hentries⟩ := opening_eq_ok hopening
  have hanswers := world.resolveEntries_fst start.plan { session := { start.session with plugins } }
  rw [hentries] at hanswers
  exact hanswers.symm

section TwoTrees

variable {registry : List Plugin} {files edited : FileTree}

theorem loadFile_edited (hfiles : FileTree.SameBut place files edited) {resolved : Resolved}
    (hplace : ¬ Path.LeadsTo resolved.id.text place) :
    (World.mk registry files).loadFile resolved = (World.mk registry edited).loadFile resolved := by
  rw [loadFile, loadFile]
  dsimp only
  rw [hfiles.read hplace, hfiles.readText hplace]

/-- A request of a build leads to the same module. -/
theorem answer_edited (hfiles : FileTree.SameBut place files edited)
    (hplace : place.getLast? ≠ some "package.json") (plan : BuildPlan)
    (importer : Option ModuleId) (specifier : String) (form : ImportForm) :
    (World.mk registry files).answer plan importer specifier form =
      (World.mk registry edited).answer plan importer specifier form := by
  have hplugins : (World.mk registry files).pluginsOf plan.plugins =
      (World.mk registry edited).pluginsOf plan.plugins := rfl
  rw [answer, answer, resolve.eq_def, resolve.eq_def]
  dsimp only
  rw [hplugins, Resolver.resolve_edited hplace _ hfiles]

/-- Builds with the same plan that come to their searches begin them with the same entries. -/
theorem entries_edited {start other : BuildStart} (hplan : start.plan = other.plan)
    (hanswer : ∀ importer specifier form,
      (World.mk registry files).answer start.plan importer specifier form =
        (World.mk registry edited).answer start.plan importer specifier form)
    {entries others : List (Option String × Resolved)} {running reached : Running}
    (hopening : (World.mk registry files).opening start = .ok (entries, running))
    (hother : (World.mk registry edited).opening other = .ok (others, reached)) :
    entries = others := by
  have hsame : (World.mk registry files).entryAnswer start.plan =
      (World.mk registry edited).entryAnswer start.plan := by
    funext entry
    rw [entryAnswer, entryAnswer, hanswer]
  have hfirst := entries_of_opening hopening
  have hsecond := entries_of_opening hother
  rw [← hplan, ← hsame, hfirst, Except.ok.injEq] at hsecond
  exact hsecond

end TwoTrees

/-! ## Scans without plugins -/

/-- The content of a module that was loaded from a source is what the source declares. -/
inductive Declares : Loaded → ModuleContent → Prop
  | bytes (kind : ModuleKind) (content : ByteArray) :
      Declares (.bytes kind content) (.asset content)
  | text {kind : ModuleKind} {source : String} {program : Program}
      (hread : ModuleSource.read kind source = .ok program) :
      Declares (.text kind source) (.script ((declared program).toView program.source))

theorem Declares.unique {loaded : Loaded} {content other : ModuleContent}
    (h : Declares loaded content) (hother : Declares loaded other) : content = other := by
  cases h with
  | bytes =>
      cases hother
      rfl
  | text hread =>
      cases hother with
      | text hagain =>
          rw [hread, Except.ok.injEq] at hagain
          rw [hagain]

/-- What the nested builds of a build keep is what their files declare. -/
def KeptFiles (world : World) : Cache.Law := fun depth id module => depth = 0 ∨
  ∃ source, world.loadFile ⟨id, some module.kind⟩ = .ok (.text module.kind source) ∧
    Declares (.text module.kind source) (.script module.view)

theorem hooks_eq_nil (hplain : world.pluginsOf plan.plugins = []) (kind : ModuleKind) :
    world.hooks plan kind = [] := by
  rw [hooks, hplain, Numbered.hooks]
  split <;> rfl

/-- A nested build without plugins scans a file to what the file declares, with a cache or
without, and keeps nothing else. -/
theorem scan_plain (hplain : world.pluginsOf plan.plugins = []) (hpartition : plan.partition ≠ [])
    {id : ModuleId} {loaded : Loaded} (hloaded : world.loadFile ⟨id, some loaded.kind⟩ = .ok loaded)
    {running : Running} (hobeys : running.session.Obeys world.KeptFiles) {content : ModuleContent}
    (hscan : (world.scan plan id loaded running).1 = .ok content) :
    Declares loaded content ∧
      (world.scan plan id loaded running).2.session.Obeys world.KeptFiles := by
  cases loaded with
  | bytes kind bytes =>
      cases hscan
      exact ⟨.bytes kind bytes, hobeys⟩
  | text kind source =>
      rw [scan, scanText] at hscan ⊢
      cases hcached : cached? plan id kind source running.session with
      | some module =>
          simp only [hcached] at hscan ⊢
          cases hscan
          rw [cached?, Option.filter_eq_some_iff, Option.bind_eq_some_iff] at hcached
          obtain ⟨⟨cache, hcache, hmodule⟩, hkind⟩ := hcached
          rw [decide_eq_true_eq] at hkind
          obtain ⟨hlaw, _⟩ := Cache.Obeys.get? hobeys hcache hmodule
          rcases hlaw with hzero | ⟨other, hother, hdeclares⟩
          · have hlength := List.length_pos_of_ne_nil hpartition
            omega
          · rw [hkind] at hother hdeclares
            have hsame := hloaded.symm.trans hother
            cases hsame
            exact ⟨hdeclares, hobeys⟩
      | none =>
          cases hread : ModuleSource.read kind source with
          | error fault => simp [hcached, hread, Except.map] at hscan
          | ok program =>
              simp only [hcached, hread, scanProgram_eq, hooks_eq_nil hplain, scan_nil]
                at hscan ⊢
              cases hscan
              refine ⟨.text hread, ?_⟩
              change Cache.Obeys _ 0 (ite _ _ _)
              split
              · exact Cache.Obeys.modifyAt
                  (fun _ hinner => hinner.insert (.inr ⟨source, hloaded, .text hread⟩)) hobeys
              · exact hobeys

/-! ## Searches without plugins -/

/-- A build without plugins that keeps what its files declare, and has no files of nested
builds. -/
structure Plain (world : World) (running : Running) : Prop where
  obeys : running.session.Obeys world.KeptFiles
  emitted : running.emitted = []

theorem Plain.resolve {running : Running} (h : world.Plain running) (plan : BuildPlan)
    (importer : Option ModuleId) (specifier : String) (form : ImportForm) :
    world.Plain (world.resolve plan importer specifier form running).2 := by
  rw [resolve_snd]
  exact ⟨h.obeys, h.emitted⟩

theorem Plain.scan {running : Running} (h : world.Plain running)
    (hplain : world.pluginsOf plan.plugins = []) (hpartition : plan.partition ≠ [])
    {id : ModuleId} {loaded : Loaded} (hloaded : world.loadFile ⟨id, some loaded.kind⟩ = .ok loaded)
    {content : ModuleContent} (hscan : (world.scan plan id loaded running).1 = .ok content) :
    Declares loaded content ∧ world.Plain (world.scan plan id loaded running).2 := by
  obtain ⟨hdeclares, hobeys⟩ := scan_plain hplain hpartition hloaded h.obeys hscan
  refine ⟨hdeclares, hobeys, ?_⟩
  cases loaded with
  | bytes kind content => exact h.emitted
  | text kind source => exact h.emitted

section TwoTrees

variable {registry : List Plugin} {files edited : FileTree}

/-- Without plugins, two searches that load the same and whose requests lead to the same find the
same. -/
theorem parallel_plain (hplain : (World.mk registry files).pluginsOf plan.plugins = [])
    (hpartition : plan.partition ≠ []) (limit more : Nat) {loadable : Resolved × Running → Prop}
    (hfile : ∀ visit, loadable visit →
      (World.mk registry files).loadFile visit.1 = (World.mk registry edited).loadFile visit.1)
    (hanswer : ∀ importer specifier form,
      (World.mk registry files).answer plan importer specifier form =
        (World.mk registry edited).answer plan importer specifier form) :
    Loader.Parallel ((World.mk registry files).steps plan ((World.mk registry files).run limit))
      ((World.mk registry edited).steps plan ((World.mk registry edited).run more)) loadable
      (fun id loaded again => loaded = again ∧
        (World.mk registry files).loadFile ⟨id, some loaded.kind⟩ = .ok loaded ∧
        (World.mk registry edited).loadFile ⟨id, some loaded.kind⟩ = .ok loaded)
      (fun _ content twin => content = twin)
      (fun _ running other => (World.mk registry files).Plain running ∧
        (World.mk registry edited).Plain other) where
  load := by
    intro done running other resolved loaded again next last hrelated hloadable hload hagain
    change (World.mk registry files).load plan _ resolved
      ((World.mk registry files).pluginsOf plan.plugins) running = _ at hload
    change (World.mk registry edited).load plan _ resolved
      ((World.mk registry files).pluginsOf plan.plugins) other = _ at hagain
    rw [hplain, load, Option.some.injEq, Prod.mk.injEq] at hload hagain
    obtain ⟨hloaded, rfl⟩ := hload
    obtain ⟨hfound, rfl⟩ := hagain
    have hsame : loaded = again := by
      have hboth := hloaded.symm.trans ((hfile _ hloadable).trans hfound)
      cases hboth
      rfl
    refine ⟨⟨hsame, loadFile_kind hloaded, ?_⟩, hrelated⟩
    rw [hsame]
    exact loadFile_kind hfound
  kind := by
    rintro id loaded _ ⟨rfl, _⟩
    rfl
  scan := by
    rintro done running other id loaded _ content twin hrelated ⟨rfl, hloaded, hfound⟩ _ hscan
      hagain
    obtain ⟨hdeclares, hfirst⟩ := hrelated.1.scan hplain hpartition hloaded hscan
    obtain ⟨hdeclared, hsecond⟩ := hrelated.2.scan hplain hpartition hfound hagain
    exact ⟨hdeclares.unique hdeclared, hfirst, hsecond⟩
  records := by
    rintro id content _ rfl
    rfl
  resolve := by
    intro done running other importer target twin record hrelated hresolve hagain
    refine ⟨?_, hrelated.1.resolve _ _ _ _, hrelated.2.resolve _ _ _ _⟩
    have hfirst := resolve_fst (World.mk registry files) plan (some importer) record.specifier
      record.form running
    have hsecond := resolve_fst (World.mk registry edited) plan (some importer) record.specifier
      record.form other
    have hboth : (.ok target : Except Report Resolved) = .ok twin :=
      hresolve.symm.trans (hfirst.trans ((hanswer _ _ _).trans (hsecond.symm.trans hagain)))
    cases hboth
    rfl
  stableId := fun _ => rfl

end TwoTrees

/-! ## Runs -/

/-- A build that gives files has found the graph that they are made of. -/
theorem stage_of_assets {limit : Nat} {start : BuildStart} {ended : Ended} {session : Session}
    (hrun : world.runFrom limit start = some (ended, session)) {assets : List Asset}
    (hassets : ended.outcome = .assets assets) :
    ∃ fewer graph last, limit = fewer + 1 ∧
      world.scanStage fewer start = some (.ok (graph, last)) ∧
      finish start.plan graph last = .assets assets ∧ session = last.session := by
  cases limit with
  | zero => cases hrun
  | succ fewer =>
      rw [runFrom_succ] at hrun
      cases hopening : world.opening start with
      | error given =>
          simp only [hopening, Option.some.injEq] at hrun
          subst hrun
          exact absurd hassets ((outcome_of_opening hopening).1 assets)
      | ok opened =>
          obtain ⟨entries, running⟩ := opened
          simp only [hopening, Option.map_eq_some_iff] at hrun
          obtain ⟨⟨result, last⟩, hload, hconclude⟩ := hrun
          cases result with
          | error failure =>
              cases failure <;>
                · cases hconclude
                  cases hassets
          | ok graph =>
              cases hconclude
              exact ⟨fewer, graph, last, rfl,
                scanStage_eq_ok.mpr ⟨entries, running, hopening, hload⟩, hassets, rfl⟩

/-- A nested build without plugins begins its search as it was started. -/
theorem plain_opening {start : BuildStart} (hobeys : start.session.Obeys world.KeptFiles)
    {entries : List (Option String × Resolved)} {running : Running}
    (hopening : world.opening start = .ok (entries, running)) : world.Plain running := by
  obtain ⟨plugins, rfl⟩ := (world.opening_session start).2 entries running hopening
  exact ⟨hobeys, rfl⟩

/-- A nested build without plugins that gives files keeps only what files declare. -/
theorem obeys_run_plain {start : BuildStart} (hplain : world.pluginsOf start.plan.plugins = [])
    (hpartition : start.plan.partition ≠ []) (hobeys : start.session.Obeys world.KeptFiles)
    {limit : Nat} {ended : Ended} {session : Session}
    (hrun : world.runFrom limit start = some (ended, session)) {assets : List Asset}
    (hassets : ended.outcome = .assets assets) : session.Obeys world.KeptFiles := by
  obtain ⟨registry, files⟩ := world
  obtain ⟨fewer, graph, last, _, hstage, _, rfl⟩ := stage_of_assets hrun hassets
  obtain ⟨entries, running, hopening, hload⟩ := scanStage_eq_ok.mp hstage
  have hbegun := plain_opening hobeys hopening
  have hparallel := @parallel_plain start.plan registry files files hplain hpartition fewer fewer
    (fun _ => True) (fun _ _ => rfl) fun _ _ _ => rfl
  obtain ⟨_, _, ⟨_, hlast, _⟩, _⟩ :=
    hparallel.search ⟨hbegun, hbegun⟩ hload hload fun _ _ => trivial
  exact hlast.obeys

/-- Nested builds without plugins give the same files in trees that differ in one file, unless
the graph of the first one contains the file. -/
theorem assets_eq_of_edited {registry : List Plugin} {files edited : FileTree}
    (hfiles : FileTree.SameBut place files edited)
    (hplace : place.getLast? ≠ some "package.json") {start other : BuildStart}
    (hplan : start.plan = other.plan)
    (hplain : (World.mk registry files).pluginsOf start.plan.plugins = [])
    (hpartition : start.plan.partition ≠ [])
    (hfirst : start.session.Obeys (World.mk registry files).KeptFiles)
    (hsecond : other.session.Obeys (World.mk registry edited).KeptFiles)
    (hreads : ¬ start.Reads (World.mk registry files) place)
    {limit more : Nat} {ended again : Ended} {session last : Session} {assets others : List Asset}
    (hrun : (World.mk registry files).runFrom limit start = some (ended, session))
    (hassets : ended.outcome = .assets assets)
    (hagain : (World.mk registry edited).runFrom more other = some (again, last))
    (hothers : again.outcome = .assets others) : assets = others := by
  obtain ⟨fewer, graph, reached, _, hstage, hfinish, _⟩ := stage_of_assets hrun hassets
  obtain ⟨less, twin, final, _, hrestage, hrefinish, _⟩ := stage_of_assets hagain hothers
  obtain ⟨entries, running, hopening, hload⟩ := scanStage_eq_ok.mp hstage
  obtain ⟨found, begun, hreopening, hreload⟩ := scanStage_eq_ok.mp hrestage
  have hanswer := @answer_edited place registry files edited hfiles hplace start.plan
  obtain rfl := entries_edited hplan hanswer hopening hreopening
  rw [← hplan] at hreload hrefinish
  have hparallel := @parallel_plain start.plan registry files edited hplain hpartition fewer less
    (fun visit => ¬ Path.LeadsTo visit.1.id.text place)
    (fun visit hvisit => loadFile_edited hfiles hvisit) hanswer
  have hloadable : ∀ visit ∈ Loader.loads ((World.mk registry files).steps start.plan
      ((World.mk registry files).run fewer)) fewer entries running,
      ¬ Path.LeadsTo visit.1.id.text place := by
    intro visit hvisit hleads
    obtain ⟨_, hfound, _⟩ := Loader.load_found hload
    obtain ⟨module, hmodule, ⟨found⟩⟩ := Loader.exists_left_of_forall₂ hfound.flip hvisit
    refine hreads ⟨fewer, graph, reached, hstage, module, hmodule, ?_⟩
    rw [found.numbered.id_eq, found.examined.id_eq]
    exact hleads
  obtain ⟨hmodules, hentries, ⟨_, hplainly, hagainly⟩, _⟩ := hparallel.search
    ⟨plain_opening hfirst hopening, plain_opening hsecond hreopening⟩ hload hreload hloadable
  have hgraph : graph = twin := by
    obtain ⟨modules, entries⟩ := graph
    obtain ⟨twins, _⟩ := twin
    have hsame := hmodules.imp fun _ _ htwins => htwins.eq
    rw [List.forall₂_eq_eq_eq] at hsame
    cases hsame
    cases hentries
    rfl
  rw [finish, ← hgraph, hagainly.emitted] at hrefinish
  rw [finish, hplainly.emitted] at hfinish
  have hboth : Outcome.assets assets = .assets others := hfinish.symm.trans hrefinish
  cases hboth
  rfl

end World

end WebBundle

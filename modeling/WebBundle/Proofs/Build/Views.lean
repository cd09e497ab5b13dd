import WebBundle.Proofs.Build.Stages
import WebBundle.Proofs.Build.Transparency
import WebBundle.Proofs.Search.Termination

/-!
# Views in builds

What is true of every view that a scan can give is true of every view in the graph of a
build, whether its module was scanned for it or the view was kept: caches are filled by
scans alone.  Builds of a bundler start with such caches, and so do the builds that are
nested in them.
-/

namespace WebBundle

open Scan

/-- A property that every scan of a source by plugins gives its view. -/
def HoldsOfScans (holds : View → Prop) : Prop :=
  ∀ (hooks : List (Hook PluginMemory)) (memory : PluginMemory) {kind : ModuleKind}
    {source : String} {program : Syntax.Program}, ModuleSource.read kind source = .ok program →
    holds ((WebBundle.Scan.scan hooks program memory).1.toView program.source)

/-- A property of views, of kept ones. -/
abbrev Cache.viewLaw (holds : View → Prop) : Cache.Law := fun _ _ module => holds module.view

/-- A property of views, of the content of modules; emitted files have it. -/
def ModuleContent.Holds (holds : View → Prop) : ModuleContent → Prop
  | .script view => holds view
  | .asset _ => True

namespace Session

/-- A session looks like itself. -/
theorem Obeys.alike {law : Cache.Law} {session : Session} (h : session.Obeys law) :
    Session.Alike law [] session session :=
  ⟨rfl, (fun _ hnone => nomatch hnone), h, h⟩

theorem Obeys.running {law : Cache.Law} {running : Running} (h : running.session.Obeys law) :
    Running.Alike law [] running running :=
  ⟨h.alike, rfl, rfl, rfl, rfl⟩

end Session

namespace World

variable {world : World} {plan : BuildPlan} {holds : View → Prop} {law : Cache.Law}

/-! ## Scans -/

/-- A scan of a text gives a view with the property, and keeps no other. -/
theorem scanText_holds (hscans : HoldsOfScans holds) (id : ModuleId) (kind : ModuleKind)
    (source : String) {session : Session} (h : session.Obeys (Cache.viewLaw holds)) :
    (world.scanText plan id kind source session).2.Obeys (Cache.viewLaw holds) ∧
      ∀ view, (world.scanText plan id kind source session).1 = .ok view → holds view := by
  rw [scanText]
  cases hcached : cached? plan id kind source session with
  | some module =>
      refine ⟨h, ?_⟩
      rintro _ ⟨⟩
      rw [cached?, Option.filter_eq_some_iff, Option.bind_eq_some_iff] at hcached
      obtain ⟨⟨cache, hcache, hmodule⟩, _⟩ := hcached
      exact (Cache.Obeys.get? h hcache hmodule).1
  | none =>
      cases hread : ModuleSource.read kind source with
      | error fault =>
          refine ⟨h, ?_⟩
          rintro _ ⟨⟩
      | ok program =>
          have hview := hscans (world.hooks plan kind) session.plugins hread
          simp only [scanProgram_eq]
          refine ⟨?_, ?_⟩
          · change Cache.Obeys _ 0 (ite _ _ _)
            split
            · exact Cache.Obeys.modifyAt (fun _ hinner => hinner.insert hview) h
            · exact h
          · rintro _ ⟨⟩
            exact hview

/-- A scan of a module gives content with the property, and keeps no other. -/
theorem scan_holds (hscans : HoldsOfScans holds) (id : ModuleId) (loaded : Loaded)
    {running : Running} (h : running.session.Obeys (Cache.viewLaw holds)) :
    (world.scan plan id loaded running).2.session.Obeys (Cache.viewLaw holds) ∧
      ∀ content, (world.scan plan id loaded running).1 = .ok content → content.Holds holds := by
  cases loaded with
  | bytes kind content =>
      refine ⟨h, ?_⟩
      rintro _ ⟨⟩
      trivial
  | text kind source =>
      obtain ⟨hkept, hview⟩ := @scanText_holds world plan holds hscans id kind source _ h
      refine ⟨hkept, ?_⟩
      intro content hcontent
      rw [scan] at hcontent
      dsimp only at hcontent
      cases hresult : (world.scanText plan id kind source running.session).1 with
      | error reports =>
          rw [hresult] at hcontent
          cases hcontent
      | ok view =>
          rw [hresult] at hcontent
          cases hcontent
          exact hview view hresult

/-! ## Runs -/

theorem LoadingAlike.obeys {numbers : List Nat} {first second : Loading}
    (h : LoadingAlike law numbers first second) : first.running.session.Obeys law := by
  cases h with
  | done _ hrunning => exact hrunning.session.first_obeys
  | nested _ hrunning => exact hrunning.session.first_obeys

/-- The parts of a search keep caches as they are, but for scans. -/
theorem keeps_obeys (world : World) (plan : BuildPlan)
    {nested : BuildPlan → Bool → Session → Option (Ended × Session)}
    (hscan : ∀ id loaded {running : Running}, running.session.Obeys law →
      (world.scan plan id loaded running).2.session.Obeys law)
    (hnested : ∀ inner cancelled session ended last, session.Obeys law →
      nested inner cancelled session = some (ended, last) → last.Obeys law) :
    Loader.Keeps (world.steps plan nested) (fun running => running.session.Obeys law)
      (fun _ => True) (fun _ => True) where
  resolve importer specifier form _ h :=
    (world.resolve_alike plan importer specifier form h.running).2.session.first_obeys
  load resolved running result next _ h hload := by
    have hbegun := (world.loading_alike plan resolved (world.pluginsOf plan.plugins)
      h.running).obeys
    rcases load_cases hload with hdone | ⟨job, before, ended, session, hloading, hended, hfinish⟩
    · rw [hdone] at hbegun
      exact hbegun
    · rw [hloading] at hbegun
      have hlast := hnested _ _ _ _ _ hbegun hended
      have hafter := (finishLoading_alike plan resolved job ended
        (@Session.Obeys.running law { before with session } hlast)).2
      rw [hfinish] at hafter
      exact hafter.session.first_obeys
  scan id loaded _ _ h := hscan id loaded h

/-- A build starts its search with the caches that it was started with. -/
theorem obeys_opening (world : World) {start : BuildStart} (h : start.session.Obeys law) :
    (∀ ended session, world.opening start = .error (ended, session) → session.Obeys law) ∧
      ∀ entries running, world.opening start = .ok (entries, running) →
        running.session.Obeys law := by
  rcases world.opening_alike (rfl : start.plan = start.plan) rfl h.alike with
    ⟨early, reached, last, hopening, _, hend⟩ | ⟨begun, first, _, hopening, _, hbegun⟩
  · rw [hopening]
    refine ⟨?_, fun _ _ hnone => nomatch hnone⟩
    rintro ended session ⟨⟩
    exact hend.first_obeys
  · rw [hopening]
    refine ⟨(fun _ _ hnone => nomatch hnone), ?_⟩
    rintro entries running ⟨⟩
    exact hbegun.session.first_obeys

/-- A build whose session keeps only views with the property ends with such a session. -/
theorem obeys_run (hscans : HoldsOfScans holds) {limit : Nat} {start : BuildStart}
    (h : start.session.Obeys (Cache.viewLaw holds)) {ended : Ended} {session : Session}
    (hrun : world.runFrom limit start = some (ended, session)) :
    session.Obeys (Cache.viewLaw holds) := by
  induction limit generalizing start ended session with
  | zero => cases hrun
  | succ limit ih =>
      obtain ⟨hend, hbegin⟩ := world.obeys_opening h
      rw [runFrom_succ] at hrun
      cases hopening : world.opening start with
      | error given =>
          simp only [hopening, Option.some.injEq] at hrun
          exact hend ended session (hopening.trans (congrArg _ hrun))
      | ok opened =>
          simp only [hopening, Option.map_eq_some_iff] at hrun
          obtain ⟨⟨result, last⟩, hload, hconclude⟩ := hrun
          have hkeeps := world.keeps_obeys start.plan
            (fun id loaded _ hrunning => (scan_holds hscans id loaded hrunning).1)
            fun inner cancelled session ended last hsession hinner =>
              @ih ⟨inner, cancelled, session⟩ hsession _ _ hinner
          have hlast := hkeeps.at_end (.always _) (hbegin _ _ hopening) hload
          have hafter := (conclude_alike start.plan result hlast.running).2.first_obeys
          rw [hconclude] at hafter
          exact hafter

/-- The parts of the search of a build keep only views with the property. -/
theorem keeps_views (world : World) (plan : BuildPlan) (limit : Nat)
    (hscans : HoldsOfScans holds) :
    Loader.Keeps (world.steps plan (world.run limit))
      (fun running => running.session.Obeys (Cache.viewLaw holds)) (fun _ => True)
      (fun _ => True) :=
  world.keeps_obeys plan (fun id loaded _ hrunning => (scan_holds hscans id loaded hrunning).1)
    fun inner cancelled _ _ _ hsession hrun =>
      @obeys_run _ _ hscans _ ⟨inner, cancelled, _⟩ hsession _ _ hrun

/-- A load that starts a nested build starts it with the caches of the build around it. -/
theorem obeys_startedBy {visit : Resolved × Running} (h : visit.2.session.Obeys law)
    {start : BuildStart} (hstart : world.startedBy plan visit = some start) :
    start.session.Obeys law := by
  have hbegun := (world.loading_alike plan visit.1 (world.pluginsOf plan.plugins)
    h.running).obeys
  rw [startedBy] at hstart
  cases hloading : world.loading plan visit.1 (world.pluginsOf plan.plugins) visit.2 with
  | done result running =>
      rw [hloading] at hstart
      cases hstart
  | nested job running =>
      rw [hloading] at hstart hbegun
      cases hstart
      exact hbegun

/-- All builds that are nested in a build start with views that have the property. -/
theorem obeys_buildsIn (hscans : HoldsOfScans holds) {limit : Nat} {start : BuildStart}
    (h : start.session.Obeys (Cache.viewLaw holds)) :
    ∀ build ∈ world.buildsIn limit start, build.session.Obeys (Cache.viewLaw holds) := by
  induction limit generalizing start with
  | zero =>
      intro build hbuild
      rw [buildsIn, List.mem_singleton] at hbuild
      exact hbuild ▸ h
  | succ limit ih =>
      intro build hbuild
      rw [buildsIn, List.mem_cons, List.mem_flatMap] at hbuild
      rcases hbuild with rfl | ⟨inner, hinner, hbuild⟩
      · exact h
      · refine ih ?_ build hbuild
        obtain ⟨visit, hvisit, hstarted⟩ := List.mem_filterMap.mp hinner
        rw [loadsIn] at hvisit
        cases hopening : world.opening start with
        | error ended => simp [hopening] at hvisit
        | ok opened =>
            simp only [hopening] at hvisit
            exact obeys_startedBy ((world.keeps_views start.plan limit hscans).at_loads
              (.always _) ((world.obeys_opening h).2 _ _ hopening) visit hvisit) hstarted

/-! ## Graphs -/

/-- Every view in the graph of a build has the property. -/
theorem holds_of_scanStage (hscans : HoldsOfScans holds) {limit : Nat} {start : BuildStart}
    (h : start.session.Obeys (Cache.viewLaw holds)) {graph : Graph} {last : Running}
    (hstage : world.scanStage limit start = some (.ok (graph, last))) :
    ∀ module ∈ graph.modules, module.content.Holds holds := by
  obtain ⟨entries, running, hopening, hload⟩ := scanStage_eq_ok.mp hstage
  obtain ⟨_, hfound, _⟩ := Loader.load_found hload
  intro module hmodule
  obtain ⟨load, _, ⟨found⟩⟩ := Loader.exists_left_of_forall₂ hfound hmodule
  have hscanned := (world.keeps_views start.plan limit hscans).at_scans (.always _)
    ((world.obeys_opening h).2 _ _ hopening) _ found.examined.scan_mem
  rw [found.numbered.content_eq]
  exact (scan_holds hscans _ _ hscanned).2 _ found.examined.scan_eq

end World

namespace Bundler

/-- A bundler that began with an empty cache keeps only views with the property. -/
theorem Reached.obeys {holds : View → Prop} (hscans : HoldsOfScans holds) {first bundler : Bundler}
    {known : List (ModuleId × String)} (hreached : Reached first known bundler)
    (hcache : first.cache = .empty) : bundler.start.session.Obeys (Cache.viewLaw holds) := by
  have hnext {bundler next : Bundler} {limit : Nat} {files : FileTree}
      {result : Except (List Report) Bundle}
      (hgenerate : bundler.generate limit files = some (result, next))
      (h : bundler.start.session.Obeys (Cache.viewLaw holds)) :
      next.start.session.Obeys (Cache.viewLaw holds) := by
    rw [generate_eq, Option.map_eq_some_iff] at hgenerate
    obtain ⟨⟨ended, session⟩, hrun, hend⟩ := hgenerate
    cases hend
    exact (World.obeys_run hscans h hrun).settle
  induction hreached with
  | first =>
      rw [start, hcache]
      exact Cache.obeys_empty
  | cancel _ ih => exact ih
  | takeEvents _ ih => exact ih
  | generate _ hgenerate ih => exact hnext hgenerate ih
  | write _ hwrite ih =>
      obtain ⟨answer, hgenerate⟩ := generate_of_write hwrite
      exact hnext hgenerate ih

end Bundler

end WebBundle

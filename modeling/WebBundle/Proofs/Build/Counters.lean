import WebBundle.Proofs.Build.Nesting
import WebBundle.Proofs.Plugin.Rewrites
import WebBundle.Proofs.Search.Wave

/-!
# Counters in a build

Within a build the counter of a plugin moves in two ways: scanning moves it on by one
for each call that the plugin rewrites, and a nested build in which the plugin takes
part sets it back.  So the numbers of a build count up over all waves before which
no such nested build runs.
-/

namespace WebBundle

open Scan PluginMemory

/-- A plugin takes part in a build. -/
def BuildStart.Runs (start : BuildStart) (plugin : Nat) : Prop :=
  start.isCancelled = false ∧ plugin ∈ start.plan.plugins

namespace World

theorem mem_of_mem_workletNumbers {world : World} {numbers : List Nat} {plugin : Nat}
    (hplugin : plugin ∈ Numbered.workletNumbers (world.pluginsOf numbers)) :
    plugin ∈ numbers := by
  obtain ⟨settings, hmem⟩ := Numbered.mem_workletNumbers.mp hplugin
  rw [pluginsOf, List.mem_filterMap] at hmem
  obtain ⟨number, hnumber, hplugin⟩ := hmem
  rw [Option.map_eq_some_iff] at hplugin
  obtain ⟨_, _, heq⟩ := hplugin
  cases heq
  exact hnumber

/-! ## What leaves the counters -/

theorem sameCounters_resolveWith (options : Options) (importer : Option ModuleId)
    (specifier : String) (form : ImportForm) (plugins : List Numbered) (memory : PluginMemory) :
    memory.SameCounters
      (resolveWith options importer specifier form plugins memory).2 := by
  induction plugins generalizing memory with
  | nil => exact .refl _
  | cons numbered rest ih =>
      obtain ⟨number, plugin⟩ := numbered
      rw [resolveWith]
      cases plugin with
      | ruled rules =>
          dsimp only
          split
          · exact sameCounters_record _ _ _
          · exact sameCounters_record _ _ _
          · exact (sameCounters_record _ _ _).trans (ih _)
      | _ =>
          dsimp only
          split
          · exact .refl _
          · exact .refl _
          · exact ih _

theorem sameCounters_resolve (world : World) (plan : BuildPlan) (importer : Option ModuleId)
    (specifier : String) (form : ImportForm) (running : Running) :
    running.session.plugins.SameCounters
      (world.resolve plan importer specifier form running).2.session.plugins := by
  have hsame := sameCounters_resolveWith plan.options importer specifier form
    (world.pluginsOf plan.plugins) running.session.plugins
  rw [resolve.eq_def]
  dsimp only
  split
  · exact hsame
  · exact hsame
  · split <;> exact hsame

theorem sameCounters_resolveEntries (world : World) (plan : BuildPlan) (running : Running) :
    running.session.plugins.SameCounters
      (world.resolveEntries plan running).2.session.plugins := by
  refine Loader.forEach_keeps (world.resolveEntry plan)
    (fun reached => running.session.plugins.SameCounters reached.session.plugins) ?_ _ (.refl _)
  intro entry reached hreached
  exact hreached.trans (world.sameCounters_resolve plan none entry.request .declaration reached)

theorem sameCounters_loading (world : World) (plan : BuildPlan) (resolved : Resolved)
    (plugins : List Numbered) (running : Running) :
    running.session.plugins.SameCounters
      (world.loading plan resolved plugins running).running.session.plugins := by
  induction plugins generalizing running with
  | nil => exact .refl _
  | cons numbered rest ih =>
      rw [loading]
      cases numbered.plugin with
      | plain => exact ih running
      | worklets settings =>
          dsimp only
          split
          · exact .refl _
          · exact ih running
          · exact .refl _
      | ruled rules =>
          dsimp only
          split
          · refine .trans ?_ (ih _)
            exact sameCounters_record _ _ _
          · exact sameCounters_record _ _ _
          · exact sameCounters_record _ _ _
          · exact sameCounters_record _ _ _

theorem plugins_concludeWorklet (plan : BuildPlan) (job : Worklet.Job Nat) (ended : Ended)
    (running : Running) :
    (concludeWorklet plan job ended running).2.session.plugins = running.session.plugins := by
  rw [concludeWorklet]
  cases ended.outcome with
  | assets assets =>
      dsimp only
      split <;> rfl
  | reports reports =>
      dsimp only
      split <;> split <;> rfl
  | cancelled =>
      dsimp only
      split <;> split <;> rfl

theorem plugins_finishLoading (plan : BuildPlan) (resolved : Resolved) (job : Worklet.Job Nat)
    (ended : Ended) (running : Running) :
    (finishLoading plan resolved job ended running).2.session.plugins =
      running.session.plugins :=
  plugins_concludeWorklet plan job ended running

/-- A load changes a counter only by its nested build. -/
theorem counter_load {world : World} {plan : BuildPlan}
    {nested : BuildPlan → Bool → Session → Option (Ended × Session)} {resolved : Resolved}
    {running next : Running} {result : Except Report Loaded} {plugin : Nat}
    (hnested : ∀ start, world.startedBy plan (resolved, running) = some start →
      ∀ ended session, nested start.plan start.isCancelled start.session = some (ended, session) →
        session.plugins.counter plugin = start.session.plugins.counter plugin)
    (hload : world.load plan nested resolved (world.pluginsOf plan.plugins) running =
      some (result, next)) :
    next.session.plugins.counter plugin = running.session.plugins.counter plugin := by
  have hsame := world.sameCounters_loading plan resolved (world.pluginsOf plan.plugins) running
  rcases load_cases hload with hdone | ⟨job, before, ended, session, hbegun, hended, hfinish⟩
  · rw [hdone] at hsame
    exact (hsame plugin).symm
  · have hplugins := plugins_finishLoading plan resolved job ended { before with session }
    rw [hfinish] at hplugins
    rw [hbegun] at hsame
    have hstart : world.startedBy plan (resolved, running) =
        some ⟨innerPlan plan job, before.isCancelled, before.session⟩ := by
      rw [startedBy, hbegun]
      rfl
    calc
      next.session.plugins.counter plugin = session.plugins.counter plugin := by rw [hplugins]
      _ = before.session.plugins.counter plugin := hnested _ hstart ended session hended
      _ = running.session.plugins.counter plugin := (hsame plugin).symm

/-! ## Scans -/

/-- The calls that plugins rewrite while a module is scanned. -/
def rewritesAt (world : World) (plan : BuildPlan) (visit : (ModuleId × Loaded) × Running) :
    List Worklet.Rewrite :=
  match visit.1.2 with
  | .bytes _ _ => []
  | .text kind source =>
    match cached? plan visit.1.1 kind source visit.2.session with
    | some _ => []
    | none =>
      match ModuleSource.read kind source with
      | .error _ => []
      | .ok program =>
        rewrites kind (world.pluginsOf plan.plugins) program visit.2.session.plugins

/-- A rewritten call shows in the view of its module. -/
theorem edit_of_mem_rewritesAt {world : World} {plan : BuildPlan} {id : ModuleId}
    {loaded : Loaded} {running : Running} {rewrite : Worklet.Rewrite}
    (hmem : rewrite ∈ world.rewritesAt plan ((id, loaded), running)) :
    ∃ view, (world.scan plan id loaded running).1 = .ok (.script view) ∧
      .replace rewrite.span (Worklet.variableName rewrite.number) ∈ view.edits ∧
      ∃ record, (Worklet.variableName rewrite.number, record) ∈ view.boundRecords ∧
        view.records[record]? = some ⟨rewrite.loaderRequest, .generated, ⟨0, 0⟩⟩ := by
  cases loaded with
  | bytes kind content => cases hmem
  | text kind source =>
      simp only [rewritesAt] at hmem
      simp only [scan, scanText]
      cases hcached : cached? plan id kind source running.session with
      | some module => simp [hcached] at hmem
      | none =>
          cases hread : ModuleSource.read kind source with
          | error fault => simp [hcached, hread] at hmem
          | ok program =>
              simp only [hcached, hread] at hmem
              obtain ⟨hreplaced, hbound⟩ := found_of_mem_rewrites hmem
              refine ⟨_, rfl, ?_, ?_⟩
              · exact List.mem_append_right _ (List.mem_map.mpr ⟨_, hreplaced, rfl⟩)
              · obtain ⟨index, hindex⟩ := List.mem_iff_getElem?.mp hbound
                exact ⟨_, Findings.toView_bound hindex program.source⟩

theorem plugins_foldl_warn {α : Type} (warning : α → Report) (items : List α)
    (session : Session) :
    (items.foldl (fun session item => session.warn (warning item)) session).plugins =
      session.plugins := by
  induction items generalizing session with
  | nil => rfl
  | cons item rest ih =>
      rw [List.foldl_cons, ih]
      rfl

theorem plugins_scanProgram (world : World) (plan : BuildPlan) (id : ModuleId)
    (kind : ModuleKind) (source : String) (program : Syntax.Program) (session : Session) :
    (world.scanProgram plan id kind source program session).2.plugins =
      (WebBundle.Scan.scan (world.hooks plan kind) program session.plugins).2 := by
  rw [scanProgram]
  dsimp only
  split <;> exact plugins_foldl_warn _ _ _

/-- Scanning a module moves the counter of a plugin on by the calls that it rewrites. -/
theorem countUp_scan (world : World) (plan : BuildPlan) (id : ModuleId) (loaded : Loaded)
    (running : Running) (plugin : Nat) :
    CountUp (running.session.plugins.counter plugin)
      (numbersOf plugin (world.rewritesAt plan ((id, loaded), running)))
      ((world.scan plan id loaded running).2.session.plugins.counter plugin) := by
  cases loaded with
  | bytes kind content => rfl
  | text kind source =>
      simp only [scan, scanText, rewritesAt]
      cases hcached : cached? plan id kind source running.session with
      | some module => rfl
      | none =>
          cases hread : ModuleSource.read kind source with
          | error fault => rfl
          | ok program =>
              simp only [plugins_scanProgram]
              exact countUp_rewrites kind (world.pluginsOf plan.plugins) program
                running.session.plugins plugin

theorem numbersOf_rewrites_eq_nil {kind : ModuleKind} {plugins : List Numbered} {plugin : Nat}
    (hplugin : plugin ∉ Numbered.workletNumbers plugins) (program : Syntax.Program)
    (memory : PluginMemory) : numbersOf plugin (rewrites kind plugins program memory) = [] := by
  rw [rewrites]
  split
  · rename_i hkind
    rw [numbersOf, List.map_eq_nil_iff, List.filter_eq_nil_iff]
    intro rewrite hmem
    obtain ⟨visit, _, hrewrite⟩ := List.mem_filterMap.mp hmem
    obtain ⟨hworklets, _⟩ := Numbered.react_of_rewrite? hkind hrewrite
    simp only [decide_eq_true_eq]
    intro hsame
    exact hplugin (hsame ▸ hworklets)
  · rfl

/-- Only plugins of a build rewrite calls in it. -/
theorem numbersOf_rewritesAt_eq_nil {world : World} {plan : BuildPlan} {plugin : Nat}
    (hplugin : plugin ∉ plan.plugins) (visit : (ModuleId × Loaded) × Running) :
    numbersOf plugin (world.rewritesAt plan visit) = [] := by
  rw [rewritesAt]
  split
  · rfl
  · split
    · rfl
    · split
      · rfl
      · exact numbersOf_rewrites_eq_nil (fun h => hplugin (mem_of_mem_workletNumbers h)) _ _

/-! ## Builds without a plugin -/

/-- The nested build of a load, if there is one, leaves a counter. -/
def LeavesCounter (world : World) (plan : BuildPlan)
    (nested : BuildPlan → Bool → Session → Option (Ended × Session)) (plugin : Nat)
    (visit : Resolved × Running) : Prop :=
  ∀ start, world.startedBy plan visit = some start →
    ∀ ended session, nested start.plan start.isCancelled start.session = some (ended, session) →
      session.plugins.counter plugin = start.session.plugins.counter plugin

/-- The search of a build without a plugin leaves the counter of the plugin. -/
theorem keeps_counter {world : World} {plan : BuildPlan} {plugin : Nat}
    (hplugin : plugin ∉ plan.plugins)
    (nested : BuildPlan → Bool → Session → Option (Ended × Session)) (value : UInt32) :
    Loader.Keeps (world.steps plan nested)
      (fun running => running.session.plugins.counter plugin = value)
      (world.LeavesCounter plan nested plugin) (fun _ => True) where
  resolve importer specifier form running hvalue :=
    (world.sameCounters_resolve plan importer specifier form running plugin).symm.trans hvalue
  load resolved running result next hleaves hvalue hload :=
    (counter_load hleaves hload).trans hvalue
  scan id loaded running _ hvalue := by
    have hcount := world.countUp_scan plan id loaded running plugin
    rw [numbersOf_rewritesAt_eq_nil hplugin] at hcount
    exact Eq.trans hcount hvalue

theorem session_conclude_plugins (plan : BuildPlan) (result : Except LoadFailure Graph)
    (running : Running) : (conclude plan result running).2.plugins = running.session.plugins := by
  cases result with
  | ok graph => rfl
  | error failure =>
      cases failure with
      | reports reports => rfl
      | cancelled =>
          rw [conclude]
          generalize running.session = session
          induction running.waiting generalizing session with
          | nil => rfl
          | cons name rest ih => exact ih _

/-- What a build does before its search leaves the counter of a plugin that it does
not have. -/
theorem counter_opening (world : World) {start : BuildStart} {plugin : Nat}
    (hplugin : ¬ start.Runs plugin) :
    (∀ ended session, world.opening start = .error (ended, session) →
      session.plugins.counter plugin = start.session.plugins.counter plugin) ∧
    ∀ entries running, world.opening start = .ok (entries, running) →
      plugin ∉ start.plan.plugins ∧
        running.session.plugins.counter plugin = start.session.plugins.counter plugin := by
  rw [opening]
  cases hcancelled : start.isCancelled with
  | true =>
      refine ⟨?_, ?_⟩
      · rintro ended session ⟨⟩
        rfl
      · rintro entries running ⟨⟩
  | false =>
      have hout : plugin ∉ start.plan.plugins := fun hmem => hplugin ⟨hcancelled, hmem⟩
      have hstart := Numbered.counter_startAll (world.pluginsOf start.plan.plugins)
        (fun h => hout (mem_of_mem_workletNumbers h)) start.session.plugins
      simp only [Bool.false_eq_true, if_false]
      generalize Numbered.startAll (world.pluginsOf start.plan.plugins) start.session.plugins =
        started at hstart
      obtain ⟨report, plugins⟩ := started
      cases report with
      | some report =>
          refine ⟨?_, ?_⟩
          · rintro ended session ⟨⟩
            exact hstart
          · rintro entries running ⟨⟩
      | none =>
          cases start.plan.options.input.isEmpty with
          | true =>
              refine ⟨?_, ?_⟩
              · rintro ended session ⟨⟩
                exact hstart
              · rintro entries running ⟨⟩
          | false =>
              have hentries := world.sameCounters_resolveEntries start.plan
                { session := { start.session with plugins } }
              simp only [Bool.false_eq_true, if_false]
              generalize world.resolveEntries start.plan
                { session := { start.session with plugins } } = resolved at hentries
              obtain ⟨result, running⟩ := resolved
              cases result with
              | error reports =>
                  refine ⟨?_, ?_⟩
                  · rintro ended session ⟨⟩
                    exact (hentries plugin).symm.trans hstart
                  · rintro entries running ⟨⟩
              | ok entries =>
                  refine ⟨?_, ?_⟩
                  · rintro ended session ⟨⟩
                  · rintro _ _ ⟨⟩
                    exact ⟨hout, (hentries plugin).symm.trans hstart⟩

/-- A plugin that takes part neither in a build nor in one nested in it keeps its
counter. -/
theorem counter_run (world : World) {limit : Nat} {start : BuildStart} {plugin : Nat}
    (hout : ∀ build ∈ world.buildsIn limit start, ¬ build.Runs plugin) {ended : Ended}
    {session : Session} (hrun : world.runFrom limit start = some (ended, session)) :
    session.plugins.counter plugin = start.session.plugins.counter plugin := by
  induction limit generalizing start ended session with
  | zero => cases hrun
  | succ limit ih =>
      rw [buildsIn, List.forall_mem_cons] at hout
      obtain ⟨hend, hbegin⟩ := world.counter_opening hout.1
      rw [runFrom_succ] at hrun
      cases hopening : world.opening start with
      | error given =>
          obtain ⟨answer, last⟩ := given
          simp only [hopening, Option.some.injEq, Prod.mk.injEq] at hrun
          obtain ⟨rfl, rfl⟩ := hrun
          exact hend _ _ hopening
      | ok opened =>
          obtain ⟨entries, running⟩ := opened
          obtain ⟨hplugin, hcounter⟩ := hbegin entries running hopening
          simp only [hopening, Option.map_eq_some_iff] at hrun
          obtain ⟨⟨result, last⟩, hload, hconclude⟩ := hrun
          have hnested : ∀ visit ∈ world.loadsIn (limit + 1) start,
              world.LeavesCounter start.plan (world.run limit) plugin visit := by
            intro visit hvisit child hchild endedChild sessionChild hrunChild
            refine ih ?_ hrunChild
            intro build hbuild
            exact hout.2 build (List.mem_flatMap.mpr
              ⟨child, List.mem_filterMap.mpr ⟨visit, hvisit, hchild⟩, hbuild⟩)
          simp only [loadsIn, hopening] at hnested
          have hlast := (keeps_counter hplugin (world.run limit)
            (start.session.plugins.counter plugin)).at_end
              ⟨hnested, fun _ _ => trivial⟩ hcounter hload
          have hplugins := session_conclude_plugins start.plan result last
          rw [show conclude start.plan result last = (ended, session) from hconclude] at hplugins
          rw [hplugins]
          exact hlast

/-! ## Waves -/

/-- The nested builds that the loads of a wave start. -/
def nestedInWave (world : World) (plan : BuildPlan)
    (nested : BuildPlan → Bool → Session → Option (Ended × Session))
    (wave : Loader.Numbering × Running) : List BuildStart :=
  (Loader.waveLoads (world.steps plan nested) wave).filterMap (world.startedBy plan)

/-- The calls that plugins rewrite in a wave. -/
def rewritesInWave (world : World) (plan : BuildPlan)
    (nested : BuildPlan → Bool → Session → Option (Ended × Session))
    (wave : Loader.Numbering × Running) : List Worklet.Rewrite :=
  (Loader.waveScans (world.steps plan nested) wave).flatMap (world.rewritesAt plan)

variable (world : World) (plan : BuildPlan) (plugin : Nat)
  (nested : BuildPlan → Bool → Session → Option (Ended × Session))

theorem countUp_scans (loaded : List (ModuleId × Loaded)) (running : Running) :
    CountUp (running.session.plugins.counter plugin)
      (numbersOf plugin ((Loader.visits (Loader.scanOne (world.steps plan nested)) loaded
        running).flatMap (world.rewritesAt plan)))
      ((Loader.forEach (Loader.scanOne (world.steps plan nested)) loaded
        running).2.session.plugins.counter plugin) := by
  induction loaded generalizing running with
  | nil => rfl
  | cons item rest ih =>
      obtain ⟨id, loaded⟩ := item
      rw [Loader.visits, List.flatMap_cons, numbersOf_append]
      exact (world.countUp_scan plan id loaded running plugin).append (ih _)

/-- The numbers of a wave count up from where its loads leave the counter, and the
next wave begins where they end. -/
theorem countUp_wave (wave : Loader.Numbering × Running) :
    ∃ first last,
      CountUp first (numbersOf plugin (world.rewritesInWave plan nested wave)) last ∧
      ((∀ visit ∈ Loader.waveLoads (world.steps plan nested) wave,
          world.LeavesCounter plan nested plugin visit) →
        first = wave.2.session.plugins.counter plugin) ∧
      ∀ next, Loader.Next (world.steps plan nested) wave next →
        next.2.session.plugins.counter plugin = last := by
  have hnext : ∀ next, Loader.Next (world.steps plan nested) wave next →
      ∃ loaded loadedAt, Loader.loadWave (world.steps plan nested) wave.1.wave wave.2 =
          some (.ok loaded, loadedAt) ∧
        next.2.session.plugins.counter plugin = (Loader.forEach
          (Loader.scanOne (world.steps plan nested)) loaded
            loadedAt).2.session.plugins.counter plugin := by
    rintro next ⟨modules, hrun⟩
    obtain ⟨done⟩ := Loader.runWave_eq_ok hrun
    refine ⟨done.loaded, done.loadedAt, done.load_eq, ?_⟩
    refine (congrArg (fun running : Running => running.session.plugins.counter plugin)
      done.last_eq).trans ?_
    refine Loader.forEach_keeps _
      (fun running : Running => running.session.plugins.counter plugin = _) ?_ done.scanned rfl
    intro module running hrunning
    refine Loader.forEach_keeps (Loader.resolveRecord (world.steps plan nested) module.id)
      (fun running : Running => running.session.plugins.counter plugin = _) ?_
      module.content.records hrunning
    intro record running hrunning
    exact (world.sameCounters_resolve plan (some module.id) record.specifier record.form running
      plugin).symm.trans hrunning
  rw [rewritesInWave, Loader.waveScans]
  cases hload : Loader.loadWave (world.steps plan nested) wave.1.wave wave.2 with
  | none =>
      refine ⟨_, _, rfl, fun _ => rfl, ?_⟩
      intro next hfollows
      obtain ⟨loaded, loadedAt, hloaded, _⟩ := hnext next hfollows
      rw [hload] at hloaded
      cases hloaded
  | some given =>
      obtain ⟨answer, loadedAt⟩ := given
      cases answer with
      | error failure =>
          refine ⟨_, _, rfl, fun _ => rfl, ?_⟩
          intro next hfollows
          obtain ⟨loaded, loadedAt, hloaded, _⟩ := hnext next hfollows
          rw [hload] at hloaded
          cases hloaded
      | ok loaded =>
          refine ⟨_, _, countUp_scans _ _ _ _ loaded loadedAt, ?_, ?_⟩
          · intro hleaves
            obtain ⟨results, hresults, _⟩ := Loader.loadWave_eq hload
            refine Loader.forEach?_keeps
              (fun running : Running => running.session.plugins.counter plugin = _) ?_ rfl hresults
            intro visit hvisit result next hrunning hgiven
            rw [Loader.loadOne, Option.map_eq_some_iff] at hgiven
            obtain ⟨⟨answer, reached⟩, hloaded, heq⟩ := hgiven
            cases heq
            exact (counter_load (hleaves visit hvisit) hloaded).trans hrunning
          · intro next hfollows
            obtain ⟨again, againAt, hloaded, hcounter⟩ := hnext next hfollows
            rw [hload] at hloaded
            cases hloaded
            exact hcounter

variable {world plan nested}

/-- The numbers of waves in a row count up if only the first of them may load a module
by a nested build that changes the counter. -/
theorem countUp_waves {waves : List (Loader.Numbering × Running)}
    (hchain : waves.IsChain (Loader.Next (world.steps plan nested)))
    (hleaves : ∀ wave ∈ waves.tail, ∀ visit ∈ Loader.waveLoads (world.steps plan nested) wave,
      world.LeavesCounter plan nested plugin visit) :
    ∃ first last,
      CountUp first (numbersOf plugin (waves.flatMap (world.rewritesInWave plan nested))) last ∧
      ∀ wave ∈ waves.head?, (∀ visit ∈ Loader.waveLoads (world.steps plan nested) wave,
          world.LeavesCounter plan nested plugin visit) →
        first = wave.2.session.plugins.counter plugin := by
  induction hchain with
  | nil => exact ⟨0, 0, rfl, fun _ hwave => nomatch hwave⟩
  | singleton wave =>
      obtain ⟨first, last, hcount, hfirst, _⟩ := countUp_wave world plan plugin nested wave
      refine ⟨first, last, by simpa using hcount, ?_⟩
      rintro _ ⟨⟩
      exact hfirst
  | cons_cons hnext _ ih =>
      rename_i wave next rest _
      obtain ⟨first, middle, hcount, hfirst, hlast⟩ := countUp_wave world plan plugin nested wave
      rw [List.tail_cons, List.forall_mem_cons] at hleaves
      obtain ⟨begun, last, hrest, hbegun⟩ := ih hleaves.2
      refine ⟨first, last, ?_, ?_⟩
      · rw [List.flatMap_cons, numbersOf_append]
        refine hcount.append ?_
        rw [← hlast next hnext, ← hbegun next rfl hleaves.1]
        exact hrest
      · rintro _ ⟨⟩
        exact hfirst

end World

end WebBundle

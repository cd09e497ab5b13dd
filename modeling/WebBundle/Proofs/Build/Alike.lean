import WebBundle.Proofs.Build.Answers
import WebBundle.Proofs.Build.ColdScan

/-!
# Builds that look alike

Two sessions are alike if their warnings and the counters of the plugins that have
started are the same and both keep only what a scan without a cache would find.  Builds
that start alike with the same plan do the same and stay alike, whatever else their
caches keep and their plugins remember.
-/

namespace WebBundle

open Scan PluginMemory

/-- Sessions that look the same to a build. -/
structure Session.Alike (law : Cache.Law) (numbers : List Nat) (first second : Session) :
    Prop where
  diagnostics : first.diagnostics = second.diagnostics
  counters : AgreeOn numbers first.plugins second.plugins
  first_obeys : first.Obeys law
  second_obeys : second.Obeys law

/-- Running builds that look the same. -/
structure Running.Alike (law : Cache.Law) (numbers : List Nat) (first second : Running) :
    Prop where
  session : Session.Alike law numbers first.session second.session
  isCancelled : first.isCancelled = second.isCancelled
  emitted : first.emitted = second.emitted
  waiting : first.waiting = second.waiting
  hasWaited : first.hasWaited = second.hasWaited

namespace Session.Alike

variable {law : Cache.Law} {numbers : List Nat} {first second : Session}

theorem mono {fewer : List Nat} (h : Alike law numbers first second)
    (hsubset : fewer ⊆ numbers) : Alike law fewer first second :=
  ⟨h.diagnostics, h.counters.mono hsubset, h.first_obeys, h.second_obeys⟩

theorem withPlugins (h : Alike law numbers first second) {more : List Nat}
    {plugins other : PluginMemory} (hagree : AgreeOn more plugins other) :
    Alike law more { first with plugins } { second with plugins := other } :=
  ⟨h.diagnostics, hagree, h.first_obeys, h.second_obeys⟩

theorem claim (h : Alike law numbers first second) (path : List String) (name : String) :
    Alike law numbers (first.claim path name) (second.claim path name) :=
  ⟨h.diagnostics, h.counters, h.first_obeys.claim path name, h.second_obeys.claim path name⟩

theorem release (h : Alike law numbers first second) (path : List String) (name : String) :
    Alike law numbers (first.release path name) (second.release path name) :=
  ⟨h.diagnostics, h.counters, h.first_obeys.release path name,
    h.second_obeys.release path name⟩

theorem releaseLater (h : Alike law numbers first second) (path : List String)
    (name : String) :
    Alike law numbers (first.releaseLater path name) (second.releaseLater path name) :=
  ⟨h.diagnostics, h.counters, h.first_obeys, h.second_obeys⟩

/-- The builds that begin with such sessions look the same. -/
theorem running (h : Alike law numbers first second) :
    Running.Alike law numbers { session := first } { session := second } :=
  ⟨h, rfl, rfl, rfl, rfl⟩

end Session.Alike

namespace Running.Alike

variable {law : Cache.Law} {numbers : List Nat} {first second : Running}

theorem withSession (h : Alike law numbers first second) {more : List Nat}
    {session other : Session} (hsession : Session.Alike law more session other) :
    Alike law more { first with session } { second with session := other } :=
  ⟨hsession, h.isCancelled, h.emitted, h.waiting, h.hasWaited⟩

end Running.Alike

namespace World

variable {world : World} {plan : BuildPlan} {law : Cache.Law} {numbers : List Nat}
  {first second : Running}

theorem resolve_alike (world : World) (plan : BuildPlan) (importer : Option ModuleId) (specifier : String) (form : ImportForm)
    (halike : Running.Alike law numbers first second) :
    (world.resolve plan importer specifier form first).1 =
        (world.resolve plan importer specifier form second).1 ∧
      Running.Alike law numbers (world.resolve plan importer specifier form first).2
        (world.resolve plan importer specifier form second).2 := by
  rw [resolve_fst, resolve_fst, resolve_snd, resolve_snd]
  refine ⟨rfl, halike.withSession (halike.session.withPlugins ?_)⟩
  exact halike.session.counters.of_sameCounters (sameCounters_resolveWith _ _ _ _ _ _)
    (sameCounters_resolveWith _ _ _ _ _ _)

theorem prepareWorklet_alike (world : World) (plan : BuildPlan) (settings : Worklet.Settings Nat) (query : Worklet.ModuleQuery)
    (request : String) {session other : Session}
    (halike : Session.Alike law numbers session other) :
    (world.prepareWorklet plan settings query request session).1 =
        (world.prepareWorklet plan settings query request other).1 ∧
      Session.Alike law numbers (world.prepareWorklet plan settings query request session).2
        (world.prepareWorklet plan settings query request other).2 := by
  rw [prepareWorklet, prepareWorklet, halike.diagnostics]
  refine ⟨rfl, Session.Alike.claim ?_ _ _⟩
  exact ⟨rfl, halike.counters, halike.first_obeys, halike.second_obeys⟩

/-- Loads that begin in states that look the same. -/
inductive LoadingAlike (law : Cache.Law) (numbers : List Nat) : Loading → Loading → Prop where
  | done (result : Except Report Loaded) {first second : Running} :
      Running.Alike law numbers first second →
      LoadingAlike law numbers (.done result first) (.done result second)
  | nested (job : Worklet.Job Nat) {first second : Running} :
      Running.Alike law numbers first second →
      LoadingAlike law numbers (.nested job first) (.nested job second)

theorem loading_alike (world : World) (plan : BuildPlan) (resolved : Resolved)
    (plugins : List Numbered)
    (halike : Running.Alike law numbers first second) :
    LoadingAlike law numbers (world.loading plan resolved plugins first)
      (world.loading plan resolved plugins second) := by
  induction plugins generalizing first second with
  | nil => exact .done _ halike
  | cons numbered rest ih =>
      rw [loading, loading]
      cases numbered.plugin with
      | plain => exact ih halike
      | worklets settings =>
          dsimp only
          split
          · exact .done _ halike
          · exact ih halike
          · rename_i query request _
            obtain ⟨hjob, hsession⟩ := world.prepareWorklet_alike plan settings query request
              halike.session
            rw [hjob]
            exact .nested _ (halike.withSession hsession)
      | ruled rules =>
          have hasked : Running.Alike law numbers
              { first with session := { first.session with
                  plugins := first.session.plugins.record rules.name (.load resolved.id) } }
              { second with session := { second.session with
                  plugins := second.session.plugins.record rules.name (.load resolved.id) } } :=
            halike.withSession (halike.session.withPlugins
              (halike.session.counters.of_sameCounters (sameCounters_record _ _ _)
                (sameCounters_record _ _ _)))
          dsimp only
          split
          · exact ih hasked
          · exact .done _ ⟨hasked.session, rfl, hasked.emitted, hasked.waiting, rfl⟩
          · exact .done _ hasked
          · exact .done _ hasked

theorem concludeWorklet_alike (plan : BuildPlan) (job : Worklet.Job Nat) (ended : Ended)
    (halike : Running.Alike law numbers first second) :
    (concludeWorklet plan job ended first).1 = (concludeWorklet plan job ended second).1 ∧
      Running.Alike law numbers (concludeWorklet plan job ended first).2
        (concludeWorklet plan job ended second).2 := by
  obtain ⟨hsession, hcancelled, hemitted, hwaiting, hwaited⟩ := halike
  rw [concludeWorklet, concludeWorklet]
  cases ended.outcome with
  | assets assets =>
      dsimp only
      split
      · exact ⟨rfl, hsession, hcancelled, by rw [hemitted], hwaiting, by rw [hwaited]⟩
      · exact ⟨rfl, hsession, hcancelled, by rw [hemitted], hwaiting, by rw [hwaited]⟩
  | reports reports =>
      dsimp only
      split <;> split
      all_goals exact ⟨rfl, hsession, hcancelled, hemitted, by rw [hwaiting], by rw [hwaited]⟩
  | cancelled =>
      dsimp only
      split <;> split
      · exact ⟨rfl, hsession.releaseLater _ _, hcancelled, hemitted, hwaiting, by rw [hwaited]⟩
      · exact ⟨rfl, hsession.release _ _, hcancelled, hemitted, hwaiting, by rw [hwaited]⟩
      · exact ⟨rfl, hsession.releaseLater _ _, hcancelled, hemitted, hwaiting, by rw [hwaited]⟩
      · exact ⟨rfl, hsession.release _ _, hcancelled, hemitted, hwaiting, by rw [hwaited]⟩

theorem finishLoading_alike (plan : BuildPlan) (resolved : Resolved) (job : Worklet.Job Nat)
    (ended : Ended)
    (halike : Running.Alike law numbers first second) :
    (finishLoading plan resolved job ended first).1 =
        (finishLoading plan resolved job ended second).1 ∧
      Running.Alike law numbers (finishLoading plan resolved job ended first).2
        (finishLoading plan resolved job ended second).2 := by
  obtain ⟨hresult, hlast⟩ := concludeWorklet_alike plan job ended halike
  refine ⟨?_, hlast⟩
  rw [finishLoading, finishLoading]
  dsimp only
  rw [hresult]

/-! ## Scans -/

variable {plugins : List Nat} {known : List (ModuleId × String)}

theorem scan_alike (hplan : plan.plugins = world.pluginsAt plugins plan.partition.length)
    (hseparates : Separates known)
    (hnumbers : Numbered.workletNumbers (world.pluginsOf plan.plugins) ⊆ numbers)
    (id : ModuleId) (loaded : Loaded)
    (hknown : ∀ source, scannedText? ((id, loaded), first) = some source → source ∈ known)
    (halike : Running.Alike (world.Kept plugins known) numbers first second) :
    (world.scan plan id loaded first).1 = (world.scan plan id loaded second).1 ∧
      Running.Alike (world.Kept plugins known) numbers (world.scan plan id loaded first).2
        (world.scan plan id loaded second).2 := by
  cases loaded with
  | bytes kind content => exact ⟨rfl, halike⟩
  | text kind source =>
      have hsource : (id, source) ∈ known := hknown _ rfl
      obtain ⟨hview, hwarned, hcounted, hobeys⟩ := scanText_cold hplan hseparates kind hsource
        halike.session.first_obeys
      obtain ⟨hotherView, hotherWarned, hotherCounted, hotherObeys⟩ := scanText_cold hplan
        hseparates kind hsource halike.session.second_obeys
      obtain ⟨hsame, hdiagnostics, hagree⟩ := scanCold_agree hnumbers id kind source
        halike.session.diagnostics halike.session.counters
      rw [scan, scan]
      refine ⟨?_, halike.withSession ⟨?_, ?_, hobeys, hotherObeys⟩⟩
      · exact congrArg (Except.map ModuleContent.script)
          (hview.trans (hsame.trans hotherView.symm))
      · exact hwarned.trans (hdiagnostics.trans hotherWarned.symm)
      · exact hagree.of_sameCounters hcounted.symm hotherCounted.symm

/-! ## Runs -/

theorem resolveEntries_alike (world : World) (plan : BuildPlan)
    (halike : Running.Alike law numbers first second) :
    (world.resolveEntries plan first).1 = (world.resolveEntries plan second).1 ∧
      Running.Alike law numbers (world.resolveEntries plan first).2
        (world.resolveEntries plan second).2 := by
  obtain ⟨hresults, hlast, _⟩ := Loader.forEach_related (world.resolveEntry plan)
    (world.resolveEntry plan) (fun _ => True) (Running.Alike law numbers) (fun entry state other _ h => by
      obtain ⟨hanswer, hnext⟩ := world.resolve_alike plan none entry.request
        .declaration h
      refine ⟨?_, hnext⟩
      rw [resolveEntry, resolveEntry]
      dsimp only
      rw [hanswer])
    plan.options.input first second (fun _ _ => trivial) halike
  refine ⟨?_, hlast⟩
  rw [resolveEntries, resolveEntries]
  dsimp only
  rw [hresults]

/-- Builds that start alike come to the same end before their searches, or begin their
searches alike; then the plugins of the build have started. -/
theorem opening_alike (world : World) {start other : BuildStart} (hplan : start.plan = other.plan)
    (hcancelled : start.isCancelled = other.isCancelled)
    (halike : Session.Alike law numbers start.session other.session) :
    (∃ ended session last, world.opening start = .error (ended, session) ∧
        world.opening other = .error (ended, last) ∧
        Session.Alike law numbers session last) ∨
      ∃ entries running reached, world.opening start = .ok (entries, running) ∧
        world.opening other = .ok (entries, reached) ∧
        Running.Alike law
          (Numbered.workletNumbers (world.pluginsOf start.plan.plugins) ++ numbers)
          running reached := by
  obtain ⟨plan, cancelled, session⟩ := start
  obtain ⟨_, _, last⟩ := other
  subst hplan hcancelled
  simp only [opening]
  cases cancelled with
  | true => exact .inl ⟨_, _, _, rfl, rfl, halike⟩
  | false =>
      have hreport := Numbered.startAll_report (world.pluginsOf plan.plugins) session.plugins
        last.plugins
      have hstarted := Numbered.startAll_agree halike.counters (world.pluginsOf plan.plugins)
      have hall := Numbered.startAll_agree_on_worklets (world.pluginsOf plan.plugins)
        halike.counters
      simp only [Bool.false_eq_true, if_false]
      generalize Numbered.startAll (world.pluginsOf plan.plugins) session.plugins = started
        at hreport hstarted hall
      generalize Numbered.startAll (world.pluginsOf plan.plugins) last.plugins = restarted
        at hreport hstarted hall
      obtain ⟨report, memory⟩ := started
      obtain ⟨_, other⟩ := restarted
      cases hreport
      cases report with
      | some report => exact .inl ⟨_, _, _, rfl, rfl, halike.withPlugins hstarted⟩
      | none =>
          have hbegun := halike.withPlugins (hall rfl)
          cases plan.options.input.isEmpty with
          | true =>
              exact .inl ⟨_, _, _, rfl, rfl, hbegun.mono (List.subset_append_right _ _)⟩
          | false =>
              obtain ⟨hentries, hrunning⟩ := world.resolveEntries_alike plan
                (hbegun.running : Running.Alike law _
                  { session := { session with plugins := memory } }
                  { session := { last with plugins := other } })
              simp only [Bool.false_eq_true, if_false]
              generalize world.resolveEntries plan
                { session := { session with plugins := memory } } = asked at hentries hrunning
              generalize world.resolveEntries plan
                { session := { last with plugins := other } } = reasked at hentries hrunning
              obtain ⟨result, running⟩ := asked
              obtain ⟨_, reached⟩ := reasked
              cases hentries
              cases result with
              | error reports =>
                  exact .inl ⟨_, _, _, rfl, rfl,
                    hrunning.session.mono (List.subset_append_right _ _)⟩
              | ok entries => exact .inr ⟨entries, running, reached, rfl, rfl, hrunning⟩

theorem conclude_alike (plan : BuildPlan) (result : Except LoadFailure Graph)
    (halike : Running.Alike law numbers first second) :
    (conclude plan result first).1 = (conclude plan result second).1 ∧
      Session.Alike law numbers (conclude plan result first).2
        (conclude plan result second).2 := by
  obtain ⟨hsession, _, hemitted, hwaiting, hwaited⟩ := halike
  cases result with
  | ok graph =>
      refine ⟨?_, hsession⟩
      simp only [conclude, finish, hemitted, hwaited]
  | error failure =>
      cases failure with
      | reports reports =>
          refine ⟨?_, hsession⟩
          simp only [conclude, hwaited]
      | cancelled =>
          simp only [conclude, hwaiting, hwaited, true_and]
          generalize first.session = session at hsession
          generalize second.session = other at hsession
          generalize second.waiting = waiting
          induction waiting generalizing session other with
          | nil => exact hsession
          | cons name rest ih => exact ih _ _ (hsession.releaseLater plan.partition name)

/-- The nested builds of a build do the same in states that look the same, if they
do so from sessions that look the same. -/
theorem load_alike {nested : BuildPlan → Bool → Session → Option (Ended × Session)}
    {plugins : List Numbered} {resolved : Resolved}
    (hnested : ∀ job before, world.loading plan resolved plugins first = .nested job before →
      ∀ {session : Session}, Session.Alike law numbers before.session session →
      ∀ {ended after},
        nested (innerPlan plan job) before.isCancelled before.session = some (ended, after) →
        ∃ last, nested (innerPlan plan job) before.isCancelled session = some (ended, last) ∧
          Session.Alike law numbers after last)
    (halike : Running.Alike law numbers first second) {result : Except Report Loaded}
    {next : Running}
    (hload : world.load plan nested resolved plugins first = some (result, next)) :
    ∃ last, world.load plan nested resolved plugins second = some (result, last) ∧
      Running.Alike law numbers next last := by
  rw [load_eq] at hload ⊢
  have hloading := world.loading_alike plan resolved plugins halike
  generalize hbegun : world.loading plan resolved plugins first = begun at hloading hload
  generalize world.loading plan resolved plugins second = rebegun at hloading ⊢
  cases hloading with
  | done answer hlast =>
      simp only [Option.some.injEq, Prod.mk.injEq] at hload
      obtain ⟨rfl, rfl⟩ := hload
      exact ⟨_, rfl, hlast⟩
  | @nested job before other hbefore =>
      simp only [Option.map_eq_some_iff] at hload
      obtain ⟨⟨ended, after⟩, hended, hfinish⟩ := hload
      obtain ⟨last, hagain, hafter⟩ := hnested job before hbegun hbefore.session hended
      obtain ⟨hresult, hfinal⟩ := finishLoading_alike plan resolved job ended
        (hbefore.withSession hafter)
      rw [hfinish] at hresult hfinal
      refine ⟨_, ?_, hfinal⟩
      rw [hbefore.isCancelled] at hagain
      simp only [hagain, Option.map_some, Option.some.injEq]
      exact Prod.ext hresult.symm rfl

/-- Builds that start alike with the same plan do the same and end alike. -/
theorem run_alike (hseparates : Separates known) {limit : Nat} {start other : BuildStart}
    (hplan : start.plan = other.plan) (hcancelled : start.isCancelled = other.isCancelled)
    (hplugins : start.plan.plugins = world.pluginsAt plugins start.plan.partition.length)
    (hknown : world.sourcesIn limit start ⊆ known) {numbers : List Nat}
    (halike : Session.Alike (world.Kept plugins known) numbers start.session other.session)
    {ended : Ended} {session : Session}
    (hrun : world.runFrom limit start = some (ended, session)) :
    ∃ last, world.runFrom limit other = some (ended, last) ∧
      Session.Alike (world.Kept plugins known) numbers session last := by
  induction limit generalizing start other numbers ended session with
  | zero => cases hrun
  | succ limit ih =>
      rw [runFrom_succ] at hrun ⊢
      rcases world.opening_alike hplan hcancelled halike with
        ⟨early, reached, last, hopening, hother, hend⟩ |
          ⟨entries, running, reached, hopening, hother, hbegun⟩
      · simp only [hopening, Option.some.injEq, Prod.mk.injEq] at hrun
        obtain ⟨rfl, rfl⟩ := hrun
        exact ⟨last, by rw [hother], hend⟩
      · simp only [hopening, Option.map_eq_some_iff] at hrun
        obtain ⟨⟨result, final⟩, hload, hconclude⟩ := hrun
        simp only [sourcesIn, nestedIn, scansIn, loadsIn, hopening, List.append_subset] at hknown
        have hsim : Loader.Simulates (world.steps start.plan (world.run limit))
            (world.steps start.plan (world.run limit))
            (Running.Alike (world.Kept plugins known)
              (Numbered.workletNumbers (world.pluginsOf start.plan.plugins) ++ numbers))
            (fun visit => ∀ inner, world.startedBy start.plan visit = some inner →
              world.sourcesIn limit inner ⊆ known)
            (fun visit => ∀ source, scannedText? visit = some source → source ∈ known) :=
          { resolve := fun importer specifier form _ _ h => world.resolve_alike _ importer specifier form h
            load := by
              intro resolved state other answer next hallowed hrelated hfirst
              refine load_alike (fun job before hloading {session} hsession {ended after} hended =>
                ?_) hrelated hfirst
              have hstarted : world.startedBy start.plan (resolved, state) =
                  some ⟨innerPlan start.plan job, before.isCancelled, before.session⟩ := by
                rw [startedBy, hloading]
                rfl
              exact @ih ⟨innerPlan start.plan job, before.isCancelled, before.session⟩
                ⟨innerPlan start.plan job, before.isCancelled, session⟩ rfl rfl
                (startedBy_pluginsAt hplugins hstarted) (hallowed _ hstarted) _ hsession ended
                after hended
            scan := fun id loaded _ _ hallowed hrelated =>
              scan_alike hplugins hseparates (List.subset_append_left _ _) id loaded hallowed
                hrelated
            stableId := fun _ => rfl
            isCancelled := fun h => h.isCancelled }
        have hallows : Loader.Allows (world.steps start.plan (world.run limit))
            (fun visit => ∀ inner, world.startedBy start.plan visit = some inner →
              world.sourcesIn limit inner ⊆ known)
            (fun visit => ∀ source, scannedText? visit = some source → source ∈ known)
            (Loader.wavesOf (world.steps start.plan (world.run limit)) limit entries running) := by
          refine ⟨fun visit hvisit inner hinner source hsource => ?_,
            fun visit hvisit source hsource => ?_⟩
          · exact hknown.2 (List.mem_flatMap.mpr
              ⟨inner, List.mem_filterMap.mpr ⟨visit, hvisit, hinner⟩, hsource⟩)
          · exact hknown.1 (List.mem_filterMap.mpr ⟨visit, hvisit, hsource⟩)
        obtain ⟨last, hagain, hlast, _⟩ := hsim.load_corresponds (Nat.le_refl limit) entries
          running reached hallows hbegun hload
        obtain ⟨hended, hfinal⟩ := conclude_alike start.plan result hlast
        rw [hconclude] at hended hfinal
        refine ⟨_, ?_, hfinal.mono (List.subset_append_right _ _)⟩
        rw [hother, ← hplan]
        simp only [hagain, Option.map_some, Option.some.injEq]
        exact Prod.ext hended.symm rfl

end World

end WebBundle

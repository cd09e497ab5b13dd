import WebBundle.Proofs.Build.Views

/-!
# Graphs of scans

A bundler keeps only views of scans, and a build takes a view from the cache only if the source
is the one that was scanned.  So the graph of a build consists of what scans by its plugins
give for the sources that were loaded, whatever the bundler has built before.
-/

namespace WebBundle

open Scan

namespace World

variable {world : World} {plan : BuildPlan} {plugins : List Nat}
  {known : List (ModuleId × String)}

/-! ## Scans -/

/-- The content of a module that was loaded from a source is that of a scan by the plugins of
the build. -/
inductive ScansTo (world : World) (plan : BuildPlan) : Loaded → ModuleContent → Prop
  | bytes (kind : ModuleKind) (content : ByteArray) :
      ScansTo world plan (.bytes kind content) (.asset content)
  | text {kind : ModuleKind} {source : String} {program : Syntax.Program} (memory : PluginMemory)
      (hread : ModuleSource.read kind source = .ok program) :
      ScansTo world plan (.text kind source)
        (.script ((WebBundle.Scan.scan (world.hooks plan kind) program memory).1.toView
          program.source))

theorem scansTo_of_scan (hplan : plan.plugins = world.pluginsAt plugins plan.partition.length)
    (hseparates : Separates known) {id : ModuleId} {loaded : Loaded} {running : Running}
    (hknown : ∀ source, scannedText? ((id, loaded), running) = some source → source ∈ known)
    (hobeys : running.session.Obeys (world.Kept plugins known)) {content : ModuleContent}
    (hscan : (world.scan plan id loaded running).1 = .ok content) :
    world.ScansTo plan loaded content := by
  cases loaded with
  | bytes kind bytes =>
      cases hscan
      exact .bytes kind bytes
  | text kind source =>
      have hcold := (scanText_cold hplan hseparates kind (hknown _ rfl) hobeys).1
      rw [scan] at hscan
      dsimp only at hscan
      rw [hcold, scanCold] at hscan
      cases hread : ModuleSource.read kind source with
      | error fault =>
          rw [hread] at hscan
          cases hscan
      | ok program =>
          simp only [hread, scanProgram_eq] at hscan
          cases hscan
          exact .text _ hread

/-! ## Searches -/

/-- The parts of a search keep only views of scans, as long as the sources that they scan are
known. -/
theorem keeps_kept (hplan : plan.plugins = world.pluginsAt plugins plan.partition.length)
    (hseparates : Separates known) (limit : Nat) :
    Loader.Keeps (world.steps plan (world.run limit))
      (fun running => running.session.Obeys (world.Kept plugins known))
      (fun visit => ∀ inner, world.startedBy plan visit = some inner →
        world.sourcesIn limit inner ⊆ known)
      (fun visit => ∀ source, scannedText? visit = some source → source ∈ known) where
  resolve importer specifier form _ h :=
    (world.resolve_alike plan importer specifier form h.running).2.session.first_obeys
  load resolved running result next hallowed h hload := by
    have hnested : ∀ job before,
        world.loading plan resolved (world.pluginsOf plan.plugins) running = .nested job before →
        ∀ {session : Session}, Session.Alike (world.Kept plugins known) [] before.session session →
        ∀ {ended after},
          world.run limit (innerPlan plan job) before.isCancelled before.session =
            some (ended, after) →
          ∃ last, world.run limit (innerPlan plan job) before.isCancelled session =
              some (ended, last) ∧
            Session.Alike (world.Kept plugins known) [] after last := by
      intro job before hloading session hsession ended after hended
      have hstarted : world.startedBy plan (resolved, running) =
          some ⟨innerPlan plan job, before.isCancelled, before.session⟩ := by
        rw [startedBy, hloading]
        rfl
      exact @run_alike world plugins known hseparates limit
        ⟨innerPlan plan job, before.isCancelled, before.session⟩
        ⟨innerPlan plan job, before.isCancelled, session⟩ rfl rfl
        (startedBy_pluginsAt hplan hstarted) (hallowed _ hstarted) _ hsession ended after hended
    obtain ⟨_, _, hnext⟩ := load_alike hnested h.running hload
    exact hnext.session.first_obeys
  scan id loaded running hknown h := by
    have hagree : Running.Alike (world.Kept plugins known)
        (Numbered.workletNumbers (world.pluginsOf plan.plugins)) running running :=
      ⟨⟨rfl, fun _ _ => rfl, h, h⟩, rfl, rfl, rfl, rfl⟩
    exact (scan_alike hplan hseparates (fun _ h => h) id loaded hknown
      hagree).2.session.first_obeys

/-- What a search may load and scan if all sources below the build are known. -/
theorem allows_known {limit : Nat} {start : BuildStart}
    {entries : List (Option String × Resolved)} {running : Running}
    (hopening : world.opening start = .ok (entries, running))
    (hknown : world.sourcesIn (limit + 1) start ⊆ known) :
    Loader.Allows (world.steps start.plan (world.run limit))
      (fun visit => ∀ inner, world.startedBy start.plan visit = some inner →
        world.sourcesIn limit inner ⊆ known)
      (fun visit => ∀ source, scannedText? visit = some source → source ∈ known)
      (Loader.wavesOf (world.steps start.plan (world.run limit)) limit entries running) := by
  simp only [sourcesIn, nestedIn, scansIn, loadsIn, hopening, List.append_subset] at hknown
  refine ⟨fun visit hvisit inner hinner source hsource => ?_, fun visit hvisit source hsource => ?_⟩
  · exact hknown.2 (List.mem_flatMap.mpr
      ⟨inner, List.mem_filterMap.mpr ⟨visit, hvisit, hinner⟩, hsource⟩)
  · exact hknown.1 (List.mem_filterMap.mpr ⟨visit, hvisit, hsource⟩)

/-- A build that keeps only views of scans, with the plugins of its depth. -/
structure KeepsScans (world : World) (plugins : List Nat) (known : List (ModuleId × String))
    (start : BuildStart) : Prop where
  plugins_eq : start.plan.plugins = world.pluginsAt plugins start.plan.partition.length
  obeys : start.session.Obeys (world.Kept plugins known)

/-- The nested builds of a build that keeps only views of scans do so as well. -/
theorem keepsScans_buildsIn (hseparates : Separates known) {limit : Nat} {start : BuildStart}
    (h : world.KeepsScans plugins known start) (hknown : world.sourcesIn limit start ⊆ known) :
    ∀ build ∈ world.buildsIn limit start, world.KeepsScans plugins known build := by
  induction limit generalizing start with
  | zero =>
      intro build hbuild
      rw [buildsIn, List.mem_singleton] at hbuild
      exact hbuild ▸ h
  | succ limit ih =>
      intro build hbuild
      rw [buildsIn, List.mem_cons, List.mem_flatMap] at hbuild
      rcases hbuild with rfl | ⟨inner, hinner, hbuild⟩
      · exact h
      · obtain ⟨visit, hvisit, hstarted⟩ := List.mem_filterMap.mp hinner
        rw [loadsIn] at hvisit
        cases hopening : world.opening start with
        | error ended => simp [hopening] at hvisit
        | ok opened =>
            obtain ⟨entries, running⟩ := opened
            simp only [hopening] at hvisit
            have hallows := allows_known hopening hknown
            have hvisited := (keeps_kept h.plugins_eq hseparates limit).at_loads hallows
              ((world.obeys_opening h.obeys).2 _ _ hopening) visit hvisit
            exact ih ⟨startedBy_pluginsAt h.plugins_eq hstarted, obeys_startedBy hvisited hstarted⟩
              (hallows.loads visit hvisit inner hstarted) build hbuild

/-- The content of a module in a graph is that of a scan. -/
theorem scansTo_of_found (hseparates : Separates known) {limit : Nat} {start : BuildStart}
    (h : world.KeepsScans plugins known start)
    (hknown : world.sourcesIn (limit + 1) start ⊆ known)
    {entries : List (Option String × Resolved)} {running : Running}
    (hopening : world.opening start = .ok (entries, running)) {ids : List ModuleId}
    {load : Resolved × Running} {module : Module}
    (found : Loader.Found (world.steps start.plan (world.run limit))
      (Loader.scans (world.steps start.plan (world.run limit)) limit entries running)
      ids load module) :
    world.ScansTo start.plan found.examined.loaded module.content := by
  have hallows := allows_known hopening hknown
  have hscanned := (keeps_kept h.plugins_eq hseparates limit).at_scans hallows
    ((world.obeys_opening h.obeys).2 _ _ hopening) _ found.examined.scan_mem
  rw [found.numbered.content_eq]
  exact scansTo_of_scan h.plugins_eq hseparates
    (hallows.scans _ found.examined.scan_mem) hscanned found.examined.scan_eq

end World

namespace Bundler

/-- The next build of a bundler keeps only views of scans, whatever was done with it before. -/
theorem Reached.keepsScans {options : Options} {registry : List Plugin} {plugins : List Nat}
    {known more : List (ModuleId × String)} {bundler : Bundler}
    (hreached : Reached (fresh options registry plugins) known bundler)
    (hseparates : Separates known) (hsubset : known ⊆ more) (files : FileTree) :
    (bundler.world files).KeepsScans plugins more bundler.start := by
  have h := (hreached.continues rfl hseparates).mono hsubset
  refine ⟨h.plugins, ?_⟩
  rw [h.world_eq]
  exact h.obeys files

end Bundler

end WebBundle

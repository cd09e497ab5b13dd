import WebBundle.Proofs.Search.Batches
import WebBundle.Proofs.Worklet.Failures

/-!
# Failures of builds

A build that is not cancelled fails before its search, with the first round of a wave in which
something fails, or because its files do not fit together.  Whatever it is, there is something to
report: a build around it, or the one who started it, never takes a failure for a success.
-/

namespace WebBundle

namespace Loader

theorem collect_ne_error_nil {ε α : Type} (results : List (Except ε α)) :
    collect results ≠ .error [] := by
  induction results with
  | nil => simp [collect]
  | cons result rest ih =>
      cases result <;> rw [collect] <;> cases hrest : collect rest <;> simp_all [Except.map]

end Loader

namespace World

/-! ## Scans -/

/-- What a scan says that fails: the source cannot be read, and the fault is put behind the stable
id of the module. -/
def SaysWhere (plan : BuildPlan) : Asked → Prop
  | .scan id loaded (.error reports) => ∃ kind source fault,
      loaded = .text kind source ∧ ModuleSource.read kind source = .error fault ∧
        reports = [({ message := fault.message id.text } : Report).within
          (id.stabilize plan.options.workingDirectory)]
  | _ => True

theorem saysWhere_scan (world : World) (plan : BuildPlan) (id : ModuleId) (loaded : Loaded)
    (running : Running) :
    SaysWhere plan (.scan id loaded (world.scan plan id loaded running).1) := by
  cases loaded with
  | bytes kind content => trivial
  | text kind source =>
      rw [scan]
      dsimp only
      rw [scanText]
      cases cached? plan id kind source running.session with
      | some module => trivial
      | none =>
          cases hread : ModuleSource.read kind source with
          | ok program => trivial
          | error fault => exact ⟨kind, source, fault, rfl, hread, rfl⟩

theorem scansSay_parts (world : World) (limit : Nat) (start : BuildStart) :
    Loader.ScansSay (world.parts limit start) := by
  intro id loaded running hnil
  have hsays := world.saysWhere_scan start.plan id loaded running
  change (world.scan start.plan id loaded running).1 = .error [] at hnil
  rw [hnil] at hsays
  obtain ⟨_, _, _, _, _, hreports⟩ := hsays
  cases hreports

theorem saysWhere_of_mem_waveScanned {world : World} {limit : Nat} {start : BuildStart}
    {wave : Loader.Numbering × Running} {asked : Asked}
    (hasked : asked ∈ Loader.waveScanned (world.parts limit start) wave) :
    SaysWhere start.plan asked := by
  obtain ⟨visit, _, hvisit⟩ := List.mem_flatMap.mp hasked
  rw [Loader.scanAsked, List.mem_singleton] at hvisit
  subst hvisit
  exact world.saysWhere_scan start.plan visit.1.1 visit.1.2 visit.2

/-! ## Failures before and after the search -/

theorem opening_ne_reports_nil {world : World} {start : BuildStart} {ended : Ended × Session}
    (hopening : world.opening start = .error ended) : ended.1.outcome ≠ .reports [] := by
  rw [opening] at hopening
  split at hopening
  · cases hopening
    simp
  · split at hopening
    · cases hopening
      simp
    · split at hopening
      · cases hopening
        simp
      · rw [resolveEntries] at hopening
        dsimp only at hopening
        split at hopening
        · rename_i reports running hentries
          cases hopening
          intro hnil
          cases hnil
          exact Loader.collect_ne_error_nil _ (congrArg Prod.fst hentries)
        · cases hopening

theorem finish_ne_reports_nil (plan : BuildPlan) (graph : Graph) (running : Running) :
    finish plan graph running ≠ .reports [] := by
  rw [finish]
  split <;> simp

/-- A build that fails has something to report. -/
theorem runFrom_ne_reports_nil {world : World} {limit : Nat} {start : BuildStart} {ended : Ended}
    {session : Session} (hrun : world.runFrom limit start = some (ended, session)) :
    ended.outcome ≠ .reports [] := by
  cases limit with
  | zero => cases hrun
  | succ limit =>
      rw [runFrom_succ] at hrun
      cases hopening : world.opening start with
      | error given =>
          simp only [hopening, Option.some.injEq] at hrun
          subst hrun
          exact opening_ne_reports_nil hopening
      | ok opened =>
          simp only [hopening, Option.map_eq_some_iff] at hrun
          obtain ⟨⟨result, last⟩, hload, hconclude⟩ := hrun
          match result with
          | .ok graph =>
              cases hconclude
              exact finish_ne_reports_nil start.plan graph last
          | .error .cancelled =>
              cases hconclude
              simp
          | .error (.reports reports) =>
              cases hconclude
              have hreports := Loader.load_error_ne_nil (world.scansSay_parts limit start) hload
              simpa using hreports

/-! ## Rounds of a build -/

/-- Everything that a build asks in the search for its modules, in order. -/
def askedBy (world : World) : (limit : Nat) → BuildStart → List Asked
  | 0, _ => []
  | limit + 1, start =>
    match world.opening start with
    | .error _ => []
    | .ok (entries, running) => Loader.askedBy (world.parts limit start) limit entries running

/-- How a build ends with a round of a wave: it fails with the reports of the round, the wave is its
last one, and after the round it asks nothing more. -/
structure FailsWith (world : World) (limit : Nat) (start : BuildStart) (outcome : Outcome)
    (wave : Loader.Numbering × Running) (before round : List Asked) : Prop where
  outcome_eq : outcome = .reports (round.flatMap Asked.reports)
  asked_eq : ∃ earlier, world.wavesIn (limit + 1) start = earlier ++ [wave] ∧
    world.askedBy (limit + 1) start =
      earlier.flatMap (Loader.askedIn (world.parts limit start)) ++ before ++ round

theorem endsInRound_of_runFrom {world : World} {limit : Nat} {start : BuildStart} {ended : Ended}
    {session : Session} (hrun : world.runFrom (limit + 1) start = some (ended, session))
    (hkept : ended.outcome ≠ .cancelled) {wave : Loader.Numbering × Running}
    (hwave : wave ∈ world.wavesIn (limit + 1) start) :
    Loader.AsksInTurn (world.parts limit start) wave ∧
      Loader.EndsInRound (world.parts limit start) wave
        (world.FailsWith limit start ended.outcome wave) := by
  rw [runFrom_succ] at hrun
  rw [wavesIn] at hwave
  cases hopening : world.opening start with
  | error given =>
      rw [hopening] at hwave
      cases hwave
  | ok opened =>
      obtain ⟨entries, running⟩ := opened
      simp only [hopening, Option.map_eq_some_iff] at hrun hwave
      obtain ⟨⟨result, last⟩, hload, hconclude⟩ := hrun
      have hnotCancelled : result ≠ .error .cancelled := by
        rintro rfl
        cases hconclude
        exact hkept rfl
      obtain ⟨hasks, hends⟩ := Loader.endsInRound_of_load hload hnotCancelled hwave
      refine ⟨hasks, hends.imp ?_⟩
      rintro before round ⟨rfl, earlier, hearlier, hasked⟩
      cases hconclude
      refine ⟨rfl, earlier, ?_, ?_⟩
      · rw [wavesIn, hopening]
        exact hearlier
      · rw [askedBy, hopening]
        exact hasked

end World

namespace Bundler

theorem generate_error_ne_nil {bundler next : Bundler} {limit : Nat} {files : FileTree}
    {reports : List Report}
    (hgenerate : bundler.generate limit files = some (.error reports, next)) : reports ≠ [] := by
  rw [generate_eq, Option.map_eq_some_iff] at hgenerate
  obtain ⟨⟨ended, session⟩, hrun, hgiven⟩ := hgenerate
  have hended := World.runFrom_ne_reports_nil hrun
  dsimp only at hgiven
  cases houtcome : ended.outcome with
  | assets files =>
      rw [houtcome] at hgiven
      cases hgiven
  | cancelled =>
      rw [houtcome] at hgiven
      cases hgiven
      exact List.cons_ne_nil _ _
  | reports said =>
      rw [houtcome] at hgiven hended
      cases hgiven
      simpa using hended

theorem write_error_ne_nil {bundler next : Bundler} {limit : Nat} {files after : FileTree}
    {reports : List Report}
    (hwrite : bundler.write limit files = some (.error reports, after, next)) : reports ≠ [] := by
  rw [write, Option.map_eq_some_iff] at hwrite
  obtain ⟨⟨answer, left⟩, hgenerate, hwritten⟩ := hwrite
  dsimp only at hwritten
  split at hwritten
  · cases hwritten
    exact generate_error_ne_nil hgenerate
  · split at hwritten
    · cases hwritten
    · cases hwritten
      simp

end Bundler

/-- A wave of a build loads its modules in the order of their discovery, then scans what was loaded
and then resolves the imports of what was scanned, module by module and record by record.  The first
of these rounds in which something fails is the last thing that the build does, and the build fails
with exactly the reports of this round; what a scan reports is put behind the stable id of its
module.  No failed build is without a report. -/
theorem failures_by_round (world : World) :
    (∀ limit start ended session, world.runFrom (limit + 1) start = some (ended, session) →
      ended.outcome ≠ .cancelled → ∀ wave ∈ world.wavesIn (limit + 1) start,
        Loader.AsksInTurn (world.parts limit start) wave ∧
          Loader.EndsInRound (world.parts limit start) wave
            (world.FailsWith limit start ended.outcome wave) ∧
          ∀ asked ∈ Loader.waveScanned (world.parts limit start) wave,
            World.SaysWhere start.plan asked) ∧
    (∀ limit start ended session, world.runFrom limit start = some (ended, session) →
      ended.outcome ≠ .reports []) ∧
    ∀ (bundler : Bundler) limit files, bundler.world files = world → ∀ reports,
      (∀ next, bundler.generate limit files = some (.error reports, next) → reports ≠ []) ∧
        ∀ after next, bundler.write limit files = some (.error reports, after, next) →
          reports ≠ [] := by
  refine ⟨?_, fun _ _ _ _ hrun => World.runFrom_ne_reports_nil hrun, ?_⟩
  · intro limit start ended session hrun hkept wave hwave
    obtain ⟨hasks, hends⟩ := World.endsInRound_of_runFrom hrun hkept hwave
    exact ⟨hasks, hends, fun asked hasked => World.saysWhere_of_mem_waveScanned hasked⟩
  · intro bundler limit files _ reports
    exact ⟨fun _ hgenerate => Bundler.generate_error_ne_nil hgenerate,
      fun _ _ hwrite => Bundler.write_error_ne_nil hwrite⟩

/-- A project that imports a module whose own import is missing, and two modules that cannot be
parsed. -/
def twoBroken : FileTree :=
  ⟨[(["p"], .directory),
    (["p", "m.js"], .file "import './a.js'; import './b.js'; import './c.js'".toUTF8),
    (["p", "a.js"], .file "import './d.js'".toUTF8),
    (["p", "b.js"], .file "(".toUTF8),
    (["p", "c.js"], .file ")".toUTF8)]⟩

/-- A bundler for this project. -/
def twoBrokenBundler : Bundler where
  options := { input := [⟨none, "./m.js"⟩], workingDirectory := "/p" }

/-- What a build says that fails. -/
def Outcome.texts? : Outcome → Option (List String)
  | .reports said => some (said.map Report.text)
  | .assets _ | .cancelled => none

/-- The last wave of a build if it loads all its modules and cannot scan all of them. -/
def World.unscannedWave? (world : World) (limit : Nat) (start : BuildStart) :
    Option (Loader.Numbering × Running) :=
  (world.wavesIn (limit + 1) start).getLast?.filter fun wave =>
    !(Loader.waveLoaded (world.parts limit start) wave).any Asked.isFailed &&
      (Loader.waveScanned (world.parts limit start) wave).any Asked.isFailed

/-- What is said of the modules that cannot be parsed. -/
def twoBrokenTexts : List String := ["./b.js: Failed to parse", "./c.js: Failed to parse"]

set_option maxRecDepth 10000 in
/-- Both modules that cannot be parsed are named, and nobody asks for the missing one. -/
theorem failures_by_round_twoBroken :
    ∃ wave ended session,
      (twoBrokenBundler.world twoBroken).runFrom 4 twoBrokenBundler.start =
        some (ended, session) ∧
      ended.outcome.texts? = some twoBrokenTexts ∧
      (twoBrokenBundler.world twoBroken).FailsWith 3 twoBrokenBundler.start ended.outcome wave
        (Loader.waveLoaded ((twoBrokenBundler.world twoBroken).parts 3 twoBrokenBundler.start) wave)
        (Loader.waveScanned ((twoBrokenBundler.world twoBroken).parts 3 twoBrokenBundler.start)
          wave) := by
  have hcheck : (((twoBrokenBundler.world twoBroken).unscannedWave? 3
        twoBrokenBundler.start).isSome &&
      ((twoBrokenBundler.world twoBroken).runFrom 4 twoBrokenBundler.start).any fun given =>
        given.1.outcome.texts? = some twoBrokenTexts) = true := by
    decide +kernel
  rw [Bool.and_eq_true] at hcheck
  obtain ⟨hwave, hrun⟩ := hcheck
  obtain ⟨⟨ended, session⟩, hrun, htexts⟩ := (Option.any_eq_true _ _).mp hrun
  obtain ⟨wave, hwave⟩ := Option.isSome_iff_exists.mp hwave
  rw [World.unscannedWave?, Option.filter_eq_some_iff, Bool.and_eq_true,
    Bool.not_eq_true'] at hwave
  obtain ⟨hlast, hloads, hscans⟩ := hwave
  have htexts : ended.outcome.texts? = some twoBrokenTexts := of_decide_eq_true htexts
  have hkept : ended.outcome ≠ .cancelled := by
    intro hcancelled
    rw [hcancelled] at htexts
    cases htexts
  obtain ⟨_, hends, _⟩ := (failures_by_round (twoBrokenBundler.world twoBroken)).1 3
    twoBrokenBundler.start ended session hrun hkept wave (List.mem_of_getLast? hlast)
  exact ⟨wave, ended, session, hrun, htexts, hends.unscanned hloads hscans⟩

end WebBundle

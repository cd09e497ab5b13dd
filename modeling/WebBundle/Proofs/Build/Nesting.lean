import WebBundle.Build.Run
import WebBundle.Proofs.Search.Invariant

/-!
# How builds nest

A build depends on its nested builds in one place: where a module is loaded that a
plugin for worklets answers for.  What comes before the nested build and what is
made of its end are described apart from it, and so is what a build does before it
searches for modules.  The nested builds of a build are those that its loads start.
-/

namespace WebBundle

/-- What a build is started with. -/
structure BuildStart where
  plan : BuildPlan
  isCancelled : Bool := false
  session : Session

/-- How the load of a module begins. -/
inductive Loading where
  | done (result : Except Report Loaded) (running : Running)
  /-- A nested build has to run for a job first. -/
  | nested (job : Worklet.Job Nat) (running : Running)

namespace Loading

/-- The state of the build around it when the load is done or the nested build starts. -/
def running : Loading → Running
  | done _ running => running
  | nested _ running => running

/-- The nested build that has to run, if one has to. -/
def start? (plan : BuildPlan) : Loading → Option BuildStart
  | done _ _ => none
  | nested job running => some ⟨World.innerPlan plan job, running.isCancelled, running.session⟩

end Loading

namespace World

/-! ## Loads -/

/-- How the load of a module begins. -/
def loading (world : World) (plan : BuildPlan) (resolved : Resolved) :
    List Numbered → Running → Loading
  | [], running => .done (world.loadFile resolved) running
  | numbered :: rest, running =>
    match numbered.plugin with
    | .plain => loading world plan resolved rest running
    | .worklets settings =>
      match Worklet.query? resolved.id with
      | .error failure => .done (.error { message := failure.message }) running
      | .ok none => loading world plan resolved rest running
      | .ok (some (query, request)) =>
        let (job, session) :=
          world.prepareWorklet plan settings query request running.session
        .nested job { running with session }
    | .ruled rules =>
      let running := { running with session := { running.session with
        plugins := running.session.plugins.record rules.name (.load resolved.id) } }
      match rules.load? resolved.id with
      | none => loading world plan resolved rest running
      | some .cancel =>
        .done (.error cancelledReport) { running with isCancelled := true, hasWaited := true }
      | some (.fail message) => .done (.error { message }) running
      | some (.code text kind) => .done (.ok (.text (givenKind resolved kind) text)) running

/-- What a load comes to when its nested build has ended. -/
def finishLoading (plan : BuildPlan) (resolved : Resolved) (job : Worklet.Job Nat)
    (ended : Ended) (running : Running) : Except Report Loaded × Running :=
  let (result, running) := concludeWorklet plan job ended running
  (result.map fun (code, kind) => .text (givenKind resolved (some kind)) code, running)

theorem load_eq (world : World) (plan : BuildPlan)
    (nested : BuildPlan → Bool → Session → Option (Ended × Session)) (resolved : Resolved)
    (plugins : List Numbered) (running : Running) :
    world.load plan nested resolved plugins running =
      match world.loading plan resolved plugins running with
      | .done result running => some (result, running)
      | .nested job running =>
        (nested (innerPlan plan job) running.isCancelled running.session).map
          fun (ended, session) => finishLoading plan resolved job ended { running with session } := by
  induction plugins generalizing running with
  | nil => rfl
  | cons numbered rest ih =>
      rw [load, loadBy, loading]
      cases numbered.plugin with
      | plain => exact ih running
      | worklets settings =>
          cases hquery : Worklet.query? resolved.id with
          | error failure => rfl
          | ok found =>
              cases found with
              | none => exact ih running
              | some worklet =>
                  obtain ⟨query, request⟩ := worklet
                  simp only [compileWorklet]
                  generalize world.prepareWorklet plan settings query request running.session =
                    prepared
                  obtain ⟨job, session⟩ := prepared
                  cases hnested : nested (innerPlan plan job) running.isCancelled session with
                  | none => simp only [Option.map_none]
                  | some given =>
                      obtain ⟨ended, after⟩ := given
                      simp only [Option.map_some, finishLoading]
                      rcases concludeWorklet plan job ended
                        { running with session := after } with ⟨_ | ⟨code, kind⟩, last⟩ <;> rfl
      | ruled rules =>
          simp only
          cases hrule : rules.load? resolved.id with
          | none => exact ih _
          | some answer => cases answer <;> rfl

/-- The nested build that the load of a module starts, if it starts one. -/
def startedBy (world : World) (plan : BuildPlan) (visit : Resolved × Running) :
    Option BuildStart :=
  (world.loading plan visit.1 (world.pluginsOf plan.plugins) visit.2).start? plan

/-- A load that gives something has begun, and has ended by itself or with the nested
build that it started. -/
theorem load_cases {world : World} {plan : BuildPlan}
    {nested : BuildPlan → Bool → Session → Option (Ended × Session)} {resolved : Resolved}
    {plugins : List Numbered} {running next : Running} {result : Except Report Loaded}
    (hload : world.load plan nested resolved plugins running = some (result, next)) :
    world.loading plan resolved plugins running = .done result next ∨
      ∃ job before ended session,
        world.loading plan resolved plugins running = .nested job before ∧
        nested (innerPlan plan job) before.isCancelled before.session = some (ended, session) ∧
        finishLoading plan resolved job ended { before with session } = (result, next) := by
  rw [load_eq] at hload
  cases hloading : world.loading plan resolved plugins running with
  | done answer reached =>
      simp only [hloading, Option.some.injEq, Prod.mk.injEq] at hload
      obtain ⟨rfl, rfl⟩ := hload
      exact .inl rfl
  | nested job before =>
      simp only [hloading, Option.map_eq_some_iff] at hload
      obtain ⟨⟨ended, session⟩, hended, hfinish⟩ := hload
      exact .inr ⟨job, before, ended, session, rfl, hended, hfinish⟩

/-! ## Scans -/

theorem isCancelled_scan {world : World} {plan : BuildPlan} (id : ModuleId) (loaded : Loaded)
    (running : Running) :
    (world.scan plan id loaded running).2.isCancelled = running.isCancelled := by
  cases loaded <;> rfl

/-! ## Runs -/

/-- The end of a build that does not come to search for modules, or the entries and
the state that its search begins with. -/
def opening (world : World) (start : BuildStart) :
    Except (Ended × Session) (List (Option String × Resolved) × Running) :=
  let session := start.session
  if start.isCancelled then .error (⟨.cancelled, false⟩, session)
  else
    match Numbered.startAll (world.pluginsOf start.plan.plugins) session.plugins with
    | (some report, plugins) => .error (⟨.reports [report], false⟩, { session with plugins })
    | (none, plugins) =>
      if start.plan.options.input.isEmpty then
        .error (⟨.reports [noEntryReport], false⟩, { session with plugins })
      else
        match world.resolveEntries start.plan { session := { session with plugins } } with
        | (.error reports, running) => .error (⟨.reports reports, false⟩, running.session)
        | (.ok entries, running) => .ok (entries, running)

/-- Runs a build as it is started. -/
def runFrom (world : World) (limit : Nat) (start : BuildStart) : Option (Ended × Session) :=
  world.run limit start.plan start.isCancelled start.session

theorem runFrom_zero (world : World) (start : BuildStart) : world.runFrom 0 start = none := rfl

/-- A build either ends before its search or is its search. -/
theorem runFrom_succ (world : World) (limit : Nat) (start : BuildStart) :
    world.runFrom (limit + 1) start =
      match world.opening start with
      | .error ended => some ended
      | .ok (entries, running) =>
        (Loader.load (world.steps start.plan (world.run limit)) limit entries running).map
          fun (result, running) => conclude start.plan result running := by
  rw [runFrom, run, opening]
  cases start.isCancelled with
  | true => rfl
  | false =>
      simp only [Bool.false_eq_true, if_false]
      rcases Numbered.startAll (world.pluginsOf start.plan.plugins) start.session.plugins with
        ⟨_ | report, plugins⟩
      · simp only [runStarted]
        cases start.plan.options.input.isEmpty with
        | true => rfl
        | false =>
            simp only [Bool.false_eq_true, if_false]
            rcases world.resolveEntries start.plan
              { session := { start.session with plugins } } with ⟨_ | entries, running⟩ <;> rfl
      · rfl

/-- A nested build that may run deeper gives what it gave. -/
theorem steps_extends (world : World) (plan : BuildPlan)
    {first second : BuildPlan → Bool → Session → Option (Ended × Session)}
    (hnested : ∀ plan cancelled session given, first plan cancelled session = some given →
      second plan cancelled session = some given) :
    Loader.Extends (world.steps plan first) (world.steps plan second) where
  resolve := rfl
  load resolved running given hload := by
    change world.load plan second resolved _ running = some given
    change world.load plan first resolved _ running = some given at hload
    rw [load_eq] at hload ⊢
    cases hloading : world.loading plan resolved (world.pluginsOf plan.plugins) running with
    | done result running => simpa only [hloading] using hload
    | nested job running =>
        simp only [hloading, Option.map_eq_some_iff] at hload ⊢
        obtain ⟨ended, hended, hgiven⟩ := hload
        exact ⟨ended, hnested _ _ _ _ hended, hgiven⟩
  scan := rfl
  stableId := rfl
  isCancelled := rfl

/-- With a larger limit a build gives what it gave. -/
theorem run_mono (world : World) {limit more : Nat} (hlimit : limit ≤ more) (plan : BuildPlan)
    (cancelled : Bool) (session : Session) (given : Ended × Session)
    (hrun : world.run limit plan cancelled session = some given) :
    world.run more plan cancelled session = some given := by
  induction limit generalizing more plan cancelled session given with
  | zero => cases hrun
  | succ limit ih =>
      obtain ⟨more, rfl⟩ : ∃ rest, more = rest + 1 := ⟨more - 1, by omega⟩
      have hle : limit ≤ more := by omega
      change world.runFrom (limit + 1) ⟨plan, cancelled, session⟩ = some given at hrun
      change world.runFrom (more + 1) ⟨plan, cancelled, session⟩ = some given
      rw [runFrom_succ] at hrun ⊢
      cases hopening : world.opening ⟨plan, cancelled, session⟩ with
      | error ended => simpa only [hopening] using hrun
      | ok opened =>
          obtain ⟨entries, running⟩ := opened
          simp only [hopening, Option.map_eq_some_iff] at hrun ⊢
          obtain ⟨searched, hload, hgiven⟩ := hrun
          exact ⟨searched, (world.steps_extends plan fun plan cancelled session given =>
            ih hle plan cancelled session given).load_eq hle hload, hgiven⟩

/-! ## What runs below a build -/

/-- The waves of a build. -/
def wavesIn (world : World) : (limit : Nat) → BuildStart → List (Loader.Numbering × Running)
  | 0, _ => []
  | limit + 1, start =>
    match world.opening start with
    | .error _ => []
    | .ok (entries, running) =>
      Loader.wavesOf (world.steps start.plan (world.run limit)) limit entries running

/-- The modules that a build loads. -/
def loadsIn (world : World) : (limit : Nat) → BuildStart → List (Resolved × Running)
  | 0, _ => []
  | limit + 1, start =>
    match world.opening start with
    | .error _ => []
    | .ok (entries, running) =>
      Loader.loads (world.steps start.plan (world.run limit)) limit entries running

/-- The modules that a build scans. -/
def scansIn (world : World) : (limit : Nat) → BuildStart → List ((ModuleId × Loaded) × Running)
  | 0, _ => []
  | limit + 1, start =>
    match world.opening start with
    | .error _ => []
    | .ok (entries, running) =>
      Loader.scans (world.steps start.plan (world.run limit)) limit entries running

/-- The nested builds that a build starts itself. -/
def nestedIn (world : World) (limit : Nat) (start : BuildStart) : List BuildStart :=
  (world.loadsIn limit start).filterMap (world.startedBy start.plan)

/-- A build and all builds that are nested in it. -/
def buildsIn (world : World) : (limit : Nat) → BuildStart → List BuildStart
  | 0, start => [start]
  | limit + 1, start =>
    start :: (world.nestedIn (limit + 1) start).flatMap (buildsIn world limit)

/-- The source that is scanned, if a text is. -/
def scannedText? (visit : (ModuleId × Loaded) × Running) : Option (ModuleId × String) :=
  match visit.1.2 with
  | .text _ source => some (visit.1.1, source)
  | .bytes _ _ => none

/-- The sources that a build and all builds that are nested in it scan, with the modules
that they are scanned for. -/
def sourcesIn (world : World) : (limit : Nat) → BuildStart → List (ModuleId × String)
  | 0, _ => []
  | limit + 1, start =>
    (world.scansIn (limit + 1) start).filterMap scannedText? ++
      (world.nestedIn (limit + 1) start).flatMap (sourcesIn world limit)

end World

end WebBundle

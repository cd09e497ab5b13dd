import WebBundle.Proofs.Build.Nesting
import WebBundle.Proofs.Cancellation.Token

/-!
# Builds that can be cancelled while they run

A build that runs is exposed to whoever has its token or one that covers it.  Between any two steps
a moment of the timeline goes by, in which tokens are cancelled.  The build looks at its token when
it starts, before it loads a wave or resolves what the modules of a wave import, when a wave has had
to wait, and before it makes its files.  Within a wave it looks at the token if it is polled; a wave
whose token is cancelled then is given up.  A nested build runs with a token of its own, which is
derived from that of the build around it.
-/

namespace WebBundle

/-- What a build did last. -/
inductive Stage where
  | loading | scanning | resolving
  deriving DecidableEq

/-- A build while it runs, with its token and what happens to tokens. -/
structure Exposed where
  running : Running
  token : CancelToken
  line : Timeline
  stage : Stage := .resolving
  /-- Whether a wave was given up. -/
  isDropped : Bool := false

namespace Exposed

/-- The next moment goes by. -/
def tick (state : Exposed) : Exposed :=
  let line := state.line.tick
  { state with line, running := { state.running with isCancelled := line.isCancelled state.token } }

/-- The build looks at its token. -/
def look (state : Exposed) : Exposed :=
  { state with isDropped := state.isDropped || state.running.isCancelled }

/-- The next moment goes by, and the build looks at its token if it is polled then. -/
def pass (state : Exposed) : Exposed :=
  if state.line.isPolled then state.tick.look else state.tick

/-- A task begins.  Before the first one of a group the build looks at its token. -/
def begin (state : Exposed) (stage : Stage) (isFirst : Bool) : Exposed :=
  if isFirst then { state.pass with stage }.look else state.pass

/-- Takes what a hook left; a hook that cancels its build cancels the token. -/
def absorb (state : Exposed) (running : Running) : Exposed :=
  { state with
    running
    line := if running.isCancelled && !state.running.isCancelled then
        state.line.cancel state.token
      else state.line }

end Exposed

/-- A nested build that failed counts as cancelled if its token is cancelled by then. -/
def Ended.under (ended : Ended) (isCancelled : Bool) : Ended :=
  match ended.outcome with
  | .reports _ => if isCancelled then { ended with outcome := .cancelled } else ended
  | .assets _ | .cancelled => ended

namespace World

/-- Resolves a request of an exposed build. -/
def resolveExposed (world : World) (plan : BuildPlan) (importer : Option ModuleId)
    (specifier : String) (form : Scan.ImportForm) (state : Exposed) :
    Except Report Resolved × Exposed :=
  let state := state.begin .resolving (state.stage = .scanning)
  if state.isDropped then (.error cancelledReport, state)
  else
    let (result, running) := world.resolve plan importer specifier form state.running
    (result, { state with running }.pass)

/-- Compiles a worklet of an exposed build by a nested build with a token of its own. -/
def nestExposed (plan : BuildPlan)
    (nested : BuildPlan → CancelToken → Session → Timeline → Option (Ended × Session × Timeline))
    (resolved : Resolved) (job : Worklet.Job Nat) (state : Exposed) :
    Option (Except Report Loaded × Exposed) :=
  let token := state.token.derive state.line.next
  let line := state.line.note (.issued token)
  (nested (innerPlan plan job) token state.running.session line).map fun (ended, session, line) =>
    let (result, running) := finishLoading plan resolved job (ended.under (line.isCancelled token))
      { state.running with session }
    (result, { state with running, line })

/-- Loads a module of an exposed build that has not given up its wave. -/
def loadBegun (world : World) (plan : BuildPlan)
    (nested : BuildPlan → CancelToken → Session → Timeline → Option (Ended × Session × Timeline))
    (resolved : Resolved) (state : Exposed) : Option (Except Report Loaded × Exposed) :=
  if state.isDropped then some (.error cancelledReport, state)
  else
    match world.loading plan resolved (world.pluginsOf plan.plugins) state.running with
    | .done result running => some (result, (state.absorb running).pass)
    | .nested job running =>
      (nestExposed plan nested resolved job { state with running }.tick).map
        fun (result, state) => (result, state.pass)

/-- Loads a module of an exposed build. -/
def loadExposed (world : World) (plan : BuildPlan)
    (nested : BuildPlan → CancelToken → Session → Timeline → Option (Ended × Session × Timeline))
    (resolved : Resolved) (state : Exposed) : Option (Except Report Loaded × Exposed) :=
  world.loadBegun plan nested resolved (state.begin .loading (state.stage ≠ .loading))

/-- Scans a loaded module of an exposed build. -/
def scanExposed (world : World) (plan : BuildPlan) (id : ModuleId) (loaded : Loaded)
    (state : Exposed) : Except (List Report) ModuleContent × Exposed :=
  let state := { state with stage := .scanning }.tick
  let (result, running) := world.scan plan id loaded state.running
  (result, { state with running }.tick)

/-- The parts of the search of an exposed build. -/
def exposedSteps (world : World) (plan : BuildPlan)
    (nested : BuildPlan → CancelToken → Session → Timeline → Option (Ended × Session × Timeline)) :
    Steps Exposed where
  resolve := world.resolveExposed plan
  load := world.loadExposed plan nested
  scan := world.scanExposed plan
  stableId := fun id => id.stabilize plan.options.workingDirectory
  isCancelled := fun state =>
    state.isDropped || (state.running.hasWaited && state.running.isCancelled)

/-- The end of an exposed build whose modules were searched for.  It looks at its token once more
before it makes its files. -/
def concludeExposed (plan : BuildPlan) (result : Except LoadFailure Graph) (state : Exposed) :
    Ended × Session × Timeline :=
  match result with
  | .error failure =>
    let (ended, session) := conclude plan (.error failure) state.running
    (ended, session, state.line.tick)
  | .ok graph =>
    let line := (state.line.tick.note (.scanned state.token)).tick
    let (ended, session) := conclude plan
      (if line.isCancelled state.token then .error .cancelled else .ok graph) state.running
    (ended, session, line.tick)

/-- Runs an exposed build. -/
def runExposed (world : World) : (limit : Nat) → BuildPlan → CancelToken → Session →
    Timeline → Option (Ended × Session × Timeline)
  | 0, _, _, _, _ => none
  | limit + 1, plan, token, session, line =>
    let line := line.tick
    match world.opening ⟨plan, line.isCancelled token, session⟩ with
    | .error (ended, session) => some (ended, session, line.tick)
    | .ok (entries, running) =>
      (Loader.load (world.exposedSteps plan (runExposed world limit)) limit entries
        ({ running, token, line } : Exposed).tick).map
          fun (result, state) => concludeExposed plan result state

end World

end WebBundle

import WebBundle.Build.Basic

/-!
# Running builds

A build runs its nested builds while it loads a wave of modules.  The depth of
nesting and the number of waves are limited by the same number, and a build that
needs more than the limit gives nothing.
-/

namespace WebBundle

/-- The report for a build without entries. -/
def noEntryReport : Report := { message := "You must supply at least one entry in `input`" }

namespace World

/-- The parts of the search for the modules of a build. -/
def steps (world : World) (plan : BuildPlan)
    (nested : BuildPlan → Bool → Session → Option (Ended × Session)) : Steps Running where
  resolve := world.resolve plan
  load := fun resolved => world.load plan nested resolved (world.pluginsOf plan.plugins)
  scan := world.scan plan
  stableId := fun id => id.stabilize plan.options.workingDirectory
  isCancelled := Running.isCancelled

/-- Resolves one entry of a build. -/
def resolveEntry (world : World) (plan : BuildPlan) (entry : Entry) (running : Running) :
    Except Report (Option String × Resolved) × Running :=
  let (result, running) := world.resolve plan none entry.request .declaration running
  (result.map (entry.name, ·), running)

/-- Resolves the entries of a build. -/
def resolveEntries (world : World) (plan : BuildPlan) (running : Running) :
    Except (List Report) (List (Option String × Resolved)) × Running :=
  let (results, running) := Loader.forEach (world.resolveEntry plan) plan.options.input running
  (Loader.collect results, running)

/-- The end of a build that has a graph: its files, and those of nested builds in
the order of their names. -/
def finish (plan : BuildPlan) (graph : Graph) (running : Running) : Outcome :=
  match Output.finalize
      (Output.generate plan.options graph ++ Output.sortByName running.emitted) with
  | .ok assets => .assets assets
  | .error filename => .reports [{ message := Output.conflictMessage filename }]

/-- The end of a build whose modules were searched for.  When a build is cancelled,
the partitions of nested builds that still wait are given back. -/
def conclude (plan : BuildPlan) (result : Except LoadFailure Graph) (running : Running) :
    Ended × Session :=
  match result with
  | .ok graph => (⟨finish plan graph running, running.hasWaited⟩, running.session)
  | .error (.reports reports) => (⟨.reports reports, running.hasWaited⟩, running.session)
  | .error .cancelled =>
    (⟨.cancelled, running.hasWaited⟩, running.waiting.foldl
      (fun session name => session.releaseLater plan.partition name) running.session)

/-- Runs a build that has started its plugins. -/
def runStarted (world : World) (plan : BuildPlan)
    (nested : BuildPlan → Bool → Session → Option (Ended × Session)) (limit : Nat)
    (session : Session) : Option (Ended × Session) :=
  if plan.options.input.isEmpty then some (⟨.reports [noEntryReport], false⟩, session)
  else
    match world.resolveEntries plan { session } with
    | (.error reports, running) => some (⟨.reports reports, false⟩, running.session)
    | (.ok entries, running) =>
      (Loader.load (world.steps plan nested) limit entries running).map
        fun (result, running) => conclude plan result running

/-- Runs a build; a cancelled build does nothing. -/
def run (world : World) : (limit : Nat) → BuildPlan → (cancelled : Bool) → Session →
    Option (Ended × Session)
  | 0, _, _, _ => none
  | limit + 1, plan, cancelled, session =>
    if cancelled then some (⟨.cancelled, false⟩, session)
    else
      match Numbered.startAll (world.pluginsOf plan.plugins) session.plugins with
      | (some report, plugins) =>
        some (⟨.reports [report], false⟩, { session with plugins })
      | (none, plugins) =>
        world.runStarted plan (run world limit) limit { session with plugins }

end World

end WebBundle

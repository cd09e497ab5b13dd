import WebBundle.Proofs.Build.Transparency
import WebBundle.Proofs.Search.Unloaded
import WebBundle.Proofs.Worklet.Distinct

/-!
# Failures of worklets

A worklet is compiled while the module that stands for it is loaded.  If its build fails, this
module cannot be loaded, so the build around it fails as well, with a report that names the worklet
and goes on with the first report of its build.  Along nested builds these reports are put into
each other, and a build that fails has no files to write.
-/

namespace WebBundle

/-- What is said of a worklet whose build has come to an end without a file and was not
cancelled. -/
def Outcome.failureText? (request : String) : Outcome → Option String
  | .reports (cause :: _) =>
    some ("CssWorkletPlugin: failed to compile " ++ request ++ ": " ++ cause.text)
  | .reports [] | .assets [] => some ("CssWorkletPlugin: no entry for " ++ request)
  | .assets (_ :: _) | .cancelled => none

/-- What is said on the outside of worklets that fail within each other, from the outermost one to
what is said on the inside. -/
def nestedText (requests : List String) (text : String) : String :=
  requests.foldr
    (fun request text => "CssWorkletPlugin: failed to compile " ++ request ++ ": " ++ text) text

theorem Report.text_message (message : String) : ({ message } : Report).text = message := rfl

namespace World

variable {world : World}

/-- The parts of the search of a build, with nested builds of some depth. -/
abbrev parts (world : World) (limit : Nat) (start : BuildStart) : Steps Running :=
  world.steps start.plan (world.run limit)

/-- The nested build of a job, as it starts. -/
def innerStart (plan : BuildPlan) (job : Worklet.Job Nat) (running : Running) : BuildStart :=
  ⟨innerPlan plan job, running.isCancelled, running.session⟩

/-- A worklet whose build has no file leaves its module unloaded. -/
theorem finishLoading_of_failure {plan : BuildPlan} {resolved : Resolved} {job : Worklet.Job Nat}
    {ended : Ended} {text : String} (htext : ended.outcome.failureText? job.request = some text)
    (running : Running) :
    (finishLoading plan resolved job ended running).1 = .error { message := text } := by
  rw [finishLoading, concludeWorklet]
  cases houtcome : ended.outcome with
  | cancelled =>
      rw [houtcome] at htext
      cases htext
  | reports reports =>
      rw [houtcome] at htext
      cases reports with
      | nil =>
          cases htext
          rfl
      | cons cause rest =>
          cases htext
          rfl
  | assets files =>
      rw [houtcome] at htext
      cases files with
      | nil =>
          cases htext
          rfl
      | cons file rest => cases htext

/-- A nested build is that of the worklet which the id of the module names. -/
theorem query?_of_nested {plan : BuildPlan} {resolved : Resolved} {running before : Running}
    {plugins : List Numbered} {job : Worklet.Job Nat}
    (hloading : world.loading plan resolved plugins running = .nested job before) :
    ∃ query, Worklet.query? resolved.id = .ok (some (query, job.request)) := by
  obtain ⟨_, query, _, _, _, hquery, _, rfl, _⟩ := loading_eq_nested hloading
  exact ⟨query, hquery⟩

theorem loadError?_of_nested {limit : Nat} {start : BuildStart} {visit : Resolved × Running}
    {job : Worklet.Job Nat} {before : Running} {ended : Ended} {session : Session} {text : String}
    (hloading : world.loading start.plan visit.1 (world.pluginsOf start.plan.plugins) visit.2 =
      .nested job before)
    (hinner : world.runFrom limit (innerStart start.plan job before) = some (ended, session))
    (htext : ended.outcome.failureText? job.request = some text) :
    Loader.loadError? (world.parts limit start) visit = some { message := text } := by
  have hload : (world.parts limit start).load visit.1 visit.2 =
      some (finishLoading start.plan visit.1 job ended { before with session }) := by
    change world.load start.plan (world.run limit) visit.1
      (world.pluginsOf start.plan.plugins) visit.2 = _
    rw [load_eq, hloading]
    dsimp only
    change (world.runFrom limit (innerStart start.plan job before)).map _ = _
    rw [hinner, Option.map_some]
  rw [Loader.loadError?, hload, Option.bind_some, finishLoading_of_failure htext]
  rfl

/-- A build fails with the reports of all modules of a wave that cannot be loaded, if there are any,
all loads of the wave end and none of them leaves the build cancelled. -/
theorem runFrom_of_loadErrors {limit : Nat} {start : BuildStart}
    {wave : Loader.Numbering × Running} (hwave : wave ∈ world.wavesIn (limit + 1) start)
    (hends : ∀ visit ∈ Loader.waveLoads (world.parts limit start) wave,
      Loader.loadEnds (world.parts limit start) visit = true)
    (hfailed : Loader.loadErrors (world.parts limit start) wave ≠ []) :
    ∃ hasWaited session, world.runFrom (limit + 1) start =
      some (⟨.reports (Loader.loadErrors (world.parts limit start) wave),
        hasWaited⟩, session) := by
  rw [wavesIn] at hwave
  rw [runFrom_succ]
  cases hopening : world.opening start with
  | error ended =>
      rw [hopening] at hwave
      cases hwave
  | ok opened =>
      obtain ⟨entries, running⟩ := opened
      rw [hopening] at hwave
      obtain ⟨last, hload⟩ := Loader.load_of_errors hwave hends hfailed
      refine ⟨last.hasWaited, last.session, ?_⟩
      dsimp only
      rw [hload]
      rfl

/-- The build of a worklet fails or has no file.  It is started while a build loads a wave, all
loads of the wave end, and none of them leaves the build cancelled. -/
structure WorkletFails (world : World) (limit : Nat) (start : BuildStart)
    (wave : Loader.Numbering × Running) (visit : Resolved × Running) (request text : String) :
    Prop where
  wave_mem : wave ∈ world.wavesIn (limit + 1) start
  ends : ∀ visit ∈ Loader.waveLoads (world.parts limit start) wave,
    Loader.loadEnds (world.parts limit start) visit = true
  visit_mem : visit ∈ Loader.waveLoads (world.parts limit start) wave
  failed : ∃ job before ended after,
    world.loading start.plan visit.1 (world.pluginsOf start.plan.plugins) visit.2 =
      .nested job before ∧
    world.runFrom limit (innerStart start.plan job before) = some (ended, after) ∧
    job.request = request ∧ ended.outcome.failureText? request = some text

/-- The first worklet fails in a build, the first one in its build, and so on, up to a build that
says something else. -/
inductive FailsAlong (world : World) :
    (limit : Nat) → BuildStart → (requests : List String) → (text : String) → Prop
  | here {limit start report rest hasWaited session}
      (hrun : world.runFrom limit start = some (⟨.reports (report :: rest), hasWaited⟩, session)) :
      FailsAlong world limit start [] report.text
  | worklet {limit start wave visit job before requests text}
      (hwave : wave ∈ world.wavesIn (limit + 1) start)
      (hfirst : Loader.firstUnloaded? (world.parts limit start) wave = some visit)
      (hloading : world.loading start.plan visit.1 (world.pluginsOf start.plan.plugins) visit.2 =
        .nested job before)
      (hinner : FailsAlong world limit (innerStart start.plan job before) requests text) :
      FailsAlong world (limit + 1) start (job.request :: requests) text

/-- The first report of the outermost build names all the worklets. -/
theorem FailsAlong.runFrom {limit : Nat} {start : BuildStart} {requests : List String}
    {text : String} (h : world.FailsAlong limit start requests text) :
    ∃ first rest hasWaited session,
      world.runFrom limit start = some (⟨.reports (first :: rest), hasWaited⟩, session) ∧
        first.text = nestedText requests text := by
  induction h with
  | here hrun => exact ⟨_, _, _, _, hrun, rfl⟩
  | @worklet limit start wave visit job before requests text hwave hfirst hloading _ ih =>
      obtain ⟨cause, more, waited, after, hinner, hcause⟩ := ih
      obtain ⟨hends, report, rest, hreport, herrors⟩ := Loader.loadErrors_of_first hfirst
      have hfailed : Loader.loadErrors (world.parts limit start) wave ≠ [] := by
        rw [herrors]
        exact List.cons_ne_nil report rest
      obtain ⟨hasWaited, session, hrun⟩ := runFrom_of_loadErrors hwave hends hfailed
      rw [herrors] at hrun
      refine ⟨report, rest, hasWaited, session, hrun, ?_⟩
      rw [loadError?_of_nested hloading hinner rfl, Option.some.injEq] at hreport
      rw [← hreport, Report.text_message, hcause]
      rfl

end World

namespace Bundler

/-- A build that fails gives no files, and nothing is written. -/
theorem write_of_reports {bundler : Bundler} {limit : Nat} {files : FileTree}
    {reports : List Report} {hasWaited : Bool} {session : Session}
    (hrun : (bundler.world files).runFrom limit bundler.start =
      some (⟨.reports reports, hasWaited⟩, session)) :
    bundler.generate limit files = some (.error reports, bundler.after session) ∧
      bundler.write limit files = some (.error reports, files, bundler.after session) := by
  have hgenerate : bundler.generate limit files =
      some (.error reports, bundler.after session) := by
    rw [generate_eq, hrun]
    rfl
  exact ⟨hgenerate, by rw [write, hgenerate]; rfl⟩

end Bundler

/-- If the build of a worklet fails or has no file, then the build around it fails with what is said
of all modules of the wave that cannot be loaded, in their order, and among it is the text for this
worklet.  Along any chain of worklets that fail first, the first text of the outermost build names
all of them and ends with the innermost text.  A bundler whose build fails gives no files and writes
none. -/
theorem worklet_failures_surface (world : World) :
    (∀ limit start wave visit request text,
      world.WorkletFails limit start wave visit request text →
        (∃ query, Worklet.query? visit.1.id = .ok (some (query, request))) ∧
        (∃ report, report.text = text ∧
          Loader.loadError? (world.parts limit start) visit = some report) ∧
        ∃ hasWaited session, world.runFrom (limit + 1) start =
          some (⟨.reports ((Loader.waveLoads (world.parts limit start) wave).filterMap
            (Loader.loadError? (world.parts limit start))), hasWaited⟩, session)) ∧
    (∀ limit start requests text, world.FailsAlong limit start requests text →
      ∃ first rest hasWaited session,
        world.runFrom limit start = some (⟨.reports (first :: rest), hasWaited⟩, session) ∧
          first.text = nestedText requests text) ∧
    ∀ (bundler : Bundler) limit files, bundler.world files = world →
      ∀ reports hasWaited session,
        world.runFrom limit bundler.start = some (⟨.reports reports, hasWaited⟩, session) →
        ∃ after, bundler.generate limit files = some (.error reports, after) ∧
          bundler.write limit files = some (.error reports, files, after) := by
  refine ⟨?_, fun _ _ _ _ hfails => hfails.runFrom, ?_⟩
  · rintro limit start wave visit request text ⟨hwave, hends, hvisit, job, before, ended, after,
      hloading, hinner, rfl, htext⟩
    have hreport := World.loadError?_of_nested hloading hinner htext
    have hmember := List.mem_filterMap.mpr ⟨visit, hvisit, hreport⟩
    exact ⟨World.query?_of_nested hloading, ⟨_, Report.text_message text, hreport⟩,
      World.runFrom_of_loadErrors hwave hends (List.ne_nil_of_mem hmember)⟩
  · rintro bundler limit files rfl reports hasWaited session hrun
    exact ⟨_, Bundler.write_of_reports hrun⟩

/-- The worklet that fails first in the last wave of a build, and the build as it is when the build
of the worklet starts. -/
def World.failingWorklet? (world : World) (limit : Nat) (start : BuildStart) :
    Option (Worklet.Job Nat × Running) :=
  (world.wavesIn (limit + 1) start).getLast?.bind fun wave =>
    (Loader.firstUnloaded? (world.parts limit start) wave).bind fun visit =>
      match world.loading start.plan visit.1 (world.pluginsOf start.plan.plugins) visit.2 with
      | .done _ _ => none
      | .nested job before => some (job, before)

theorem World.FailsAlong.of_failingWorklet? {world : World} {limit : Nat} {start : BuildStart}
    {job : Worklet.Job Nat} {before : Running} {requests : List String} {text : String}
    (hworklet : world.failingWorklet? limit start = some (job, before))
    (hinner : world.FailsAlong limit (innerStart start.plan job before) requests text) :
    world.FailsAlong (limit + 1) start (job.request :: requests) text := by
  obtain ⟨wave, hlast, hvisit⟩ := Option.bind_eq_some_iff.mp hworklet
  obtain ⟨visit, hfirst, hjob⟩ := Option.bind_eq_some_iff.mp hvisit
  cases hloading : world.loading start.plan visit.1 (world.pluginsOf start.plan.plugins) visit.2 with
  | done result running =>
      rw [hloading] at hjob
      cases hjob
  | nested other running =>
      rw [hloading] at hjob
      cases hjob
      exact .worklet (List.mem_of_getLast? hlast) hfirst hloading hinner

/-- A project whose worklet has a worklet that imports a missing file. -/
def brokenWorklet : FileTree :=
  ⟨[(["p"], .directory),
    (["p", "m.js"], .file "CSS.paintWorklet.addModule('./a.js')".toUTF8),
    (["p", "a.js"], .file "CSS.paintWorklet.addModule('./b.js')".toUTF8),
    (["p", "b.js"], .file "import './c.js'".toUTF8)]⟩

/-- A bundler for this project, whose plugin takes part in its own nested builds. -/
def brokenBundler : Bundler where
  options := { input := [⟨none, "./m.js"⟩], workingDirectory := "/p" }
  registry := [.worklets World.forwardsItself]
  plugins := [0]

/-- What the first report of a build says. -/
def Outcome.firstText? : Outcome → Option String
  | .reports said => said.head?.map Report.text
  | .assets _ | .cancelled => none

/-- What the build of the inner worklet says. -/
def brokenText : String :=
  "Could not resolve \"./c.js\" from \"./b.js\": Cannot find module './c.js'"

set_option maxRecDepth 10000 in
theorem worklet_failures_surface_brokenWorklet :
    ∃ first rest after,
      brokenBundler.generate 4 brokenWorklet = some (.error (first :: rest), after) ∧
      brokenBundler.write 4 brokenWorklet = some (.error (first :: rest), brokenWorklet, after) ∧
      first.text = "CssWorkletPlugin: failed to compile ./a.js: " ++
        "CssWorkletPlugin: failed to compile ./b.js: " ++ brokenText := by
  have hcheck : (((brokenBundler.world brokenWorklet).failingWorklet? 3 brokenBundler.start).any
      fun outer => outer.1.request = "./a.js" &&
        (((brokenBundler.world brokenWorklet).failingWorklet? 2
            (World.innerStart brokenBundler.plan outer.1 outer.2)).any fun inner =>
          inner.1.request = "./b.js" && ((brokenBundler.world brokenWorklet).runFrom 2
              (World.innerStart (World.innerPlan brokenBundler.plan outer.1) inner.1 inner.2)).any
            fun given => given.1.outcome.firstText? = some brokenText)) = true := by
    decide +kernel
  obtain ⟨⟨job, before⟩, houter, hcheck⟩ := (Option.any_eq_true _ _).mp hcheck
  simp only [Bool.and_eq_true, decide_eq_true_eq] at hcheck
  obtain ⟨hrequest, hcheck⟩ := hcheck
  obtain ⟨⟨other, running⟩, hinner, hcheck⟩ := (Option.any_eq_true _ _).mp hcheck
  simp only [Bool.and_eq_true, decide_eq_true_eq] at hcheck
  obtain ⟨hother, hcheck⟩ := hcheck
  obtain ⟨⟨⟨outcome, hasWaited⟩, session⟩, hrun, hcheck⟩ := (Option.any_eq_true _ _).mp hcheck
  cases outcome with
  | assets files => cases hcheck
  | cancelled => cases hcheck
  | reports reports =>
      cases reports with
      | nil => cases hcheck
      | cons report more =>
          have htext : report.text = brokenText := Option.some.inj (of_decide_eq_true hcheck)
          obtain ⟨_, hchain, hbundler⟩ :=
            worklet_failures_surface (brokenBundler.world brokenWorklet)
          obtain ⟨first, rest, waited, last, houtermost, hfirst⟩ := hchain 4 brokenBundler.start _ _
            (.of_failingWorklet? houter (.of_failingWorklet? hinner (.here hrun)))
          obtain ⟨after, hgenerate, hwrite⟩ :=
            hbundler brokenBundler 4 brokenWorklet rfl _ waited last houtermost
          refine ⟨first, rest, after, hgenerate, hwrite, ?_⟩
          rw [hfirst, hrequest, hother, htext]
          rfl

end WebBundle

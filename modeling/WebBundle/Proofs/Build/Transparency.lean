import WebBundle.Bundler
import WebBundle.Proofs.Build.Alike

/-!
# Rebuilding

A bundler carries a cache and what its plugins remember from one build to the next.
Whatever happened to it before, its next build gives what a bundler gives that has
built nothing, and building an unchanged tree again gives the same once more.  Of the
hashes it is assumed that they tell the sources of a module apart.
-/

namespace WebBundle

open PluginMemory

namespace World

/-- Which plugins are forwarded does not depend on the files. -/
theorem pluginsAt_files (registry : List Plugin) (files other : FileTree) (plugins : List Nat)
    (depth : Nat) :
    World.pluginsAt ⟨registry, files⟩ plugins depth =
      World.pluginsAt ⟨registry, other⟩ plugins depth := by
  induction depth with
  | zero => rfl
  | succ depth ih =>
      rw [pluginsAt, pluginsAt, ih]
      rfl

/-- What may be kept does not depend on the files. -/
theorem kept_files (registry : List Plugin) (files other : FileTree) (plugins : List Nat)
    (known : List (ModuleId × String)) :
    World.Kept ⟨registry, files⟩ plugins known = World.Kept ⟨registry, other⟩ plugins known := by
  funext depth id module
  rw [Kept, Kept, pluginsAt_files registry files other]
  rfl

end World

namespace Bundler

/-- A bundler that has built nothing. -/
def fresh (options : Options) (registry : List Plugin) (plugins : List Nat) : Bundler :=
  { options, registry, plugins }

/-- What the next build of a bundler looks at. -/
def world (bundler : Bundler) (files : FileTree) : World := ⟨bundler.registry, files⟩

/-- What the next build of a bundler starts with. -/
def start (bundler : Bundler) : BuildStart where
  plan := bundler.plan
  isCancelled := bundler.isCancelled
  session := { cache := bundler.cache, plugins := bundler.memory }

/-- The sources that the next build of a bundler scans. -/
def sources (limit : Nat) (files : FileTree) (bundler : Bundler) : List (ModuleId × String) :=
  (bundler.world files).sourcesIn limit bundler.start

/-- What can have been done with a bundler; the sources that its builds scanned are
collected.  The files may change between any two builds. -/
inductive Reached (first : Bundler) : List (ModuleId × String) → Bundler → Prop where
  | first : Reached first [] first
  | cancel {known : List (ModuleId × String)} {bundler : Bundler} :
      Reached first known bundler → Reached first known bundler.cancel
  | takeEvents {known : List (ModuleId × String)} {bundler : Bundler} :
      Reached first known bundler → Reached first known bundler.takeEvents.2
  | generate {known : List (ModuleId × String)} {bundler next : Bundler} {limit : Nat}
      {files : FileTree} {result : Except (List Report) Bundle} :
      Reached first known bundler → bundler.generate limit files = some (result, next) →
      Reached first (known ++ bundler.sources limit files) next
  | write {known : List (ModuleId × String)} {bundler next : Bundler} {limit : Nat}
      {files written : FileTree} {result : Except (List Report) Bundle} :
      Reached first known bundler → bundler.write limit files = some (result, written, next) →
      Reached first (known ++ bundler.sources limit files) next

/-- The bundler that a build leaves behind. -/
def after (bundler : Bundler) (session : Session) : Bundler :=
  { bundler with
    cache := session.settle.cache, memory := session.settle.plugins, isCancelled := false }

/-- Releasing partitions changes no diagnostics. -/
theorem settle_diagnostics (session : Session) :
    session.settle.diagnostics = session.diagnostics := by
  rw [Session.settle]
  dsimp only
  generalize session.releases = releases
  induction releases generalizing session with
  | nil => rfl
  | cons noted rest ih => exact ih (session.release noted.1 noted.2)

theorem generate_eq (bundler : Bundler) (limit : Nat) (files : FileTree) :
    bundler.generate limit files = ((bundler.world files).runFrom limit bundler.start).map
      fun given => (result given.1.outcome given.2.diagnostics, bundler.after given.2) := by
  rw [generate, World.runFrom]
  congr 1
  funext given
  refine Prod.ext ?_ rfl
  exact congrArg (result given.1.outcome) (settle_diagnostics given.2)

/-- Writing files leaves the bundler that the build leaves. -/
theorem generate_of_write {bundler next : Bundler} {limit : Nat} {files written : FileTree}
    {result : Except (List Report) Bundle}
    (hwrite : bundler.write limit files = some (result, written, next)) :
    ∃ answer, bundler.generate limit files = some (answer, next) := by
  rw [write, Option.map_eq_some_iff] at hwrite
  obtain ⟨⟨answer, left⟩, hgenerate, hwritten⟩ := hwrite
  refine ⟨answer, ?_⟩
  rw [hgenerate]
  dsimp only at hwritten
  split at hwritten
  · cases hwritten
    rfl
  · split at hwritten
    · cases hwritten
      rfl
    · cases hwritten
      rfl

/-- A bundler with the settings of another one, and with a cache that keeps nothing but
scans of known sources. -/
structure Continues (first : Bundler) (known : List (ModuleId × String)) (bundler : Bundler) :
    Prop where
  options : bundler.options = first.options
  registry : bundler.registry = first.registry
  plugins : bundler.plugins = first.plugins
  obeys : ∀ files, bundler.cache.Obeys ((first.world files).Kept first.plugins known) 0

namespace Continues

variable {first bundler : Bundler} {known : List (ModuleId × String)}

theorem world_eq (h : Continues first known bundler) (files : FileTree) :
    bundler.world files = first.world files := by
  rw [world, world, h.registry]

theorem plan_eq (h : Continues first known bundler) : bundler.plan = first.plan := by
  rw [plan, plan, h.options, h.plugins]

theorem mono (h : Continues first known bundler) {more : List (ModuleId × String)}
    (hsubset : known ⊆ more) : Continues first more bundler where
  options := h.options
  registry := h.registry
  plugins := h.plugins
  obeys files := (h.obeys files).mono fun _ _ _ hkept => hkept.mono hsubset

/-- The next builds of two such bundlers start alike. -/
theorem alike (h : Continues first known bundler) {other : Bundler}
    (hother : Continues first known other) (files : FileTree) :
    Session.Alike ((first.world files).Kept first.plugins known) []
      bundler.start.session other.start.session where
  diagnostics := rfl
  counters := fun _ hnumber => nomatch hnumber
  first_obeys := h.obeys files
  second_obeys := hother.obeys files

/-- The next builds of two such bundlers give the same. -/
theorem generate_agree (h : Continues first known bundler) {other : Bundler}
    (hother : Continues first known other) (hcancelled : bundler.isCancelled = other.isCancelled)
    (hseparates : Separates known) {limit : Nat} {files : FileTree}
    (hknown : bundler.sources limit files ⊆ known) {answer : Except (List Report) Bundle}
    {next : Bundler} (hgenerate : bundler.generate limit files = some (answer, next)) :
    Continues first known next ∧ next.isCancelled = false ∧
      ∃ last, other.generate limit files = some (answer, last) := by
  rw [generate_eq, h.world_eq, Option.map_eq_some_iff] at hgenerate
  obtain ⟨⟨ended, session⟩, hrun, hend⟩ := hgenerate
  rw [sources, h.world_eq] at hknown
  have hplan : bundler.start.plan = other.start.plan := h.plan_eq.trans hother.plan_eq.symm
  obtain ⟨last, hagain, hlast⟩ := World.run_alike hseparates hplan hcancelled h.plugins hknown
    (h.alike hother files) hrun
  cases hend
  refine ⟨⟨h.options, h.registry, h.plugins, fun other => ?_⟩, rfl, other.after last, ?_⟩
  · rw [world, World.kept_files _ other files]
    exact hlast.first_obeys.settle
  · rw [generate_eq, hother.world_eq, hagain, Option.map_some, hlast.diagnostics]

/-- A build that gives nothing under a limit gives nothing in the other bundler either. -/
theorem generate_fst_eq (h : Continues first known bundler) {other : Bundler}
    (hother : Continues first known other) (hcancelled : bundler.isCancelled = other.isCancelled)
    (hseparates : Separates known) {limit : Nat} {files : FileTree}
    (hknown : bundler.sources limit files ⊆ known)
    (hotherKnown : other.sources limit files ⊆ known) :
    (bundler.generate limit files).map Prod.fst = (other.generate limit files).map Prod.fst := by
  cases hgenerate : bundler.generate limit files with
  | some given =>
      obtain ⟨_, _, last, hlast⟩ := h.generate_agree hother hcancelled hseparates hknown hgenerate
      rw [hlast, Option.map_some, Option.map_some]
  | none =>
      cases hagain : other.generate limit files with
      | none => rfl
      | some given =>
          obtain ⟨_, _, last, hlast⟩ :=
            hother.generate_agree h hcancelled.symm hseparates hotherKnown hagain
          rw [hgenerate] at hlast
          cases hlast

end Continues

/-- Whatever was done with a bundler, its settings are those it began with and its cache
keeps nothing but scans of the sources that it came across. -/
theorem Reached.continues {first bundler : Bundler} {known : List (ModuleId × String)}
    (hreached : Reached first known bundler) (hcache : first.cache = .empty)
    (hseparates : Separates known) : Continues first known bundler := by
  induction hreached with
  | first => exact ⟨rfl, rfl, rfl, fun files => by rw [hcache]; exact Cache.obeys_empty⟩
  | cancel _ ih =>
      have h := ih hseparates
      exact ⟨h.options, h.registry, h.plugins, h.obeys⟩
  | takeEvents _ ih =>
      have h := ih hseparates
      exact ⟨h.options, h.registry, h.plugins, h.obeys⟩
  | @generate known bundler _ limit files _ _ hgenerate ih =>
      have hsubset := List.subset_append_left known (bundler.sources limit files)
      have h := (ih (hseparates.mono hsubset)).mono hsubset
      exact (h.generate_agree h rfl hseparates (List.subset_append_right _ _) hgenerate).1
  | @write known bundler _ limit files _ _ _ hwrite ih =>
      have hsubset := List.subset_append_left known (bundler.sources limit files)
      have h := (ih (hseparates.mono hsubset)).mono hsubset
      obtain ⟨answer, hgenerate⟩ := generate_of_write hwrite
      exact (h.generate_agree h rfl hseparates (List.subset_append_right _ _) hgenerate).1

/-- A project of one module. -/
def oneModule (source : String) : FileTree :=
  ⟨[(["p"], .directory), (["p", "m.js"], .file source.toUTF8)]⟩

/-- A bundler for this project. -/
def forOneModule : Bundler :=
  fresh { input := [⟨none, "./m.js"⟩], workingDirectory := "/p" } [.worklets {}] [0]

end Bundler

end WebBundle

import WebBundle.Proofs.Build.Answers
import WebBundle.Proofs.Build.ColdScan

/-!
# Partitions of nested builds

A nested build uses a partition below the one of the build around it.  It keeps nothing
anywhere else: the modules that are kept above its partition stay as they are, however
it ends.
-/

namespace WebBundle

namespace Cache

/-- The modules that are kept in the cache behind the names of nested partitions. -/
def keptAt (cache : Cache) (path : List String) : List (ModuleId × CachedModule) :=
  match cache.at? path with
  | some inner => inner.modules
  | none => []

theorem keptAt_cons (cache : Cache) (name : String) (rest : List String) :
    cache.keptAt (name :: rest) =
      match cache.partition? name with
      | some partition => partition.keptAt rest
      | none => [] := by
  rw [keptAt, at?]
  cases cache.partition? name <;> rfl

theorem keptAt_setPartition_self (cache : Cache) (name : String) (partition : Cache)
    (rest : List String) :
    (cache.setPartition name partition).keptAt (name :: rest) = partition.keptAt rest := by
  rw [keptAt_cons, partition?_setPartition, if_pos rfl]

theorem modules_claim (cache : Cache) (name : String) :
    (cache.claim name).modules = cache.modules := by
  rw [claim]
  split <;> rfl

theorem modules_release (cache : Cache) (name : String) :
    (cache.release name).modules = cache.modules := rfl

/-- A change at a place leaves what is kept above it. -/
theorem keptAt_modifyAt_below (change : Cache → Cache) (path : List String) (name : String)
    (rest : List String) (cache : Cache) :
    (cache.modifyAt change (path ++ name :: rest)).keptAt path = cache.keptAt path := by
  induction path generalizing cache with
  | nil =>
      rw [List.nil_append, modifyAt]
      cases cache.partition? name <;> rfl
  | cons head tail ih =>
      rw [List.cons_append, modifyAt]
      cases hpartition : cache.partition? head with
      | none => rfl
      | some partition =>
          dsimp only
          rw [keptAt_setPartition_self, ih, keptAt_cons, hpartition]

/-- A change at a place changes what is kept there as it says. -/
theorem keptAt_modifyAt_self (change : Cache → Cache) (path : List String) (cache : Cache) :
    (cache.modifyAt change path).keptAt path =
      match cache.at? path with
      | some inner => (change inner).modules
      | none => [] := by
  induction path generalizing cache with
  | nil => rfl
  | cons head tail ih =>
      rw [modifyAt, at?]
      cases hpartition : cache.partition? head with
      | none => rw [Option.bind_none, keptAt, at?, hpartition, Option.bind_none]
      | some partition =>
          rw [Option.bind_some]
          exact (keptAt_setPartition_self _ _ _ _).trans (ih partition)

/-- A change that keeps no module and drops none leaves all that is kept on the way. -/
theorem keptAt_modifyAt {change : Cache → Cache}
    (hchange : ∀ cache, (change cache).modules = cache.modules)
    {path place : List String} (hpath : path <+: place) (cache : Cache) :
    (cache.modifyAt change place).keptAt path = cache.keptAt path := by
  obtain ⟨rest, rfl⟩ := hpath
  cases rest with
  | nil =>
      rw [List.append_nil, keptAt_modifyAt_self, keptAt]
      cases cache.at? path with
      | none => rfl
      | some inner => exact hchange inner
  | cons name rest => exact keptAt_modifyAt_below change path name rest cache

end Cache

namespace Session

/-- The modules that a session keeps behind the names of nested partitions. -/
def keptAt (session : Session) (path : List String) : List (ModuleId × CachedModule) :=
  session.cache.keptAt path

variable {path place : List String}

theorem keptAt_claim (hpath : path <+: place) (session : Session) (name : String) :
    (session.claim place name).keptAt path = session.keptAt path :=
  Cache.keptAt_modifyAt (fun cache => cache.modules_claim name) hpath session.cache

theorem keptAt_release (hpath : path <+: place) (session : Session) (name : String) :
    (session.release place name).keptAt path = session.keptAt path :=
  Cache.keptAt_modifyAt (fun cache => cache.modules_release name) hpath session.cache

end Session

namespace World

variable {world : World} {plan : BuildPlan} {path : List String}

theorem keptAt_resolve (world : World) (plan : BuildPlan) (importer : Option ModuleId)
    (specifier : String) (form : Scan.ImportForm) (running : Running) :
    (world.resolve plan importer specifier form running).2.session.keptAt path =
      running.session.keptAt path := by
  rw [resolve_snd]
  rfl

/-- Resolving the entries changes nothing but what plugins remember. -/
theorem resolveEntries_snd (world : World) (plan : BuildPlan) (running : Running) :
    ∃ plugins, (world.resolveEntries plan running).2 =
      { running with session := { running.session with plugins } } := by
  refine Loader.forEach_keeps (world.resolveEntry plan)
    (fun reached => ∃ plugins, reached =
      { running with session := { running.session with plugins } }) ?_ plan.options.input
    ⟨_, rfl⟩
  rintro entry _ ⟨plugins, rfl⟩
  exact ⟨_, world.resolve_snd plan none entry.request .declaration _⟩

theorem keptAt_loading (hpath : path <+: plan.partition) (resolved : Resolved)
    (plugins : List Numbered) (running : Running) :
    (world.loading plan resolved plugins running).running.session.keptAt path =
      running.session.keptAt path := by
  induction plugins generalizing running with
  | nil => rfl
  | cons numbered rest ih =>
      rw [loading]
      cases numbered.plugin with
      | plain => exact ih running
      | worklets settings =>
          dsimp only
          split
          · rfl
          · exact ih running
          · exact Session.keptAt_claim hpath _ _
      | ruled rules =>
          dsimp only
          split
          · exact ih _
          · rfl
          · rfl
          · rfl

theorem keptAt_concludeWorklet (hpath : path <+: plan.partition) (job : Worklet.Job Nat)
    (ended : Ended) (running : Running) :
    (concludeWorklet plan job ended running).2.session.keptAt path =
      running.session.keptAt path := by
  rw [concludeWorklet]
  cases ended.outcome with
  | assets assets =>
      dsimp only
      split <;> rfl
  | reports reports =>
      dsimp only
      split <;> split <;> rfl
  | cancelled =>
      dsimp only
      split <;> split
      · rfl
      · exact Session.keptAt_release hpath _ _
      · rfl
      · exact Session.keptAt_release hpath _ _

/-- A load keeps nothing if its nested build, which may run, keeps nothing. -/
theorem keptAt_load (hpath : path <+: plan.partition)
    {nested : BuildPlan → Bool → Session → Option (Ended × Session)} {resolved : Resolved}
    {running next : Running} {result : Except Report Loaded}
    (hnested : ∀ start, world.startedBy plan (resolved, running) = some start →
      ∀ ended session, nested start.plan start.isCancelled start.session = some (ended, session) →
        session.keptAt path = start.session.keptAt path)
    (hload : world.load plan nested resolved (world.pluginsOf plan.plugins) running =
      some (result, next)) :
    next.session.keptAt path = running.session.keptAt path := by
  have hloading := world.keptAt_loading hpath resolved (world.pluginsOf plan.plugins) running
  rcases load_cases hload with hdone | ⟨job, before, ended, session, hbegun, hended, hfinish⟩
  · rw [hdone] at hloading
    exact hloading
  · have hconclude := keptAt_concludeWorklet hpath job ended { before with session }
    rw [show (concludeWorklet plan job ended { before with session }).2 = next from
      congrArg Prod.snd hfinish] at hconclude
    rw [hbegun] at hloading
    have hstart : world.startedBy plan (resolved, running) =
        some ⟨innerPlan plan job, before.isCancelled, before.session⟩ := by
      rw [startedBy, hbegun]
      rfl
    calc
      next.session.keptAt path = session.keptAt path := hconclude
      _ = before.session.keptAt path := hnested _ hstart ended session hended
      _ = running.session.keptAt path := hloading

/-- A scan keeps at most the module that it scans, in the partition of its build. -/
theorem cache_scan (world : World) (plan : BuildPlan) (id : ModuleId) (loaded : Loaded)
    (running : Running) :
    (world.scan plan id loaded running).2.session.cache = running.session.cache ∨
      ∃ module, (world.scan plan id loaded running).2.session.cache =
        running.session.cache.modifyAt (fun cache => cache.insert id module) plan.partition := by
  cases loaded with
  | bytes kind content => exact .inl rfl
  | text kind source =>
      simp only [scan, scanText]
      cases cached? plan id kind source running.session with
      | some module => exact .inl rfl
      | none =>
          cases ModuleSource.read kind source with
          | error fault => exact .inl rfl
          | ok program =>
              simp only [scanProgram_eq]
              split
              · exact .inr ⟨_, rfl⟩
              · exact .inl rfl

/-- What is kept above the partition of a build. -/
theorem keptAt_scan_below {name : String} {rest : List String}
    (hpartition : plan.partition = path ++ name :: rest) (id : ModuleId) (loaded : Loaded)
    (running : Running) :
    (world.scan plan id loaded running).2.session.keptAt path = running.session.keptAt path := by
  rcases world.cache_scan plan id loaded running with hcache | ⟨module, hcache⟩
  · rw [Session.keptAt, hcache]
    rfl
  · rw [Session.keptAt, hcache, hpartition]
    exact Cache.keptAt_modifyAt_below _ _ _ _ _

/-- What is kept in the partition of a build. -/
theorem mem_keptAt_scan {id : ModuleId} {loaded : Loaded} {running : Running}
    {entry : ModuleId × CachedModule}
    (hentry : entry ∈ (world.scan plan id loaded running).2.session.keptAt plan.partition) :
    entry.1 = id ∨ entry ∈ running.session.keptAt plan.partition := by
  rcases world.cache_scan plan id loaded running with hcache | ⟨module, hcache⟩
  · rw [Session.keptAt, hcache] at hentry
    exact .inr hentry
  · rw [Session.keptAt, hcache, Cache.keptAt_modifyAt_self] at hentry
    rw [Session.keptAt, Cache.keptAt]
    cases hinner : running.session.cache.at? plan.partition with
    | none =>
        rw [hinner] at hentry
        cases hentry
    | some inner =>
        rw [hinner] at hentry
        rcases List.mem_cons.mp hentry with rfl | hentry
        · exact .inl rfl
        · exact .inr (List.mem_filter.mp hentry).1

/-! ## Nested builds -/

theorem keptAt_conclude (plan : BuildPlan) (result : Except LoadFailure Graph)
    (running : Running) :
    (conclude plan result running).2.keptAt path = running.session.keptAt path := by
  cases result with
  | ok graph => rfl
  | error failure =>
      cases failure with
      | reports reports => rfl
      | cancelled =>
          rw [conclude]
          generalize running.session = session
          induction running.waiting generalizing session with
          | nil => rfl
          | cons name rest ih => exact ih _

/-- What a build does before its search is remembered by plugins alone. -/
theorem opening_session (world : World) (start : BuildStart) :
    (∀ ended session, world.opening start = .error (ended, session) →
      ∃ plugins, session = { start.session with plugins }) ∧
    ∀ entries running, world.opening start = .ok (entries, running) →
      ∃ plugins, running = { session := { start.session with plugins } } := by
  rw [opening]
  cases start.isCancelled with
  | true =>
      refine ⟨?_, ?_⟩
      · rintro ended session ⟨⟩
        exact ⟨_, rfl⟩
      · rintro entries running ⟨⟩
  | false =>
      simp only [Bool.false_eq_true, if_false]
      rcases Numbered.startAll (world.pluginsOf start.plan.plugins) start.session.plugins with
        ⟨_ | report, plugins⟩
      · have hentries := world.resolveEntries_snd start.plan
          { session := { start.session with plugins } }
        cases start.plan.options.input.isEmpty with
        | true =>
            refine ⟨?_, ?_⟩
            · rintro ended session ⟨⟩
              exact ⟨_, rfl⟩
            · rintro entries running ⟨⟩
        | false =>
            simp only [Bool.false_eq_true, if_false]
            generalize world.resolveEntries start.plan
              { session := { start.session with plugins } } = resolved at hentries
            obtain ⟨result, running⟩ := resolved
            obtain ⟨last, rfl⟩ := hentries
            cases result with
            | error reports =>
                refine ⟨?_, ?_⟩
                · rintro ended session ⟨⟩
                  exact ⟨last, rfl⟩
                · rintro entries running ⟨⟩
            | ok entries =>
                refine ⟨?_, ?_⟩
                · rintro ended session ⟨⟩
                · rintro _ _ ⟨⟩
                  exact ⟨last, rfl⟩
      · refine ⟨?_, ?_⟩
        · rintro ended session ⟨⟩
          exact ⟨_, rfl⟩
        · rintro entries running ⟨⟩

/-- A nested build keeps nothing above its partition. -/
theorem keptAt_run (world : World) {limit : Nat} {start : BuildStart} {name : String}
    {rest : List String} (hpartition : start.plan.partition = path ++ name :: rest) {ended : Ended}
    {session : Session} (hrun : world.runFrom limit start = some (ended, session)) :
    session.keptAt path = start.session.keptAt path := by
  induction limit generalizing start rest ended session with
  | zero => cases hrun
  | succ limit ih =>
      obtain ⟨hend, hbegin⟩ := world.opening_session start
      rw [runFrom_succ] at hrun
      cases hopening : world.opening start with
      | error given =>
          obtain ⟨answer, last⟩ := given
          simp only [hopening, Option.some.injEq, Prod.mk.injEq] at hrun
          obtain ⟨rfl, rfl⟩ := hrun
          obtain ⟨plugins, rfl⟩ := hend _ _ hopening
          rfl
      | ok opened =>
          obtain ⟨entries, running⟩ := opened
          simp only [hopening, Option.map_eq_some_iff] at hrun
          obtain ⟨⟨result, last⟩, hload, hconclude⟩ := hrun
          have hkeeps : Loader.Keeps (world.steps start.plan (world.run limit))
              (fun running => running.session.keptAt path = start.session.keptAt path)
              (fun _ => True) (fun _ => True) :=
            { resolve := fun importer specifier form _ hkept =>
                (world.keptAt_resolve start.plan importer specifier form _).trans hkept
              load := by
                intro resolved running result next _ hkept hload
                refine (keptAt_load (by rw [hpartition]; exact List.prefix_append _ _) ?_
                  hload).trans hkept
                intro child hchild endedChild after hafter
                obtain ⟨_, inner, hinner⟩ := startedBy_plan hchild
                have hbelow : child.plan.partition = path ++ name :: (rest ++ [inner]) := by
                  rw [hinner, hpartition, List.append_assoc, List.cons_append]
                exact ih hbelow hafter
              scan := fun id loaded _ _ hkept =>
                (keptAt_scan_below hpartition id loaded _).trans hkept }
          obtain ⟨plugins, rfl⟩ := hbegin entries running hopening
          have hlast := hkeeps.at_end (.always _) rfl hload
          have hended := @keptAt_conclude path start.plan result last
          rw [show conclude start.plan result last = (ended, session) from hconclude] at hended
          exact hended.trans hlast

end World

end WebBundle

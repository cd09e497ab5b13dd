import WebBundle.Proofs.Build.Answers
import WebBundle.Proofs.Build.Nesting

/-!
# Stages of a build

A build first finds the graph of its modules and then makes its files of it.  It comes to
its end in the first stage if a plugin does not start, an entry leads nowhere or a module
cannot be found, loaded or scanned.
-/

namespace WebBundle

/-- The files of a build that succeeded. -/
def Outcome.assets? : Outcome → Option (List Asset)
  | .assets files => some files
  | .reports _ | .cancelled => none

theorem Outcome.assets?_eq_some {outcome : Outcome} {files : List Asset} :
    outcome.assets? = some files ↔ outcome = .assets files := by
  cases outcome <;> simp [assets?]

namespace Loader

theorem forEach_fst {σ α β : Type} {action : α → σ → β × σ} {answer : α → β}
    (hanswer : ∀ item state, (action item state).1 = answer item) (items : List α) (state : σ) :
    (forEach action items state).1 = items.map answer := by
  induction items generalizing state with
  | nil => rfl
  | cons item rest ih =>
      have hrest := ih (action item state).2
      rw [forEach, List.map_cons, ← hanswer item state, ← hrest]

end Loader

namespace World

variable {world : World}

/-- Where an entry leads. -/
def entryAnswer (world : World) (plan : BuildPlan) (entry : Entry) :
    Except Report (Option String × Resolved) :=
  (world.answer plan none entry.request .declaration).map (entry.name, ·)

theorem resolveEntries_fst (world : World) (plan : BuildPlan) (running : Running) :
    (world.resolveEntries plan running).1 =
      Loader.collect (plan.options.input.map (world.entryAnswer plan)) := by
  refine congrArg Loader.collect (Loader.forEach_fst (fun entry running => ?_) _ running)
  rw [resolveEntry, entryAnswer, ← world.resolve_fst plan none entry.request .declaration running]

theorem eq_of_entryAnswer {plan : BuildPlan} {asked : Entry} {entry : Option String × Resolved}
    (hentry : world.entryAnswer plan asked = .ok entry) :
    entry.1 = asked.name ∧ world.answer plan none asked.request .declaration = .ok entry.2 := by
  rw [entryAnswer] at hentry
  cases hanswer : world.answer plan none asked.request .declaration with
  | error report => simp [hanswer, Except.map] at hentry
  | ok resolved =>
      simp only [hanswer, Except.map, Except.ok.injEq] at hentry
      rw [← hentry]
      exact ⟨rfl, rfl⟩

/-- Every resolved entry is where a request of the plan leads. -/
theorem exists_answer {plan : BuildPlan} {entries : List (Option String × Resolved)}
    (hentries : Loader.collect (plan.options.input.map (world.entryAnswer plan)) = .ok entries)
    {entry : Option String × Resolved} (hentry : entry ∈ entries) :
    ∃ request, world.answer plan none request .declaration = .ok entry.2 := by
  have hmem : .ok entry ∈ plan.options.input.map (world.entryAnswer plan) := by
    rw [Loader.collect_eq_ok hentries]
    exact List.mem_map_of_mem hentry
  obtain ⟨asked, _, hasked⟩ := List.mem_map.mp hmem
  exact ⟨asked.request, (eq_of_entryAnswer hasked).2⟩

/-- A build that comes to its search has started its plugins and resolved its entries. -/
theorem opening_eq_ok {start : BuildStart} {entries : List (Option String × Resolved)}
    {running : Running} (hopening : world.opening start = .ok (entries, running)) :
    start.isCancelled = false ∧ ∃ plugins,
      Numbered.startAll (world.pluginsOf start.plan.plugins) start.session.plugins =
        (none, plugins) ∧
      start.plan.options.input.isEmpty = false ∧
      world.resolveEntries start.plan { session := { start.session with plugins } } =
        (.ok entries, running) := by
  rw [opening] at hopening
  split at hopening
  · cases hopening
  · rename_i hcancelled
    split at hopening
    · cases hopening
    · rename_i plugins hstarted
      split at hopening
      · cases hopening
      · rename_i hinput
        split at hopening
        · cases hopening
        · rename_i hentries
          cases hopening
          exact ⟨Bool.eq_false_iff.mpr hcancelled, plugins, hstarted,
            Bool.eq_false_iff.mpr hinput, hentries⟩

/-- A build that comes to its end before its search has no files, and it is cancelled if and only
if it was when it started. -/
theorem outcome_of_opening {start : BuildStart} {ended : Ended} {session : Session}
    (hopening : world.opening start = .error (ended, session)) :
    (∀ assets, ended.outcome ≠ .assets assets) ∧
      (ended.outcome = .cancelled ↔ start.isCancelled = true) := by
  have hreports : ∀ reports, ended.outcome = .reports reports → start.isCancelled = false →
      (∀ assets, ended.outcome ≠ .assets assets) ∧
        (ended.outcome = .cancelled ↔ start.isCancelled = true) := by
    intro reports houtcome hnot
    rw [houtcome, hnot]
    simp
  rw [opening] at hopening
  split at hopening
  · rename_i hcancelled
    cases hopening
    rw [hcancelled]
    simp
  · rename_i hnot
    have hnot := Bool.eq_false_iff.mpr hnot
    split at hopening
    · cases hopening
      exact hreports _ rfl hnot
    · split at hopening
      · cases hopening
        exact hreports _ rfl hnot
      · split at hopening
        · cases hopening
          exact hreports _ rfl hnot
        · cases hopening

/-- The first stage of a build: it finds the graph of its modules, or the build ends. -/
def scanStage (world : World) (limit : Nat) (start : BuildStart) :
    Option (Except (Ended × Session) (Graph × Running)) :=
  match world.opening start with
  | .error ended => some (.error ended)
  | .ok (entries, running) =>
    (Loader.load (world.steps start.plan (world.run limit)) limit entries running).map
      fun (result, running) =>
        match result with
        | .ok graph => .ok (graph, running)
        | .error failure => .error (conclude start.plan (.error failure) running)

/-- The second stage of a build: the files of a graph. -/
def generateStage (plan : BuildPlan) : Except (Ended × Session) (Graph × Running) → Ended × Session
  | .ok (graph, running) => (⟨finish plan graph running, running.hasWaited⟩, running.session)
  | .error ended => ended

/-- A build consists of both stages. -/
theorem runFrom_eq_stages (world : World) (limit : Nat) (start : BuildStart) :
    world.runFrom (limit + 1) start =
      (world.scanStage limit start).map (generateStage start.plan) := by
  rw [runFrom_succ, scanStage]
  rcases world.opening start with ended | ⟨entries, running⟩
  · rfl
  · dsimp only
    rw [Option.map_map]
    refine congrFun (congrArg Option.map (funext fun ended => ?_)) _
    obtain ⟨_ | graph, last⟩ := ended <;> rfl

theorem scanStage_eq_ok {limit : Nat} {start : BuildStart} {graph : Graph} {last : Running} :
    world.scanStage limit start = some (.ok (graph, last)) ↔
      ∃ entries running, world.opening start = .ok (entries, running) ∧
        Loader.load (world.steps start.plan (world.run limit)) limit entries running =
          some (.ok graph, last) := by
  rw [scanStage]
  rcases world.opening start with ended | ⟨entries, running⟩
  · simp
  · simp only [Except.ok.injEq, Prod.mk.injEq, Option.map_eq_some_iff]
    constructor
    · rintro ⟨⟨result, reached⟩, hload, hresult⟩
      cases result with
      | error failure => cases hresult
      | ok found =>
          cases hresult
          exact ⟨entries, running, ⟨rfl, rfl⟩, hload⟩
    · rintro ⟨_, _, ⟨rfl, rfl⟩, hload⟩
      exact ⟨_, hload, rfl⟩

end World

end WebBundle

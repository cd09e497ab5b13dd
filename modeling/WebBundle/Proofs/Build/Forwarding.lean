import WebBundle.Proofs.Build.Nesting
import WebBundle.Proofs.Plugin.Counters

/-!
# Forwarded plugins

The first plugin for worklets of a build answers for all worklets of the build, so its
settings say which plugins the nested builds have.  They depend on the plugins of the
build alone: all builds that are nested equally deep have the same plugins.
-/

namespace WebBundle

namespace Worklet

/-- Which plugins are found does not depend on the warnings given so far. -/
theorem forward_fst {π : Type} (available : List (String × π)) (forwarded : List (Forwarded π))
    (first second : Diagnostics) :
    (forward available forwarded first).1 = (forward available forwarded second).1 := by
  induction forwarded generalizing first second with
  | nil => rfl
  | cons item rest ih =>
      cases item with
      | direct plugin =>
          change plugin :: _ = plugin :: _
          rw [ih first second]
      | named name =>
          rw [forward, forward]
          split
          · rename_i plugin _
            change plugin :: _ = plugin :: _
            rw [ih first second]
          · exact ih _ _

end Worklet

namespace Numbered

/-- The settings of the plugin that answers for worklets. -/
def workletSettings? : List Numbered → Option (Worklet.Settings Nat)
  | [] => none
  | ⟨_, .worklets settings⟩ :: _ => some settings
  | _ :: rest => workletSettings? rest

theorem workletSettings?_eq_none {plugins : List Numbered} :
    workletSettings? plugins = none ↔ workletNumbers plugins = [] := by
  induction plugins with
  | nil => simp [workletSettings?, workletNumbers]
  | cons numbered rest ih =>
      obtain ⟨number, plugin⟩ := numbered
      cases plugin <;> simp [workletSettings?, workletNumbers, ih]

end Numbered

namespace World

variable {world : World} {plan : BuildPlan}

/-- The plugins of the builds that are nested in a build with some plugins. -/
def forwarded (world : World) (plugins : List Nat) : List Nat :=
  match Numbered.workletSettings? (world.pluginsOf plugins) with
  | none => []
  | some settings =>
    (Worklet.forward ((world.pluginsOf plugins).map fun numbered =>
      (numbered.plugin.name, numbered.number)) settings.plugins {}).1

/-- The plugins of the builds that are nested to some depth. -/
def pluginsAt (world : World) (plugins : List Nat) : (depth : Nat) → List Nat
  | 0 => plugins
  | depth + 1 => world.forwarded (world.pluginsAt plugins depth)

/-- A load that starts a nested build has prepared a worklet by the settings of the
plugin that answers for worklets. -/
theorem loading_eq_nested {resolved : Resolved} {plugins : List Numbered}
    {running before : Running} {job : Worklet.Job Nat}
    (hloading : world.loading plan resolved plugins running = .nested job before) :
    ∃ settings query request memory,
      Numbered.workletSettings? plugins = some settings ∧
      Worklet.query? resolved.id = .ok (some (query, request)) ∧
      running.session.plugins.SameCounters memory ∧
      job = (world.prepareWorklet plan settings query request
        { running.session with plugins := memory }).1 ∧
      before = { running with session := (world.prepareWorklet plan settings query request
        { running.session with plugins := memory }).2 } := by
  induction plugins generalizing running with
  | nil => cases hloading
  | cons numbered rest ih =>
      obtain ⟨number, plugin⟩ := numbered
      rw [loading] at hloading
      cases plugin with
      | plain => exact ih hloading
      | worklets settings =>
          cases hquery : Worklet.query? resolved.id with
          | error failure => simp [hquery] at hloading
          | ok found =>
              cases found with
              | none =>
                  exfalso
                  simp only [hquery] at hloading
                  obtain ⟨_, query, request, _, _, hsome, _⟩ := ih hloading
                  rw [hquery] at hsome
                  cases hsome
              | some worklet =>
                  obtain ⟨query, request⟩ := worklet
                  simp only [hquery, Loading.nested.injEq] at hloading
                  obtain ⟨rfl, rfl⟩ := hloading
                  exact ⟨settings, query, request, running.session.plugins, rfl, rfl,
                    .refl _, rfl, rfl⟩
      | ruled rules =>
          dsimp only at hloading
          split at hloading
          · obtain ⟨settings, query, request, memory, hsettings, hquery, hsame, hjob, hbefore⟩ :=
              ih hloading
            exact ⟨settings, query, request, memory, hsettings, hquery,
              (PluginMemory.sameCounters_record _ _ _).trans hsame, hjob, hbefore⟩
          · cases hloading
          · cases hloading
          · cases hloading

theorem plugins_prepareWorklet {settings : Worklet.Settings Nat}
    (hsettings : Numbered.workletSettings? (world.pluginsOf plan.plugins) = some settings)
    (query : Worklet.ModuleQuery) (request : String) (session : Session) :
    (world.prepareWorklet plan settings query request session).1.plugins =
      world.forwarded plan.plugins := by
  rw [forwarded, hsettings]
  exact Worklet.forward_fst _ _ _ _

/-- A nested build has the plugins that are forwarded to it and a partition below that
of the build around it. -/
theorem startedBy_plan {visit : Resolved × Running} {start : BuildStart}
    (hstart : world.startedBy plan visit = some start) :
    start.plan.plugins = world.forwarded plan.plugins ∧
      ∃ name, start.plan.partition = plan.partition ++ [name] := by
  rw [startedBy] at hstart
  cases hloading : world.loading plan visit.1 (world.pluginsOf plan.plugins) visit.2 with
  | done result running =>
      rw [hloading] at hstart
      cases hstart
  | nested job before =>
      rw [hloading] at hstart
      cases hstart
      obtain ⟨settings, query, request, memory, hsettings, _, _, rfl, _⟩ :=
        loading_eq_nested hloading
      exact ⟨plugins_prepareWorklet hsettings query request _, _, rfl⟩

/-- The plugins of a nested build are those of its depth. -/
theorem startedBy_pluginsAt {visit : Resolved × Running} {start : BuildStart}
    {plugins : List Nat} (hplan : plan.plugins = world.pluginsAt plugins plan.partition.length)
    (hstart : world.startedBy plan visit = some start) :
    start.plan.plugins = world.pluginsAt plugins start.plan.partition.length := by
  obtain ⟨hforwarded, name, hpartition⟩ := startedBy_plan hstart
  rw [hforwarded, hpartition, List.length_append, List.length_singleton, pluginsAt, hplan]

end World

end WebBundle

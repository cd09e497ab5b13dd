import WebBundle.Proofs.Build.Counters

/-!
# Answers to requests

Where a request leads depends on the build and its files alone: plugins remember that
they were asked, which has no effect on any answer.
-/

namespace WebBundle

open Scan PluginMemory

theorem resolveWith_fst (options : Options) (importer : Option ModuleId) (specifier : String)
    (form : ImportForm) (plugins : List Numbered) (first second : PluginMemory) :
    (resolveWith options importer specifier form plugins first).1 =
      (resolveWith options importer specifier form plugins second).1 := by
  induction plugins generalizing first second with
  | nil => rfl
  | cons numbered rest ih =>
      rw [resolveWith, resolveWith]
      split
      · rfl
      · rfl
      · exact ih _ _

namespace World

/-- Where a request of a build leads. -/
def answer (world : World) (plan : BuildPlan) (importer : Option ModuleId) (specifier : String)
    (form : ImportForm) : Except Report Resolved :=
  (world.resolve plan importer specifier form { session := {} }).1

theorem resolve_fst (world : World) (plan : BuildPlan) (importer : Option ModuleId)
    (specifier : String) (form : ImportForm) (running : Running) :
    (world.resolve plan importer specifier form running).1 =
      world.answer plan importer specifier form := by
  have hanswer := resolveWith_fst plan.options importer specifier form
    (world.pluginsOf plan.plugins) running.session.plugins {}
  rw [answer, resolve.eq_def, resolve.eq_def]
  dsimp only
  rw [hanswer]
  split
  · rfl
  · rfl
  · split <;> rfl

theorem resolve_snd (world : World) (plan : BuildPlan) (importer : Option ModuleId)
    (specifier : String) (form : ImportForm) (running : Running) :
    (world.resolve plan importer specifier form running).2 =
      { running with session := { running.session with
          plugins := (resolveWith plan.options importer specifier form
            (world.pluginsOf plan.plugins) running.session.plugins).2 } } := by
  rw [resolve.eq_def]
  dsimp only
  split
  · rfl
  · rfl
  · split <;> rfl

end World

end WebBundle

import WebBundle.Build.Basic
import WebBundle.Proofs.Build.Cache
import WebBundle.Proofs.Build.Forwarding

/-!
# Scans with and without a cache

A view is kept only if no hook accepted a call and none warned.  Then a scan finds the
same whatever plugins remember, and it changes nothing that is seen: no counter and no
warning.  So a scan that takes the view from the cache does what it would have done
without, as long as hashes tell the sources of a module apart.
-/

namespace WebBundle

open Scan PluginMemory

/-- Hashes tell the sources of every module apart. -/
def Separates (known : List (ModuleId × String)) : Prop :=
  ∀ id source other, (id, source) ∈ known → (id, other) ∈ known →
    Digest.ofText source = Digest.ofText other → source = other

theorem Separates.mono {fewer more : List (ModuleId × String)} (h : Separates more)
    (hsubset : fewer ⊆ more) : Separates fewer :=
  fun id source other hsource hother =>
    h id source other (hsubset hsource) (hsubset hother)

instance (known : List (ModuleId × String)) : Decidable (Separates known) :=
  decidable_of_iff (∀ first ∈ known, ∀ second ∈ known, first.1 = second.1 →
      Digest.ofText first.2 = Digest.ofText second.2 → first.2 = second.2)
    ⟨fun h id source other hsource hother => h (id, source) hsource (id, other) hother rfl,
      fun h first hfirst second hsecond hid =>
        h first.1 first.2 second.2 hfirst (by rwa [hid])⟩

namespace World

/-- A kept module was scanned from a known source by the plugins of its depth, and its
view depends on that source alone. -/
def Kept (world : World) (plugins : List Nat) (known : List (ModuleId × String)) : Cache.Law :=
  fun depth id module => ∃ source program memory,
    (id, source) ∈ known ∧ module.hash = Digest.ofText source ∧
      ModuleSource.read module.kind source = .ok program ∧
      module.view = (WebBundle.Scan.scan (Numbered.hooks module.kind
        (world.pluginsOf (world.pluginsAt plugins depth))) program memory).1.toView
          program.source ∧
      (WebBundle.Scan.scan (Numbered.hooks module.kind
        (world.pluginsOf (world.pluginsAt plugins depth))) program memory).1.isCacheable = true

theorem Kept.mono {world : World} {plugins : List Nat} {fewer more : List (ModuleId × String)}
    (hsubset : fewer ⊆ more) {depth : Nat} {id : ModuleId} {module : CachedModule}
    (h : world.Kept plugins fewer depth id module) :
    world.Kept plugins more depth id module := by
  obtain ⟨source, program, memory, hknown, hkept⟩ := h
  exact ⟨source, program, memory, hsubset hknown, hkept⟩

/-- Scans a script without a look at the cache. -/
def scanCold (world : World) (plan : BuildPlan) (id : ModuleId) (kind : ModuleKind)
    (source : String) (session : Session) : Except (List Report) Scan.View × Session :=
  match ModuleSource.read kind source with
  | .error fault =>
    let stableId := id.stabilize plan.options.workingDirectory
    (.error [({ message := fault.message id.text } : Report).within stableId], session)
  | .ok program =>
    let (view, session) := world.scanProgram plan id kind source program session
    (.ok view, session)

/-- Adds warnings in order. -/
def warnAll (diagnostics : Diagnostics) (warnings : List Report) : Diagnostics :=
  warnings.foldl Diagnostics.warn diagnostics

theorem warnAll_eq (diagnostics : Diagnostics) (warnings : List Report) :
    warnAll diagnostics warnings =
      { diagnostics with warnings := diagnostics.warnings ++ warnings } := by
  induction warnings generalizing diagnostics with
  | nil => simp only [warnAll, List.foldl_nil, List.append_nil]
  | cons warning rest ih =>
      refine (ih (diagnostics.warn warning)).trans ?_
      simp only [Diagnostics.warn, List.append_assoc, List.cons_append, List.nil_append]

theorem foldl_warn_eq {α : Type} (warning : α → Report) (items : List α) (session : Session) :
    items.foldl (fun session item => session.warn (warning item)) session =
      { session with diagnostics := warnAll session.diagnostics (items.map warning) } := by
  induction items generalizing session with
  | nil => rfl
  | cons item rest ih => exact ih (session.warn (warning item))

/-- The warning for one of the warnings that hooks gave. -/
def warningOf (plan : BuildPlan) (id : ModuleId) (warning : Report) : Report :=
  { message := id.stabilize plan.options.workingDirectory ++ ": " ++ warning.text }

theorem scanProgram_eq (world : World) (plan : BuildPlan) (id : ModuleId) (kind : ModuleKind)
    (source : String) (program : Syntax.Program) (session : Session) :
    world.scanProgram plan id kind source program session =
      let found := WebBundle.Scan.scan (world.hooks plan kind) program session.plugins
      let view := found.1.toView program.source
      let keep := fun cache : Cache => cache.insert id ⟨Digest.ofText source, kind, view⟩
      (view, {
        cache := if view.isCacheable then session.cache.modifyAt keep plan.partition
          else session.cache
        diagnostics := warnAll session.diagnostics
          (found.1.reaction.warnings.map (warningOf plan id))
        plugins := found.2
        releases := session.releases }) := by
  rw [scanProgram]
  dsimp only
  rw [foldl_warn_eq]
  split <;> rfl

variable {world : World} {plan : BuildPlan} {plugins : List Nat}
  {known : List (ModuleId × String)}

/-- A scan that finds nothing in the cache keeps what it may keep. -/
theorem obeys_scanCold (hplan : plan.plugins = world.pluginsAt plugins plan.partition.length)
    {id : ModuleId} {kind : ModuleKind} {source : String} (hknown : (id, source) ∈ known)
    {session : Session} (hobeys : session.Obeys (world.Kept plugins known)) :
    (world.scanCold plan id kind source session).2.Obeys (world.Kept plugins known) := by
  rw [scanCold]
  cases hread : ModuleSource.read kind source with
  | error fault => exact hobeys
  | ok program =>
      simp only [scanProgram_eq]
      change Cache.Obeys _ 0 (ite _ _ _)
      split
      · rename_i hcacheable
        refine Cache.Obeys.modifyAt (fun inner hinner => hinner.insert ?_) hobeys
        refine ⟨source, program, session.plugins, hknown, rfl, hread, ?_, ?_⟩
        · rw [Nat.zero_add, ← hplan]
          rfl
        · rw [Nat.zero_add, ← hplan]
          exact hcacheable
      · exact hobeys

/-- A scan does what it would do without a cache. -/
theorem scanText_cold (hplan : plan.plugins = world.pluginsAt plugins plan.partition.length)
    (hseparates : Separates known) {id : ModuleId} (kind : ModuleKind) {source : String}
    (hknown : (id, source) ∈ known) {session : Session}
    (hobeys : session.Obeys (world.Kept plugins known)) :
    (world.scanText plan id kind source session).1 =
        (world.scanCold plan id kind source session).1 ∧
      (world.scanText plan id kind source session).2.diagnostics =
        (world.scanCold plan id kind source session).2.diagnostics ∧
      SameCounters (world.scanText plan id kind source session).2.plugins
        (world.scanCold plan id kind source session).2.plugins ∧
      (world.scanText plan id kind source session).2.Obeys (world.Kept plugins known) := by
  rw [scanText]
  cases hcached : cached? plan id kind source session with
  | none => exact ⟨rfl, rfl, .refl _, obeys_scanCold hplan hknown hobeys⟩
  | some module =>
      rw [cached?, Option.filter_eq_some_iff, Option.bind_eq_some_iff] at hcached
      obtain ⟨⟨cache, hcache, hmodule⟩, hkind⟩ := hcached
      rw [decide_eq_true_eq] at hkind
      obtain ⟨⟨other, program, memory, hother, hhash, hread, hview, hcacheable⟩, hsame⟩ :=
        Cache.Obeys.get? hobeys hcache hmodule
      have hsource : other = source :=
        hseparates id other source hother hknown (hhash.symm.trans hsame)
      rw [Nat.zero_add, ← hplan] at hview hcacheable
      rw [hsource, hkind] at hread
      rw [hkind] at hview hcacheable
      -- The scan that was kept accepted nothing and gave no warning.
      rw [Findings.isCacheable, Bool.and_eq_true, decide_eq_true_eq, List.isEmpty_iff]
        at hcacheable
      obtain ⟨hfound, hcounters⟩ := scan_steady
        (Numbered.hooks_steady (world.pluginsOf plan.plugins) kind) SameCounters.refl
        SameCounters.trans program memory session.plugins hcacheable.1
      rw [scanCold, hread]
      simp only [scanProgram_eq, hooks]
      rw [hfound, hview, hcacheable.2]
      exact ⟨rfl, rfl, hcounters, hobeys⟩

/-- Scans without a cache do the same in sessions that look the same to the plugins. -/
theorem scanCold_agree {numbers : List Nat}
    (hnumbers : Numbered.workletNumbers (world.pluginsOf plan.plugins) ⊆ numbers)
    (id : ModuleId) (kind : ModuleKind) (source : String) {first second : Session}
    (hdiagnostics : first.diagnostics = second.diagnostics)
    (hagree : AgreeOn numbers first.plugins second.plugins) :
    (world.scanCold plan id kind source first).1 =
        (world.scanCold plan id kind source second).1 ∧
      (world.scanCold plan id kind source first).2.diagnostics =
        (world.scanCold plan id kind source second).2.diagnostics ∧
      AgreeOn numbers (world.scanCold plan id kind source first).2.plugins
        (world.scanCold plan id kind source second).2.plugins := by
  rw [scanCold, scanCold]
  cases ModuleSource.read kind source with
  | error fault => exact ⟨rfl, hdiagnostics, hagree⟩
  | ok program =>
      obtain ⟨hfound, hlast⟩ := scan_respects
        (Numbered.hooks_respect hnumbers kind) program hagree
      simp only [scanProgram_eq, hooks]
      rw [hfound, hdiagnostics]
      exact ⟨rfl, rfl, hlast⟩

end World

end WebBundle

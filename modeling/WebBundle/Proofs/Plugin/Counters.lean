import WebBundle.Plugin.Basic
import WebBundle.Proofs.Scan.Hooks

/-!
# Counters of plugins

Of what plugins remember, only the counters of plugins for worklets have an effect on
what plugins do.  A hook reads no counter but that of its own plugin, and it changes
that one only at a call that it accepts.
-/

namespace WebBundle

namespace PluginMemory

/-- The counters of some plugins are the same. -/
def AgreeOn (numbers : List Nat) (first second : PluginMemory) : Prop :=
  ∀ number ∈ numbers, first.counter number = second.counter number

/-- All counters are the same. -/
def SameCounters (first second : PluginMemory) : Prop :=
  ∀ number, first.counter number = second.counter number

theorem SameCounters.refl (memory : PluginMemory) : SameCounters memory memory := fun _ => rfl

theorem SameCounters.symm {first second : PluginMemory} (h : SameCounters first second) :
    SameCounters second first := fun number => (h number).symm

theorem SameCounters.trans {first second third : PluginMemory}
    (hfirst : SameCounters first second) (hsecond : SameCounters second third) :
    SameCounters first third := fun number => (hfirst number).trans (hsecond number)

theorem AgreeOn.mono {fewer more : List Nat} {first second : PluginMemory}
    (h : AgreeOn more first second) (hsubset : fewer ⊆ more) : AgreeOn fewer first second :=
  fun number hnumber => h number (hsubset hnumber)

theorem AgreeOn.of_sameCounters {numbers : List Nat} {first second third last : PluginMemory}
    (h : AgreeOn numbers first second) (hfirst : SameCounters first third)
    (hsecond : SameCounters second last) : AgreeOn numbers third last := by
  intro number hnumber
  rw [← hfirst number, ← hsecond number, h number hnumber]

theorem counter_setCounter_self (memory : PluginMemory) (plugin : Nat) (value : UInt32) :
    (memory.setCounter plugin value).counter plugin = value := by
  simp [counter, setCounter]

theorem counter_setCounter_of_ne (memory : PluginMemory) {plugin other : Nat}
    (hne : other ≠ plugin) (value : UInt32) :
    (memory.setCounter plugin value).counter other = memory.counter other := by
  have hfind : (memory.counters.filter fun entry => entry.1 ≠ plugin).find?
      (fun entry => entry.1 = other) = memory.counters.find? fun entry => entry.1 = other := by
    rw [List.find?_filter]
    congr 1
    funext entry
    by_cases hentry : entry.1 = other
    · simp [hentry, hne]
    · simp [hentry]
  simp only [counter, setCounter, List.find?_cons]
  rw [decide_eq_false (fun h : plugin = other => hne h.symm), hfind]

theorem sameCounters_record (memory : PluginMemory) (name : String) (event : Event) :
    SameCounters memory (memory.record name event) := fun _ => rfl

theorem AgreeOn.setCounter {numbers : List Nat} {first second : PluginMemory}
    (h : AgreeOn numbers first second) (plugin : Nat) (value : UInt32) :
    AgreeOn (plugin :: numbers) (first.setCounter plugin value)
      (second.setCounter plugin value) := by
  intro number hnumber
  by_cases hsame : number = plugin
  · rw [hsame, counter_setCounter_self, counter_setCounter_self]
  · rw [counter_setCounter_of_ne _ hsame, counter_setCounter_of_ne _ hsame]
    exact h number ((List.mem_cons.mp hnumber).resolve_left hsame)

end PluginMemory

open PluginMemory Scan

/-- A hook on worklets reads and writes one counter. -/
theorem worklet_hook_respects {numbers : List Nat} {plugin : Nat} (hplugin : plugin ∈ numbers)
    (selector : String) :
    (Worklet.hook (fun memory : PluginMemory => memory.counter plugin)
      (fun value memory => memory.setCounter plugin value) selector).Respects
      (AgreeOn numbers) := by
  intro call memory other hagree
  simp only [Worklet.hook, hagree plugin hplugin, true_and]
  split
  · exact (hagree.setCounter plugin _).mono (List.subset_cons_self plugin numbers)
  · exact hagree

theorem worklet_hook_steady (plugin : Nat) (selector : String) :
    (Worklet.hook (fun memory : PluginMemory => memory.counter plugin)
      (fun value memory => memory.setCounter plugin value) selector).Steady SameCounters := by
  intro call memory other hopen
  simp only [Worklet.hook] at hopen ⊢
  by_cases hmember : call.member ≠ "addModule"
  · rw [Worklet.reactTo, Worklet.reactTo, if_pos hmember, if_pos hmember]
    exact ⟨rfl, .refl _⟩
  · rw [Worklet.reactTo, if_neg hmember] at hopen ⊢
    rw [Worklet.reactTo, if_neg hmember]
    cases hargument : call.argument with
    | none => exact ⟨rfl, .refl _⟩
    | some argument =>
        obtain ⟨span, value⟩ := argument
        cases value with
        | text request => simp [hargument] at hopen
        | _ => exact ⟨rfl, .refl _⟩

theorem rule_hook_respects {numbers : List Nat} (name : String) (rule : CallRule) :
    (rule.hook fun event (memory : PluginMemory) => memory.record name event).Respects
      (AgreeOn numbers) := by
  intro call memory other hagree
  simp only [CallRule.hook]
  split
  · exact ⟨rfl, hagree⟩
  · exact ⟨rfl, hagree⟩

theorem rule_hook_steady (name : String) (rule : CallRule) :
    (rule.hook fun event (memory : PluginMemory) => memory.record name event).Steady
      SameCounters := by
  intro call memory other _
  simp only [CallRule.hook]
  split
  · exact ⟨rfl, sameCounters_record _ _ _⟩
  · exact ⟨rfl, .refl _⟩

namespace Numbered

theorem mem_hooks {kind : ModuleKind} {plugins : List Numbered} {hook : Hook PluginMemory}
    (hhook : hook ∈ hooks kind plugins) :
    ∃ numbered ∈ plugins, hook ∈ numbered.plugin.hooks numbered.number kind := by
  rw [hooks] at hhook
  split at hhook
  · exact List.mem_flatMap.mp hhook
  · cases hhook

/-- The numbers of the plugins for worklets. -/
def workletNumbers : List Numbered → List Nat
  | [] => []
  | ⟨number, .worklets _⟩ :: rest => number :: workletNumbers rest
  | _ :: rest => workletNumbers rest

theorem mem_workletNumbers {plugins : List Numbered} {number : Nat} :
    number ∈ workletNumbers plugins ↔ ∃ settings, ⟨number, .worklets settings⟩ ∈ plugins := by
  induction plugins with
  | nil => simp [workletNumbers]
  | cons numbered rest ih =>
      obtain ⟨other, plugin⟩ := numbered
      cases plugin <;> simp [workletNumbers, ih, exists_or]

/-- The hooks of plugins read no counters but those of the plugins. -/
theorem hooks_respect {numbers : List Nat} {plugins : List Numbered}
    (hnumbers : workletNumbers plugins ⊆ numbers) (kind : ModuleKind) :
    ∀ hook ∈ hooks kind plugins, hook.Respects (AgreeOn numbers) := by
  intro hook hhook
  obtain ⟨⟨number, plugin⟩, hnumbered, hhook⟩ := mem_hooks hhook
  cases plugin with
  | plain => cases hhook
  | worklets settings =>
      obtain ⟨selector, _, rfl⟩ := List.mem_map.mp hhook
      exact worklet_hook_respects
        (hnumbers (mem_workletNumbers.mpr ⟨settings, hnumbered⟩)) selector
  | ruled rules =>
      obtain ⟨rule, _, rfl⟩ := List.mem_map.mp hhook
      exact rule_hook_respects rules.name rule

/-- No hook of a plugin uses a counter at a call that it does not accept. -/
theorem hooks_steady (plugins : List Numbered) (kind : ModuleKind) :
    ∀ hook ∈ hooks kind plugins, hook.Steady SameCounters := by
  intro hook hhook
  obtain ⟨⟨number, plugin⟩, _, hhook⟩ := mem_hooks hhook
  cases plugin with
  | plain => cases hhook
  | worklets settings =>
      obtain ⟨selector, _, rfl⟩ := List.mem_map.mp hhook
      exact worklet_hook_steady number selector
  | ruled rules =>
      obtain ⟨rule, _, rfl⟩ := List.mem_map.mp hhook
      exact rule_hook_steady rules.name rule

/-! ## Starting plugins -/

/-- Whether a plugin fails does not depend on what it remembers. -/
theorem startAll_report (plugins : List Numbered) (first second : PluginMemory) :
    (startAll plugins first).1 = (startAll plugins second).1 := by
  induction plugins generalizing first second with
  | nil => rfl
  | cons numbered rest ih =>
      obtain ⟨number, plugin⟩ := numbered
      cases plugin with
      | plain => exact ih first second
      | worklets settings => exact ih _ _
      | ruled rules =>
          simp only [startAll, start]
          cases rules.startFailure with
          | some message => rfl
          | none => exact ih _ _

/-- Counters that are the same stay the same, whether a plugin fails or not. -/
theorem startAll_agree {numbers : List Nat} {first second : PluginMemory}
    (hagree : AgreeOn numbers first second) (plugins : List Numbered) :
    AgreeOn numbers (startAll plugins first).2 (startAll plugins second).2 := by
  induction plugins generalizing first second with
  | nil => exact hagree
  | cons numbered rest ih =>
      obtain ⟨number, plugin⟩ := numbered
      cases plugin with
      | plain => exact ih hagree
      | worklets settings =>
          exact ih ((hagree.setCounter number 0).mono (List.subset_cons_self number numbers))
      | ruled rules =>
          simp only [startAll, start]
          cases rules.startFailure with
          | some message => exact hagree
          | none => exact ih hagree

/-- When all plugins have started, the counters of those for worklets are the same. -/
theorem startAll_agree_on_worklets (plugins : List Numbered) {numbers : List Nat}
    {first second : PluginMemory} (hagree : AgreeOn numbers first second)
    (hstarted : (startAll plugins first).1 = none) :
    AgreeOn (workletNumbers plugins ++ numbers) (startAll plugins first).2
      (startAll plugins second).2 := by
  induction plugins generalizing numbers first second with
  | nil => exact hagree
  | cons numbered rest ih =>
      obtain ⟨number, plugin⟩ := numbered
      cases plugin with
      | plain => exact ih hagree hstarted
      | worklets settings =>
          refine (ih (hagree.setCounter number 0) hstarted).mono ?_
          intro other hother
          simpa [workletNumbers, or_left_comm] using hother
      | ruled rules =>
          simp only [startAll, start] at hstarted ⊢
          cases hfailure : rules.startFailure with
          | some message => simp [hfailure] at hstarted
          | none => exact ih hagree (by simpa only [hfailure] using hstarted)

/-- A counter changes at the start of no other plugin. -/
theorem counter_startAll {number : Nat} (plugins : List Numbered)
    (hnumber : number ∉ workletNumbers plugins) (memory : PluginMemory) :
    (startAll plugins memory).2.counter number = memory.counter number := by
  induction plugins generalizing memory with
  | nil => rfl
  | cons numbered rest ih =>
      obtain ⟨other, plugin⟩ := numbered
      cases plugin with
      | plain => exact ih hnumber memory
      | worklets settings =>
          rw [workletNumbers, List.mem_cons, not_or] at hnumber
          rw [startAll, start]
          exact (ih hnumber.2 _).trans (counter_setCounter_of_ne memory hnumber.1 0)
      | ruled rules =>
          simp only [startAll, start]
          cases rules.startFailure with
          | some message => rfl
          | none => exact ih hnumber _

end Numbered

end WebBundle

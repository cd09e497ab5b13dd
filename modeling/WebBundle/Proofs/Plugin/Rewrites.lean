import Mathlib.Data.List.Basic
import Mathlib.Data.UInt
import WebBundle.Proofs.Plugin.Counters
import WebBundle.Proofs.Search.Wave

/-!
# Rewritten calls

A call that asks for a worklet is rewritten by the first plugin for worklets that sees
it, and gets the number at which the counter of that plugin stands.  The numbers of
the calls that one plugin rewrites in a row count up, so they differ as long as the
counter does not come round.
-/

namespace WebBundle

open Scan

namespace Scan

variable {σ : Type}

theorem Reaction.followedBy_assoc (first second third : Reaction) :
    (first.followedBy second).followedBy third = first.followedBy (second.followedBy third) := by
  simp only [followedBy, List.append_assoc]

/-- Nothing done behind a call that is not accepted changes nothing. -/
theorem Reaction.followedBy_empty {reaction : Reaction} (hopen : reaction.isAccepted = false) :
    reaction.followedBy {} = reaction := by
  obtain ⟨replacements, boundRequests, warnings, isAccepted⟩ := reaction
  cases hopen
  simp only [followedBy, List.append_nil]

theorem react_append (before after : List (Hook σ)) (call : SeenCall) (state : σ) :
    react (before ++ after) call state =
      if (react before call state).1.isAccepted then react before call state
      else ((react before call state).1.followedBy
          (react after call (react before call state).2).1,
        (react after call (react before call state).2).2) := by
  induction before generalizing state with
  | nil => rfl
  | cons hook rest ih =>
      rw [List.cons_append]
      by_cases hselector : hook.selector = call.selector
      · rw [react_of_selected hselector, react_of_selected hselector, ih]
        cases haccepted : (hook.react call state).1.isAccepted with
        | true => simp [haccepted]
        | false =>
            cases hlater : (react rest call (hook.react call state).2).1.isAccepted with
            | true => simp [hlater, Reaction.followedBy]
            | false => simp [hlater, Reaction.followedBy]
      · rw [react_of_other hselector, react_of_other hselector, ih]

end Scan

namespace Worklet

/-- The worklet that a call asks for, with the range of the argument that names it. -/
def requested? (call : SeenCall) : Option (Syntax.Span × String) :=
  if call.selector ∈ selectors ∧ call.member = "addModule" then
    match call.argument with
    | some (span, .text request) => some (span, request)
    | _ => none
  else none

/-- A call that a plugin rewrites. -/
structure Rewrite where
  plugin : Nat
  number : UInt32
  span : Syntax.Span
  request : String

namespace Rewrite

/-- The loader request that the generated variable is bound to. -/
def loaderRequest (rewrite : Rewrite) : String :=
  encodeLoaderRequest ⟨toString rewrite.number.toNat⟩ rewrite.request

/-- What the plugin does with the call. -/
def reaction (rewrite : Rewrite) : Reaction :=
  { replacements := [(rewrite.span, variableName rewrite.number)]
    boundRequests := [(variableName rewrite.number, rewrite.loaderRequest)]
    isAccepted := true }

end Rewrite

variable {σ : Type}

theorem hook_react (counter : σ → UInt32) (setCounter : UInt32 → σ → σ) (selector : String)
    (call : SeenCall) (state : σ) :
    (hook counter setCounter selector).react call state =
      ((reactTo call (counter state)).1,
        if (reactTo call (counter state)).2 then setCounter (counter state + 1) state
        else state) := rfl

/-- What the hooks do with a call, each on a selector of its own. -/
theorem react_map_hook (counter : σ → UInt32) (setCounter : UInt32 → σ → σ) {names : List String}
    (hnames : names.Nodup) (call : SeenCall) (state : σ) :
    react (names.map (hook counter setCounter)) call state =
      if call.selector ∈ names then
        ((reactTo call (counter state)).1,
          if (reactTo call (counter state)).2 then setCounter (counter state + 1) state else state)
      else ({}, state) := by
  induction names generalizing state with
  | nil => rfl
  | cons name rest ih =>
      rw [List.nodup_cons] at hnames
      rw [List.map_cons]
      by_cases hsame : name = call.selector
      · subst hsame
        rw [react_of_selected rfl, if_pos List.mem_cons_self, ih hnames.2, if_neg hnames.1]
        rw [hook_react]
        by_cases haccepted : (reactTo call (counter state)).1.isAccepted = true
        · exact if_pos haccepted
        · refine (if_neg haccepted).trans ?_
          rw [Reaction.followedBy_empty (Bool.eq_false_iff.mpr haccepted)]
      · rw [react_of_other hsame, ih hnames.2]
        simp only [List.mem_cons, Ne.symm hsame, false_or]

/-- A call that asks for a worklet is rewritten. -/
theorem react_requested {counter : σ → UInt32} {setCounter : UInt32 → σ → σ} {call : SeenCall}
    {span : Syntax.Span} {request : String} (plugin : Nat) (state : σ)
    (hrequested : requested? call = some (span, request)) :
    react (hooks counter setCounter) call state =
      ((Rewrite.mk plugin (counter state) span request).reaction,
        setCounter (counter state + 1) state) := by
  rw [hooks, react_map_hook counter setCounter (by decide)]
  rw [requested?] at hrequested
  split at hrequested
  · rename_i hcall
    rw [if_pos hcall.1]
    split at hrequested
    · rename_i hargument
      cases hrequested
      simp only [reactTo, hargument, hcall.2]
      rfl
    · cases hrequested
  · cases hrequested

/-- Whether a call adds a worklet that is not known by its text. -/
def isUnknown (call : SeenCall) : Bool :=
  call.selector ∈ selectors && call.member = "addModule" && (requested? call).isNone

/-- Any other call is left alone; the hooks warn if it adds a worklet. -/
theorem react_not_requested (counter : σ → UInt32) (setCounter : UInt32 → σ → σ)
    {call : SeenCall} (state : σ) (hrequested : requested? call = none) :
    react (hooks counter setCounter) call state =
      ({ warnings := if isUnknown call then [argumentWarning] else [] }, state) := by
  rw [hooks, react_map_hook counter setCounter (by decide), isUnknown, hrequested]
  by_cases hselector : call.selector ∈ selectors
  · by_cases hmember : call.member = "addModule"
    · rw [requested?, if_pos ⟨hselector, hmember⟩] at hrequested
      have hreact : reactTo call (counter state) = ({ warnings := [argumentWarning] }, false) := by
        rw [reactTo, if_neg (not_not_intro hmember)]
        split
        · rename_i hargument
          rw [hargument] at hrequested
          cases hrequested
        · rfl
      simp [hselector, hmember, hreact]
    · have hreact : reactTo call (counter state) = ({}, false) := if_pos hmember
      simp [hselector, hmember, hreact]
  · simp [hselector]

end Worklet

namespace Numbered

/-- The rewrite that plugins make of a call on modules of a kind, if they make one. -/
def rewrite? (kind : ModuleKind) (call : SeenCall) :
    List Numbered → PluginMemory → Option Worklet.Rewrite
  | [], _ => none
  | numbered :: rest, memory =>
    match numbered.plugin, Worklet.requested? call with
    | .worklets _, some (span, request) =>
      some ⟨numbered.number, memory.counter numbered.number, span, request⟩
    | _, _ =>
      let (reaction, memory) := react (numbered.plugin.hooks numbered.number kind) call memory
      if reaction.isAccepted then none else rewrite? kind call rest memory

theorem hooks_cons {kind : ModuleKind} (hkind : kind.isScript = true) (numbered : Numbered)
    (rest : List Numbered) :
    hooks kind (numbered :: rest) =
      numbered.plugin.hooks numbered.number kind ++ hooks kind rest := by
  rw [hooks, hooks, if_pos hkind, if_pos hkind, List.flatMap_cons]

/-- Rules count nothing. -/
theorem react_rules_sameCounters (rules : RuledPlugin) (number : Nat) (kind : ModuleKind)
    (call : SeenCall) (memory : PluginMemory) :
    memory.SameCounters (react ((Plugin.ruled rules).hooks number kind) call memory).2 := by
  rw [Plugin.hooks]
  induction rules.calls.filter fun rule => rule.only.isNone || rule.only = some kind
    generalizing memory with
  | nil => exact .refl _
  | cons rule rest ih =>
      have hrule : memory.SameCounters ((rule.hook fun event (memory : PluginMemory) =>
          memory.record rules.name event).react call memory).2 := by
        simp only [CallRule.hook]
        split
        · exact PluginMemory.sameCounters_record _ _ _
        · exact .refl _
      rw [List.map_cons]
      by_cases hselector : (rule.hook fun event (memory : PluginMemory) =>
          memory.record rules.name event).selector = call.selector
      · rw [react_of_selected hselector]
        split
        · exact hrule
        · exact hrule.trans (ih _)
      · rw [react_of_other hselector]
        exact ih memory

/-- A plugin either rewrites a call, which counts for it, or leaves all counters. -/
theorem react_plugin (kind : ModuleKind) (call : SeenCall) (numbered : Numbered)
    (rest : List Numbered) (memory : PluginMemory) :
    (∃ span request, numbered.number ∈ workletNumbers (numbered :: rest) ∧
      rewrite? kind call (numbered :: rest) memory =
        some ⟨numbered.number, memory.counter numbered.number, span, request⟩ ∧
      react (numbered.plugin.hooks numbered.number kind) call memory =
        ((Worklet.Rewrite.mk numbered.number (memory.counter numbered.number) span
            request).reaction,
          memory.setCounter numbered.number (memory.counter numbered.number + 1))) ∨
    (rewrite? kind call (numbered :: rest) memory =
        (if (react (numbered.plugin.hooks numbered.number kind) call memory).1.isAccepted then
          none
        else rewrite? kind call rest
          (react (numbered.plugin.hooks numbered.number kind) call memory).2) ∧
      memory.SameCounters
        (react (numbered.plugin.hooks numbered.number kind) call memory).2) := by
  obtain ⟨number, plugin⟩ := numbered
  cases plugin with
  | plain => exact .inr ⟨rfl, .refl _⟩
  | ruled rules => exact .inr ⟨rfl, react_rules_sameCounters rules number kind call memory⟩
  | worklets settings =>
      cases hrequested : Worklet.requested? call with
      | some asked =>
          obtain ⟨span, request⟩ := asked
          refine .inl ⟨span, request, ?_, ?_, ?_⟩
          · exact List.mem_cons_self
          · simp only [rewrite?, hrequested]
          · exact Worklet.react_requested number memory hrequested
      | none =>
          have hreact := Worklet.react_not_requested
            (fun memory : PluginMemory => memory.counter number)
            (fun value memory => memory.setCounter number value)
            memory hrequested
          refine .inr ⟨?_, ?_⟩
          · simp only [rewrite?, hrequested]
          · rw [Plugin.hooks, hreact]
            exact .refl _

/-- A rewritten call counts for one plugin, and its variable is in the reaction. -/
theorem react_of_rewrite? {kind : ModuleKind} (hkind : kind.isScript = true) {call : SeenCall}
    {plugins : List Numbered} {memory : PluginMemory} {rewrite : Worklet.Rewrite}
    (hrewrite : rewrite? kind call plugins memory = some rewrite) :
    rewrite.plugin ∈ workletNumbers plugins ∧
      rewrite.number = memory.counter rewrite.plugin ∧
      (∀ number, (react (hooks kind plugins) call memory).2.counter number =
        if number = rewrite.plugin then memory.counter number + 1 else memory.counter number) ∧
      ∃ before : Reaction, (react (hooks kind plugins) call memory).1 =
        before.followedBy rewrite.reaction := by
  induction plugins generalizing memory with
  | nil => cases hrewrite
  | cons numbered rest ih =>
      rw [hooks_cons hkind, react_append]
      rcases react_plugin kind call numbered rest memory with
        ⟨span, request, hmem, hcons, hreact⟩ | ⟨hcons, hsame⟩
      · rw [hcons, Option.some.injEq] at hrewrite
        subst hrewrite
        rw [hreact]
        refine ⟨hmem, rfl, ?_, {}, rfl⟩
        intro number
        change (memory.setCounter _ _).counter number = _
        split
        · rename_i hnumber
          rw [hnumber, PluginMemory.counter_setCounter_self]
        · rename_i hnumber
          rw [PluginMemory.counter_setCounter_of_ne _ hnumber]
      · rw [hcons] at hrewrite
        split at hrewrite
        · cases hrewrite
        · rename_i hopen
          obtain ⟨hmem, hnumber, hcounters, before, hreaction⟩ := ih hrewrite
          rw [if_neg hopen]
          refine ⟨?_, ?_, ?_,
            (react (numbered.plugin.hooks numbered.number kind) call memory).1.followedBy before,
            ?_⟩
          · obtain ⟨settings, hmem⟩ := mem_workletNumbers.mp hmem
            exact mem_workletNumbers.mpr ⟨settings, List.mem_cons_of_mem _ hmem⟩
          · rw [hnumber, hsame]
          · intro number
            rw [hcounters, hsame]
          · rw [hreaction, ← Reaction.followedBy_assoc]

/-- A call that is not rewritten leaves all counters. -/
theorem react_of_rewrite?_eq_none {kind : ModuleKind} (hkind : kind.isScript = true)
    {call : SeenCall} {plugins : List Numbered} {memory : PluginMemory}
    (hrewrite : rewrite? kind call plugins memory = none) :
    memory.SameCounters (react (hooks kind plugins) call memory).2 := by
  induction plugins generalizing memory with
  | nil =>
      rw [hooks, if_pos hkind]
      exact .refl _
  | cons numbered rest ih =>
      rw [hooks_cons hkind, react_append]
      rcases react_plugin kind call numbered rest memory with
        ⟨span, request, _, hcons, _⟩ | ⟨hcons, hsame⟩
      · rw [hcons] at hrewrite
        cases hrewrite
      · split
        · exact hsame
        · rename_i hopen
          rw [hcons, if_neg hopen] at hrewrite
          exact hsame.trans (ih hrewrite)

end Numbered

/-! ## Rewrites of a program -/

/-- The rewrite of a call that is shown to plugins in some state. -/
def rewriteAt? (kind : ModuleKind) (plugins : List Numbered)
    (visit : SeenCall × PluginMemory) : Option Worklet.Rewrite :=
  Numbered.rewrite? kind visit.1 plugins visit.2

/-- The calls of a program that plugins rewrite, in order. -/
def rewrites (kind : ModuleKind) (plugins : List Numbered) (program : Syntax.Program)
    (memory : PluginMemory) : List Worklet.Rewrite :=
  if kind.isScript then
    (Loader.visits (react (Numbered.hooks kind plugins)) (shownCalls program) memory).filterMap
      (rewriteAt? kind plugins)
  else []

/-- A rewritten call has its argument replaced by the generated variable, which is bound
to the loader request. -/
theorem found_of_mem_rewrites {kind : ModuleKind} {plugins : List Numbered}
    {program : Syntax.Program} {memory : PluginMemory} {rewrite : Worklet.Rewrite}
    (hmem : rewrite ∈ rewrites kind plugins program memory) :
    (rewrite.span, Worklet.variableName rewrite.number) ∈
        (scan (Numbered.hooks kind plugins) program memory).1.reaction.replacements ∧
      (Worklet.variableName rewrite.number, rewrite.loaderRequest) ∈
        (scan (Numbered.hooks kind plugins) program memory).1.reaction.boundRequests := by
  rw [rewrites] at hmem
  split at hmem
  · rename_i hkind
    obtain ⟨visit, hvisit, hrewrite⟩ := List.mem_filterMap.mp hmem
    obtain ⟨_, _, _, before, hreaction⟩ := Numbered.react_of_rewrite? hkind hrewrite
    have hdone : before.followedBy rewrite.reaction ∈
        (Loader.forEach (react (Numbered.hooks kind plugins)) (shownCalls program) memory).1 := by
      rw [Loader.forEach_eq_visits, ← hreaction]
      exact List.mem_map_of_mem hvisit
    rw [scan_eq, Findings.replacements_addReactions, Findings.boundRequests_addReactions]
    constructor
    · refine List.mem_append_right _ (List.mem_flatMap.mpr ⟨_, hdone, ?_⟩)
      exact List.mem_append_right _ (List.mem_singleton.mpr rfl)
    · refine List.mem_append_right _ (List.mem_flatMap.mpr ⟨_, hdone, ?_⟩)
      exact List.mem_append_right _ (List.mem_singleton.mpr rfl)
  · cases hmem

/-- The numbers of the calls that one plugin rewrites. -/
def numbersOf (plugin : Nat) (rewrites : List Worklet.Rewrite) : List UInt32 :=
  (rewrites.filter fun rewrite => rewrite.plugin = plugin).map Worklet.Rewrite.number

/-- Numbers that count up from one value and leave the counter at another. -/
def CountUp : UInt32 → List UInt32 → UInt32 → Prop
  | first, [], next => next = first
  | first, number :: rest, next => number = first ∧ CountUp (first + 1) rest next

namespace CountUp

theorem append {first middle next : UInt32} {before after : List UInt32}
    (hbefore : CountUp first before middle) (hafter : CountUp middle after next) :
    CountUp first (before ++ after) next := by
  induction before generalizing first with
  | nil =>
      cases hbefore
      exact hafter
  | cons number rest ih => exact ⟨hbefore.1, ih hbefore.2⟩

theorem getElem {first next : UInt32} {numbers : List UInt32}
    (hcount : CountUp first numbers next) (index : Nat) (hindex : index < numbers.length) :
    numbers[index] = first + UInt32.ofNat index := by
  induction numbers generalizing first index with
  | nil => cases hindex
  | cons number rest ih =>
      cases index with
      | zero => simpa using hcount.1
      | succ index =>
          rw [List.getElem_cons_succ, ih hcount.2 index (Nat.lt_of_succ_lt_succ hindex),
            UInt32.add_assoc, UInt32.add_comm 1, UInt32.ofNat_add]
          rfl

/-- Numbers that count up differ as long as the counter does not come round. -/
theorem nodup {first next : UInt32} {numbers : List UInt32}
    (hcount : CountUp first numbers next) (hfew : numbers.length ≤ 2 ^ 32) : numbers.Nodup := by
  rw [List.Nodup, List.pairwise_iff_getElem]
  intro left right hleft hright hlt heq
  rw [hcount.getElem left hleft, hcount.getElem right hright, UInt32.add_right_inj] at heq
  have hsize : UInt32.size = 2 ^ 32 := rfl
  have hvalues := congrArg UInt32.toNat heq
  rw [UInt32.toNat_ofNat_of_lt' (by omega), UInt32.toNat_ofNat_of_lt' (by omega)] at hvalues
  omega

end CountUp

theorem numbersOf_cons (plugin : Nat) (rewrite : Worklet.Rewrite)
    (rest : List Worklet.Rewrite) :
    numbersOf plugin (rewrite :: rest) =
      (if rewrite.plugin = plugin then [rewrite.number] else []) ++ numbersOf plugin rest := by
  rw [numbersOf, List.filter_cons]
  split <;> simp_all [numbersOf]

theorem numbersOf_append (plugin : Nat) (before after : List Worklet.Rewrite) :
    numbersOf plugin (before ++ after) = numbersOf plugin before ++ numbersOf plugin after := by
  rw [numbersOf, List.filter_append, List.map_append]
  rfl

theorem countUp_visits {kind : ModuleKind} (hkind : kind.isScript = true)
    (plugins : List Numbered) (calls : List SeenCall) (memory : PluginMemory) (plugin : Nat) :
    CountUp (memory.counter plugin)
      (numbersOf plugin ((Loader.visits (react (Numbered.hooks kind plugins)) calls
        memory).filterMap (rewriteAt? kind plugins)))
      ((Loader.forEach (react (Numbered.hooks kind plugins)) calls memory).2.counter plugin) := by
  induction calls generalizing memory with
  | nil => rfl
  | cons call rest ih =>
      have hrest := ih (react (Numbered.hooks kind plugins) call memory).2
      rw [Loader.visits]
      cases hrewrite : rewriteAt? kind plugins (call, memory) with
      | none =>
          rw [List.filterMap_cons_none hrewrite, Numbered.react_of_rewrite?_eq_none hkind hrewrite plugin]
          exact hrest
      | some rewrite =>
          obtain ⟨_, hnumber, hcounters, _⟩ := Numbered.react_of_rewrite? hkind hrewrite
          rw [List.filterMap_cons_some hrewrite, numbersOf_cons]
          rw [hcounters] at hrest
          by_cases hsame : plugin = rewrite.plugin
          · rw [if_pos hsame] at hrest
            rw [if_pos hsame.symm]
            exact ⟨hsame ▸ hnumber, hrest⟩
          · rw [if_neg hsame] at hrest
            rw [if_neg fun h => hsame h.symm]
            exact hrest

/-- The numbers that one plugin uses in a program count up from its counter, and the
counter goes on behind them. -/
theorem countUp_rewrites (kind : ModuleKind) (plugins : List Numbered)
    (program : Syntax.Program) (memory : PluginMemory) (plugin : Nat) :
    CountUp (memory.counter plugin) (numbersOf plugin (rewrites kind plugins program memory))
      ((scan (Numbered.hooks kind plugins) program memory).2.counter plugin) := by
  rw [scan_eq, rewrites]
  cases hkind : kind.isScript with
  | true => exact countUp_visits hkind plugins (shownCalls program) memory plugin
  | false =>
      rw [Numbered.hooks, hkind]
      have hnone : ∀ calls (memory : PluginMemory),
          (Loader.forEach (react []) calls memory).2 = memory := by
        intro calls
        induction calls with
        | nil => exact fun _ => rfl
        | cons call rest ih => exact fun memory => ih memory
      exact congrArg (·.counter plugin) (hnone _ memory)

end WebBundle

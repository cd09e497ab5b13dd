import WebBundle.Proofs.Build.ColdScan
import WebBundle.Proofs.Plugin.Rewrites
import WebBundle.Proofs.Scan.Selectors
import WebBundle.Proofs.Syntax.Sites
import WebBundle.Proofs.Worklet.Request

/-!
# What a scan makes of worklets

A module that is scanned with one plugin for worklets gets a variable for every call of
`addModule` whose argument is known to be a text, a warning for every other one, and
nothing else that it would not get without the plugin.
-/

namespace WebBundle

open Syntax Scan

namespace Worklet

/-! ## Calls that add worklets -/

/-- The worklets of `CSS`. -/
def worklets : List String := ["paintWorklet", "animationWorklet", "layoutWorklet"]

/-- Whether a site is a call of `addModule` on a worklet of the global `CSS`. -/
def addsModule (site : Site) : Bool :=
  match site.node with
  | ⟨.call _, _, ⟨.staticMember member _, _,
      [⟨.staticMember worklet _, _, [⟨.reference global, _, _⟩]⟩]⟩ :: _⟩ =>
    member = "addModule" && worklets.contains worklet && global.text = "CSS" &&
      !site.bound.contains "CSS"
  | _ => false

/-- The range and the text of the first argument, if it is an expression that evaluates
to a text. -/
def moduleText? (site : Site) : Option (Span × String) :=
  match SeenCall.firstArgument? site.node with
  | some argument =>
    match evaluate site.bound argument with
    | .text text => some (argument.span, text)
    | _ => none
  | none => none

/-- The calls of a program that add worklets, outer ones first, in the order of the
source. -/
def moduleCalls (program : Program) : List Site := (calls program).filter addsModule

/-- The arguments that are texts. -/
def knownModules (program : Program) : List (Span × String) :=
  (moduleCalls program).filterMap moduleText?

/-- The calls whose arguments are not. -/
def unknownModules (program : Program) : List Site :=
  (moduleCalls program).filter fun site => (moduleText? site).isNone

/-- The generated variable for the worklet with a number. -/
def generatedName (number : Nat) : String := "__houdini_worklet_" ++ toString number ++ "__"

end Worklet

/-- What one plugin for worklets makes of a program when its counter stands at a number:
the view next to the view of a scan without hooks. -/
structure RewritesExactly (program : Program) (number : Nat) (plain view : View) : Prop where
  /-- The arguments that are texts are replaced by generated variables, which are numbered
  in the order of the calls. -/
  edits : view.edits = plain.edits ++
    ((Worklet.knownModules program).zipIdx number).map fun ((span, _), number) =>
      .replace span (Worklet.generatedName number)
  /-- Each variable stands for a request that names the worklet by its number and asks for
  the text. -/
  records : ∃ requests : List String,
    requests.map Worklet.decodeLoaderRequest? =
      ((Worklet.knownModules program).zipIdx number).map (fun ((_, text), number) =>
        some (⟨toString number⟩, text)) ∧
    view.records = plain.records ++ requests.map fun request => ⟨request, .generated, ⟨0, 0⟩⟩
  boundRecords : view.boundRecords =
    (((Worklet.knownModules program).zipIdx number).zipIdx plain.records.length).map
      fun ((_, number), record) => (Worklet.generatedName number, record)
  /-- The view depends on the source alone if there is no call that adds a worklet. -/
  isCacheable : view.isCacheable = (Worklet.moduleCalls program).isEmpty
  source : view.source = plain.source
  hasDeclarations : view.hasDeclarations = plain.hasDeclarations
  exports : view.exports = plain.exports
  stars : view.stars = plain.stars

namespace Worklet

/-- Every call is met once. -/
theorem calls_nodes (program : Program) :
    (calls program).map Site.node = program.root.nodes.filter fun node => isCall node.kind :=
  program.sites_nodes isCall

theorem mem_selectors {selector : String} :
    selector ∈ selectors ↔ ∃ worklet ∈ worklets, selector = "CSS" ++ "." ++ worklet := by
  simp [selectors, worklets]

theorem no_point_of_worklet {worklet : String} (hworklet : worklet ∈ worklets) :
    '.' ∉ worklet.toList := by
  simp only [worklets, List.mem_cons, List.not_mem_nil, or_false] at hworklet
  rcases hworklet with rfl | rfl | rfl <;> decide

/-- The calls that add worklets are those that the hooks are for. -/
theorem addsModule_iff {site : Site} : addsModule site = true ↔
    ∃ selector ∈ selectors, selected? site = some ⟨selector, "addModule"⟩ := by
  constructor
  · intro hadds
    rw [addsModule] at hadds
    split at hadds
    · rename_i optional span member opened place worklet given inner global whole parts arguments
        hnode
      simp only [Bool.and_eq_true, decide_eq_true_eq, Bool.not_eq_true', List.contains_eq_mem,
        decide_eq_false_iff_not] at hadds
      obtain ⟨⟨⟨rfl, hworklet⟩, hglobal⟩, hbound⟩ := hadds
      refine ⟨_, mem_selectors.mpr ⟨worklet, hworklet, rfl⟩, selected?_eq_some.mpr ?_⟩
      refine ⟨optional, span, opened, place, _, arguments, hnode, ?_⟩
      refine (globalChain?_eq_pair (by decide) (no_point_of_worklet hworklet) _).mpr ?_
      exact ⟨given, inner, global, whole, parts, rfl, hglobal, hbound⟩
    · cases hadds
  · rintro ⟨selector, hselector, hselected⟩
    obtain ⟨worklet, hworklet, rfl⟩ := mem_selectors.mp hselector
    obtain ⟨optional, span, opened, place, object, arguments, hnode, hchain⟩ :=
      selected?_eq_some.mp hselected
    obtain ⟨given, inner, global, whole, parts, rfl, hglobal, hbound⟩ :=
      (globalChain?_eq_pair (by decide) (no_point_of_worklet hworklet) _).mp hchain
    rw [addsModule, hnode]
    simp [hworklet, hglobal, hbound]

theorem isCall_of_addsModule {site : Site} (hadds : addsModule site = true) :
    isCall site.node.kind = true := by
  obtain ⟨selector, _, hselected⟩ := addsModule_iff.mp hadds
  obtain ⟨optional, span, opened, place, object, arguments, hnode, _⟩ :=
    selected?_eq_some.mp hselected
  rw [hnode]
  rfl

/-! ## What hooks see of them -/

theorem shown?_eq_some {site : Site} {call : SeenCall} (hshown : shown? site = some call) :
    ∃ selected, selected? site = some selected ∧ call = .ofSite site selected := by
  rw [shown?] at hshown
  split at hshown
  · rw [Option.map_eq_some_iff] at hshown
    obtain ⟨selected, hselected, rfl⟩ := hshown
    exact ⟨selected, hselected, rfl⟩
  · cases hshown

/-- The hooks see a call that adds a worklet with its argument. -/
theorem requested?_ofSite {site : Site} {selector : String} (hselector : selector ∈ selectors) :
    requested? (.ofSite site ⟨selector, "addModule"⟩) = moduleText? site := by
  rw [requested?, if_pos ⟨hselector, rfl⟩, moduleText?, SeenCall.ofSite]
  cases SeenCall.firstArgument? site.node with
  | none => rfl
  | some argument =>
      simp only [Option.map_some]
      cases evaluate site.bound argument <;> rfl

theorem shown?_of_addsModule {site : Site} (hadds : addsModule site = true) :
    ∃ call, shown? site = some call ∧ call.selector ∈ selectors ∧ call.member = "addModule" ∧
      requested? call = moduleText? site := by
  obtain ⟨selector, hselector, hselected⟩ := addsModule_iff.mp hadds
  refine ⟨.ofSite site ⟨selector, "addModule"⟩, ?_, hselector, rfl, requested?_ofSite hselector⟩
  rw [shown?, if_pos (isCall_of_addsModule hadds), hselected]
  rfl

/-- No other call is for the hooks. -/
theorem not_asked_of_not_addsModule {site : Site} {call : SeenCall}
    (hadds : addsModule site = false) (hshown : shown? site = some call) :
    ¬ (call.selector ∈ selectors ∧ call.member = "addModule") := by
  rintro ⟨hselector, hmember⟩
  obtain ⟨⟨selector, member⟩, hselected, rfl⟩ := shown?_eq_some hshown
  cases hmember
  rw [addsModule_iff.mpr ⟨selector, hselector, hselected⟩] at hadds
  cases hadds

theorem bind_requested? (site : Site) :
    (shown? site).bind requested? = if addsModule site then moduleText? site else none := by
  cases hadds : addsModule site with
  | true =>
      obtain ⟨call, hshown, _, _, hrequested⟩ := shown?_of_addsModule hadds
      rw [hshown, Option.bind_some, hrequested, if_pos rfl]
  | false =>
      cases hshown : shown? site with
      | none => rfl
      | some call =>
          rw [Option.bind_some, requested?, if_neg (not_asked_of_not_addsModule hadds hshown),
            if_neg Bool.false_ne_true]

theorem getD_isUnknown (site : Site) :
    ((shown? site).map isUnknown).getD false = (addsModule site && (moduleText? site).isNone) := by
  cases hadds : addsModule site with
  | true =>
      obtain ⟨call, hshown, hselector, hmember, hrequested⟩ := shown?_of_addsModule hadds
      simp [hshown, isUnknown, hselector, hmember, hrequested]
  | false =>
      cases hshown : shown? site with
      | none => rfl
      | some call =>
          have hnot := not_asked_of_not_addsModule hadds hshown
          simpa [isUnknown] using fun hselector hmember => absurd ⟨hselector, hmember⟩ hnot

/-- The calls of a program are among what is scanned. -/
theorem filter_isScanned (program : Program) :
    (program.sites isScanned).filter (fun site => isCall site.node.kind) = calls program :=
  program.sites_filter_of_imp fun kind hcall => by
    cases kind with
    | call => rfl
    | _ => cases hcall

/-- The worklets that the hooks are asked for. -/
theorem filterMap_shownCalls (program : Program) :
    (shownCalls program).filterMap requested? = knownModules program := by
  rw [shownCalls, List.filterMap_filterMap, knownModules, moduleCalls, ← filter_isScanned,
    List.filterMap_filter, List.filterMap_filter]
  refine List.filterMap_congr fun site _ => ?_
  rw [bind_requested?]
  cases hadds : addsModule site with
  | true => rw [isCall_of_addsModule hadds, if_pos rfl, if_pos rfl]
  | false => simp

/-- The calls that the hooks warn of. -/
theorem countP_shownCalls (program : Program) :
    (shownCalls program).countP isUnknown = (unknownModules program).length := by
  rw [shownCalls, List.countP_filterMap, unknownModules, moduleCalls, ← filter_isScanned,
    ← List.countP_eq_length_filter, List.countP_filter, List.countP_filter]
  refine List.countP_congr fun site _ => ?_
  rw [getD_isUnknown]
  cases hadds : addsModule site with
  | true => simp [isCall_of_addsModule hadds]
  | false => simp

/-- A call that adds a worklet names it by a text or it does not. -/
theorem moduleCalls_isEmpty (program : Program) :
    (moduleCalls program).isEmpty =
      (decide ((knownModules program).length = 0) &&
        decide ((unknownModules program).length = 0)) := by
  rw [knownModules, unknownModules]
  cases moduleCalls program with
  | nil => rfl
  | cons site rest =>
      cases htext : moduleText? site with
      | some text => simp [htext]
      | none => simp [htext]

/-! ## What the hooks do -/

theorem toNat_ofNat {number : Nat} (hsmall : number < 2 ^ 32) :
    (UInt32.ofNat number).toNat = number := by
  rw [UInt32.toNat_ofNat']
  omega

theorem variableName_ofNat {number : Nat} (hsmall : number < 2 ^ 32) :
    variableName (.ofNat number) = generatedName number := by
  unfold variableName generatedName
  rw [toNat_ofNat hsmall]

/-- What a plugin does with calls when its counter stands at a number. -/
def reactionsFrom (plugin : Nat) : (number : Nat) → List SeenCall → List Reaction
  | _, [] => []
  | number, call :: rest =>
    match requested? call with
    | some (span, request) =>
      (Rewrite.mk plugin (.ofNat number) span request).reaction ::
        reactionsFrom plugin (number + 1) rest
    | none =>
      { warnings := if isUnknown call then [argumentWarning] else [] } ::
        reactionsFrom plugin number rest

section Reactions

variable {σ : Type} {counter : σ → UInt32} {setCounter : UInt32 → σ → σ}

theorem forEach_react (hcounter : ∀ number state, counter (setCounter number state) = number)
    (plugin : Nat) (calls : List SeenCall) {state : σ} {number : Nat}
    (hnumber : counter state = .ofNat number) :
    (Loader.forEach (react (hooks counter setCounter)) calls state).1 =
        reactionsFrom plugin number calls ∧
      counter (Loader.forEach (react (hooks counter setCounter)) calls state).2 =
        .ofNat (number + (calls.filterMap requested?).length) := by
  induction calls generalizing state number with
  | nil => exact ⟨rfl, hnumber⟩
  | cons call rest ih =>
      rw [Loader.forEach, reactionsFrom]
      cases hrequested : requested? call with
      | some asked =>
          obtain ⟨span, request⟩ := asked
          have hnext : counter (setCounter (counter state + 1) state) = .ofNat (number + 1) := by
            rw [hcounter, hnumber, UInt32.ofNat_add]
            rfl
          obtain ⟨hrest, hlast⟩ := ih hnext
          have hlength : number + ((rest.filterMap requested?).length + 1) =
              number + 1 + (rest.filterMap requested?).length := by omega
          rw [react_requested plugin state hrequested, List.filterMap_cons_some hrequested,
            List.length_cons, hlength, ← hnumber]
          exact ⟨congrArg _ hrest, hlast⟩
      | none =>
          obtain ⟨hrest, hlast⟩ := ih hnumber
          rw [react_not_requested counter setCounter state hrequested,
            List.filterMap_cons_none hrequested]
          exact ⟨congrArg _ hrest, hlast⟩

end Reactions

variable (plugin number : Nat) (calls : List SeenCall)

theorem replacements_reactionsFrom :
    (reactionsFrom plugin number calls).flatMap Reaction.replacements =
      ((calls.filterMap requested?).zipIdx number).map fun (asked, number) =>
        (asked.1, variableName (.ofNat number)) := by
  induction calls generalizing number with
  | nil => rfl
  | cons call rest ih =>
      rw [reactionsFrom]
      cases hrequested : requested? call with
      | some asked =>
          rw [List.filterMap_cons_some hrequested, List.zipIdx_cons, List.map_cons, ← ih]
          rfl
      | none =>
          rw [List.filterMap_cons_none hrequested, ← ih]
          rfl

theorem boundRequests_reactionsFrom :
    (reactionsFrom plugin number calls).flatMap Reaction.boundRequests =
      ((calls.filterMap requested?).zipIdx number).map fun (asked, number) =>
        (variableName (.ofNat number),
          encodeLoaderRequest ⟨toString (UInt32.ofNat number).toNat⟩ asked.2) := by
  induction calls generalizing number with
  | nil => rfl
  | cons call rest ih =>
      rw [reactionsFrom]
      cases hrequested : requested? call with
      | some asked =>
          rw [List.filterMap_cons_some hrequested, List.zipIdx_cons, List.map_cons, ← ih]
          rfl
      | none =>
          rw [List.filterMap_cons_none hrequested, ← ih]
          rfl

theorem warnings_reactionsFrom :
    (reactionsFrom plugin number calls).flatMap Reaction.warnings =
      List.replicate (calls.countP isUnknown) argumentWarning := by
  induction calls generalizing number with
  | nil => rfl
  | cons call rest ih =>
      rw [reactionsFrom, List.countP_cons]
      cases hrequested : requested? call with
      | some asked =>
          have hknown : isUnknown call = false := by simp [isUnknown, hrequested]
          simp only [hknown, Bool.false_eq_true, if_false, Nat.add_zero]
          exact ih (number + 1)
      | none =>
          cases hunknown : isUnknown call with
          | true =>
              simp only [if_true, List.replicate_succ, List.flatMap_cons, ih number]
              rfl
          | false =>
              simp only [Bool.false_eq_true, if_false, Nat.add_zero]
              exact ih number

theorem countP_reactionsFrom :
    (reactionsFrom plugin number calls).countP Reaction.isAccepted =
      (calls.filterMap requested?).length := by
  induction calls generalizing number with
  | nil => rfl
  | cons call rest ih =>
      rw [reactionsFrom]
      cases hrequested : requested? call with
      | some asked =>
          rw [List.filterMap_cons_some hrequested, List.length_cons, ← ih (number + 1)]
          exact List.countP_cons_of_pos rfl
      | none =>
          rw [List.filterMap_cons_none hrequested, ← ih number]
          exact List.countP_cons_of_neg Bool.false_ne_true

end Worklet

section Scan

variable {σ : Type} {counter : σ → UInt32} {setCounter : UInt32 → σ → σ}

/-- A scan with the hooks of one plugin. -/
theorem scan_hooks (hcounter : ∀ number state, counter (setCounter number state) = number)
    (program : Program) {state : σ} {number : Nat} (hnumber : counter state = .ofNat number) :
    (scan (Worklet.hooks counter setCounter) program state).1 =
        (declared program).addReactions
          (Worklet.reactionsFrom 0 number (shownCalls program)) ∧
      counter (scan (Worklet.hooks counter setCounter) program state).2 =
        .ofNat (number + (Worklet.knownModules program).length) := by
  obtain ⟨hreactions, hlast⟩ := Worklet.forEach_react hcounter 0 (shownCalls program) hnumber
  rw [scan_eq, hreactions, ← Worklet.filterMap_shownCalls]
  exact ⟨rfl, hlast⟩

theorem lt_of_mem_knownModules {program : Program} {number : Nat}
    (hsmall : number + (Worklet.knownModules program).length ≤ 2 ^ 32)
    {numbered : (Span × String) × Nat}
    (hmem : numbered ∈ (Worklet.knownModules program).zipIdx number) : numbered.2 < 2 ^ 32 := by
  have hlast := (List.mem_zipIdx hmem).2.1
  omega

theorem rewritesExactly_addReactions (program : Program) {number : Nat}
    (hsmall : number + (Worklet.knownModules program).length ≤ 2 ^ 32) :
    RewritesExactly program number ((declared program).toView program.source)
      (((declared program).addReactions
        (Worklet.reactionsFrom 0 number (shownCalls program))).toView program.source) := by
  obtain ⟨hreaction, haccepted⟩ := declared_reaction program
  have hreplacements := (declared program).replacements_addReactions
    (Worklet.reactionsFrom 0 number (shownCalls program))
  have hrequests := (declared program).boundRequests_addReactions
    (Worklet.reactionsFrom 0 number (shownCalls program))
  have hwarnings := (declared program).warnings_addReactions
    (Worklet.reactionsFrom 0 number (shownCalls program))
  have hcount := (declared program).accepted_addReactions
    (Worklet.reactionsFrom 0 number (shownCalls program))
  rw [hreaction, Worklet.replacements_reactionsFrom, Worklet.filterMap_shownCalls]
    at hreplacements
  rw [hreaction, Worklet.boundRequests_reactionsFrom, Worklet.filterMap_shownCalls] at hrequests
  rw [hreaction, Worklet.warnings_reactionsFrom, Worklet.countP_shownCalls] at hwarnings
  rw [haccepted, Worklet.countP_reactionsFrom, Worklet.filterMap_shownCalls] at hcount
  have hrest := (declared program).addReactions_eq
    (Worklet.reactionsFrom 0 number (shownCalls program))
  generalize (declared program).addReactions _ = found at *
  have hedits : found.edits = (declared program).edits := by rw [hrest]
  have hrecords : found.records = (declared program).records := by rw [hrest]
  have hplain : (declared program).reaction.boundRequests = [] := by rw [hreaction]
  constructor
  case edits =>
    simp only [Findings.toView, hedits, hreplacements, hreaction, List.nil_append, List.map_nil,
      List.append_nil, List.map_map]
    refine congrArg _ (List.map_congr_left fun numbered hmem => ?_)
    simp only [Function.comp_apply,
      Worklet.variableName_ofNat (lt_of_mem_knownModules hsmall hmem)]
  case records =>
    refine ⟨((Worklet.knownModules program).zipIdx number).map fun ((_, text), number) =>
      Worklet.encodeLoaderRequest ⟨toString number⟩ text, ?_, ?_⟩
    · simp only [List.map_map, Function.comp_def, Worklet.decode_encodeLoaderRequest]
    · simp only [Findings.toView, Findings.variableRecords, hrecords, hrequests, hplain,
        List.nil_append, List.map_nil, List.append_nil, List.map_map]
      refine congrArg _ (List.map_congr_left fun numbered hmem => ?_)
      have hnumber : (UInt32.ofNat numbered.2).toNat = numbered.2 :=
        Worklet.toNat_ofNat (lt_of_mem_knownModules hsmall hmem)
      simp only [Function.comp_apply, hnumber]
  case boundRecords =>
    simp only [Findings.toView, Findings.variableRecords, Findings.nextRecord, hrecords, hrequests,
      hplain, List.nil_append, List.map_nil, List.append_nil, List.map_map, List.zipIdx_map]
    refine List.map_congr_left fun entry hmem => ?_
    have hsmallest := lt_of_mem_knownModules hsmall (List.fst_mem_of_mem_zipIdx hmem)
    exact Prod.ext (Worklet.variableName_ofNat hsmallest) rfl
  case isCacheable =>
    simp only [Findings.toView, Findings.isCacheable, hcount, hwarnings, Worklet.moduleCalls_isEmpty,
      Nat.zero_add, List.nil_append, List.isEmpty_replicate]
  case source => rfl
  case hasDeclarations => rw [hrest]; rfl
  case exports => rw [hrest]; rfl
  case stars => rw [hrest]; rfl

end Scan

namespace World

/-- A script that is scanned with one plugin for worklets as the only one with hooks: every
call of `addModule` is either rewritten or warned of, and nothing else is done. -/
theorem scanText_exact (world : World) (plan : BuildPlan) {number : Nat}
    {settings : Worklet.Settings Nat} {before after : List Numbered} {kind : ModuleKind}
    (hplugins : world.pluginsOf plan.plugins = before ++ ⟨number, .worklets settings⟩ :: after)
    (hothers : ∀ other ∈ before ++ after, other.plugin.hooks other.number kind = [])
    (hkind : kind.isScript = true) (id : ModuleId) {source : String} {program : Program}
    {session : Session} (hcold : cached? plan id kind source session = none)
    (hread : ModuleSource.read kind source = .ok program)
    (hsmall : (session.plugins.counter number).toNat +
      (Worklet.knownModules program).length ≤ 2 ^ 32) :
    (Scan.calls program).map Site.node =
        program.root.nodes.filter (fun node => isCall node.kind) ∧
      ∃ view, (world.scanText plan id kind source session).1 = .ok view ∧
        RewritesExactly program (session.plugins.counter number).toNat
          ((WebBundle.Scan.scan [] program session.plugins).1.toView program.source) view ∧
        (world.scanText plan id kind source session).2.diagnostics =
          { session.diagnostics with
            warnings := session.diagnostics.warnings ++
              (Worklet.unknownModules program).map fun _ =>
                warningOf plan id Worklet.argumentWarning } ∧
        (world.scanText plan id kind source session).2.plugins.counter number =
          session.plugins.counter number + .ofNat (Worklet.knownModules program).length := by
  have hhooks : world.hooks plan kind =
      Worklet.hooks (fun memory : PluginMemory => memory.counter number)
        (fun value memory => memory.setCounter number value) := by
    rw [hooks, Numbered.hooks, if_pos hkind, hplugins, List.flatMap_append, List.flatMap_cons]
    rw [List.forall_mem_append] at hothers
    rw [List.flatMap_eq_nil_iff.mpr hothers.1, List.flatMap_eq_nil_iff.mpr hothers.2,
      List.nil_append, List.append_nil]
    rfl
  have hnumber : session.plugins.counter number =
      .ofNat (session.plugins.counter number).toNat := UInt32.ofNat_toNat.symm
  obtain ⟨hfound, hlast⟩ := @scan_hooks PluginMemory (fun memory => memory.counter number)
    (fun value memory => memory.setCounter number value)
    (fun value memory => memory.counter_setCounter_self number value) program _ _ hnumber
  have htext : world.scanText plan id kind source session =
      ((.ok (world.scanProgram plan id kind source program session).1),
        (world.scanProgram plan id kind source program session).2) := by
    rw [scanText, hcold, hread]
  have hexact := rewritesExactly_addReactions program hsmall
  rw [htext, scanProgram_eq, hhooks]
  refine ⟨Worklet.calls_nodes program, _, rfl, ?_, ?_, ?_⟩
  · rw [scan_nil]
    simp only [hfound]
    exact hexact
  · have hwarnings := (declared program).warnings_addReactions
      (Worklet.reactionsFrom 0 (session.plugins.counter number).toNat (shownCalls program))
    rw [(declared_reaction program).1, Worklet.warnings_reactionsFrom,
      Worklet.countP_shownCalls] at hwarnings
    simp only [hfound, hwarnings, List.nil_append, List.map_replicate, List.map_const', warnAll_eq]
  · rw [UInt32.ofNat_add, UInt32.ofNat_toNat] at hlast
    exact hlast

/-- A script with a worklet that is known by its text and one that is not. -/
def mixedSource : String :=
  "CSS.paintWorklet.addModule(`./` + 'a.js');CSS.layoutWorklet.addModule(name)"

/-- A build with a plugin for worklets and one without hooks. -/
def mixedPlan : BuildPlan := { options := { input := [], workingDirectory := "/p" }, plugins := [0, 1] }

set_option maxRecDepth 10000 in
/-- One of the calls is rewritten and the other one is warned of. -/
theorem scanText_exact_mixed : ∃ program, ModuleSource.read .script mixedSource = .ok program ∧
    (Worklet.knownModules program).map Prod.snd = ["./a.js"] ∧
    (Worklet.unknownModules program).length = 1 ∧
    ∃ view, (World.scanText ⟨[.worklets {}, .plain], ⟨[]⟩⟩ mixedPlan ⟨"/p/m.js"⟩ .script mixedSource
        {}).1 = .ok view ∧
      RewritesExactly program 0
        ((WebBundle.Scan.scan [] program ({} : PluginMemory)).1.toView program.source) view := by
  have hcases : (match ModuleSource.read .script mixedSource with
      | .ok program => (Worklet.knownModules program).map Prod.snd = ["./a.js"] &&
          (Worklet.unknownModules program).length = 1
      | .error _ => false) = true := by
    decide +kernel
  cases hread : ModuleSource.read .script mixedSource with
  | error fault =>
      rw [hread] at hcases
      cases hcases
  | ok program =>
      rw [hread, Bool.and_eq_true, decide_eq_true_eq, decide_eq_true_eq] at hcases
      obtain ⟨hknown, hunknown⟩ := hcases
      have hlength : (Worklet.knownModules program).length = 1 := by
        rw [← List.length_map, hknown]
        rfl
      obtain ⟨_, view, hview, hexact, _⟩ := @scanText_exact
        ⟨[.worklets {}, .plain], ⟨[]⟩⟩ mixedPlan 0 {} [] [⟨1, .plain⟩] .script rfl
        (by simp [Plugin.hooks]) rfl ⟨"/p/m.js"⟩ mixedSource program {} rfl hread
        (by rw [hlength]; decide)
      exact ⟨program, rfl, hknown, hunknown, view, hview, hexact⟩

end World

end WebBundle

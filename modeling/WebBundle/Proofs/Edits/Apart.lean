import WebBundle.Module.Source
import WebBundle.Plugin.Basic
import WebBundle.Proofs.Edits.Statements
import WebBundle.Proofs.Scan.Calls
import WebBundle.Proofs.Scan.Selectors

/-!
# Edits lie apart

The edits of a view come from declarations, from `require` calls and from hooks, which know
nothing of each other.  Each of them replaces a mark of the node that it belongs to: a value
that is known has no call inside of it, and neither has a chain of names.  So the edits of a
scan are among the marks of the tree, and these lie apart.
-/

namespace WebBundle.Scan

open Syntax

/-! ## Known values -/

namespace Evaluated

/-- A sum is only known if both of its operands are. -/
theorem isSome_of_add {left right : Evaluated} (h : (left.add right).toText?.isSome = true) :
    left.toText?.isSome = true ∧ right.toText?.isSome = true := by
  unfold add at h
  split at h
  · exact ⟨rfl, rfl⟩
  · split at h
    · split at h
      · rename_i hleft hright
        exact ⟨Option.isSome_of_eq_some hleft, Option.isSome_of_eq_some hright⟩
      · cases h
    · cases h

end Evaluated

/-- A template is only known if its substitutions are, of which there are fewer than parts
of text. -/
theorem isSome_of_joinTemplate {quasis : List Quasi} {texts : List (Option String)}
    (h : (joinTemplate quasis texts).isSome = true) (hlength : texts.length < quasis.length) :
    ∀ text ∈ texts, text.isSome = true := by
  fun_induction joinTemplate quasis texts with
  | case1 texts => exact absurd hlength (Nat.not_lt_zero _)
  | case2 => cases h
  | case3 => exact List.forall_mem_nil _
  | case4 => cases h
  | case5 cooked place quasis text rest ih =>
      rw [Option.isSome_map] at h
      exact List.forall_mem_cons.mpr ⟨rfl, ih h (Nat.lt_of_succ_lt_succ hlength)⟩

theorem length_evaluateTexts (bound : List String) (nodes : List Node) :
    (evaluateTexts bound nodes).length = nodes.length := by
  induction nodes with
  | nil => rw [evaluateTexts]; rfl
  | cons node rest ih => rw [evaluateTexts, List.length_cons, List.length_cons, ih]

/-- An expression with a known value is not scanned, and its parts have known values too. -/
theorem known_parts {bound : List String} {kind : Kind} {span : Span} {children : List Node}
    (hregular : Node.Regular ⟨kind, span, children⟩)
    (hknown : (evaluate bound ⟨kind, span, children⟩).toText?.isSome = true) :
    isScanned kind = false ∧ ∀ text ∈ evaluateTexts bound children, text.isSome = true := by
  have hleaf : children = [] → ∀ text ∈ evaluateTexts bound children, text.isSome = true := by
    rintro rfl
    rw [evaluateTexts]
    exact List.forall_mem_nil _
  rw [evaluate.eq_def] at hknown
  split at hknown
  · rename_i heq
    cases heq
    exact ⟨rfl, hleaf hregular⟩
  · rename_i heq
    cases heq
    exact ⟨rfl, hleaf hregular⟩
  · rename_i heq
    cases heq
    exact ⟨rfl, hleaf hregular⟩
  · rename_i heq
    cases heq
    exact ⟨rfl, hleaf hregular⟩
  · rename_i heq
    cases heq
    exact ⟨rfl, hleaf hregular⟩
  · -- an expression in parentheses
    rename_i heq
    cases heq
    simp only [evaluateTexts, List.forall_mem_singleton]
    exact ⟨rfl, hknown⟩
  · -- a template
    rename_i quasis _ _ heq
    cases heq
    have hlength : (evaluateTexts bound children).length < quasis.length := by
      rw [length_evaluateTexts]
      exact hregular
    split at hknown
    · rename_i hjoin
      exact ⟨rfl, isSome_of_joinTemplate (Option.isSome_of_eq_some hjoin) hlength⟩
    · cases hknown
  · -- a sum
    rename_i heq
    cases heq
    simp only [evaluateTexts, List.forall_mem_cons]
    obtain ⟨hleft, hright⟩ := Evaluated.isSome_of_add hknown
    exact ⟨rfl, hleft, hright, List.forall_mem_nil _⟩
  · cases hknown

mutual

/-- Nothing is scanned inside of an expression whose value is known. -/
theorem quiet_of_evaluate (bound : List String) :
    ∀ node, Regular [node] → (evaluate bound node).toText?.isSome = true → Quiet [node]
  | ⟨_, _, children⟩, hregular, hknown => by
      obtain ⟨hnode, hchildren⟩ := regular_node.mp hregular
      obtain ⟨hkind, hparts⟩ := known_parts hnode hknown
      exact quiet_node.mpr ⟨hkind, quiet_of_evaluateTexts bound children hchildren hparts⟩

/-- Nothing is scanned inside of expressions whose values are known. -/
theorem quiet_of_evaluateTexts (bound : List String) :
    ∀ nodes, Regular nodes → (∀ text ∈ evaluateTexts bound nodes, text.isSome = true) →
      Quiet nodes
  | [], _, _ => List.forall_mem_nil _
  | node :: rest, hregular, hknown => by
      obtain ⟨hnode, hrest⟩ := regular_cons.mp hregular
      rw [evaluateTexts, List.forall_mem_cons] at hknown
      exact quiet_cons.mpr ⟨quiet_of_evaluate bound node hnode hknown.1,
        quiet_of_evaluateTexts bound rest hrest hknown.2⟩

end

/-- Nothing is scanned inside of a chain of names. -/
theorem quiet_of_globalChain? {bound : List String} {node : Node} {chain : String}
    (hregular : Regular [node]) (hchain : globalChain? bound node = some chain) :
    Quiet [node] := by
  fun_induction globalChain? bound node generalizing chain with
  | case1 name span children =>
      cases hchain
  | case2 name span children =>
      obtain rfl : children = [] := (regular_node.mp hregular).1
      exact quiet_node.mpr ⟨rfl, List.forall_mem_nil _⟩
  | case3 name optional span object ih =>
      obtain ⟨inner, hinner, _⟩ := Option.map_eq_some_iff.mp hchain
      exact quiet_node.mpr ⟨rfl, ih (regular_node.mp hregular).2 hinner⟩
  | case4 => cases hchain

/-! ## What hooks replace -/

/-- The range of the first argument of a call if its value is a text. -/
def SeenCall.textSpans (call : SeenCall) : List Span :=
  match call.argument with
  | some (span, .text _) => [span]
  | _ => []

/-- A hook that replaces at most an argument that is a text, and that accepts the call then. -/
structure Hook.Modest {σ : Type} (hook : Hook σ) : Prop where
  sublist : ∀ call state,
    ((hook.react call state).1.replacements.map Prod.fst).Sublist call.textSpans
  accepts : ∀ call state, (hook.react call state).1.isAccepted = false →
    (hook.react call state).1.replacements = []

/-- Only the hook that accepts a call replaces something. -/
theorem runHooks_sublist {σ : Type} {hooks : List (Hook σ)} (hmodest : ∀ hook ∈ hooks, hook.Modest)
    (call : SeenCall) (state : σ) :
    ((runHooks call hooks state).1.replacements.map Prod.fst).Sublist call.textSpans := by
  induction hooks generalizing state with
  | nil => exact List.nil_sublist _
  | cons hook rest ih =>
      obtain ⟨hhook, hrest⟩ := List.forall_mem_cons.mp hmodest
      rw [runHooks]
      split
      · dsimp only
        split
        · exact hhook.sublist call state
        · rename_i haccepted
          have hnone := hhook.accepts call state (Bool.eq_false_iff.mpr haccepted)
          simp only [Reaction.followedBy, hnone, List.nil_append]
          exact ih hrest _
      · exact ih hrest state

/-! ## One node -/

/-- A call that hooks see is one of a method on a chain of names. -/
theorem node_of_shown {site : Site} {call : SeenCall} (hshown : shown? site = some call) :
    ∃ optional span member access place object arguments selected,
      site.node = ⟨.call optional, span, ⟨.staticMember member access, place, [object]⟩ :: arguments⟩ ∧
        (globalChain? site.bound object).isSome = true ∧ call = .ofSite site selected := by
  obtain ⟨bound, node⟩ := site
  rw [shown?] at hshown
  split at hshown
  · obtain ⟨selected, hselected, rfl⟩ := Option.map_eq_some_iff.mp hshown
    rw [selected?] at hselected
    split at hselected
    · rename_i hnode
      obtain ⟨chain, hchain, _⟩ := Option.map_eq_some_iff.mp hselected
      exact ⟨_, _, _, _, _, _, _, _, hnode, Option.isSome_of_eq_some hchain, rfl⟩
    · cases hselected
  · cases hshown

theorem node_of_firstArgument? {node argument : Node}
    (hargument : SeenCall.firstArgument? node = some argument) :
    ∃ optional span callee kind place rest,
      node = ⟨.call optional, span, [callee, ⟨kind, place, argument :: rest⟩]⟩ := by
  rw [SeenCall.firstArgument?.eq_def] at hargument
  split at hargument
  · split at hargument
    · cases hargument
    · cases hargument
      exact ⟨_, _, _, _, _, _, rfl⟩
  · cases hargument

/-- If the first argument of a call that hooks see is a text, it is the mark of the call. -/
theorem textSpans_sublist {site : Site} {call : SeenCall} (hregular : Regular [site.node])
    (hshown : shown? site = some call) : call.textSpans.Sublist site.node.marks := by
  obtain ⟨optional, span, member, access, place, object, arguments, selected, hnode, hchain, rfl⟩ :=
    node_of_shown hshown
  rw [SeenCall.textSpans]
  split
  · rename_i textSpan text hargument
    obtain ⟨argument, hfirst, heq⟩ := Option.map_eq_some_iff.mp hargument
    obtain ⟨hspan, hvalue⟩ := Prod.mk.inj heq
    obtain ⟨_, _, _, kind, list, rest, hcall⟩ := node_of_firstArgument? hfirst
    obtain ⟨-, -, hcallee⟩ := Node.mk.inj (hnode.symm.trans hcall)
    obtain ⟨rfl, rfl⟩ := List.cons_eq_cons.mp hcallee
    rw [hcall] at hregular ⊢
    obtain ⟨hobject, hlist⟩ := regular_cons.mp (regular_node.mp hregular).2
    have hquiet : Quiet [⟨.staticMember member access, place, [object]⟩, argument] := by
      obtain ⟨chain, hchain⟩ := Option.isSome_iff_exists.mp hchain
      refine quiet_cons.mpr ⟨quiet_node.mpr ⟨rfl, ?_⟩, ?_⟩
      · exact quiet_of_globalChain? (regular_node.mp hobject).2 hchain
      · refine quiet_of_evaluate site.bound argument ?_ (hvalue ▸ rfl)
        exact (regular_cons.mp (regular_node.mp hlist).2).1
    rw [Node.marks_call hquiet, ← hspan]
    exact List.Sublist.refl _
  · exact List.nil_sublist _

theorem requiredSpecifier?_of_shown {site : Site} {call : SeenCall}
    (hshown : shown? site = some call) : Findings.requiredSpecifier? site = none := by
  obtain ⟨optional, span, member, access, place, object, arguments, selected, hnode, _, _⟩ :=
    node_of_shown hshown
  rw [Findings.requiredSpecifier?, hnode]

/-- A `require` call is its own mark. -/
theorem marks_of_required {site : Site} {specifier : String} (hregular : Regular [site.node])
    (hrequired : Findings.requiredSpecifier? site = some specifier) :
    site.node.marks = [site.node.span] := by
  rw [Findings.requiredSpecifier?.eq_def] at hrequired
  split at hrequired
  · rename_i optional span callee place parts kind list argument hnode
    split at hrequired
    · cases hrequired
    · split at hrequired
      · cases hrequired
      · rw [hnode] at hregular ⊢
        obtain ⟨hcallee, hlist⟩ := regular_cons.mp (regular_node.mp hregular).2
        obtain rfl : parts = [] := (regular_node.mp hcallee).1
        have hvalue : (evaluate site.bound argument).toText?.isSome = true := by
          rw [Evaluated.text?.eq_def] at hrequired
          split at hrequired
          · rename_i hvalue
            rw [hvalue]
            rfl
          · cases hrequired
        have hquiet : Quiet [⟨.reference callee, place, []⟩, argument] :=
          quiet_cons.mpr ⟨quiet_node.mpr ⟨rfl, List.forall_mem_nil _⟩,
            quiet_of_evaluate site.bound argument (regular_node.mp hlist).2 hvalue⟩
        exact Node.marks_call hquiet
  · cases hrequired

namespace Findings

/-- The ranges that edits replace, those of hooks last. -/
def spans (findings : Findings) : List Span :=
  findings.edits.map Edit.span ++ findings.reaction.replacements.map Prod.fst

theorem toView_spans (findings : Findings) (source : String) :
    (findings.toView source).edits.map Edit.span = findings.spans := by
  rw [spans, toView, List.map_append, List.map_map]
  rfl

/-- A declaration gives at most one edit, of a mark. -/
theorem addDeclaration_edits (findings : Findings) (node : Node) :
    ∃ more, (findings.addDeclaration node).edits = findings.edits ++ more ∧
      (more.map Edit.span).Sublist node.marks := by
  have himport : ∀ (findings : Findings) (span : Span) (source : Node)
      (bindings : List ImportedBinding), node.marks = [span] →
      ∃ more, (findings.addImport span source bindings).edits = findings.edits ++ more ∧
        (more.map Edit.span).Sublist node.marks := by
    intro findings span source bindings hmarks
    rw [addImport.eq_def, hmarks]
    split
    · exact ⟨_, rfl, List.Sublist.refl _⟩
    · exact ⟨[], (List.append_nil _).symm, List.nil_sublist _⟩
  rw [addDeclaration.eq_def]
  dsimp only
  split
  · exact himport _ _ _ _ rfl
  · split
    · exact himport _ _ _ _ rfl
    · exact ⟨_, rfl, List.Sublist.refl _⟩
  · exact ⟨_, rfl, List.Sublist.refl _⟩
  · split
    · exact ⟨_, rfl, List.Sublist.refl _⟩
    · exact ⟨_, rfl, List.Sublist.refl _⟩
  · exact himport _ _ _ _ rfl
  · exact himport _ _ _ _ rfl
  · exact ⟨[], (List.append_nil _).symm, List.nil_sublist _⟩

theorem declare_edits (findings : Findings) {site : Site} (hregular : Regular [site.node]) :
    ∃ more, (declare findings site).edits = findings.edits ++ more ∧
      (more.map Edit.span).Sublist site.node.marks := by
  rw [declare]
  split
  · rw [addRequire]
    split
    · rename_i specifier hrequired
      rw [marks_of_required hregular hrequired]
      exact ⟨_, rfl, List.Sublist.refl _⟩
    · exact ⟨[], (List.append_nil _).symm, List.nil_sublist _⟩
  · exact addDeclaration_edits findings site.node

/-- A call that hooks see is no `require` call. -/
theorem declare_of_shown (findings : Findings) {site : Site} {call : SeenCall}
    (hshown : shown? site = some call) : declare findings site = findings := by
  obtain ⟨_, _, _, _, _, _, _, _, hnode, _, _⟩ := node_of_shown hshown
  have hcall : isCall site.node.kind = true := by
    rw [hnode]
    rfl
  rw [declare, if_pos hcall, addRequire, requiredSpecifier?_of_shown hshown]

/-- One visit replaces ranges among the marks of its node. -/
theorem visit_spans {σ : Type} {hooks : List (Hook σ)} (hmodest : ∀ hook ∈ hooks, hook.Modest)
    (found : Findings × σ) {site : Site} (hregular : Regular [site.node]) :
    ∃ more, (visit hooks found site).1.spans.Perm (found.1.spans ++ more) ∧
      more.Sublist site.node.marks := by
  obtain ⟨findings, state⟩ := found
  rw [visit_eq]
  split
  · rename_i call hshown
    refine ⟨_, .of_eq ?_,
      (runHooks_sublist hmodest call state).trans (textSpans_sublist hregular hshown)⟩
    rw [declare_of_shown findings hshown, spans, spans, List.append_assoc, ← List.map_append]
    rfl
  · obtain ⟨more, hedits, hmarks⟩ := declare_edits findings hregular
    refine ⟨more.map Edit.span, ?_, hmarks⟩
    rw [spans, hedits, (declare_reaction findings site).1, spans, List.map_append,
      List.append_assoc, List.append_assoc]
    exact List.perm_append_comm.append_left _

/-- Visits replace ranges among the marks of the nodes, one node after the other. -/
theorem foldl_visit_spans {σ : Type} {hooks : List (Hook σ)}
    (hmodest : ∀ hook ∈ hooks, hook.Modest) {sites : List Site}
    (hregular : ∀ site ∈ sites, Regular [site.node]) (found : Findings × σ) :
    ∃ more, (sites.foldl (visit hooks) found).1.spans.Perm (found.1.spans ++ more) ∧
      more.Sublist (sites.flatMap fun site => site.node.marks) := by
  induction sites generalizing found with
  | nil => exact ⟨[], .of_eq (List.append_nil _).symm, List.nil_sublist _⟩
  | cons site rest ih =>
      obtain ⟨hsite, hrest⟩ := List.forall_mem_cons.mp hregular
      obtain ⟨first, hfirst, hfirstMarks⟩ := visit_spans hmodest found hsite
      obtain ⟨more, hmore, hmoreMarks⟩ := ih hrest (visit hooks found site)
      refine ⟨first ++ more, ?_, ?_⟩
      · rw [List.foldl_cons, ← List.append_assoc]
        exact hmore.trans (hfirst.append_right more)
      · rw [List.flatMap_cons]
        exact hfirstMarks.append hmoreMarks

end Findings

/-- The marks of a tree are those of the nodes that a scan looks at. -/
theorem marks_sites (program : Program) :
    ((program.sites isScanned).flatMap fun site => site.node.marks) = marksOf [program.root] := by
  have hscanned : ∀ nodes : List Node,
      (nodes.filter fun node => isScanned node.kind).flatMap Node.marks =
        nodes.flatMap Node.marks := by
    intro nodes
    induction nodes with
    | nil => rfl
    | cons node rest ih =>
        rw [List.filter_cons, List.flatMap_cons, ← ih]
        split
        · rw [List.flatMap_cons]
        · rename_i hkind
          obtain ⟨kind, span, children⟩ := node
          have hnone : isScanned kind = false := Bool.eq_false_iff.mpr hkind
          rw [Node.marks_eq_nil hnone, List.nil_append]
  rw [marksOf, Node.nodesIn, Node.nodesIn, List.append_nil, ← hscanned, ← program.sites_nodes,
    List.flatMap_map]

/-- A scan replaces ranges among the marks of the tree. -/
theorem scan_spans {σ : Type} {hooks : List (Hook σ)} (hmodest : ∀ hook ∈ hooks, hook.Modest)
    {program : Program} (hregular : Regular [program.root]) (state : σ) :
    ∃ spans, (scan hooks program state).1.spans.Perm spans ∧
      spans.Sublist (marksOf [program.root]) := by
  have hsites : ∀ site ∈ program.sites isScanned, Regular [site.node] := by
    intro site hsite node hnode
    have hinside : site.node ∈ program.root.nodes := by
      have hmem := List.mem_map_of_mem hsite (f := Site.node)
      rw [program.sites_nodes] at hmem
      exact (List.mem_filter.mp hmem).1
    rw [Node.nodesIn, Node.nodesIn, List.append_nil] at hnode
    refine hregular node ?_
    rw [Node.nodesIn, Node.nodesIn, List.append_nil]
    exact Node.nodes_subset program.root hinside hnode
  obtain ⟨spans, hperm, hmarks⟩ := Findings.foldl_visit_spans hmodest hsites ({}, state)
  exact ⟨spans, hperm, marks_sites program ▸ hmarks⟩

end WebBundle.Scan

namespace WebBundle

open Scan Syntax

/-- A call is only accepted with its argument replaced, and nothing else ever is. -/
theorem Worklet.reactTo_replacements (call : SeenCall) (number : UInt32) :
    ((Worklet.reactTo call number).1.replacements.map Prod.fst).Sublist call.textSpans ∧
      ((Worklet.reactTo call number).1.isAccepted = false →
        (Worklet.reactTo call number).1.replacements = []) := by
  fun_cases Worklet.reactTo call number with
  | case1 => exact ⟨List.nil_sublist _, fun _ => rfl⟩
  | case2 hmember span request hargument =>
      rw [SeenCall.textSpans, hargument]
      exact ⟨List.Sublist.refl _, nofun⟩
  | case3 => exact ⟨List.nil_sublist _, fun _ => rfl⟩

theorem Worklet.modest_hook {σ : Type} (counter : σ → UInt32) (setCounter : UInt32 → σ → σ)
    (selector : String) : (Worklet.hook counter setCounter selector).Modest where
  sublist call state := (Worklet.reactTo_replacements call (counter state)).1
  accepts call state := (Worklet.reactTo_replacements call (counter state)).2

/-- Plugins that compile worklets, and others without hooks, leave it at that. -/
theorem Numbered.modest_hooks (kind : ModuleKind) {plugins : List Numbered}
    (hplugins : ∀ numbered ∈ plugins, ∀ rules, numbered.plugin = .ruled rules → rules.calls = []) :
    ∀ hook ∈ Numbered.hooks kind plugins, hook.Modest := by
  intro hook hmem
  rw [Numbered.hooks] at hmem
  split at hmem
  · obtain ⟨numbered, hnumbered, hhook⟩ := List.mem_flatMap.mp hmem
    cases hplugin : numbered.plugin with
    | worklets settings =>
        rw [hplugin] at hhook
        obtain ⟨selector, _, rfl⟩ := List.mem_map.mp hhook
        exact Worklet.modest_hook _ _ selector
    | plain =>
        rw [hplugin] at hhook
        cases hhook
    | ruled rules =>
        rw [hplugin, Plugin.hooks, hplugins numbered hnumbered rules hplugin] at hhook
        cases hhook
  · cases hmem

/-- Every source of a module is read as a text without types in the end. -/
theorem ModuleSource.read?_of_read {kind : ModuleKind} {source : String} {program : Program}
    (hread : ModuleSource.read kind source = .ok program) :
    ∃ text, Program.read? false text = some program := by
  have hscript : ∀ text, ModuleSource.readScript text = .ok program →
      Program.read? false text = some program := by
    intro text hscript
    rw [ModuleSource.readScript, ModuleSource.readProgram] at hscript
    split at hscript
    · rename_i found hfound
      split at hscript
      · cases hscript
        exact hfound
      · cases hscript
    · cases hscript
  cases kind with
  | script => exact ⟨_, hscript _ hread⟩
  | wasm => exact ⟨_, hscript _ hread⟩
  | empty => exact ⟨_, hscript _ hread⟩
  | json =>
      rw [ModuleSource.read] at hread
      split at hread
      · exact ⟨_, hscript _ hread⟩
      · cases hread
  | typedScript =>
      rw [ModuleSource.read, ModuleSource.readTypedScript] at hread
      split at hread
      · cases hread
      · split at hread
        · exact ⟨_, hscript _ hread⟩
        · cases hread

/-- Of every source that is read, the edits of a scan by plugins that compile worklets lie
apart: no two of them overlap, and each covers some whole characters of the source. -/
theorem edits_scattered {kind : ModuleKind} {source : String} {program : Program}
    (hread : ModuleSource.read kind source = .ok program) (plugins : List Numbered)
    (hplugins : ∀ numbered ∈ plugins, ∀ rules, numbered.plugin = .ruled rules → rules.calls = [])
    (memory : PluginMemory) :
    let view := (scan (Numbered.hooks kind plugins) program memory).1.toView program.source
    Scattered view.source 0 view.source.utf8ByteSize (view.edits.map Edit.span) := by
  obtain ⟨text, htext⟩ := ModuleSource.read?_of_read hread
  have hfits := Program.fits_of_read? htext
  obtain ⟨spans, hperm, hmarks⟩ :=
    scan_spans (Numbered.modest_hooks kind hplugins) hfits.regular memory
  intro view
  rw [Findings.toView_spans]
  exact (hfits.marks.sublist hmarks).perm hperm.symm

/-- A script with an import, an exported declaration, calls of `require`, one of them inside
of another call, and a worklet. -/
def crowdedSource : String :=
  "import a from './a';export let b=require('./b');CSS.paintWorklet.addModule('./c');f(require('./d'))"

/-- Two plugins that compile worklets. -/
def twoWorkletPlugins : List Numbered := [⟨0, .worklets {}⟩, ⟨1, .worklets {}⟩]

set_option maxRecDepth 10000 in
/-- With two plugins that compile worklets there are five edits, and they lie apart. -/
theorem edits_scattered_crowded :
    ∃ program, ModuleSource.read .script crowdedSource = .ok program ∧
      let view := (scan (Numbered.hooks .script twoWorkletPlugins) program {}).1.toView program.source
      view.edits.length = 5 ∧
        Scattered view.source 0 view.source.utf8ByteSize (view.edits.map Edit.span) := by
  have hcases : (match ModuleSource.read .script crowdedSource with
      | .ok program =>
        ((scan (Numbered.hooks .script twoWorkletPlugins) program {}).1.toView
          program.source).edits.length == 5
      | .error _ => false) = true := by
    decide +kernel
  have hplugins : ∀ numbered ∈ twoWorkletPlugins, ∀ rules,
      numbered.plugin = .ruled rules → rules.calls = [] := by
    simp [twoWorkletPlugins]
  cases hread : ModuleSource.read .script crowdedSource with
  | error fault =>
      rw [hread] at hcases
      cases hcases
  | ok program =>
      rw [hread] at hcases
      exact ⟨program, rfl, of_decide_eq_true hcases, edits_scattered hread _ hplugins {}⟩

end WebBundle

import WebBundle.Proofs.Plugin.Rewrites
import WebBundle.Proofs.Scan.Hooks
import WebBundle.Proofs.Scan.Semantics
import WebBundle.Proofs.Worklet.Request

/-!
# Requests that a running program would make

A `require` call becomes an import of the text that its argument is known to be, and a call
that adds a worklet gets a loader request for such a text.  Either text is what the call
would have received if the program had run as it was written.
-/

namespace WebBundle

open Syntax Scan

namespace Scan

variable {σ : Type}

/-! ## Required modules -/

theorem firstArgument?_of_required {site : Site} {specifier : String}
    (hrequired : Findings.requiredSpecifier? site = some specifier) :
    ∃ argument, SeenCall.firstArgument? site.node = some argument ∧
      evaluate site.bound argument = .text specifier := by
  rw [Findings.requiredSpecifier?.eq_def] at hrequired
  split at hrequired
  · rename_i optional span callee place parts kind list argument hnode
    split at hrequired
    · cases hrequired
    · rename_i hspread
      split at hrequired
      · cases hrequired
      · refine ⟨argument, ?_, ?_⟩
        · rw [hnode, SeenCall.firstArgument?]
          split
          · rename_i heq
            exact absurd heq hspread
          · rfl
        · rw [Evaluated.text?.eq_def] at hrequired
          split at hrequired
          · rename_i hvalue
            cases hrequired
            exact hvalue
          · cases hrequired
  · cases hrequired

namespace Findings

theorem form_addImport (findings : Findings) (span : Span) (source : Node)
    (bindings : List ImportedBinding) {record : ImportRecord}
    (hrecord : record ∈ (findings.addImport span source bindings).records) :
    record ∈ findings.records ∨ record.form = .declaration := by
  rw [addImport.eq_def] at hrecord
  split at hrecord
  · rcases List.mem_append.mp hrecord with hrecord | hlast
    · exact .inl hrecord
    · rw [List.mem_singleton.mp hlast]
      exact .inr rfl
  · exact .inl hrecord

/-- Declarations require nothing by calls. -/
theorem form_addDeclaration (findings : Findings) (node : Node) {record : ImportRecord}
    (hrecord : record ∈ (findings.addDeclaration node).records) :
    record ∈ findings.records ∨ record.form = .declaration := by
  rw [addDeclaration.eq_def] at hrecord
  dsimp only at hrecord
  split at hrecord
  · exact form_addImport { findings with hasDeclarations := true } _ _ _ hrecord
  · split at hrecord
    · exact form_addImport (addExports { findings with hasDeclarations := true } _) _ _ _ hrecord
    · exact .inl hrecord
  · exact .inl hrecord
  · split at hrecord <;> exact .inl hrecord
  · exact form_addImport (addExports { findings with hasDeclarations := true } _) _ _ _ hrecord
  · exact form_addImport { findings with
      hasDeclarations := true
      stars := findings.stars ++ [findings.nextRecord] } _ _ _ hrecord
  · exact .inl hrecord

/-- An import by a call is that of a `require` call. -/
theorem required_of_declare (findings : Findings) (site : Site) {record : ImportRecord}
    (hrecord : record ∈ (declare findings site).records) (hform : record.form = .requireCall) :
    record ∈ findings.records ∨
      site.node.span = record.span ∧ requiredSpecifier? site = some record.specifier := by
  rw [declare] at hrecord
  split at hrecord
  · rw [addRequire] at hrecord
    split at hrecord
    · rename_i hrequired
      rcases List.mem_append.mp hrecord with hrecord | hlast
      · exact .inl hrecord
      · rw [List.mem_singleton.mp hlast]
        exact .inr ⟨rfl, hrequired⟩
    · exact .inl hrecord
  · apply (findings.form_addDeclaration site.node hrecord).imp_right
    intro hdeclared
    rw [hform] at hdeclared
    cases hdeclared

theorem required_of_foldl_declare (sites : List Site) (findings : Findings)
    {record : ImportRecord} (hrecord : record ∈ (sites.foldl declare findings).records)
    (hform : record.form = .requireCall) :
    record ∈ findings.records ∨
      ∃ site ∈ sites, site.node.span = record.span ∧
        requiredSpecifier? site = some record.specifier := by
  induction sites generalizing findings with
  | nil => exact .inl hrecord
  | cons site rest ih =>
      rcases ih _ hrecord with hbefore | ⟨later, hlater, hrequired⟩
      · exact (findings.required_of_declare site hbefore hform).imp_right fun hrequired =>
          ⟨site, List.mem_cons_self, hrequired⟩
      · exact .inr ⟨later, List.mem_cons_of_mem _ hlater, hrequired⟩

end Findings

/-- Whatever hooks do, an import by a call is that of a `require` call of the program. -/
theorem exists_required (hooks : List (Hook σ)) (program : Program) (state : σ)
    {record : ImportRecord} (hrecord : record ∈ (scan hooks program state).1.records)
    (hform : record.form = .requireCall) :
    ∃ site ∈ program.sites isScanned, site.node.span = record.span ∧
      Findings.requiredSpecifier? site = some record.specifier := by
  rw [scan_eq, Findings.records_addReactions] at hrecord
  exact (Findings.required_of_foldl_declare _ {} hrecord hform).resolve_left List.not_mem_nil

end Scan

/-! ## Rewritten calls -/

/-- A plugin rewrites what a call asks for. -/
theorem Numbered.requested?_of_rewrite? {kind : ModuleKind} {call : SeenCall}
    {plugins : List Numbered} {memory : PluginMemory} {rewrite : Worklet.Rewrite}
    (hrewrite : rewrite? kind call plugins memory = some rewrite) :
    Worklet.requested? call = some (rewrite.span, rewrite.request) := by
  fun_induction rewrite? kind call plugins memory with
  | case1 => cases hrewrite
  | case2 =>
      rename_i hrequested _
      cases hrewrite
      exact hrequested
  | case3 => cases hrewrite
  | case4 =>
      rename_i ih
      exact ih hrewrite

/-- What a call asks for is the text that its first argument is known to be. -/
theorem Worklet.firstArgument?_of_requested {site : Site} {call : SeenCall} {span : Span}
    {request : String} (hshown : shown? site = some call)
    (hrequested : requested? call = some (span, request)) :
    ∃ argument, SeenCall.firstArgument? site.node = some argument ∧ argument.span = span ∧
      evaluate site.bound argument = .text request := by
  obtain ⟨_, _, _, _, _, _, _, selected, _, _, rfl⟩ := node_of_shown hshown
  rw [requested?] at hrequested
  split at hrequested
  · split at hrequested
    · rename_i hargument
      cases hrequested
      obtain ⟨argument, hfirst, hvalue⟩ := Option.map_eq_some_iff.mp hargument
      obtain ⟨hspan, hvalue⟩ := Prod.mk.inj hvalue
      exact ⟨argument, hfirst, hspan, hvalue⟩
    · cases hrequested
  · cases hrequested

/-- A rewritten call is one of the program whose first argument is the text it asks for. -/
theorem exists_rewritten {kind : ModuleKind} {plugins : List Numbered} {program : Program}
    {memory : PluginMemory} {rewrite : Worklet.Rewrite}
    (hmem : rewrite ∈ rewrites kind plugins program memory) :
    ∃ site ∈ program.sites isScanned, ∃ argument,
      SeenCall.firstArgument? site.node = some argument ∧ argument.span = rewrite.span ∧
        evaluate site.bound argument = .text rewrite.request := by
  rw [rewrites] at hmem
  split at hmem
  · obtain ⟨visit, hvisit, hrewrite⟩ := List.mem_filterMap.mp hmem
    have hcall : visit.1 ∈ shownCalls program := by
      rw [← Loader.visits_fst (react (Numbered.hooks kind plugins)) (shownCalls program) memory]
      exact List.mem_map_of_mem hvisit
    obtain ⟨site, hsite, hshown⟩ := List.mem_filterMap.mp hcall
    exact ⟨site, hsite, Worklet.firstArgument?_of_requested hshown
      (Numbered.requested?_of_rewrite? hrewrite)⟩
  · cases hmem

/-! ## What calls receive -/

variable {Object State : Type}

/-- A call receives a text in the place of an argument that is its first one, whatever the
state is when it comes to evaluating it. -/
def Scan.Realm.Receives (realm : Realm Object State) (site : Site) (argument : Node)
    (text : String) : Prop :=
  SeenCall.firstArgument? site.node = some argument ∧
    (ReadsLiterals realm argument →
      realm.run site.bound argument = pure (.primitive (.text (units text))))

theorem Scan.Realm.receives_of_evaluate (realm : Realm Object State) {site : Site}
    {argument : Node} {text : String}
    (hfirst : SeenCall.firstArgument? site.node = some argument)
    (hvalue : evaluate site.bound argument = .text text) : realm.Receives site argument text := by
  refine ⟨hfirst, fun hreads => ?_⟩
  apply gives_of_readsLiterals argument hreads
  rw [hvalue]
  rfl

/-- The requests that a scan with plugins finds are those that calls of the running program
receive. -/
structure RequestsReceived (realm : Realm Object State) (kind : ModuleKind)
    (plugins : List Numbered) (program : Program) (memory : PluginMemory) : Prop where
  required : ∀ record ∈ (scan (Numbered.hooks kind plugins) program memory).1.records,
    record.form = .requireCall → ∃ site ∈ program.sites isScanned, ∃ argument,
      site.node.span = record.span ∧ realm.Receives site argument record.specifier
  rewritten : ∀ rewrite ∈ rewrites kind plugins program memory,
    ((rewrite.span, Worklet.variableName rewrite.number) ∈
        (scan (Numbered.hooks kind plugins) program memory).1.reaction.replacements ∧
      (Worklet.variableName rewrite.number, rewrite.loaderRequest) ∈
        (scan (Numbered.hooks kind plugins) program memory).1.reaction.boundRequests) ∧
    (Worklet.decodeLoaderRequest? rewrite.loaderRequest).map Prod.snd = some rewrite.request ∧
    ∃ site ∈ program.sites isScanned, ∃ argument,
      argument.span = rewrite.span ∧ realm.Receives site argument rewrite.request

/-- Literals of an argument are read as those of the whole program are. -/
theorem readsLiterals_argument {realm : Realm Object State} {program : Program}
    (hreads : ReadsLiterals realm program.root) {site : Site}
    (hsite : site ∈ program.sites isScanned) {argument : Node}
    (hfirst : SeenCall.firstArgument? site.node = some argument) :
    ReadsLiterals realm argument := by
  have hnode : site.node ∈ program.root.nodes := by
    have hmem := List.mem_map_of_mem (f := Site.node) hsite
    rw [program.sites_nodes] at hmem
    exact List.mem_of_mem_filter hmem
  obtain ⟨optional, span, callee, kind, place, rest, hcall⟩ := node_of_firstArgument? hfirst
  have hlist : Node.mk kind place (argument :: rest) ∈ site.node.nodes := by
    rw [hcall]
    apply Node.mem_nodes_of_mem_children
    simp [Node.children]
  have hargument : argument ∈ Node.nodes ⟨kind, place, argument :: rest⟩ := by
    apply Node.mem_nodes_of_mem_children
    exact List.mem_cons_self
  exact ((hreads.inside hnode).inside hlist).inside hargument

/-- A realm without objects, in which reading a name or evaluating any other expression counts. -/
def countingRealm : Realm Empty Nat where
  readDeclared _ := do
    modify (· + 1)
    return .primitive .null
  readGlobal _ := do
    modify (· + 1)
    return .primitive .null
  convert _ object := nomatch object
  refusal := .primitive .undefined
  numeral := Numeral.value
  numberOfText _ := 0
  other _ _ := do
    modify (· + 1)
    return .primitive .null

/-- A script that requires a module and adds a worklet. -/
def requestSource : String :=
  "require('./a' + `${true}.js`);CSS.paintWorklet.addModule(`./${null}` + undefined)"

/-- The sum of a text and a template with a substitution. -/
def sumOfTexts : Node :=
  ⟨.binary "+", ⟨0, 0⟩, [⟨.stringLiteral "./" false, ⟨0, 0⟩, []⟩,
    ⟨.templateLiteral [⟨some "a", ['a']⟩, ⟨some ".js", ['.', 'j', 's']⟩], ⟨0, 0⟩,
      [⟨.nullLiteral, ⟨0, 0⟩, []⟩]⟩]⟩

end WebBundle

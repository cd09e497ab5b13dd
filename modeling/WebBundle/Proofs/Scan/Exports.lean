import WebBundle.Proofs.Output.Imports

/-!
# What a scan finds of the exports of a module

The exports in a view stand for the export entries of the module, in the order of the source:
a name of the module for an entry of its own, and a name of another module for an entry that
passes it on, with the import record of the declaration that asks for that module.  The names
that stand in a rest of a pattern are missing, and these are all that is missing.
-/

namespace WebBundle.Syntax

/-- Whether an entry is for a name that stands in a rest of a pattern. -/
def ExportEntry.inRest : ExportEntry → Bool
  | .own _ _ inRest => inRest
  | _ => false

/-- The module of which an entry exports everything. -/
def ExportEntry.star? : ExportEntry → Option ModuleRequest
  | .star request => some request
  | _ => none

/-- The entries of some export entries that no rest of a pattern gives. -/
def outsideRests (entries : List ExportEntry) : List ExportEntry :=
  entries.filter fun entry => !entry.inRest

theorem outsideRests_append (first second : List ExportEntry) :
    outsideRests (first ++ second) = outsideRests first ++ outsideRests second :=
  List.filter_append first second

/-- The export entries of a program, in the order of the source. -/
def Program.exportEntries? (program : Program) : Option (List ExportEntry) :=
  (program.root.nodes.mapM Node.exportEntries?).map List.flatten

end WebBundle.Syntax

namespace WebBundle.Scan

open Syntax

/-! ## Names in patterns -/

mutual

/-- The names that a scan takes from a pattern are those that stand in no rest. -/
theorem singleNames_of_bindings? {node : Node} {names : List BoundName}
    (h : node.bindings? = some names) :
    singleNames node = (names.filter fun bound => !bound.inRest).map BoundName.name := by
  unfold Node.bindings? at h
  split at h
  · cases h
    rfl
  · rw [singleNames]
    exact allSingleNames_of_bindingsIn? h
  · rw [singleNames]
    exact allSingleNames_of_bindingsIn? h
  · rw [singleNames]
    exact singleNames_of_bindings? h
  · rw [singleNames]
    exact singleNames_of_bindings? h
  · -- a scan takes no name from a rest, and all names in it are marked
    obtain ⟨inner, _, rfl⟩ := Option.map_eq_some_iff.mp h
    have hnone : inner.filter ((fun bound => !bound.inRest) ∘ BoundName.rest) = [] :=
      List.filter_eq_nil_iff.mpr fun _ _ => Bool.false_ne_true
    rw [List.filter_map, hnone]
    rfl
  · cases h
    rfl
  · cases h

theorem allSingleNames_of_bindingsIn? {nodes : List Node} {names : List BoundName}
    (h : Node.bindingsIn? nodes = some names) :
    allSingleNames nodes = (names.filter fun bound => !bound.inRest).map BoundName.name := by
  unfold Node.bindingsIn? at h
  split at h
  · cases h
    rfl
  · simp only [Option.bind_eq_bind, Option.bind_eq_some_iff] at h
    obtain ⟨first, hfirst, more, hmore, heq⟩ := h
    cases heq
    rw [allSingleNames, singleNames_of_bindings? hfirst, allSingleNames_of_bindingsIn? hmore,
      List.filter_append, List.map_append]

end

/-- The name in the place of a name is all that the place binds. -/
theorem boundNames_of_optionalName? {name : Node} {found : Option String}
    (h : name.optionalName? = some found) : boundNames name = found.toList := by
  rw [Node.optionalName?.eq_def] at h
  split at h <;> cases h <;> rfl

/-- A declared function or class binds what is in the place of its name. -/
theorem declaredNames_of_nameOf? {declaration name : Node} (h : declaration.nameOf? = some name) :
    declaredNames declaration = boundNames name := by
  rw [Node.nameOf?.eq_def] at h
  split at h <;> cases h <;> rfl

/-- The names that a scan takes from an exported declaration. -/
theorem declaredExports_of_declares? {declaration : Node} {names : List BoundName}
    (h : declaration.declares? = some names) :
    declaredExports declaration = (names.filter fun bound => !bound.inRest).map BoundName.name := by
  rw [Node.declares?.eq_def] at h
  split at h
  · obtain ⟨parts, hparts, rfl⟩ := Option.map_eq_some_iff.mp h
    clear h
    rw [declaredExports]
    induction mapM_eq_some_iff.mp hparts with
    | nil => rfl
    | cons hfirst hrest ih =>
        rw [List.flatMap_cons, List.flatten_cons, List.filter_append, List.map_append,
          ih (mapM_eq_some_iff.mpr hrest)]
        refine congrArg (· ++ _) ?_
        rw [Node.declaratorBindings?.eq_def] at hfirst
        split at hfirst
        · exact singleNames_of_bindings? hfirst
        · cases hfirst
  · rename_i hvariable
    simp only [Option.bind_eq_bind, Option.bind_eq_some_iff] at h
    obtain ⟨name, hname, found, hfound, heq⟩ := h
    cases heq
    have hnames : declaredExports declaration = declaredNames declaration := by
      rw [declaredExports.eq_def]
      split
      · exact absurd rfl (hvariable _ _ _ _)
      · rfl
    rw [hnames, declaredNames_of_nameOf? hname, boundNames_of_optionalName? hfound]
    cases found <;> rfl

/-! ## Exports that stand for entries -/

/-- The import record of a request that a declaration makes. -/
def ImportRecord.ofRequest (request : ModuleRequest) : ImportRecord :=
  ⟨request.specifier, .declaration, request.place⟩

/-- Whether an export of a view stands for an export entry. -/
def Export.StandsFor (records : List ImportRecord) : Export → ExportEntry → Prop
  | .ofLocal exported localName, .own name own _ =>
    exported = name ∧ localName = own.getD defaultLocal
  | .passedOn exported record imported, .passedOn name request other =>
    exported = name ∧ imported = .ofName other ∧ records[record]? = some (.ofRequest request)
  | .passedOn exported record imported, .whole name request =>
    exported = name ∧ imported = .whole ∧ records[record]? = some (.ofRequest request)
  | _, _ => False

/-- What has been found of some exports stands for some export entries, in their order: each
export for one entry, and each star for the export of all of another module. -/
structure Exporting (records : List ImportRecord) (exports : List Export) (stars : List Nat)
    (entries : List ExportEntry) : Prop where
  exports : List.Forall₂ (Export.StandsFor records) exports
    (entries.filter fun entry => entry.star?.isNone)
  stars : List.Forall₂ (fun record request => records[record]? = some (.ofRequest request)) stars
    (entries.filterMap ExportEntry.star?)

namespace Exporting

variable {records more : List ImportRecord} {exports otherExports : List Export}
variable {stars otherStars : List Nat} {entries otherEntries : List ExportEntry}

theorem nil : Exporting records [] [] [] := ⟨.nil, .nil⟩

theorem append (h : Exporting records exports stars entries)
    (hother : Exporting records otherExports otherStars otherEntries) :
    Exporting records (exports ++ otherExports) (stars ++ otherStars)
      (entries ++ otherEntries) where
  exports := by
    rw [List.filter_append]
    exact List.rel_append h.exports hother.exports
  stars := by
    rw [List.filterMap_append]
    exact List.rel_append h.stars hother.stars

/-- Records that are there stay where they are. -/
theorem grow (h : Exporting records exports stars entries) (hmore : records <+: more) :
    Exporting more exports stars entries := by
  have hkept : ∀ {record : Nat} {found : ImportRecord}, records[record]? = some found →
      more[record]? = some found := by
    intro record found hfound
    obtain ⟨behind, rfl⟩ := hmore
    rw [List.getElem?_append_left (List.getElem?_eq_some_iff.mp hfound).1, hfound]
  refine ⟨h.exports.imp ?_, h.stars.imp fun _ _ => hkept⟩
  intro binding entry hstands
  unfold Export.StandsFor at hstands ⊢
  split at hstands
  · exact hstands
  · exact ⟨hstands.1, hstands.2.1, hkept hstands.2.2⟩
  · exact ⟨hstands.1, hstands.2.1, hkept hstands.2.2⟩
  · exact hstands.elim

/-- Exports that are found item by item. -/
theorem flatMap {give : Node → Option ExportEntry} {names : Node → List Export}
    (hone : ∀ node entry, give node = some entry →
      Exporting records (names node) [] (outsideRests [entry]))
    {nodes : List Node} (h : nodes.mapM give = some entries) :
    Exporting records (nodes.flatMap names) [] (outsideRests entries) := by
  induction mapM_eq_some_iff.mp h with
  | nil => exact .nil
  | @cons node entry nodes entries hfirst hrest ih =>
      have hboth := (hone node entry hfirst).append (ih (mapM_eq_some_iff.mpr hrest))
      rwa [← outsideRests_append] at hboth

/-- The export of a binding of the module. -/
theorem own (records : List ImportRecord) (exported : String) (name : Option String) :
    Exporting records [.ofLocal exported (name.getD defaultLocal)] []
      [.own exported name false] :=
  ⟨.cons ⟨rfl, rfl⟩ .nil, .nil⟩

/-- The names that a declaration binds outside of rests are exported. -/
theorem ofBound (records : List ImportRecord) (bound : List BoundName) :
    Exporting records
      (((bound.filter fun name => !name.inRest).map BoundName.name).map fun name => .ofLocal name name)
      [] (outsideRests (bound.map ExportEntry.ofBound)) := by
  induction bound with
  | nil => exact .nil
  | cons first rest ih =>
      obtain ⟨name, inRest⟩ := first
      cases inRest with
      | true => exact ih
      | false => exact (own records name (some name)).append ih

end Exporting

/-! ## One declaration -/

namespace Findings

variable {records : List ImportRecord} {entries : List ExportEntry}

/-- An import whose source is a request gets the record of the request. -/
theorem addImport_of_request? (findings : Findings) (span : Span) {source : Node}
    {request : ModuleRequest} (h : source.request? = some request)
    (bindings : List ImportedBinding) :
    findings.addImport span source bindings =
      (findings.addRecord (.ofRequest request)).addEdit
        (.importing span findings.nextRecord bindings) := by
  rw [Node.request?.eq_def] at h
  split at h
  · cases h
    rfl
  · cases h

/-- The names of a list with a source. -/
theorem exporting_passedOnNames {specifiers : List Node} {request : ModuleRequest} {record : Nat}
    (hrecord : records[record]? = some (.ofRequest request))
    (h : specifiers.mapM (Node.passedOnEntry? request) = some entries) :
    Exporting records (specifiers.flatMap (passedOnNames record)) [] (outsideRests entries) := by
  refine .flatMap (fun specifier entry hentry => ?_) h
  rw [Node.passedOnEntry?.eq_def] at hentry
  split at hentry
  · cases hentry
    exact ⟨.cons ⟨rfl, rfl, hrecord⟩ .nil, .nil⟩
  · cases hentry

/-- The names of a list without a source. -/
theorem exporting_localNames (records : List ImportRecord) {specifiers : List Node}
    (h : specifiers.mapM Node.ownEntry? = some entries) :
    Exporting records (specifiers.flatMap localNames) [] (outsideRests entries) := by
  refine .flatMap (fun specifier entry hentry => ?_) h
  rw [Node.ownEntry?.eq_def] at hentry
  split at hentry
  · cases hentry
    exact ⟨.cons ⟨rfl, rfl⟩ .nil, .nil⟩
  · cases hentry

/-- What is in the place of a name is no name unless it is a binding. -/
theorem join_optionalName? {name : Node} (h : ∀ text span parts, name ≠ ⟨.binding text, span, parts⟩) :
    name.optionalName?.join = none := by
  rw [Node.optionalName?.eq_def]
  split
  · exact absurd rfl (h _ _ _)
  · rfl
  · rfl

/-- A default export has a name of its own if it is declared by one. -/
theorem defaultName?_eq (value : Node) : defaultName? value = value.defaultName? := by
  rw [Findings.defaultName?.eq_def]
  split
  · rfl
  · rfl
  · rename_i hfunction hclass
    rw [Node.defaultName?, Node.nameOf?.eq_def]
    split
    · exact (join_optionalName? fun _ _ _ hname => hfunction _ _ _ _ _ _ _ (by rw [hname])).symm
    · exact (join_optionalName? fun _ _ _ hname => hclass _ _ _ _ _ _ _ (by rw [hname])).symm
    · rfl

/-- What has been found stands for some export entries. -/
def Exports (findings : Findings) (entries : List ExportEntry) : Prop :=
  Exporting findings.records findings.exports findings.stars entries

variable {findings : Findings} {before : List ExportEntry}

theorem Exports.append (h : findings.Exports before) {exports : List Export} {stars : List Nat}
    (hmore : Exporting findings.records exports stars entries) :
    Exports { findings with
      exports := findings.exports ++ exports
      stars := findings.stars ++ stars } (before ++ entries) :=
  Exporting.append h hmore

/-- An import adds no exports of its own. -/
theorem Exports.addImport (h : findings.Exports before) (span : Span) (source : Node)
    (bindings : List ImportedBinding) : (findings.addImport span source bindings).Exports before := by
  rw [Findings.addImport.eq_def]
  split
  · exact h.grow (List.prefix_append _ _)
  · exact h

/-- The record of an import that will be added next. -/
theorem exports_addImport (exports : List Export) (stars : List Nat)
    (h : findings.Exports before) {source : Node} {request : ModuleRequest} (hrequest : source.request? = some request)
    (hmore : ∀ records : List ImportRecord,
      records[findings.nextRecord]? = some (.ofRequest request) →
        Exporting records exports stars entries)
    (span : Span) (bindings : List ImportedBinding) :
    Exports (addImport { findings with
        exports := findings.exports ++ exports
        stars := findings.stars ++ stars } span source bindings) (before ++ entries) := by
  rw [addImport_of_request? _ span hrequest]
  exact Exporting.append (h.grow (List.prefix_append _ _)) (hmore _ List.getElem?_concat_length)

theorem exists_attributes_of_list {typeOnly : Bool} {span : Span} {specifiers source : Node}
    {rest : List Node}
    (h : Node.exportEntries? ⟨.exportNamed typeOnly, span, specifiers :: source :: rest⟩ =
      some entries) : ∃ attributes, rest = [attributes] := by
  rcases rest with _ | ⟨attributes, _ | _⟩
  · cases h
  · exact ⟨attributes, rfl⟩
  · cases h

theorem exists_attributes_of_all {exported : Option ModuleName} {typeOnly : Bool} {span : Span}
    {source : Node} {rest : List Node}
    (h : Node.exportEntries? ⟨.exportAll exported typeOnly, span, source :: rest⟩ = some entries) :
    ∃ attributes, rest = [attributes] := by
  rcases rest with _ | ⟨attributes, _ | _⟩
  · cases h
  · exact ⟨attributes, rfl⟩
  · cases h

/-- What a declaration exports stands for its export entries. -/
theorem Exports.addDeclaration (h : findings.Exports before) {node : Node}
    (hentries : node.exportEntries? = some entries) :
    (findings.addDeclaration node).Exports (before ++ outsideRests entries) := by
  have hmarked : Exports { findings with hasDeclarations := true } before := h
  rw [Findings.addDeclaration.eq_def]
  dsimp only
  split
  · cases hentries
    rw [outsideRests, List.filter_nil, List.append_nil]
    exact hmarked.addImport _ _ _
  · rename_i typeOnly span specifiers source rest
    obtain ⟨attributes, rfl⟩ := exists_attributes_of_list hentries
    rw [Node.exportEntries?] at hentries
    split
    · rename_i hpresent
      rw [if_pos hpresent] at hentries
      obtain ⟨request, hrequest, hnames⟩ := Option.bind_eq_some_iff.mp hentries
      have hall := exports_addImport _ [] hmarked hrequest
        (fun _ hrecord => exporting_passedOnNames hrecord hnames) span []
      rwa [List.append_nil] at hall
    · rename_i hmissing
      rw [if_neg hmissing] at hentries
      have hall := hmarked.append (exporting_localNames findings.records hentries)
      rwa [List.append_nil] at hall
  · obtain ⟨bound, hbound, rfl⟩ := Option.map_eq_some_iff.mp hentries
    rw [declaredExports_of_declares? hbound]
    have hall := hmarked.append (.ofBound findings.records bound)
    rwa [List.append_nil] at hall
  · cases hentries
    rw [← defaultName?_eq]
    split
    · rename_i name hname
      rw [hname]
      have hall := hmarked.append (Exporting.own findings.records "default" (some name))
      rwa [List.append_nil] at hall
    · rename_i hname
      rw [hname]
      have hall := hmarked.append (Exporting.own findings.records "default" none)
      rwa [List.append_nil] at hall
  · rename_i exported typeOnly span source rest
    obtain ⟨attributes, rfl⟩ := exists_attributes_of_all hentries
    obtain ⟨request, hrequest, rfl⟩ := Option.map_eq_some_iff.mp hentries
    have hmore : ∀ records : List ImportRecord,
        records[findings.nextRecord]? = some (.ofRequest request) →
          Exporting records [.passedOn exported.text findings.nextRecord .whole] []
            [.whole exported.text request] :=
      fun _ hrecord => ⟨.cons ⟨rfl, rfl, hrecord⟩ .nil, .nil⟩
    have hall := exports_addImport _ [] hmarked hrequest hmore span []
    rwa [List.append_nil] at hall
  · rename_i typeOnly span source rest
    obtain ⟨attributes, rfl⟩ := exists_attributes_of_all hentries
    obtain ⟨request, hrequest, rfl⟩ := Option.map_eq_some_iff.mp hentries
    have hmore : ∀ records : List ImportRecord,
        records[findings.nextRecord]? = some (.ofRequest request) →
          Exporting records [] [findings.nextRecord] [.star request] :=
      fun _ hrecord => ⟨.nil, .cons hrecord .nil⟩
    have hall := exports_addImport [] _ hmarked hrequest hmore span []
    rwa [List.append_nil] at hall
  · rename_i himport hnamed hdeclaration hdefault hall hstar
    rw [Node.exportEntries?.eq_def] at hentries
    split at hentries
    · exact absurd rfl (hnamed _ _ _ _ _)
    · exact absurd rfl (hdeclaration _ _)
    · exact absurd rfl (hdefault _ _)
    · rename_i exported _ _ _ _
      cases exported with
      | some name => exact absurd rfl (hall _ _ _ _ _)
      | none => exact absurd rfl (hstar _ _ _ _)
    · cases hentries
    · cases hentries
    · cases hentries
    · cases hentries
    · cases hentries
      rw [outsideRests, List.filter_nil, List.append_nil]
      exact hmarked

/-! ## Whole programs -/

/-- Nothing but declarations of exports has export entries. -/
theorem exportEntries?_of_not_isScanned {node : Node} (h : isScanned node.kind = false) :
    node.exportEntries? = some [] := by
  obtain ⟨kind, span, children⟩ := node
  cases kind <;> first | rfl | cases h

theorem exportEntries?_of_isCall {node : Node} (h : isCall node.kind = true) :
    node.exportEntries? = some [] := by
  obtain ⟨kind, span, children⟩ := node
  cases kind <;> first | rfl | cases h

theorem Exports.declare (h : findings.Exports before) {site : Site}
    (hentries : site.node.exportEntries? = some entries) :
    (Scan.declare findings site).Exports (before ++ outsideRests entries) := by
  rw [Scan.declare]
  split
  · rename_i hcall
    cases (exportEntries?_of_isCall hcall).symm.trans hentries
    rw [outsideRests, List.filter_nil, List.append_nil, addRequire]
    split
    · exact h.grow (List.prefix_append _ _)
    · exact h
  · exact h.addDeclaration hentries

/-- What is found site by site stands for the export entries of the sites. -/
theorem Exports.foldl_declare {sites : List Site} (h : findings.Exports before)
    (hsites : ∀ site ∈ sites, site.node.HasEntries) :
    (sites.foldl Scan.declare findings).Exports
      (before ++ outsideRests (sites.flatMap fun site => site.node.exportEntries?.getD [])) := by
  induction sites generalizing findings before with
  | nil =>
      rw [List.flatMap_nil, outsideRests, List.filter_nil, List.append_nil]
      exact h
  | cons site rest ih =>
      obtain ⟨hsite, hrest⟩ := List.forall_mem_cons.mp hsites
      obtain ⟨entries, hentries⟩ := Option.isSome_iff_exists.mp hsite
      rw [List.flatMap_cons, hentries, Option.getD_some, outsideRests_append, ← List.append_assoc]
      exact ih (h.declare hentries) hrest

end Findings

/-- If the export entries of all nodes can be told, a program has the entries of its sites. -/
theorem exportEntries?_eq {program : Program} (h : ∀ node ∈ program.root.nodes, node.HasEntries) :
    program.exportEntries? =
      some ((program.sites isScanned).flatMap fun site => site.node.exportEntries?.getD []) := by
  have hnodes : program.root.nodes.mapM Node.exportEntries? =
      some (program.root.nodes.map fun node => node.exportEntries?.getD []) := by
    rw [mapM_eq_some_iff, List.forall₂_map_right_iff, List.forall₂_same]
    intro node hnode
    obtain ⟨entries, hentries⟩ := Option.isSome_iff_exists.mp (h node hnode)
    rw [hentries]
    rfl
  have hscanned : program.root.nodes.flatMap (fun node => node.exportEntries?.getD []) =
      (program.root.nodes.filter fun node => isScanned node.kind).flatMap
        fun node => node.exportEntries?.getD [] := by
    induction program.root.nodes with
    | nil => rfl
    | cons node rest ih =>
        rw [List.flatMap_cons, List.filter_cons, ih]
        split
        · rw [List.flatMap_cons]
        · rename_i hother
          rw [Findings.exportEntries?_of_not_isScanned (Bool.eq_false_iff.mpr hother)]
          rfl
  rw [Program.exportEntries?, hnodes, Option.map_some, ← List.flatMap_def, hscanned,
    ← program.sites_nodes, List.flatMap_map]

variable {σ : Type} {program : Program}

/-- The exports of a view are those that the program declares, whatever hooks do. -/
theorem exports_toView (hooks : List (Hook σ)) (program : Program) (state : σ) :
    ((scan hooks program state).1.toView program.source).exports = (declared program).exports ∧
      ((scan hooks program state).1.toView program.source).stars = (declared program).stars := by
  rw [scan_eq, Findings.toView, Findings.addReactions_eq]
  exact ⟨rfl, rfl⟩

/-- If names in rests are missing, there are fewer exports than export entries. -/
theorem Exporting.inRest_eq_false {records : List ImportRecord} {exports : List Export}
    {stars : List Nat} {entries : List ExportEntry}
    (hfound : Exporting records exports stars (outsideRests entries))
    (hall : Exporting records exports stars entries) :
    ∀ entry ∈ entries, entry.inRest = false := by
  have hsublist : ((outsideRests entries).filter fun entry => entry.star?.isNone).Sublist
      (entries.filter fun entry => entry.star?.isNone) := List.filter_sublist.filter _
  have hsame := hsublist.eq_of_length
    (hfound.exports.length_eq.symm.trans hall.exports.length_eq)
  intro entry hentry
  cases entry with
  | own exported localName inRest =>
      have hmem : ExportEntry.own exported localName inRest ∈
          entries.filter fun entry => entry.star?.isNone := List.mem_filter.mpr ⟨hentry, rfl⟩
      rw [← hsame] at hmem
      have hkept := (List.mem_filter.mp (List.mem_filter.mp hmem).1).2
      rwa [Bool.not_eq_true'] at hkept
  | passedOn => rfl
  | whole => rfl
  | star => rfl

/-- The exports and stars of a view stand for the export entries that no rest gives. -/
theorem exists_entries {kind : ModuleKind} {source : String}
    (hread : ModuleSource.read kind source = .ok program) (hooks : List (Hook σ)) (state : σ) :
    let view := (scan hooks program state).1.toView program.source
    ∃ entries, program.exportEntries? = some entries ∧
      Exporting view.records view.exports view.stars (outsideRests entries) := by
  obtain ⟨text, htext⟩ := ModuleSource.read?_of_read hread
  have hregular := (Program.fits_of_read? htext).regular
  rw [Regular, Node.nodesIn, Node.nodesIn, List.append_nil] at hregular
  have hsites : ∀ site ∈ program.sites isScanned, site.node.HasEntries := by
    intro site hsite
    have hnode : site.node ∈ (program.sites isScanned).map Site.node := List.mem_map_of_mem hsite
    rw [program.sites_nodes] at hnode
    exact (hregular _ (List.mem_filter.mp hnode).1).hasEntries
  have hempty : Findings.Exports {} [] := .nil
  have hdeclared := hempty.foldl_declare hsites
  rw [List.nil_append] at hdeclared
  intro view
  obtain ⟨hexports, hstars⟩ := exports_toView hooks program state
  refine ⟨_, exportEntries?_eq fun node hnode => (hregular node hnode).hasEntries, ?_⟩
  rw [hexports, hstars]
  exact hdeclared.grow (Output.records_toView hooks program state)

/-- The exports and stars of every view stand, in the order of the source, for the export
entries of the program that no rest of a pattern gives, whatever hooks do: so they are all of
its entries if and only if no exported pattern binds a name in a rest. -/
theorem exports_stand_for_entries {kind : ModuleKind} {source : String}
    (hread : ModuleSource.read kind source = .ok program) (hooks : List (Hook σ)) (state : σ) :
    let view := (scan hooks program state).1.toView program.source
    ∃ entries, program.exportEntries? = some entries ∧
      Exporting view.records view.exports view.stars (outsideRests entries) ∧
      (Exporting view.records view.exports view.stars entries ↔
        ∀ entry ∈ entries, entry.inRest = false) := by
  obtain ⟨entries, hentries, hfound⟩ := exists_entries hread hooks state
  refine ⟨entries, hentries, hfound, hfound.inRest_eq_false, fun hnone => ?_⟩
  have hsame : outsideRests entries = entries :=
    List.filter_eq_self.mpr fun entry hentry => by rw [hnone entry hentry]; rfl
  rwa [hsame] at hfound

/-- A script with an export of every form: nested patterns with defaults, lists with and
without a source, a default export, and another module as a whole. -/
def manifoldSource : String :=
  "export let \x7ba, k: [b = 1, \x7bc\x7d]\x7d = d; export \x7be as 'f g'\x7d; " ++
    "export default class K \x7b\x7d" ++
    "export \x7bdefault as h\x7d from './h'; export * as n from './n'; export * from './s'"

/-- The export entries of this script. -/
def manifoldEntries : List ExportEntry :=
  [.own "a" (some "a") false, .own "b" (some "b") false, .own "c" (some "c") false,
    .own "f g" (some "e") false, .own "default" (some "K") false,
    .passedOn "h" ⟨"./h", ⟨110, 115⟩⟩ "default",
    .whole "n" ⟨"./n", ⟨136, 141⟩⟩, .star ⟨"./s", ⟨157, 162⟩⟩]

/-- All of these entries are found. -/
theorem exports_stand_for_entries_manifold :
    ∃ program, ModuleSource.read .script manifoldSource = .ok program ∧
      program.exportEntries? = some manifoldEntries ∧
      let view := (scan ([] : List (Hook Unit)) program ()).1.toView program.source
      Exporting view.records view.exports view.stars manifoldEntries := by
  obtain ⟨program, hread, hholds⟩ := @Output.exists_read .script manifoldSource
    (fun program => program.exportEntries? = some manifoldEntries) (by decide +kernel)
  have hentries := of_decide_eq_true hholds
  obtain ⟨entries, hsome, _, hiff⟩ := exports_stand_for_entries hread ([] : List (Hook Unit)) ()
  cases hentries.symm.trans hsome
  exact ⟨program, hread, hentries, hiff.mpr (by decide)⟩

/-- A script that exports a name, and the rest of an array under another one. -/
def restSource : String := "export const [a, ...b] = c;"

/-- The rest is an export of the module, and a scan does not find it. -/
theorem rest_not_exported :
    ∃ program, ModuleSource.read .script restSource = .ok program ∧
      program.exportEntries? = some [.own "a" (some "a") false, .own "b" (some "b") true] ∧
      let view := (scan ([] : List (Hook Unit)) program ()).1.toView program.source
      view.exports = [.ofLocal "a" "a"] ∧
        ∀ entries, program.exportEntries? = some entries →
          ¬ Exporting view.records view.exports view.stars entries := by
  obtain ⟨program, hread, hholds⟩ := @Output.exists_read .script restSource (fun program =>
    program.exportEntries? = some [.own "a" (some "a") false, .own "b" (some "b") true] &&
      ((scan ([] : List (Hook Unit)) program ()).1.toView program.source).exports =
        [.ofLocal "a" "a"]) (by decide +kernel)
  rw [Bool.and_eq_true, decide_eq_true_eq, decide_eq_true_eq] at hholds
  obtain ⟨hentries, hexports⟩ := hholds
  refine ⟨program, hread, hentries, hexports, fun entries hsome hall => ?_⟩
  cases hentries.symm.trans hsome
  have hlength := hall.exports.length_eq
  rw [hexports] at hlength
  cases hlength

end WebBundle.Scan

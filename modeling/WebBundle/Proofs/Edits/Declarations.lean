import WebBundle.Proofs.Edits.Expressions

/-!
# Declarations, imports and exports

An import or an export list is a mark as a whole, and nothing inside of it is scanned.  An
exported declaration is marked in front of what is exported, which begins behind the last
of the words.
-/

namespace WebBundle.Syntax.Grammar

open Reading

variable {source : String} {grammar : Grammar} {origin : Progress}

/-! ## Variables and functions -/

theorem reads_declarator (hgrammar : grammar.Sound source) :
    Reads source true (fun node => [node]) (declarator grammar) := by
  refine .look Looks.position fun start => .begin fun origin => ?_
  refine .bind (.within (.append hgrammar.pattern.reads) fun _ => rfl) fun pattern => ?_
  refine .context fun context hcontext => .skip hcontext (.look looks_typeAnnotation fun _ => ?_)
  have hrest : ∀ value, Triple (Reached source true origin [pattern, value])
      (node .declarator start [pattern, value]) (fun node => Reached source true origin [node]) :=
    fun _ => .node rfl
  refine .pass (Eats.eatMark _).passes fun found => .choose ?_ ?_
  · exact .bind (.within (.append hgrammar.assignment.reads) fun _ => rfl) hrest
  · exact .missing (.value (hrest _))

theorem passes_variableKeyword : Passes source true variableKeyword := by
  refine .look Looks.tokenKind fun kind => Reads.begin fun origin => ?_
  split
  · exact .pass Passes.advance fun _ => .pure fun _ h => h
  · exact .pass Passes.advance fun _ => .pure fun _ h => h
  · exact .pass Passes.advance fun _ => .pure fun _ h => h
  · exact .pass Passes.advance fun _ => .pure fun _ h => h
  · exact .pass Passes.advance fun _ => .pass (Passes.expectWord _) fun _ => .pure fun _ h => h
  · exact .refuse

theorem reads_variableList (hgrammar : grammar.Sound source) :
    Reads source true (fun list => list.2) (variableList grammar) :=
  .begin fun _ => .pass passes_variableKeyword fun _ =>
    .read (.sequenceNodes (reads_declarator hgrammar)) fun _ => .pure fun _ h => h

theorem whole_variableDeclaration (hgrammar : grammar.Sound source) :
    Whole source (variableDeclaration grammar) := by
  refine .begin fun origin => .read (reads_variableList hgrammar) fun ⟨kind, declarators⟩ => ?_
  refine .look Looks.context fun context => .look (Looks.check _) fun _ => ?_
  exact .pass Passes.endStatement fun _ => .held rfl

theorem whole_functionDeclaration (hgrammar : grammar.Sound source) :
    Whole source (functionDeclaration grammar) := by
  intro origin hplaced
  refine .bind (whole_functionExpression hgrammar .declaration origin hplaced) fun function => ?_
  split
  · exact .look (Looks.check _) fun _ => .pure fun _ h => h
  · exact .refuse

/-! ## Declared names -/

theorem bindings_declarator (hgrammar : grammar.Sound source) :
    Gives (declarator grammar) fun node => node.declaratorBindings?.isSome := by
  refine .after fun start => Gives.bind (.within hgrammar.bindings fun _ => rfl) fun pattern h => ?_
  have hnode : ∀ value, Gives (node .declarator start [pattern, value])
      fun node => node.declaratorBindings?.isSome := fun _ => .node fun _ => h
  refine .context fun context hcontext => .skip hcontext (.after fun _ => .after fun _ => ?_)
  exact .choose (.after hnode) (.after hnode)

theorem declares_variableDeclaration (hgrammar : grammar.Sound source) :
    Gives (variableDeclaration grammar) fun node => node.declares?.isSome := by
  have hlist : Gives (variableList grammar) fun list =>
      ∀ node ∈ list.2, node.declaratorBindings?.isSome :=
    .after fun _ => (Gives.commaSequence (bindings_declarator hgrammar)).bind fun _ h => .pure h
  refine .after fun start => hlist.bind fun list hlist => .after fun _ => .after fun _ => ?_
  exact .after fun _ => .node fun _ => by
    rw [Node.declares?, Option.isSome_map]
    exact isSome_mapM hlist

theorem optionalName_bindingName : Gives bindingName fun node => node.optionalName?.isSome :=
  .after fun _ => .after fun _ => .node fun _ => rfl

/-- A declared function or class binds what names it. -/
theorem isSome_declares? {declaration name : Node} (hname : declaration.nameOf? = some name)
    (hoptional : name.optionalName?.isSome) : declaration.declares?.isSome := by
  obtain ⟨found, hfound⟩ := Option.isSome_iff_exists.mp hoptional
  rw [Node.declares?.eq_def]
  split
  · cases hname
  · rw [hname]
    change (Option.bind name.optionalName? _).isSome = true
    rw [hfound]
    rfl

theorem declares_functionExpression :
    Gives (functionExpression grammar .declaration) fun node => node.declares?.isSome := by
  refine .after fun start => .after fun isAsync => .after fun _ => .after fun isGenerator => ?_
  have hname : Gives (do if ← atIdentifier then bindingName else pure Node.missing) fun node =>
      node.optionalName?.isSome := .after fun _ => .choose optionalName_bindingName (.pure rfl)
  refine Gives.bind (.within hname fun _ => rfl) fun name hname => ?_
  exact .after fun parts => .node fun _ => isSome_declares? rfl hname

theorem declares_functionDeclaration :
    Gives (functionDeclaration grammar) fun node => node.declares?.isSome := by
  refine declares_functionExpression.bind fun function hfunction => ?_
  split
  · exact .after fun _ => .pure hfunction
  · exact .refuse

theorem declares_classRest (modifiers : Modifiers) (start : Nat) (decorators : Node) :
    Gives (classRest grammar .declaration modifiers start decorators) fun node =>
      node.declares?.isSome := by
  have hrest : ∀ name : Node, name.optionalName?.isSome → Gives
      (do
        typeParameters grammar
        let superclass ← heritage grammar
        let body ← within (fun context => { context with inDecorator := false }) (classBody grammar)
        node (.classDefinition .declaration modifiers) start [decorators, name, superclass, body])
      fun node => node.declares?.isSome :=
    fun name hname => .after fun _ => .after fun superclass => .after fun body =>
      .node fun _ => isSome_declares? rfl hname
  refine .after fun _ => .after fun context => .after fun atHeritage => .after fun atName => ?_
  exact .choose (optionalName_bindingName.bind hrest) (Triple.value (hrest _ rfl))

/-! ## Names in imports and exports -/

theorem names_bindingName : Names source (fun node => [node]) bindingName :=
  .begin fun _ => .look Looks.position fun _ => .pass passes_identifier fun _ =>
    .named rfl (fun _ => trivial) .nil

theorem names_wordKey : Names source (fun node => [node]) wordKey :=
  .begin fun _ => .look Looks.position fun _ => .pass passes_anyWord fun _ =>
    .named rfl (fun _ => trivial) .nil

theorem names_stringLiteral : Names source (fun node => [node]) stringLiteral := by
  refine .begin fun _ => .look Looks.position fun _ => .look Looks.tokenKind fun kind => ?_
  split
  · exact .pass Passes.advance fun _ => .named rfl (fun _ => rfl) .nil
  · exact .refuse

theorem names_moduleSource : Names source (fun node => [node]) moduleSource := by
  refine .begin fun origin => .name names_stringLiteral fun literal hliteral => ?_
  split
  · exact .pure fun _ h => ⟨h, hliteral⟩
  · exact .refuse

theorem request_moduleSource : Gives moduleSource fun node => node.request?.isSome := by
  refine .after fun literal => ?_
  split
  · rename_i value hkind
    obtain ⟨kind, span, children⟩ := literal
    cases hkind
    exact .pure rfl
  · exact .refuse

theorem names_importAttribute : Names source (fun node => [node]) importAttribute := by
  refine .begin fun origin => .look Looks.position fun start => .look Looks.tokenKind fun kind => ?_
  have hrest : ∀ key, Plain [key] → Triple (Reached source false origin [])
      (do
        expectMark .colon
        node .attribute start [key, ← stringLiteral])
      (fun node progress => Reached source false origin [] progress ∧ Plain [node]) := by
    intro key hkey
    refine .pass (Passes.expectMark _) fun _ => .name names_stringLiteral fun value hvalue => ?_
    exact .named rfl (fun _ => trivial) (hkey.append hvalue)
  split
  · exact .name names_stringLiteral hrest
  · exact .name names_wordKey hrest


theorem names_importAttributes : Names source (fun node => [node]) importAttributes := by
  refine .begin fun origin => .look Looks.position fun start => ?_
  have hrest : ∀ hasAttributes : Bool, Triple (Reached source false origin [])
      (if hasAttributes then do
          let _ ← advance
          expectMark .braceOpen
          let attributes ← commaList .braceClose importAttribute
          expectMark .braceClose
          node .list start attributes
        else return Node.missing)
      (fun node progress => Reached source false origin [] progress ∧ Plain [node]) := by
    refine fun hasAttributes => .choose ?_ (.pure fun _ h => ⟨h, .missing⟩)
    refine .pass Passes.advance fun _ => .pass (Passes.expectMark _) fun _ => ?_
    refine .name (.commaList names_importAttribute) fun attributes hattributes => ?_
    rw [List.flatMap_singleton'] at hattributes
    exact .pass (Passes.expectMark _) fun _ => .named rfl (fun _ => trivial) hattributes
  refine .look (Looks.isPlainWord _) fun found => .choose (.value (hrest true)) ?_
  refine .look Looks.tokenKind fun kind => ?_
  split
  · exact .look Looks.token fun token => .value (hrest _)
  · exact .value (hrest false)

theorem answers_specifierIsType : Answers specifierIsType false :=
  .context fun context hcontext => .look (Looks.isPlainWord _) fun found =>
    .take (by rw [hcontext]; rfl) (.pure false)

theorem answers_eatSpecifierType : Answers eatSpecifierType false :=
  .bind answers_specifierIsType (.skip rfl (.pure false))

theorem names_importSpecifier : Names source (fun node => [node]) importSpecifier := by
  refine .begin fun origin => .look Looks.position fun start => ?_
  refine .answer answers_eatSpecifierType ?_
  refine .look looks_atIdentifier fun canBind => .look Looks.position fun localStart => ?_
  refine .pass passes_moduleName fun imported => .pass (Eats.eatWord _).passes fun renamed => ?_
  have hrest : ∀ localName, Plain [localName] → Triple (Reached source false origin [])
      (node (.importNamed imported false) start [localName])
      (fun node progress => Reached source false origin [] progress ∧ Plain [node]) :=
    fun _ hname => .named rfl (fun _ => trivial) hname
  refine .choose (.name names_bindingName fun name hname => .weaken (hrest name hname)) ?_
  refine .look (Looks.check _) fun _ => .bind (.named rfl (fun _ => trivial) .nil) fun name => ?_
  exact .fact (hrest name)

theorem names_importSpecifiers : Names source (fun nodes => nodes) importSpecifiers := by
  refine .begin fun origin => .pass (Passes.expectMark _) fun _ => ?_
  refine .name (.commaList names_importSpecifier) fun specifiers hspecifiers => ?_
  rw [List.flatMap_singleton'] at hspecifiers
  exact .pass (Passes.expectMark _) fun _ => .pure fun _ h => ⟨h.weaken, hspecifiers⟩

theorem names_importNamespace : Names source (fun node => [node]) importNamespace := by
  refine .begin fun origin => .look Looks.position fun start => ?_
  refine .pass (Passes.expectMark _) fun _ => .pass (Passes.expectWord _) fun _ => ?_
  exact .name names_bindingName fun name hname => .named rfl (fun _ => trivial) hname

theorem names_importClause : Names source (fun node => [node]) importClause := by
  refine .begin fun origin => .look Looks.position fun start => ?_
  have hrest : ∀ specifiers, Plain specifiers → Triple (Reached source false origin [])
      (node .list start specifiers)
      (fun node progress => Reached source false origin [] progress ∧ Plain [node]) :=
    fun _ hspecifiers => .named rfl (fun _ => trivial) hspecifiers
  refine .look (Looks.isMark _) fun atBrace => .look (Looks.isMark _) fun atStar => ?_
  refine .choose (.name names_importSpecifiers hrest) (.choose ?_ ?_)
  · exact .name names_importNamespace fun name hname => .value (hrest _ hname)
  · refine .name names_bindingName fun name hname => ?_
    refine .bind (.named rfl (fun _ => trivial) hname) fun first => .fact fun hfirst => ?_
    refine .pass (Eats.eatMark _).passes fun found => .choose ?_ (.value (hrest _ hfirst))
    refine .look (Looks.isMark _) fun atNamespace => .choose ?_ ?_
    · exact .name names_importNamespace fun other hother =>
        .value (hrest _ (hfirst.append hother))
    · exact .name names_importSpecifiers fun others hothers =>
        .value (hrest _ (hfirst.append hothers))

/-! ## Imports -/

theorem reads_importRest (typeOnly : Bool) (phase : String) :
    Triple (Reached source true origin []) (importRest origin.here typeOnly phase)
      fun node => Reached source true origin [node] := by
  refine .name names_importClause fun clause hclause => .pass (Passes.expectWord _) fun _ => ?_
  refine .name names_moduleSource fun name hname => ?_
  refine .name names_importAttributes fun attributes hattributes => ?_
  refine .pass Passes.endStatement fun _ => .marked (fun _ => rfl) (fun _ => trivial) ?_
  exact hclause.append (hname.append hattributes)

theorem reads_importDeclaration :
    Reads source true (fun node => [node]) (importDeclaration false) := by
  intro origin hplaced
  refine .here fun progress hprogress => ?_
  subst hprogress
  refine .reach hplaced (.pass (Passes.expectWord _) fun _ => .look Looks.tokenKind fun kind => ?_)
  split
  · refine .name names_moduleSource fun name hname => ?_
    refine .name names_importAttributes fun attributes hattributes => ?_
    refine .pass Passes.endStatement fun _ => .marked (fun _ => rfl) (fun _ => trivial) ?_
    exact Plain.missing.append (hname.append hattributes)
  · refine .context fun context hcontext => .look Looks.peek fun next => ?_
    refine .skip (by rw [hcontext]; rfl) (.value ?_)
    refine .look looks_atIdentifier fun atName => .look Looks.peek fun second => ?_
    refine .skip (by rw [hcontext]; rfl) (.look (Looks.check _) fun _ => ?_)
    split
    · exact .pass Passes.advance fun _ => reads_importRest _ _
    · exact .choose (.pass Passes.advance fun _ => reads_importRest _ _) (reads_importRest _ _)
    · exact reads_importRest _ _

/-! ## Lists of exports -/

theorem names_exportSpecifier : Names source (fun found => [found.1]) exportSpecifier := by
  refine .begin fun origin => .look Looks.position fun start => ?_
  refine .answer answers_eatSpecifierType (.look looks_atIdentifier fun canRefer => ?_)
  refine .pass passes_moduleName fun localName => .pass (Eats.eatWord _).passes fun renamed => ?_
  have hrest : ∀ exported, Triple (Reached source false origin [])
      (do return (← node (.exportSpecifier localName exported false) start [], canRefer))
      (fun found progress => Reached source false origin [] progress ∧ Plain [found.1]) :=
    fun exported => .bind (.named rfl (fun _ => trivial) .nil) fun node => .pure fun _ h => h
  refine .choose ?_ (.value (.weaken (hrest localName)))
  exact .pass passes_moduleName fun exported => .weaken (hrest exported)

/-- Whether a name in an export list has an entry, with or without a source of the list. -/
def HasEntry (specifier : Node) : Prop :=
  specifier.ownEntry?.isSome ∧ ∀ request, (specifier.passedOnEntry? request).isSome

theorem entry_exportSpecifier : Gives exportSpecifier fun found => HasEntry found.1 := by
  refine .after fun start => .after fun typeOnly => .after fun canRefer => ?_
  have hrest : ∀ localName exported, Gives
      (do return (← node (.exportSpecifier localName exported typeOnly) start [], canRefer))
      fun found => HasEntry found.1 := fun localName exported =>
    Gives.bind (.node fun _ => ⟨rfl, fun _ => rfl⟩) fun node (hnode : HasEntry node) => .pure hnode
  refine .after fun localName => .after fun renamed => .choose ?_ ?_
  · exact .after fun exported => hrest localName exported
  · exact hrest localName localName

/-- A list of names has export entries if its source is a request or is missing. -/
theorem hasEntries_exportNamed {typeOnly : Bool} {specifiers : List Node} {source : Node}
    (hspecifiers : ∀ specifier ∈ specifiers, HasEntry specifier)
    (hsource : source.request?.isSome ∨ source = Node.missing) (kind : Kind) (span place : Span)
    (attributes : Node) :
    Node.HasEntries ⟨.exportNamed typeOnly, span, [⟨kind, place, specifiers⟩, source, attributes]⟩ := by
  rw [Node.HasEntries, Node.exportEntries?]
  rcases hsource with hsource | rfl
  · obtain ⟨request, hrequest⟩ := Option.isSome_iff_exists.mp hsource
    split
    · rw [hrequest]
      exact isSome_mapM fun specifier hmem => (hspecifiers specifier hmem).2 request
    · exact isSome_mapM fun specifier hmem => (hspecifiers specifier hmem).1
  · exact isSome_mapM fun specifier hmem => (hspecifiers specifier hmem).1

theorem reads_exportList (typeOnly : Bool) :
    Triple (Reached source true origin []) (exportList origin.here typeOnly)
      fun node => Reached source true origin [node] := by
  refine .look Looks.position fun start => .pass (Passes.expectMark _) fun _ => ?_
  refine .nameGiving (.commaList names_exportSpecifier) (.commaList entry_exportSpecifier)
    fun specifiers hspecifiers hentries => ?_
  rw [← List.map_eq_flatMap] at hspecifiers
  refine .pass (Passes.expectMark _) fun _ => ?_
  have hlist : Names source (fun node => [node]) (node .list start (specifiers.map Prod.fst)) :=
    .begin fun _ => .named rfl (fun _ => trivial) hspecifiers
  have hplace : Gives (node .list start (specifiers.map Prod.fst)) fun node =>
      ∃ place, node = ⟨.list, place, specifiers.map Prod.fst⟩ := .node fun place => ⟨place, rfl⟩
  refine .nameGiving hlist hplace fun list hlist ⟨place, heq⟩ => ?_
  subst heq
  refine .pass (Eats.eatWord _).passes fun hasSource => ?_
  have hrest : ∀ name attributes, Plain [name] → Plain [attributes] →
      name.request?.isSome ∨ name = Node.missing →
      Triple (Reached source true origin [])
        (do
          endStatement
          node (.exportNamed typeOnly) origin.here
            [⟨.list, place, specifiers.map Prod.fst⟩, name, attributes])
        fun node => Reached source true origin [node] := by
    intro name attributes hname hattributes hsource
    refine .pass Passes.endStatement fun _ => .marked (fun _ => rfl) (fun _ => ?_) ?_
    · exact hasEntries_exportNamed (List.forall_mem_map.mpr hentries) hsource _ _ _ _
    · exact hlist.append (hname.append hattributes)
  refine .choose ?_ (.look (Looks.check _) fun _ =>
    .value (hrest _ _ .missing .missing (.inr rfl)))
  refine .nameGiving names_moduleSource request_moduleSource fun name hname hrequest => ?_
  exact .name names_importAttributes fun attributes hattributes =>
    .value (hrest name attributes hname hattributes (.inl hrequest))

theorem reads_exportAll (typeOnly : Bool) :
    Triple (Reached source true origin []) (exportAll origin.here typeOnly)
      fun node => Reached source true origin [node] := by
  refine .pass (Passes.expectMark _) fun _ => .pass (Eats.eatWord _).passes fun renamed => ?_
  have hrest : ∀ exported, Triple (Reached source true origin [])
      (do
        expectWord .from_
        let name ← moduleSource
        let attributes ← importAttributes
        endStatement
        node (.exportAll exported typeOnly) origin.here [name, attributes])
      fun node => Reached source true origin [node] := by
    refine fun exported => .pass (Passes.expectWord _) fun _ => ?_
    refine .nameGiving names_moduleSource request_moduleSource fun name hname hrequest => ?_
    refine .name names_importAttributes fun attributes hattributes => ?_
    refine .pass Passes.endStatement fun _ => .marked (fun _ => rfl) (fun _ => ?_) ?_
    · rwa [Node.Regular, Node.HasEntries, Node.exportEntries?, Option.isSome_map]
    · exact hname.append hattributes
  refine .choose ?_ (.value (hrest none))
  exact .pass passes_moduleName fun exported => .value (hrest (some exported))

/-! ## Exported declarations -/

/-- What is exported has been read.  It begins behind the words of the export, but it may
stand for nodes in front of them as well. -/
structure Exported (source : String) (middle : Progress) (before : List Node) (inner : Node)
    (progress : Progress) : Prop where
  start : inner.span.start = middle.here
  parts : ∃ others, Reached source true middle others progress ∧ Like (before ++ others) [inner]

variable {middle final : Progress} {before : List Node} {inner : Node} {more : Bool}

theorem Exported.ofHeld (h : Held source middle middle.here inner final) :
    Exported source middle [] inner final where
  start := by rw [h.span_eq]
  parts := ⟨[inner], h.toReached, .refl _⟩

theorem Exported.endStatement {rest : Unit → Reading Node} {post : Node → Progress → Prop}
    (h : Triple (Exported source middle before inner) (rest ()) post) :
    Triple (Exported source middle before inner) (Reading.endStatement >>= rest) post := by
  refine .through (fun _ => Exported source middle before inner) ?_ fun _ => h
  intro context progress value last hcontext hpre hread
  obtain ⟨others, hothers, hlike⟩ := hpre.parts
  have hpassed := Passes.endStatement progress hothers.placed _ _ _ _ hcontext rfl hread
  exact ⟨hpre.start, others, hothers.pass hpassed, hlike⟩

/-- The mark of an export is what stands in front of what is exported. -/
theorem reads_exported {kind : Kind} {start : Progress}
    (hkind : kind = .exportDeclaration ∨ kind = .exportDefault)
    (hbefore : Reached source false origin before start)
    (hwords : Reached source true start [] middle) (inner : Node)
    (hregular : ∀ span, Node.Regular ⟨kind, span, [inner]⟩) :
    Triple (Exported source middle before inner) (node kind start.here [inner])
      fun node => Reached source true origin [node] := by
  intro context progress value last _ hpre hread
  cases hread
  obtain ⟨hstart, others, hothers, hlike⟩ := hpre
  have hcovers : Span.Covers source start.here middle.here ⟨start.here, middle.here⟩ := {
    lo_le := Nat.le_refl _
    lt := Nat.lt_of_lt_of_le (hwords.here_lt rfl) hwords.placed.le
    le_hi := Nat.le_refl _
    start := hwords.begins.token.start.isValid
    stop := hwords.placed.token.start.isValid }
  have hall : Reached source true origin (before ++ others) progress :=
    hbefore.trans (hwords.trans hothers)
  refine hall.exchange (hbefore.fits.behindWords hcovers hothers.fits hbefore.here_le
    hothers.here_le hlike ?_ (hregular _))
  rw [← hstart]
  rcases hkind with rfl | rfl <;> rfl

theorem declares_exportedClass (decorators : Option Node) :
    Gives (exportedClass grammar decorators) fun node => node.declares?.isSome := by
  cases decorators with
  | none =>
      refine .after fun _ => .after fun _ => .context fun context hcontext => .skip hcontext ?_
      exact Triple.value (declares_classRest _ _ _)
  | some decorators =>
      refine .after fun _ => .context fun context hcontext => .skip hcontext ?_
      exact Triple.value (declares_classRest _ _ _)

theorem reads_exportedClass (hgrammar : grammar.Sound source) (decorators : Option Node)
    (hplaced : middle.Placed source) (post : Node → Progress → Prop) {rest : Node → Reading Node}
    (hrest : ∀ inner, inner.declares?.isSome →
      Triple (Exported source middle decorators.toList inner) (rest inner) post) :
    Triple (· = middle) (exportedClass grammar decorators >>= rest) post := by
  refine .giving _ (declares_exportedClass decorators) ?_ hrest
  cases decorators with
  | none =>
      exact (whole_classDefinition hgrammar .declaration {} middle hplaced).mono (fun _ h => h)
        fun _ _ h => .ofHeld h
  | some decorators =>
      refine .here fun progress hprogress => ?_
      subst hprogress
      refine .context fun context hcontext => .skip hcontext (.value (.reach hplaced ?_))
      refine (classRest_behind hgrammar _ _ _ decorators []).mono (fun _ h => h) ?_
      rintro inner last ⟨hspan, others, hothers, hlike⟩
      exact ⟨by rw [hspan], others, hothers, hlike⟩

theorem looks_atClass : Looks atClass := by
  refine (Looks.isMark _).bind fun atSign => (Looks.isPlainWord _).bind fun found => ?_
  refine .choose (.pure _) (Looks.peek.bind fun next => Looks.context.bind fun context => ?_)
  exact (Looks.isPlainWord _).bind fun _ => .pure _

theorem reads_exportDefault (hgrammar : grammar.Sound source) {start : Progress}
    (decorators : Option Node) (hbefore : Reached source false origin decorators.toList start) :
    Triple (Reached source true start []) (exportDefault grammar start.here decorators)
      fun node => Reached source true origin [node] := by
  refine .pass (Passes.expectWord _) fun _ => .look Looks.peek fun next => ?_
  refine .look looks_atClass fun atClass => .fixed fun middle hwords => ?_
  have hexport := fun inner => reads_exported (.inr rfl) hbefore hwords inner fun _ => rfl
  refine .choose (reads_exportedClass hgrammar decorators hwords.placed _ fun inner _ =>
    hexport inner) ?_
  cases decorators with
  | some _ => exact .fail rfl
  | none =>
      refine .look (Looks.check _) fun _ => .context fun context hcontext => ?_
      refine .look (Looks.isPlainWord _) fun _ => .look (Looks.isPlainWord _) fun atFunction => ?_
      refine .look looks_atAsyncFunction fun atAsync => .choose ?_ (.skip ?_ ?_)
      · refine .bind (whole_functionExpression hgrammar _ middle hwords.placed) fun inner => ?_
        exact (hexport inner).mono (fun _ h => .ofHeld h) fun _ _ h => h
      · rw [hcontext]
        rfl
      · refine .bind (.within (hgrammar.assignment middle hwords.placed) fun _ => rfl) fun inner => ?_
        exact (Exported.endStatement (hexport inner)).mono (fun _ h => .ofHeld h) fun _ _ h => h

theorem answers_atTypedDeclaration : Answers atTypedDeclaration false :=
  .context fun _ hcontext => .take (by rw [hcontext]; rfl) (.pure false)

theorem answers_atExportedType : Answers atExportedType false := by
  refine .context fun context hcontext => .look (Looks.isPlainWord _) fun _ => ?_
  refine .look (Looks.isPlainWord _) fun _ => .look (Looks.isPlainWord _) fun _ => ?_
  refine .look (Looks.isPlainWord _) fun _ => ?_
  rw [hcontext]
  exact .pure false

theorem answers_typedExport (start : Nat) : Answers (typedExport grammar start) none :=
  .context fun _ hcontext => .take (by rw [hcontext]; rfl) (.pure none)

theorem whole_exportableDeclaration (hgrammar : grammar.Sound source) :
    Whole source (exportableDeclaration grammar) := by
  intro origin hplaced
  refine .answer answers_atTypedDeclaration (.answer answers_atExportedType (.skip rfl ?_))
  refine .look Looks.tokenKind fun kind => ?_
  split
  · exact whole_variableDeclaration hgrammar origin hplaced
  · exact whole_variableDeclaration hgrammar origin hplaced
  · exact whole_variableDeclaration hgrammar origin hplaced
  · exact whole_functionDeclaration hgrammar origin hplaced
  · exact .look looks_atAsyncFunction fun found => .look (Looks.check found) fun _ =>
      whole_functionDeclaration hgrammar origin hplaced

theorem declares_exportableDeclaration (hgrammar : grammar.Sound source) :
    Gives (exportableDeclaration grammar) fun node => node.declares?.isSome := by
  refine Triple.answer answers_atTypedDeclaration (.answer answers_atExportedType ?_)
  refine .skip rfl (Gives.after fun kind => ?_)
  split
  · exact declares_variableDeclaration hgrammar
  · exact declares_variableDeclaration hgrammar
  · exact declares_variableDeclaration hgrammar
  · exact declares_functionDeclaration
  · exact .after fun _ => .after fun _ => declares_functionDeclaration

/-- An export, with the decorators that have been read in front of it. -/
theorem reads_exportDeclaration (hgrammar : grammar.Sound source) (decorators : Option Node) :
    Triple (Reached source false origin decorators.toList) (exportDeclaration grammar decorators)
      fun node => Reached source true origin [node] := by
  refine .here fun start hbefore => .reach hbefore.placed (.pass (Passes.expectWord _) fun _ => ?_)
  refine .look (Looks.isWord _) fun isDefault => .choose ?_ ?_
  · exact reads_exportDefault hgrammar decorators hbefore
  · refine .look looks_atClass fun atClass => .fixed fun middle hwords => ?_
    have hexport : ∀ inner : Node, inner.declares?.isSome → Triple
        (Exported source middle decorators.toList inner) (node .exportDeclaration start.here [inner])
        fun node => Reached source true origin [node] := fun inner hinner =>
      reads_exported (.inl rfl) hbefore hwords inner fun _ => by
        rwa [Node.Regular, Node.HasEntries, Node.exportEntries?, Option.isSome_map]
    refine .choose (reads_exportedClass hgrammar decorators hwords.placed _ hexport) ?_
    cases decorators with
    | some _ => exact .fail rfl
    | none =>
        have hlist : ∀ {reader : Reading Node},
            Triple (Reached source true start []) reader
              (fun node => Reached source true start [node]) →
            Triple (· = middle) reader fun node => Reached source true origin [node] :=
          fun hreader => hreader.mono (fun _ h => h ▸ hwords) fun _ _ h => hbefore.trans h
        refine .look (Looks.check _) fun _ => .answer (answers_typedExport start.here) ?_
        refine .look (Looks.isMark _) fun atList => .choose (hlist (reads_exportList _)) ?_
        refine .look (Looks.isMark _) fun atStar => .choose (hlist (reads_exportAll _)) ?_
        refine .giving _ (declares_exportableDeclaration hgrammar)
          (whole_exportableDeclaration hgrammar middle hwords.placed) fun inner hinner => ?_
        exact (hexport inner hinner).mono (fun _ h => .ofHeld h) fun _ _ h => h

end WebBundle.Syntax.Grammar

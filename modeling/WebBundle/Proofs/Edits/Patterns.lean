import WebBundle.Proofs.Edits.Reading
import WebBundle.Syntax.Program

/-!
# Names and patterns

The readers of names, patterns and parameters, over readers of the nested constructs that
are described in the same way.  A name is a node that covers one token.
-/

namespace WebBundle.Syntax

open Reading

/-- What the readers of the nested constructs are taken to do.  A statement may consist of
less than its tokens: decorators stand in front of the export of their class. -/
structure Grammar.Sound (source : String) (grammar : Grammar) : Prop where
  statement : ∀ single, Reads source true (fun node => [node]) (grammar (.statement single))
  assignment : Whole source (grammar .assignment)
  operators : ∀ level, Whole source (grammar (.operators level))
  unary : Whole source (grammar .unary)
  leftHand : Whole source (grammar .leftHand)
  pattern : Whole source (grammar .pattern)
  /-- The names that a pattern binds can be told. -/
  bindings : Gives (grammar .pattern) fun node => node.bindings?.isSome

namespace Grammar

variable {source : String} {grammar : Grammar} {α : Type}

/-! ## Types -/

theorem looks_typeAnnotation : Looks ( typeAnnotation grammar) :=
  (Answers.context fun _ hcontext => .skip hcontext (.pure _)).looks

theorem looks_typeParameters : Looks (typeParameters grammar) :=
  (Answers.context fun _ hcontext => .look (Looks.isMark _) fun _ =>
    .skip (by rw [hcontext]; rfl) (.pure _)).looks

/-! ## Names -/

theorem looks_atIdentifier : Looks atIdentifier := by
  refine Looks.tokenKind.bind fun kind => ?_
  split
  · exact Looks.context.bind fun _ => .pure _
  · exact .pure _

theorem passes_anyWord : Passes source true anyWord := by
  refine .begin fun origin => .look Looks.tokenKind fun kind => ?_
  split
  · exact .pass Passes.advance fun _ => .pure fun _ h => h
  · exact .refuse

theorem passes_identifier : Passes source true identifier :=
  .look looks_atIdentifier fun found => .look (Looks.check found) fun _ => passes_anyWord

theorem whole_reference : Whole source reference :=
  .begin fun _ => .pass passes_identifier fun _ => .leaf rfl fun _ => rfl

theorem whole_bindingName : Whole source bindingName :=
  .begin fun _ => .pass passes_identifier fun _ => .leaf rfl fun _ => trivial

theorem whole_wordKey : Whole source wordKey :=
  .begin fun _ => .pass passes_anyWord fun _ => .leaf rfl fun _ => trivial

theorem whole_stringLiteral : Whole source stringLiteral := by
  refine .begin fun _ => .look Looks.tokenKind fun kind => ?_
  split
  · exact .pass Passes.advance fun _ => .leaf rfl fun _ => rfl
  · exact .refuse

theorem reads_propertyKey (hgrammar : grammar.Sound source) :
    Reads source true (fun key => [key.1]) (propertyKey grammar) := by
  refine .look Looks.position fun start => .look Looks.tokenKind fun kind => .begin fun origin => ?_
  split
  · exact .read whole_wordKey.reads fun _ => .pure fun _ h => h
  · exact .read whole_stringLiteral.reads fun _ => .pure fun _ h => h
  · exact .pass Passes.advance fun _ => .bind (.leaf rfl fun _ => rfl) fun _ =>
      .pure fun _ h => h.toReached
  · exact .pass Passes.advance fun _ => .bind (.leaf rfl fun _ => trivial) fun _ =>
      .pure fun _ h => h.toReached
  · exact .pass Passes.advance fun _ => .bind (.leaf rfl fun _ => trivial) fun _ =>
      .pure fun _ h => h.toReached
  · refine .pass Passes.advance fun _ => ?_
    refine .bind (.within (.append hgrammar.assignment.reads) fun _ => rfl) fun key => ?_
    exact .pass (Passes.expectMark _) fun _ => .pure fun _ h => h
  · exact .refuse

theorem passes_moduleName : Passes source true moduleName := by
  refine .look Looks.tokenKind fun kind => .begin fun origin => ?_
  split
  · refine .look (Looks.check _) fun _ => .pass Passes.advance fun _ => .pure fun _ h => h
  · exact .pass passes_anyWord fun _ => .pure fun _ h => h

/-! ## Patterns -/

theorem whole_valueExpression (hgrammar : grammar.Sound source) :
    Whole source (valueExpression grammar) :=
  fun origin hplaced => .within (hgrammar.assignment origin hplaced) fun _ => rfl

theorem whole_bindingElement (hgrammar : grammar.Sound source) :
    Whole source (bindingElement grammar) := by
  refine .holding hgrammar.pattern fun origin pattern => ?_
  refine .context fun context hcontext => .skip hcontext ?_
  refine .look looks_typeAnnotation fun _ => ?_
  refine .eat (Eats.eatMark _) (fun _ h => h.toReached) ?_ (.pure fun _ h => h)
  exact .read (whole_valueExpression hgrammar).reads fun _ => .held rfl

theorem whole_bindingRest (hgrammar : grammar.Sound source) (close : Mark) :
    Whole source (bindingRest grammar close) := by
  refine .begin fun origin => .pass (Passes.expectMark _) fun _ => ?_
  refine .read hgrammar.pattern.reads fun pattern => .bind (.held rfl) fun rest => ?_
  refine .look looks_typeAnnotation fun _ => .look (Looks.isMark close) fun closed => ?_
  exact .look (Looks.check closed) fun _ => .pure fun _ h => h

theorem reads_arrayPatternElement (hgrammar : grammar.Sound source) :
    Reads source false (fun node => [node]) (arrayPatternElement grammar) := by
  refine .look (Looks.isMark _) fun atComma => .begin fun origin => ?_
  refine .choose (.look Looks.position fun start => .node rfl) ?_
  refine .look (Looks.isMark _) fun atRest => .choose ?_ ?_
  · exact .append (whole_bindingRest hgrammar _).reads.weaken
  · exact .append (whole_bindingElement hgrammar).reads.weaken

theorem reads_looking : Reads source false (fun node => [node]) objectPatternProperty.looking := by
  refine .look Looks.token fun token => .begin fun origin => ?_
  split
  · exact .pure fun _ h => h.exchange (Plain.nil.free rfl).fits
  · exact .refuse

theorem whole_objectPatternProperty (hgrammar : grammar.Sound source) :
    Whole source (objectPatternProperty grammar) := by
  refine .position fun origin hplaced => .look (Looks.isMark _) fun atRest => ?_
  refine .choose (whole_bindingRest hgrammar _ origin hplaced) (.reach hplaced ?_)
  refine .look Looks.peek fun next => .look looks_atIdentifier fun atName => .choose ?_ ?_
  · refine .read reads_looking fun key => .read whole_bindingName.reads fun name => ?_
    have hrest : ∀ value, Triple (Reached source true origin [key, value])
        (node (.patternProperty true false) origin.here [key, value])
        (Held source origin origin.here) := fun _ => .held rfl
    refine .eat (Eats.eatMark _) (fun _ h => h) ?_ (.bind (.pure fun _ h => h) hrest)
    refine .read (whole_valueExpression hgrammar).reads fun _ => ?_
    exact .bind (.nodeBehind [key] rfl) hrest
  · refine .read (reads_propertyKey hgrammar) fun key => .look (Looks.check _) fun _ => ?_
    refine .pass (Passes.expectMark _) fun _ => ?_
    exact .read (whole_bindingElement hgrammar).reads fun value => .held rfl

theorem whole_bindingPattern (hgrammar : grammar.Sound source) :
    Whole source (bindingPattern grammar) := by
  refine .position fun origin hplaced => ?_
  refine .eat (Eats.eatMark _) (fun _ h => .ofEq hplaced h) ?_ ?_
  · refine .read (.commaNodes (reads_arrayPatternElement hgrammar)) fun elements => ?_
    exact .pass (Passes.expectMark _) fun _ => .held rfl
  · refine .eat (Eats.eatMark _) (fun _ h => .ofEq hplaced h) ?_ ?_
    · refine .read (.commaNodes (whole_objectPatternProperty hgrammar).reads.weaken) fun properties => ?_
      exact .pass (Passes.expectMark _) fun _ => .held rfl
    · exact whole_bindingName origin hplaced

/-! ## The names that patterns bind -/

theorem isSome_bindingsIn? {parts : List Node} (h : ∀ part ∈ parts, part.bindings?.isSome) :
    (Node.bindingsIn? parts).isSome := by
  induction parts with
  | nil => rfl
  | cons part rest ih =>
      obtain ⟨hpart, hrest⟩ := List.forall_mem_cons.mp h
      obtain ⟨names, hnames⟩ := Option.isSome_iff_exists.mp hpart
      obtain ⟨more, hmore⟩ := Option.isSome_iff_exists.mp (ih hrest)
      rw [Node.bindingsIn?, hnames, hmore]
      rfl

theorem bindings_bindingName : Gives bindingName fun node => node.bindings?.isSome :=
  .after fun _ => .after fun _ => .node fun _ => rfl

theorem bindings_bindingElement (hgrammar : grammar.Sound source) :
    Gives (bindingElement grammar) fun node => node.bindings?.isSome := by
  refine .after fun start => hgrammar.bindings.bind fun pattern hpattern => ?_
  refine .context fun context hcontext => .skip hcontext (.after fun _ => .after fun found => ?_)
  refine .choose (.after fun value => .node fun _ => ?_) (.pure hpattern)
  rwa [Node.bindings?]

theorem bindings_bindingRest (hgrammar : grammar.Sound source) (close : Mark) :
    Gives (bindingRest grammar close) fun node => node.bindings?.isSome := by
  refine .after fun start => .after fun _ => hgrammar.bindings.bind fun pattern hpattern => ?_
  have hrest : Gives (node .rest start [pattern]) fun node => node.bindings?.isSome :=
    .node fun _ => by rwa [Node.bindings?, Option.isSome_map]
  refine hrest.bind fun rest hrest => .after fun _ => .after fun _ => ?_
  exact .after fun _ => .pure hrest

theorem bindings_arrayPatternElement (hgrammar : grammar.Sound source) :
    Gives (arrayPatternElement grammar) fun node => node.bindings?.isSome :=
  .after fun _ => .choose (.after fun _ => .node fun _ => rfl) (.after fun _ =>
    .choose (bindings_bindingRest hgrammar _) (bindings_bindingElement hgrammar))

theorem bindings_objectPatternProperty (hgrammar : grammar.Sound source) :
    Gives (objectPatternProperty grammar) fun node => node.bindings?.isSome := by
  have hproperty : ∀ {shorthand computed : Bool} {start : Nat} {key value : Node},
      value.bindings?.isSome → Gives (node (.patternProperty shorthand computed) start [key, value])
        fun node => node.bindings?.isSome := fun hvalue => .node fun _ => by rwa [Node.bindings?]
  refine .after fun start => .after fun atRest => .choose (bindings_bindingRest hgrammar _) ?_
  refine .after fun next => .after fun atName => .choose (.after fun key => ?_) ?_
  · refine bindings_bindingName.bind fun name hname => .after fun found => .choose ?_ ?_
    · refine .after fun value => ?_
      have hvalue : Gives (node .defaulted start [name, value]) fun node =>
          node.bindings?.isSome := .node fun _ => by rwa [Node.bindings?]
      exact hvalue.bind fun _ h => hproperty h
    · exact Triple.value (hproperty hname)
  · refine .after fun key => .after fun _ => .after fun _ => ?_
    exact (bindings_bindingElement hgrammar).bind fun _ h => hproperty h

theorem bindings_bindingPattern (hgrammar : grammar.Sound source) :
    Gives (bindingPattern grammar) fun node => node.bindings?.isSome := by
  refine .after fun start => .after fun atArray => .choose ?_ (.after fun atObject => .choose ?_ ?_)
  · refine (Gives.commaList (bindings_arrayPatternElement hgrammar)).bind fun elements h => ?_
    exact .after fun _ => .node fun _ => by rw [Node.bindings?]; exact isSome_bindingsIn? h
  · refine (Gives.commaList (bindings_objectPatternProperty hgrammar)).bind fun properties h => ?_
    exact .after fun _ => .node fun _ => by rw [Node.bindings?]; exact isSome_bindingsIn? h
  · exact bindings_bindingName

/-! ## Decorators and parameters -/

theorem whole_decorator (hgrammar : grammar.Sound source) : Whole source (decorator grammar) := by
  refine .begin fun origin => .pass (Passes.expectMark _) fun _ => ?_
  refine .bind (.within (.append hgrammar.leftHand.reads) fun _ => rfl) fun expression => ?_
  exact .held rfl

theorem reads_decorators (hgrammar : grammar.Sound source) :
    Reads source false (fun node => [node]) (decorators grammar) := by
  refine .look Looks.position fun start => .begin fun origin => ?_
  refine .read (.collectNodes (.look (Looks.isMark _) fun found => .begin fun origin => ?_))
    fun found => ?_
  · refine .choose (.read (whole_decorator hgrammar).reads.weaken fun _ => ?_) (.pure fun _ h => h)
    exact .pure fun _ h => h
  · exact .look Looks.progress fun _ => .pure fun _ h => h.exchange (h.fits.free rfl)

theorem looks_parameterModifiers : Looks parameterModifiers :=
  (Answers.context fun _ hcontext => .take (by rw [hcontext]; rfl) (.pure _)).looks

theorem reads_parameter (hgrammar : grammar.Sound source) :
    Reads source true (fun node => [node]) (parameter grammar) := by
  refine .look (Looks.isMark _) fun atRest => .begin fun origin => .choose ?_ ?_
  · exact .append (whole_bindingRest hgrammar _).reads
  · refine .look Looks.position fun start => .read (reads_decorators hgrammar) fun found => ?_
    refine .look looks_parameterModifiers fun modifiers => .context fun context hcontext => ?_
    refine .look (Looks.isWord _) fun atThis => .skip (by rw [hcontext]; rfl) ?_
    refine .look Looks.position fun patternStart => .read hgrammar.pattern.reads fun pattern => ?_
    refine .context fun context hcontext => .skip hcontext (.look looks_typeAnnotation fun _ => ?_)
    have hrest : ∀ value, Triple (Reached source true origin [found, value])
        (node (.parameter modifiers) start [found, value])
        (fun node => Reached source true origin [node]) := fun _ => .node rfl
    refine .eat (Eats.eatMark _) (fun _ h => h) ?_ (.bind (.pure fun _ h => h) hrest)
    refine .read (whole_valueExpression hgrammar).reads fun _ => ?_
    exact .bind (.nodeBehind [found] rfl) hrest

theorem whole_parameters (hgrammar : grammar.Sound source) : Whole source (parameters grammar) := by
  refine .begin fun origin => .pass (Passes.expectMark _) fun _ => ?_
  refine .read (.commaNodes fun origin hplaced =>
    .within ((reads_parameter hgrammar).weaken origin hplaced) fun _ => rfl) fun items => ?_
  refine .pass (Passes.expectMark _) fun _ => .exchange (fun _ h => ?_) (.held rfl)
  exact h.fits.sublist List.filter_sublist

/-! ## Assignment targets -/

mutual

theorem like_toTarget? {isElement : Bool} {node target : Node}
    (htarget : toTarget? isElement node = some target) : Like [node] [target] := by
  unfold toTarget? at htarget
  split at htarget
  · rename_i trailingComma span elements
    split at htarget
    · cases htarget
    · obtain ⟨targets, htargets, rfl⟩ := Option.map_eq_some_iff.mp htarget
      exact (like_toElements? htargets).node rfl rfl
  · rename_i trailingComma span properties
    split at htarget
    · cases htarget
    · obtain ⟨targets, htargets, rfl⟩ := Option.map_eq_some_iff.mp htarget
      exact (like_toProperties? htargets).node rfl rfl
  · split at htarget
    · cases htarget
      exact (Like.refl _).node rfl rfl
    · cases htarget
  · split at htarget
    · cases htarget
      exact .refl _
    · cases htarget
  · split at htarget
    · cases htarget
      exact .refl _
    · cases htarget

theorem like_toElements? {elements targets : List Node}
    (htargets : toElements? elements = some targets) : Like elements targets := by
  unfold toElements? at htargets
  split at htargets
  · cases htargets
    exact .refl _
  · rename_i span inner
    obtain ⟨target, htarget, rfl⟩ := Option.map_eq_some_iff.mp htargets
    exact (like_toTarget? htarget).node rfl rfl
  · split at htargets
    · rename_i target rest htarget hrest
      cases htargets
      exact (like_toTarget? htarget).append (like_toElements? hrest)
    · cases htargets

theorem like_toProperties? {properties targets : List Node}
    (htargets : toProperties? properties = some targets) : Like properties targets := by
  unfold toProperties? at htargets
  split at htargets
  · cases htargets
    exact .refl _
  · rename_i span inner
    split at htargets
    · cases htargets
      exact (Like.refl _).node rfl rfl
    · cases htargets
  · rename_i shorthand computed span key value rest
    dsimp only at htargets
    split at htargets
    · rename_i target targets htarget hrest
      cases htargets
      have hvalue : Like [value] [target] := by
        split at htarget
        · cases htarget
          exact .refl _
        · exact like_toTarget? htarget
      have hproperty : Like [⟨.property shorthand computed, span, [key, value]⟩]
          [⟨.patternProperty shorthand computed, span, [key, target]⟩] :=
        ((Like.refl [key]).append hvalue).node rfl rfl
      exact hproperty.append (like_toProperties? hrest)
    · cases htargets
  · cases htargets

end

end Grammar

end WebBundle.Syntax

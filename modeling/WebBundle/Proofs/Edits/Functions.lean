import WebBundle.Proofs.Edits.Patterns

/-!
# Functions and classes

The readers of functions, of arrow functions and of classes with their members.  What stands
in front of a static block is left out of the tree, so the nodes of a class need not be all
that has been read for it.
-/

namespace WebBundle.Syntax.Grammar

open Reading

variable {source : String} {grammar : Grammar} {origin : Progress}

/-! ## Bodies -/

/-- A directive stands for a statement in which nothing is marked. -/
theorem like_withDirectives (list : List (Node × Option Token))
    (hregular : Regular (list.map Prod.fst)) :
    Like (list.map Prod.fst) (statements.withDirectives list) := by
  fun_induction statements.withDirectives list with
  | case1 span value lone place parts token rest ih =>
      obtain ⟨hfirst, hrest⟩ := regular_cons.mp hregular
      obtain rfl : parts = [] := (regular_node.mp (regular_node.mp hfirst).2).1
      have hdirective : Like [⟨.expressionStatement, span, [⟨.stringLiteral value lone, place, []⟩]⟩]
          [⟨.directive (directiveText token), span, []⟩] := ⟨rfl, fun _ => (Plain.nil.free rfl).regular⟩
      exact hdirective.append (ih hrest)
  | case2 list => exact .refl _

theorem reads_statements (hgrammar : grammar.Sound source) (expectDirectives : Bool) :
    Reads source false (fun nodes => nodes) (statements grammar expectDirectives) := by
  refine .begin fun origin => .read (.collectMap Prod.fst
    (.look Looks.tokenKind fun kind => .begin fun origin => ?_)) fun list => .pure fun progress h => ?_
  · split
    · exact .pure fun _ h => h
    · exact .pure fun _ h => h
    · refine .look Looks.token fun token => .read (hgrammar.statement false) fun _ => ?_
      exact .pure fun _ h => h.weaken
    · exact .read (hgrammar.statement false) fun _ => .pure fun _ h => h.weaken
  · split
    · exact h.exchange (h.fits.like (like_withDirectives list h.fits.regular))
    · exact h

/-- Statements between braces. -/
theorem whole_braces (hgrammar : grammar.Sound source) (expectDirectives : Bool) {kind : Kind}
    (hkind : kind.isFree = true) :
    Whole source (do
      let start ← position
      expectMark .braceOpen
      let body ← statements grammar expectDirectives
      expectMark .braceClose
      node kind start body) := by
  refine .begin fun origin => .pass (Passes.expectMark _) fun _ => ?_
  refine .read (reads_statements hgrammar expectDirectives) fun body => ?_
  exact .pass (Passes.expectMark _) fun _ => .held hkind

theorem whole_functionBody (hgrammar : grammar.Sound source) :
    Whole source (functionBody grammar) := whole_braces hgrammar true rfl

/-! ## Functions -/

/-- What of a function stands behind its name. -/
theorem held_functionRest (hgrammar : grammar.Sound source) (role : Role)
    (isAsync isGenerator : Bool) (start : Nat) (name : Node) :
    Triple (Reached source false origin [name])
      (functionRest grammar role isAsync isGenerator start name) (Held source origin start) := by
  have hparts : Reads source true (fun parts : Node × Node => [parts.1, parts.2])
      (within (insideFunction isAsync isGenerator) do
        typeParameters grammar
        let parameters ← parameters grammar
        typeAnnotation grammar
        if ← isMark .braceOpen then return (parameters, ← functionBody grammar)
        else
          check ((← context).hasTypes && role ≠ .expression)
          endStatement
          return (parameters, Node.missing)) := by
    refine .begin fun origin => .within ?_ fun _ => rfl
    refine .look looks_typeParameters fun _ => .read (whole_parameters hgrammar).reads fun _ => ?_
    refine .look looks_typeAnnotation fun _ => .look (Looks.isMark _) fun hasBody => ?_
    refine .choose (.read (whole_functionBody hgrammar).reads fun _ => .pure fun _ h => h) ?_
    exact .context fun context hcontext => .fail (by rw [hcontext]; rfl)
  exact .read hparts fun parts => .held rfl

theorem whole_functionExpression (hgrammar : grammar.Sound source) (role : Role) :
    Whole source (functionExpression grammar role) := by
  refine .begin fun origin => .pass (Eats.eatWord _).passes fun isAsync => ?_
  refine .pass (Passes.expectWord _) fun _ => .pass (Eats.eatMark _).passes fun isGenerator => ?_
  have hname : Reads source false (fun node => [node])
      (do if ← atIdentifier then bindingName else pure Node.missing) := by
    refine .look looks_atIdentifier fun found => .begin fun origin => .choose ?_ ?_
    · exact .append whole_bindingName.reads.weaken
    · exact .missing (.pure fun _ h => h)
  refine .bind (.within (.append hname) fun context => ?_) fun name => ?_
  · cases role <;> rfl
  · exact .weaken (held_functionRest hgrammar role isAsync isGenerator origin.here name)

theorem whole_methodFunction (hgrammar : grammar.Sound source) (isAsync isGenerator : Bool) :
    Whole source (methodFunction grammar isAsync isGenerator) :=
  .begin fun origin => .missing
    (held_functionRest hgrammar .member isAsync isGenerator origin.here Node.missing)

/-! ## Arrow functions -/

theorem passes_expectArrow : Passes source true expectArrow :=
  .look Looks.token fun _ => .look (Looks.check _) fun _ => Passes.expectMark _

/-- The arrow and the body behind the parameters of an arrow function. -/
theorem held_arrowRest (hgrammar : grammar.Sound source) (isAsync : Bool) (start : Nat)
    (parameters : Node) :
    Triple (Reached source true origin [parameters])
      (arrowRest grammar isAsync start parameters) (Held source origin start) := by
  refine .pass passes_expectArrow fun _ => .look (Looks.isMark _) fun hasBlock => .choose ?_ ?_
  · refine .bind (.within (.append (whole_functionBody hgrammar).reads) fun _ => rfl) fun body => ?_
    exact .held rfl
  · refine .bind (.within (.append hgrammar.assignment.reads) fun _ => rfl) fun body => ?_
    exact .held rfl

theorem whole_simpleParameters : Whole source simpleParameters := by
  refine .begin fun origin => .read whole_bindingName.reads fun name => ?_
  refine .exchange (fun _ h => ?_) (.bind (.node rfl) fun parameter => .held rfl)
  exact (Plain.nil.free rfl).fits.append h.fits (Nat.le_refl _) h.here_le

theorem passes_eatArrowAsync : Passes source false eatArrowAsync := by
  refine .look (Looks.isPlainWord _) fun found => .look Looks.peek fun next => ?_
  refine .begin fun origin => .choose ?_ (.pure fun _ h => h)
  exact .append (Eats.eatWord _).passes

theorem whole_parenthesizedArrow (hgrammar : grammar.Sound source) :
    Whole source (parenthesizedArrow grammar) := by
  refine .begin fun origin => .pass passes_eatArrowAsync fun isAsync => ?_
  have hparameters : Reads source true (fun node => [node])
      (do typeParameters grammar; parameters grammar) :=
    .look looks_typeParameters fun _ => (whole_parameters hgrammar).reads
  refine .bind (.within (.append hparameters) fun _ => rfl) fun parameters => ?_
  refine .look Looks.context fun context => .look (Looks.isMark _) fun hasColon => ?_
  refine .look looks_typeAnnotation fun _ => ?_
  refine .bind (held_arrowRest hgrammar isAsync origin.here parameters) fun arrow => ?_
  refine .look Looks.context fun context => .choose ?_ (.pure fun _ h => h)
  refine .look (Looks.isMark _) fun found => .look (Looks.check found) fun _ => ?_
  exact .pure fun _ h => h

theorem whole_simpleAsyncArrow (hgrammar : grammar.Sound source) :
    Whole source (simpleAsyncArrow grammar) := by
  refine .begin fun origin => .pass passes_eatArrowAsync fun found => ?_
  refine .look (Looks.check found) fun _ => ?_
  refine .bind (.within (.append whole_simpleParameters.reads) fun _ => rfl) fun parameters => ?_
  exact held_arrowRest hgrammar true origin.here parameters

theorem whole_simpleArrow (hgrammar : grammar.Sound source) :
    Whole source (simpleArrow grammar) :=
  .begin fun origin => .read whole_simpleParameters.reads fun parameters =>
    held_arrowRest hgrammar false origin.here parameters

theorem looks_mayBeginArrow : Looks mayBeginArrow := by
  refine Looks.tokenKind.bind fun kind => Looks.peek.bind fun next => ?_
  split <;> first
    | exact .pure _
    | exact Looks.context.bind fun _ => .pure _

theorem whole_arrowFunction (hgrammar : grammar.Sound source) :
    Whole source (arrowFunction grammar) := fun origin hplaced =>
  .orElse (whole_parenthesizedArrow hgrammar origin hplaced)
    (.orElse (whole_simpleArrow hgrammar origin hplaced)
      (whole_simpleAsyncArrow hgrammar origin hplaced))

/-! ## Members of classes -/

theorem passes_memberModifiers : Passes source false memberModifiers := by
  refine Reads.begin fun origin => .pass (.collect ?_) fun words => .pure fun _ h => h
  refine .look Looks.tokenKind fun kind => Reads.begin fun origin => ?_
  split
  · refine .look Looks.peek fun next => .look Looks.context fun context => ?_
    refine .choose (.pass Passes.advance fun _ => ?_) (.pure fun _ h => h)
    exact .pure fun _ h => h.weaken
  · exact .pure fun _ h => h

theorem passes_methodStart : Passes source false methodStart := by
  refine .look Looks.peek fun next => .look Looks.tokenKind fun kind => Reads.begin fun origin => ?_
  split
  · refine .choose (.pass Passes.advance fun _ => ?_) (.pure fun _ h => h)
    exact .pass (Eats.eatMark _).passes fun _ => .pure fun _ h => h.weaken
  · refine .choose (.pass Passes.advance fun _ => ?_) (.pure fun _ h => h)
    exact .pure fun _ h => h.weaken
  · refine .choose (.pass Passes.advance fun _ => ?_) (.pure fun _ h => h)
    exact .pure fun _ h => h.weaken
  · exact .pass Passes.advance fun _ => .pure fun _ h => h.weaken
  · exact .pure fun _ h => h

theorem whole_staticBlock (hgrammar : grammar.Sound source) :
    Whole source (staticBlock grammar) := by
  refine .begin fun origin => .pass (Passes.expectWord _) fun _ => ?_
  refine .pass (Passes.expectMark _) fun _ => ?_
  refine .bind (.within (.append (reads_statements hgrammar false)) fun _ => rfl) fun body => ?_
  exact .pass (Passes.expectMark _) fun _ => .held rfl

theorem reads_fieldRest (hgrammar : grammar.Sound source) :
    Reads source false (fun node => [node]) (fieldRest grammar) := by
  refine .begin fun origin => .context fun context hcontext => .skip hcontext ?_
  refine .look looks_typeAnnotation fun _ => .pass (Eats.eatMark _).passes fun found => ?_
  refine .part (whole_valueExpression hgrammar).reads fun value => ?_
  exact .pass Passes.endStatement fun _ => .pure fun _ h => h

theorem reads_methodRest (hgrammar : grammar.Sound source) (start : Nat)
    (decorators : Node) (modifiers : Modifiers) (head : MethodStart) (key : Node)
    (computed : Bool) :
    Triple (Reached source true origin [decorators, key])
      (methodRest grammar start decorators modifiers head key computed)
      fun node => Reached source true origin [node] := by
  refine .look (Looks.check _) fun _ => .look (Looks.check _) fun _ => ?_
  exact .read (whole_methodFunction hgrammar _ _).reads fun function => .node rfl

theorem reads_classMember (hgrammar : grammar.Sound source) :
    Reads source true (fun node => [node]) (classMember grammar) := by
  refine .look Looks.position fun start => .begin fun origin => ?_
  refine .read (reads_decorators hgrammar) fun decorators => ?_
  refine .look (Looks.isPlainWord _) fun isStatic => .look Looks.peek fun next => .choose ?_ ?_
  · -- the decorators are not part of the block
    refine (Triple.append (whole_staticBlock hgrammar).reads).mono (fun _ h => h) fun _ _ h => ?_
    exact h.exchange (h.fits.sublist (List.sublist_append_right _ _))
  · refine .pass passes_memberModifiers fun ⟨modifiers, isAccessor⟩ => ?_
    refine .refused (.context fun context hcontext => .fail hcontext) ?_
    refine .pass passes_methodStart fun head => .read (reads_propertyKey hgrammar) fun key => ?_
    obtain ⟨key, computed⟩ := key
    refine .look (Looks.check _) fun _ => .look (Looks.isMark _) fun atParameters => ?_
    refine .context fun context hcontext => .look (Looks.isMark _) fun atTypes => ?_
    refine .look (Looks.isMark _) fun atQuestion => .look Looks.peek fun first => ?_
    refine .look Looks.peek fun second => .choose ?_ ?_
    · refine .pass (Eats.eatMark _).passes fun found => ?_
      exact reads_methodRest hgrammar start decorators modifiers head key computed
    · refine .look (Looks.check _) fun _ => .look (Looks.check _) fun _ => ?_
      refine .read (reads_fieldRest hgrammar) fun value => ?_
      exact .node (by cases isAccessor <;> rfl)

theorem whole_classBody (hgrammar : grammar.Sound source) : Whole source (classBody grammar) := by
  have hsemicolons : Passes source false
      (do let _ ← collect do if ← eatMark .semicolon then return some () else return none) := by
    refine Reads.begin fun origin => .pass (.collect (Reads.begin fun origin => ?_)) fun _ => ?_
    · refine .eat (Eats.eatMark _) (fun _ h => h) ?_ ?_
      · exact .pure fun _ h => h.weaken
      · exact .pure fun _ h => h
    · exact .pure fun _ h => h
  refine .begin fun origin => .pass (Passes.expectMark _) fun _ => ?_
  refine .read (.collectNodes (.begin fun origin => ?_)) fun members => ?_
  · refine .pass hsemicolons fun _ => .look (Looks.isMark _) fun atEnd => ?_
    refine .choose (.pure fun _ h => h) ?_
    exact .read (reads_classMember hgrammar) fun member => .pure fun _ h => h.weaken
  · exact .pass (Passes.expectMark _) fun _ => .held rfl

/-! ## Classes -/

theorem reads_heritage (hgrammar : grammar.Sound source) :
    Reads source false (fun node => [node]) (heritage grammar) := by
  refine .begin fun origin => .pass (Eats.eatWord _).passes fun found => ?_
  have hrest : ∀ superclass, Triple (Reached source false origin [superclass])
      (do
        if (← context).hasTypes then
          if ← eatWord .implements_ then implementedTypes grammar
        return superclass)
      fun node => Reached source false origin [node] := fun superclass =>
    .context fun context hcontext => .skip hcontext (.pure fun _ h => h)
  refine .choose ?_ ?_
  · refine .bind (.within (.append hgrammar.leftHand.reads) fun _ => rfl) fun superclass => ?_
    refine .context fun context hcontext => .look (Looks.isMark _) fun atTypes => ?_
    exact .skip (by rw [hcontext]; rfl) (.bind (.pure fun _ h => h.weaken) hrest)
  · exact .missing (.value (hrest _))

/-- What of a class stands behind its decorators, whatever has been read in front of it. -/
theorem classRest_behind (hgrammar : grammar.Sound source) (role : Role) (modifiers : Modifiers)
    (start : Nat) (decorators : Node) (given : List Node) :
    Triple (Reached source false origin given)
      (classRest grammar role modifiers start decorators) fun node progress =>
        node.span = ⟨start, progress.lastStop⟩ ∧ ∃ others,
          Reached source true origin (given ++ others) progress ∧
            Like ([decorators] ++ others) [node] := by
  refine .pass (Passes.expectWord _) fun _ => .context fun context hcontext => ?_
  refine .look (Looks.isWord _) fun atHeritage => .look looks_atIdentifier fun atName => ?_
  refine .part whole_bindingName.reads fun name => .look looks_typeParameters fun _ => ?_
  refine .read (reads_heritage hgrammar) fun superclass => ?_
  refine .bind (.within (.append (whole_classBody hgrammar).reads) fun _ => rfl) fun body => ?_
  intro context progress node last _ hread hnode
  cases hnode
  refine ⟨rfl, [name, superclass, body], ?_, .free rfl _ _⟩
  rw [List.append_assoc, List.append_assoc] at hread
  exact hread

/-- A class behind its decorators. -/
theorem held_classRest (hgrammar : grammar.Sound source) (role : Role) (modifiers : Modifiers)
    (start : Nat) (decorators : Node) :
    Triple (Reached source false origin [decorators])
      (classRest grammar role modifiers start decorators) (Held source origin start) := by
  refine (classRest_behind hgrammar role modifiers start decorators [decorators]).mono
    (fun _ h => h) fun node progress ⟨hspan, others, hread, hlike⟩ => ?_
  exact { hread.exchange (hread.fits.like hlike) with span_eq := hspan }

theorem whole_classDefinition (hgrammar : grammar.Sound source) (role : Role)
    (modifiers : Modifiers) : Whole source (classDefinition grammar role modifiers) := by
  refine .begin fun origin => .read (reads_decorators hgrammar) fun decorators => ?_
  refine .context fun context hcontext => .skip hcontext ?_
  refine .look (.pure _) fun isAbstract => ?_
  exact held_classRest hgrammar role _ origin.here decorators

end WebBundle.Syntax.Grammar

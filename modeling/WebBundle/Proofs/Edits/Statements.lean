import WebBundle.Proofs.Edits.Declarations

/-!
# Statements and programs

The readers of statements close the circle: readers of all constructs over readers that are
described well are described well themselves, so those of every depth of nesting are.  A
program is a list of statements, and its tree fits its source.
-/

namespace WebBundle.Syntax

open Reading

namespace Grammar

variable {source : String} {grammar : Grammar} {origin : Progress}

/-! ## Blocks and conditions -/

theorem reads_block (hgrammar : grammar.Sound source) :
    Reads source true (fun node => [node]) (block grammar) :=
  (whole_braces hgrammar false rfl).reads

theorem reads_condition (hgrammar : grammar.Sound source) :
    Reads source true (fun node => [node]) (condition grammar) := by
  refine .begin fun origin => .pass (Passes.expectMark _) fun _ => ?_
  refine .read (whole_expression hgrammar).reads fun test => ?_
  exact .pass (Passes.expectMark _) fun _ => .pure fun _ h => h

theorem reads_body (hgrammar : grammar.Sound source) :
    Reads source true (fun node => [node]) (body grammar) := hgrammar.statement true

theorem reads_ifStatement (hgrammar : grammar.Sound source) :
    Reads source true (fun node => [node]) (ifStatement grammar) := by
  refine .look Looks.position fun start => .begin fun origin => ?_
  refine .pass (Passes.expectWord _) fun _ => .read (reads_condition hgrammar) fun test => ?_
  refine .read (reads_body hgrammar) fun whenTrue => ?_
  refine .pass (Eats.eatWord _).passes fun found => ?_
  exact .part (reads_body hgrammar) fun whenFalse => .node rfl

theorem reads_whileStatement (hgrammar : grammar.Sound source) :
    Reads source true (fun node => [node]) (whileStatement grammar) := by
  refine .look Looks.position fun start => .begin fun origin => ?_
  refine .pass (Passes.expectWord _) fun _ => .read (reads_condition hgrammar) fun test => ?_
  exact .read (reads_body hgrammar) fun inner => .node rfl

theorem reads_doWhile (hgrammar : grammar.Sound source) :
    Reads source true (fun node => [node]) (doWhile grammar) := by
  refine .look Looks.position fun start => .begin fun origin => ?_
  refine .pass (Passes.expectWord _) fun _ => .read (reads_body hgrammar) fun inner => ?_
  refine .pass (Passes.expectWord _) fun _ => .read (reads_condition hgrammar) fun test => ?_
  exact .pass (Eats.eatMark _).passes fun _ => .node rfl

/-! ## Loops -/

theorem looks_atUsing : Looks atUsing := by
  refine Looks.peek.bind fun next => (Looks.isPlainWord _).bind fun atWord => ?_
  refine .choose (.pure _) ((Looks.isPlainWord _).bind fun atAwait => ?_)
  exact Looks.context.bind fun context => .choose (.pure _) (.pure _)

theorem looks_atLoopDeclaration : Looks atLoopDeclaration := by
  refine Looks.tokenKind.bind fun kind => ?_
  split
  · exact .pure _
  · exact .pure _
  · refine Looks.peek.bind fun next => ?_
    split
    · exact .pure _
    · refine Looks.peek.bind fun second => ?_
      split <;> exact .pure _
    all_goals exact .pure _
  · exact looks_atUsing

theorem looks_atCollection : Looks atCollection :=
  (Looks.isPlainWord _).bind fun _ => (Looks.isPlainWord _).bind fun _ => .pure _

/-- The rest of a loop with three parts in its head. -/
theorem reads_forRest (hgrammar : grammar.Sound source) (start : Nat) (first : Node) :
    Triple (Reached source false origin [first]) (forRest grammar start first)
      fun node => Reached source true origin [node] := by
  have hupdate : ∀ test, Triple (Reached source true origin [first, test])
      (do
        expectMark .semicolon
        let update ← if ← isMark .parenClose then pure Node.missing else expression grammar
        expectMark .parenClose
        node .forStatement start [first, test, update, ← body grammar])
      fun node => Reached source true origin [node] := by
    have hbody : ∀ test update, Triple (Reached source true origin [first, test, update])
        (do
          expectMark .parenClose
          node .forStatement start [first, test, update, ← body grammar])
        fun node => Reached source true origin [node] := fun test update =>
      .pass (Passes.expectMark _) fun _ => .read (reads_body hgrammar) fun inner => .node rfl
    refine fun test => .pass (Passes.expectMark _) fun _ => .look (Looks.isMark _) fun atEnd => ?_
    refine .choose (.missing (.value (hbody test _))) ?_
    exact .read (whole_expression hgrammar).reads fun update => hbody test update
  refine .pass (Passes.expectMark _) fun _ => .look (Looks.isMark _) fun atEnd => ?_
  refine .choose (.missing (.value (hupdate _))) ?_
  exact .read (whole_expression hgrammar).reads fun test => hupdate test

/-- The rest of a loop over a collection. -/
theorem reads_forEachRest (hgrammar : grammar.Sound source) (start : Nat) (isAwait : Bool)
    (target : Node) :
    Triple (Reached source true origin [target]) (forEachRest grammar start isAwait target)
      fun node => Reached source true origin [node] := by
  refine .look (Looks.isPlainWord _) fun atOf => .choose ?_ ?_
  · refine .pass Passes.advance fun _ => .read hgrammar.assignment.reads fun collection => ?_
    refine .pass (Passes.expectMark _) fun _ => ?_
    exact .read (reads_body hgrammar) fun inner => .node rfl
  · refine .look (Looks.check _) fun _ => .pass (Passes.expectWord _) fun _ => ?_
    refine .read (whole_expression hgrammar).reads fun collection => ?_
    refine .pass (Passes.expectMark _) fun _ => ?_
    exact .read (reads_body hgrammar) fun inner => .node rfl

theorem reads_forDeclaration (hgrammar : grammar.Sound source) (start : Nat) (isAwait : Bool) :
    Reads source true (fun node => [node]) (forDeclaration grammar start isAwait) := by
  refine .look Looks.position fun declarationStart => .begin fun origin => ?_
  refine .bind (.within (.append (reads_variableList hgrammar)) fun _ => rfl) fun list => ?_
  refine .bind (.node rfl) fun declaration => .look looks_atCollection fun atCollection => ?_
  refine .choose (reads_forEachRest hgrammar start isAwait declaration) ?_
  refine .look Looks.context fun context => .look (Looks.check _) fun _ => ?_
  exact .weaken (reads_forRest hgrammar start declaration)

theorem reads_forExpression (hgrammar : grammar.Sound source) (start : Nat) (isAwait : Bool) :
    Reads source true (fun node => [node]) (forExpression grammar start isAwait) := by
  refine .look (Looks.isPlainWord _) fun _ => .look Looks.peek fun _ => ?_
  refine .look (Looks.isPlainWord _) fun _ => .look Looks.peek fun _ => .begin fun origin => ?_
  refine .bind (.within (.append (whole_expression hgrammar).reads) fun _ => rfl) fun first => ?_
  refine .look looks_atCollection fun atCollection => .choose ?_ ?_
  · refine .look (Looks.check _) fun _ => ?_
    split
    · rename_i target htarget
      exact .exchange (fun _ h => h.fits.like (like_toTarget? htarget))
        (reads_forEachRest hgrammar start isAwait target)
    · exact .refuse
  · exact .look (Looks.check _) fun _ => .weaken (reads_forRest hgrammar start first)

theorem reads_forStatement (hgrammar : grammar.Sound source) :
    Reads source true (fun node => [node]) (forStatement grammar) := by
  refine .look Looks.position fun start => .begin fun origin => ?_
  refine .pass (Passes.expectWord _) fun _ => ?_
  have hhead : ∀ isAwait, Triple (Reached source true origin [])
      (do
        expectMark .parenOpen
        if ← isMark .semicolon then
          check !isAwait
          forRest grammar start Node.missing
        else if ← atLoopDeclaration then forDeclaration grammar start isAwait
        else forExpression grammar start isAwait)
      fun node => Reached source true origin [node] := by
    refine fun isAwait => .pass (Passes.expectMark _) fun _ => ?_
    refine .look (Looks.isMark _) fun atEnd => .choose (.look (Looks.check _) fun _ => ?_) ?_
    · exact .missing (.weaken (reads_forRest hgrammar start Node.missing))
    refine .look looks_atLoopDeclaration fun atDeclaration => .choose ?_ ?_
    · exact .append (reads_forDeclaration hgrammar start isAwait)
    · exact .append (reads_forExpression hgrammar start isAwait)
  refine .look (Looks.isPlainWord _) fun atAwait => .choose ?_ (.value (hhead false))
  refine .look Looks.context fun context => .look (Looks.check _) fun _ => ?_
  exact .pass (Eats.eatWord _).passes fun isAwait => hhead isAwait

/-! ## Jumps -/

theorem passes_jumpLabel : Passes source false jumpLabel := by
  refine .look Looks.canEndStatement fun found => Reads.begin fun origin => .choose ?_ ?_
  · exact .value (.pass Passes.endStatement fun _ => .pure fun _ h => h)
  · refine .pass passes_identifier fun label => .value ?_
    exact .pass Passes.endStatement fun _ => .pure fun _ h => h.weaken

theorem reads_jump {word : Word} {kind : Option String → Kind}
    (hkind : ∀ label, (kind label).isFree = true) :
    Reads source true (fun node => [node]) (jump word kind) :=
  .look Looks.position fun _ => .begin fun _ => .pass (Passes.expectWord _) fun _ =>
    .pass passes_jumpLabel fun label => .node (hkind label)

theorem reads_returnStatement (hgrammar : grammar.Sound source) :
    Reads source true (fun node => [node]) (returnStatement grammar) := by
  refine .look Looks.context fun context => .look (Looks.check _) fun _ => ?_
  refine .look Looks.position fun start => .begin fun origin => ?_
  refine .pass (Passes.expectWord _) fun _ => .look Looks.canEndStatement fun found => ?_
  have hrest : ∀ value, Triple (Reached source true origin [value])
      (do
        endStatement
        node .returnStatement start [value])
      fun node => Reached source true origin [node] := fun value =>
    .pass Passes.endStatement fun _ => .node rfl
  refine .choose (.missing (.value (hrest _))) ?_
  exact .read (whole_expression hgrammar).reads hrest

theorem reads_throwStatement (hgrammar : grammar.Sound source) :
    Reads source true (fun node => [node]) (throwStatement grammar) := by
  refine .look Looks.position fun start => .begin fun origin => ?_
  refine .pass (Passes.expectWord _) fun _ => .look Looks.token fun token => ?_
  refine .look (Looks.check _) fun _ => .read (whole_expression hgrammar).reads fun value => ?_
  exact .pass Passes.endStatement fun _ => .node rfl

/-! ## Other statements -/

theorem reads_catchClause (hgrammar : grammar.Sound source) :
    Reads source true (fun node => [node]) (catchClause grammar) := by
  refine .look Looks.position fun start => .begin fun origin => ?_
  refine .pass (Passes.expectWord _) fun _ => .pass (Eats.eatMark _).passes fun found => ?_
  have hblock : ∀ parameter, Triple (Reached source true origin [parameter])
      (do node .catchClause start [parameter, ← block grammar])
      fun node => Reached source true origin [node] := fun parameter =>
    .read (reads_block hgrammar) fun inner => .node rfl
  refine .choose ?_ (.missing (.value (hblock _)))
  refine .read hgrammar.pattern.reads fun pattern => .look looks_typeAnnotation fun _ => ?_
  exact .pass (Passes.expectMark _) fun _ => .value (hblock pattern)

theorem reads_tryStatement (hgrammar : grammar.Sound source) :
    Reads source true (fun node => [node]) (tryStatement grammar) := by
  refine .look Looks.position fun start => .begin fun origin => ?_
  refine .pass (Passes.expectWord _) fun _ => .read (reads_block hgrammar) fun guarded => ?_
  refine .look (Looks.isPlainWord _) fun atCatch => ?_
  refine .part (reads_catchClause hgrammar) fun handler => ?_
  refine .pass (Eats.eatWord _).passes fun found => ?_
  refine .part (reads_block hgrammar) fun finalizer => ?_
  exact .look (Looks.check _) fun _ => .node rfl

theorem reads_switchCase (hgrammar : grammar.Sound source) :
    Reads source true (fun node => [node]) (switchCase grammar) := by
  refine .look Looks.position fun start => .begin fun origin => ?_
  refine .pass (Eats.eatWord _).passes fun isDefault => ?_
  have hrest : ∀ step, Reads source false (fun found => found.elim [] fun node => [node]) step →
      ∀ test, Triple (Reached source false origin [test])
        (do
          expectMark .colon
          let body ← collect step
          node .switchCase start (test :: body))
        fun node => Reached source true origin [node] := fun step hstep test =>
    .pass (Passes.expectMark _) fun _ => .read (.collectNodes hstep) fun inner => .node rfl
  -- what follows the colon is the same for a case and for the default
  refine .choose (.missing (.weaken (.value (hrest _ ?step _)))) ?case
  case case =>
    refine .pass (Passes.expectWord _) fun _ => ?_
    exact .read (whole_expression hgrammar).reads fun test => .weaken (hrest _ ?step test)
  refine .look Looks.tokenKind fun kind => .begin fun origin => ?_
  split
  · exact .pure fun _ h => h
  · exact .pure fun _ h => h
  · exact .pure fun _ h => h
  · exact .pure fun _ h => h
  · exact .read (hgrammar.statement false) fun _ => .pure fun _ h => h.weaken

theorem reads_switchStatement (hgrammar : grammar.Sound source) :
    Reads source true (fun node => [node]) (switchStatement grammar) := by
  refine .look Looks.position fun start => .begin fun origin => ?_
  refine .pass (Passes.expectWord _) fun _ => .read (reads_condition hgrammar) fun test => ?_
  refine .pass (Passes.expectMark _) fun _ => ?_
  refine .read (.collectNodes (.look (Looks.isMark _) fun atEnd => .begin fun origin => ?_))
    fun cases => .pass (Passes.expectMark _) fun _ => .node rfl
  refine .choose (.pure fun _ h => h) ?_
  exact .read (reads_switchCase hgrammar) fun _ => .pure fun _ h => h.weaken

theorem reads_withStatement (hgrammar : grammar.Sound source) :
    Reads source true (fun node => [node]) (withStatement grammar) := by
  refine .look Looks.position fun start => .begin fun origin => ?_
  refine .pass (Passes.expectWord _) fun _ => .read (reads_condition hgrammar) fun object => ?_
  exact .read (reads_body hgrammar) fun inner => .node rfl

theorem reads_debuggerStatement : Reads source true (fun node => [node]) debuggerStatement :=
  .look Looks.position fun _ => .begin fun _ => .pass (Passes.expectWord _) fun _ =>
    .pass Passes.endStatement fun _ => .node rfl

theorem reads_emptyStatement : Reads source true (fun node => [node]) emptyStatement :=
  .look Looks.position fun _ => .begin fun _ => .pass (Passes.expectMark _) fun _ => .node rfl

theorem reads_expressionStatement (hgrammar : grammar.Sound source) :
    Reads source true (fun node => [node]) (expressionStatement grammar) := by
  refine .look Looks.position fun start => .begin fun origin => ?_
  refine .read (whole_expression hgrammar).reads fun expression => ?_
  split
  · refine .pass (Eats.eatMark _).passes fun labeled => .choose ?_ ?_
    · refine .exchange (fun _ _ => Plain.nil.fits) ?_
      exact .read (reads_body hgrammar) fun inner => .node rfl
    · exact .pass Passes.endStatement fun _ => .node rfl
  · exact .pass Passes.endStatement fun _ => .node rfl

theorem reads_letStatement (hgrammar : grammar.Sound source) (single : Bool) :
    Reads source true (fun node => [node]) (letStatement grammar single) := by
  refine .look Looks.peek fun next origin hplaced => .choose ?_ (.look (Looks.check _) fun _ => ?_)
  · exact reads_expressionStatement hgrammar origin hplaced
  · exact (whole_variableDeclaration hgrammar).reads origin hplaced

theorem reads_functionStatement (hgrammar : grammar.Sound source) (single : Bool) :
    Reads source true (fun node => [node]) (functionStatement grammar single) := by
  refine .begin fun origin => .read (whole_functionDeclaration hgrammar).reads fun function => ?_
  split
  · exact .pure fun _ h => h
  · exact .look (Looks.check _) fun _ => .pure fun _ h => h

theorem reads_decoratedStatement (hgrammar : grammar.Sound source) (single : Bool) :
    Reads source true (fun node => [node]) (decoratedStatement grammar single) := by
  refine .look Looks.position fun start => .begin fun origin => ?_
  refine .read (reads_decorators hgrammar) fun decorators => ?_
  refine .look (Looks.isPlainWord _) fun atExport => .choose ?_ (.look (Looks.check _) fun _ => ?_)
  · exact reads_exportDeclaration hgrammar (some decorators)
  · refine .context fun context hcontext => .skip hcontext (.value ?_)
    exact (held_classRest hgrammar _ _ start decorators).mono (fun _ h => h)
      fun _ _ h => h.toReached

theorem reads_wordStatement (hgrammar : grammar.Sound source) (single : Bool) (word : Word) :
    Reads source true (fun node => [node]) (wordStatement grammar single word) := by
  have hvariable := (whole_variableDeclaration hgrammar).reads
  unfold wordStatement
  split
  · exact reads_ifStatement hgrammar
  · exact reads_doWhile hgrammar
  · exact reads_whileStatement hgrammar
  · exact reads_forStatement hgrammar
  · exact reads_jump fun _ => rfl
  · exact reads_jump fun _ => rfl
  · exact reads_returnStatement hgrammar
  · exact reads_withStatement hgrammar
  · exact reads_switchStatement hgrammar
  · exact reads_throwStatement hgrammar
  · exact reads_tryStatement hgrammar
  · exact reads_debuggerStatement
  · exact reads_functionStatement hgrammar single
  · exact .look (Looks.check _) fun _ => (whole_classDefinition hgrammar _ _).reads
  · refine .look Looks.peek fun next => ?_
    split
    · exact reads_expressionStatement hgrammar
    · exact reads_expressionStatement hgrammar
    · exact reads_importDeclaration
  · exact fun origin hplaced => .reach hplaced (reads_exportDeclaration hgrammar none)
  · exact hvariable
  · exact .look (Looks.check _) fun _ => hvariable
  · exact reads_letStatement hgrammar single
  · refine .look looks_atAsyncFunction fun atFunction origin hplaced => .choose ?_ ?_
    · exact reads_functionStatement hgrammar single origin hplaced
    · exact reads_expressionStatement hgrammar origin hplaced
  · refine .look looks_atUsing fun atUsing origin hplaced => .choose ?_ ?_
    · exact .look (Looks.check _) fun _ => hvariable origin hplaced
    · exact reads_expressionStatement hgrammar origin hplaced

theorem reads_statement (hgrammar : grammar.Sound source) (single : Bool) :
    Reads source true (fun node => [node]) (statement grammar single) := by
  intro origin hplaced
  refine .answer answers_atTypedDeclaration (.skip rfl (.look Looks.tokenKind fun kind => ?_))
  split
  · exact reads_block hgrammar origin hplaced
  · exact reads_emptyStatement origin hplaced
  · exact reads_decoratedStatement hgrammar single origin hplaced
  · exact reads_wordStatement hgrammar single _ origin hplaced
  · exact reads_expressionStatement hgrammar origin hplaced

/-! ## All constructs -/

/-- Readers over readers that are described well are described well. -/
theorem Sound.step (hgrammar : grammar.Sound source) : (Grammar.step grammar).Sound source where
  statement := reads_statement hgrammar
  assignment := whole_assignment hgrammar
  operators := whole_operators hgrammar
  unary := whole_unaryExpression hgrammar
  leftHand := whole_leftHand hgrammar
  pattern := whole_bindingPattern hgrammar
  bindings := bindings_bindingPattern hgrammar

/-- The readers of all constructs are described well, whatever the depth of nesting is. -/
theorem sound_ofDepth (depth : Nat) : (Grammar.ofDepth depth).Sound source := by
  induction depth with
  | zero =>
      exact {
        statement := fun _ _ _ => .refuse
        assignment := fun _ _ => .refuse
        operators := fun _ _ _ => .refuse
        unary := fun _ _ => .refuse
        leftHand := fun _ _ => .refuse
        pattern := fun _ _ => .refuse
        bindings := .refuse }
  | succ depth ih => exact ih.step

end Grammar

/-! ## Programs -/

theorem reads_programBody {source : String} {grammar : Grammar} (hgrammar : grammar.Sound source) :
    Reads source false (fun root => [root]) (programBody grammar) := by
  refine .begin fun origin => .read (Grammar.reads_statements hgrammar true) fun body => ?_
  refine .look Looks.tokenKind fun kind => .look (Looks.check _) fun _ => ?_
  exact .look Looks.token fun token => .pure fun _ h => h.exchange (h.fits.free rfl)

/-- The tree of a program without types fits its source. -/
theorem Program.fits_of_read? {source : String} {program : Program}
    (hread : Program.read? false source = some program) :
    Fits program.source 0 program.source.utf8ByteSize [program.root] := by
  unfold Program.read? at hread
  dsimp only at hread
  split at hread
  · cases hread
  · rename_i root last hbody
    split at hread
    · cases hread
      have hfirst := Token.placed_firstToken source
      have hread := reads_programBody (Grammar.sound_ofDepth _) _
        ⟨hfirst, String.Pos.Raw.isValid_zero, Nat.zero_le _⟩ _ _ _ _ rfl rfl hbody
      have hlast := hread.placed.token.start.isValid.le_utf8ByteSize
      exact hread.fits.mono (Nat.zero_le _) hlast
    · cases hread

end WebBundle.Syntax

import WebBundle.Proofs.Edits.Statements

/-!
# Statements stand one behind another

The node of a statement ends with the last token that has been taken.  It begins where its
reader began, but for an export with decorators, which begins behind them.  So the ranges of
the statements of a program stand in the source in the order of the statements.
-/

namespace WebBundle.Syntax

open Reading

/-! ## Ranges in order -/

/-- Ranges between two offsets, each of them behind those in front of it. -/
structure Ordered (source : String) (lo hi : Nat) (spans : List Span) : Prop where
  covers : ∀ span ∈ spans, span.Covers source lo hi
  ordered : spans.Pairwise fun first second => first.stop ≤ second.start

namespace Ordered

variable {source : String} {lo mid next hi : Nat} {spans : List Span} {span : Span}

theorem nil : Ordered source lo hi [] := ⟨List.forall_mem_nil _, .nil⟩

theorem mono {low high : Nat} (h : Ordered source lo hi spans) (hlo : low ≤ lo) (hhi : hi ≤ high) :
    Ordered source low high spans :=
  ⟨fun span hmem => (h.covers span hmem).mono hlo hhi, h.ordered⟩

/-- A range behind all others is added. -/
theorem snoc (h : Ordered source lo mid spans) (hspan : span.Covers source next hi)
    (hmid : mid ≤ next) (hlo : lo ≤ next) : Ordered source lo hi (spans ++ [span]) where
  covers := by
    have hstop : mid ≤ hi :=
      calc mid ≤ next := hmid
        _ ≤ span.start := hspan.lo_le
        _ ≤ span.stop := Nat.le_of_lt hspan.lt
        _ ≤ hi := hspan.le_hi
    refine List.forall_mem_append.mpr ⟨(h.mono (Nat.le_refl lo) hstop).covers, List.forall_mem_singleton.mpr ?_⟩
    exact hspan.mono hlo (Nat.le_refl hi)
  ordered := by
    refine List.pairwise_append.mpr ⟨h.ordered, List.pairwise_singleton _ _, ?_⟩
    intro first hfirst second hsecond
    rw [List.mem_singleton.mp hsecond]
    exact Nat.le_trans (h.covers first hfirst).le_hi (Nat.le_trans hmid hspan.lo_le)

/-- The ranges behind the first one begin where it ends. -/
theorem tail (h : Ordered source lo hi (span :: spans)) : Ordered source span.stop hi spans where
  covers other hother :=
    { h.covers other (List.mem_cons_of_mem _ hother) with
      lo_le := (List.pairwise_cons.mp h.ordered).1 other hother }
  ordered := (List.pairwise_cons.mp h.ordered).2

end Ordered

/-! ## Where nodes begin and end -/

/-- A reader of a node that begins at an offset and ends with the last token. -/
def Ends (start : Nat) (reader : Reading Node) : Prop :=
  Triple (fun _ => True) reader fun node progress => node.span = ⟨start, progress.lastStop⟩

/-- A reader of a node that covers everything from the current token to the last one. -/
def Spanned (reader : Reading Node) : Prop :=
  ∀ origin : Progress, Triple (· = origin) reader fun node progress =>
    node.span = ⟨origin.here, progress.lastStop⟩

/-- A reader of a node that covers no more than has been taken. -/
def Spans (source : String) (reader : Reading Node) : Prop :=
  ∀ origin : Progress, origin.Placed source → Triple (· = origin) reader fun node progress =>
    node.span.Covers source origin.here progress.lastStop

namespace Ends

variable {α : Type} {start : Nat} {first : Reading α} {rest : α → Reading Node}
variable {reader other : Reading Node}

theorem bind (h : ∀ value, Ends start (rest value)) : Ends start (first >>= rest) :=
  .through (fun _ _ => True) (fun _ _ _ _ _ _ _ => trivial) h

theorem node {kind : Kind} {children : List Node} : Ends start (Reading.node kind start children) := by
  intro context progress value last _ _ hread
  cases hread
  rfl

theorem refuse : Ends start Reading.refuse := Triple.refuse

theorem choose {condition : Prop} [Decidable condition] (hthen : Ends start reader)
    (helse : Ends start other) : Ends start (if condition then reader else other) :=
  Triple.choose hthen helse

end Ends

namespace Spanned

variable {α : Type}

theorem position {rest : Nat → Reading Node} (h : ∀ start, Ends start (rest start)) :
    Spanned (Reading.position >>= rest) :=
  fun _ => .here fun _ hprogress => (h _).mono (fun _ _ => trivial) fun _ _ hspan =>
    hprogress ▸ hspan

theorem look {first : Reading α} {rest : α → Reading Node} (hfirst : Looks first)
    (hrest : ∀ value, Spanned (rest value)) : Spanned (first >>= rest) :=
  fun origin => .look hfirst fun value => hrest value origin

end Spanned

variable {source : String}

theorem Held.covers_span {origin progress : Progress} {node : Node}
    (h : Held source origin origin.here node progress) :
    node.span.Covers source origin.here progress.lastStop := by
  rw [h.span_eq]
  exact { h.covers with le_hi := Nat.le_refl _ }

namespace Spans

variable {α : Type} {reader other : Reading Node}

theorem ofWhole (h : Whole source reader) : Spans source reader :=
  fun origin hplaced => (h origin hplaced).mono (fun _ h => h) fun _ _ h => h.covers_span

theorem ofReads (hreads : Reads source true (fun node => [node]) reader)
    (hspanned : Spanned reader) : Spans source reader := by
  intro origin hplaced context progress value last hcontext hpre hread
  have hreached := hreads origin hplaced _ _ _ _ hcontext hpre hread
  exact Held.covers_span
    { hreached with span_eq := hspanned origin _ _ _ _ hcontext hpre hread }

theorem position {rest : Nat → Reading Node}
    (hreads : Reads source true (fun node => [node]) (Reading.position >>= rest))
    (h : ∀ start, Ends start (rest start)) : Spans source (Reading.position >>= rest) :=
  .ofReads hreads (.position h)

theorem look {first : Reading α} {rest : α → Reading Node} (hfirst : Looks first)
    (hrest : ∀ value, Spans source (rest value)) : Spans source (first >>= rest) :=
  fun origin hplaced => .look hfirst fun value => hrest value origin hplaced

theorem choose {condition : Prop} [Decidable condition] (hthen : Spans source reader)
    (helse : Spans source other) : Spans source (if condition then reader else other) :=
  fun origin hplaced => .choose (hthen origin hplaced) (helse origin hplaced)

theorem answer {answer : α} {first : Reading α} {rest : α → Reading Node}
    (hfirst : Answers first answer) (hrest : Spans source (rest answer)) :
    Spans source (first >>= rest) :=
  fun origin hplaced => .answer hfirst (hrest origin hplaced)

end Spans

namespace Grammar

variable {grammar : Grammar} {start : Nat}

/-! ## Statements -/

theorem spans_block (hgrammar : grammar.Sound source) : Spans source (block grammar) :=
  .ofWhole (whole_braces hgrammar false rfl)

theorem spans_ifStatement (hgrammar : grammar.Sound source) : Spans source (ifStatement grammar) :=
  .position (reads_ifStatement hgrammar) fun _ => .bind fun _ => .bind fun _ => .bind fun _ =>
    .bind fun _ => .choose (.bind fun _ => .node) .node

theorem spans_whileStatement (hgrammar : grammar.Sound source) :
    Spans source (whileStatement grammar) :=
  .position (reads_whileStatement hgrammar) fun _ => .bind fun _ => .bind fun _ => .bind fun _ =>
    .node

theorem spans_doWhile (hgrammar : grammar.Sound source) : Spans source (doWhile grammar) :=
  .position (reads_doWhile hgrammar) fun _ => .bind fun _ => .bind fun _ => .bind fun _ =>
    .bind fun _ => .bind fun _ => .node

theorem ends_forRest (start : Nat) (first : Node) : Ends start (forRest grammar start first) := by
  have hbehind : ∀ test, Ends start (do
      expectMark .semicolon
      let update ← if ← isMark .parenClose then pure Node.missing else expression grammar
      expectMark .parenClose
      node .forStatement start [first, test, update, ← body grammar]) := fun test =>
    .bind fun _ => .bind fun _ => .choose (.bind fun _ => .bind fun _ => .bind fun _ => .node)
      (.bind fun _ => .bind fun _ => .bind fun _ => .node)
  exact .bind fun _ => .bind fun _ => .choose (.bind hbehind) (.bind hbehind)

theorem ends_forEachRest (start : Nat) (isAwait : Bool) (target : Node) :
    Ends start (forEachRest grammar start isAwait target) :=
  .bind fun _ => .choose (.bind fun _ => .bind fun _ => .bind fun _ => .bind fun _ => .node)
    (.bind fun _ => .bind fun _ => .bind fun _ => .bind fun _ => .bind fun _ => .node)

theorem ends_forDeclaration (start : Nat) (isAwait : Bool) :
    Ends start (forDeclaration grammar start isAwait) :=
  .bind fun _ => .bind fun _ => .bind fun _ => .bind fun _ =>
    .choose (ends_forEachRest start isAwait _)
      (.bind fun _ => .bind fun _ => ends_forRest start _)

theorem ends_forExpression (start : Nat) (isAwait : Bool) :
    Ends start (forExpression grammar start isAwait) := by
  refine .bind fun _ => .bind fun _ => .bind fun _ => .bind fun _ => .bind fun first => ?_
  refine .bind fun _ => .choose (.bind fun _ => ?_) (.bind fun _ => ends_forRest start first)
  split
  · exact ends_forEachRest start isAwait _
  · exact .refuse

theorem spans_forStatement (hgrammar : grammar.Sound source) :
    Spans source (forStatement grammar) := by
  refine .position (reads_forStatement hgrammar) fun start => .bind fun _ => ?_
  have hhead : ∀ isAwait, Ends start (do
      expectMark .parenOpen
      if ← isMark .semicolon then
        check !isAwait
        forRest grammar start Node.missing
      else if ← atLoopDeclaration then forDeclaration grammar start isAwait
      else forExpression grammar start isAwait) := fun isAwait =>
    .bind fun _ => .bind fun _ => .choose (.bind fun _ => ends_forRest start _)
      (.bind fun _ => .choose (ends_forDeclaration start isAwait) (ends_forExpression start isAwait))
  exact .bind fun _ => .choose (.bind fun _ => .bind fun _ => .bind hhead) (.bind hhead)

theorem spans_jump {word : Word} {kind : Option String → Kind}
    (hkind : ∀ label, (kind label).isFree = true) : Spans source (jump word kind) :=
  .position (reads_jump hkind) fun _ => .bind fun _ => .bind fun _ => .node

theorem spans_returnStatement (hgrammar : grammar.Sound source) :
    Spans source (returnStatement grammar) := by
  refine .ofReads (reads_returnStatement hgrammar) (.look Looks.context fun _ => ?_)
  refine .look (Looks.check _) fun _ => .position fun _ => .bind fun _ => .bind fun _ => ?_
  exact .choose (.bind fun _ => .bind fun _ => .node) (.bind fun _ => .bind fun _ => .node)

theorem spans_throwStatement (hgrammar : grammar.Sound source) :
    Spans source (throwStatement grammar) :=
  .position (reads_throwStatement hgrammar) fun _ => .bind fun _ => .bind fun _ => .bind fun _ =>
    .bind fun _ => .bind fun _ => .node

theorem spans_tryStatement (hgrammar : grammar.Sound source) :
    Spans source (tryStatement grammar) := by
  refine .position (reads_tryStatement hgrammar) fun start => .bind fun _ => .bind fun guarded => ?_
  have hlast : ∀ handler finalizer : Node, Ends start (do
      check (handler.isPresent || finalizer.isPresent)
      node .tryStatement start [guarded, handler, finalizer]) := fun _ _ => .bind fun _ => .node
  have hrest : ∀ handler : Node, Ends start (do
      let finalizer ← if ← eatWord .finally_ then block grammar else pure Node.missing
      check (handler.isPresent || finalizer.isPresent)
      node .tryStatement start [guarded, handler, finalizer]) := fun handler =>
    .bind fun _ => .choose (.bind (hlast handler)) (.bind (hlast handler))
  exact .bind fun _ => .choose (.bind hrest) (.bind hrest)

theorem spans_switchStatement (hgrammar : grammar.Sound source) :
    Spans source (switchStatement grammar) :=
  .position (reads_switchStatement hgrammar) fun _ => .bind fun _ => .bind fun _ => .bind fun _ =>
    .bind fun _ => .bind fun _ => .node

theorem spans_withStatement (hgrammar : grammar.Sound source) :
    Spans source (withStatement grammar) :=
  .position (reads_withStatement hgrammar) fun _ => .bind fun _ => .bind fun _ => .bind fun _ =>
    .node

theorem spans_debuggerStatement : Spans source debuggerStatement :=
  .position reads_debuggerStatement fun _ => .bind fun _ => .bind fun _ => .node

theorem spans_emptyStatement : Spans source emptyStatement :=
  .position reads_emptyStatement fun _ => .bind fun _ => .node

theorem spans_expressionStatement (hgrammar : grammar.Sound source) :
    Spans source (expressionStatement grammar) := by
  refine .position (reads_expressionStatement hgrammar) fun start => .bind fun expression => ?_
  split
  · exact .bind fun _ => .choose (.bind fun _ => .node) (.bind fun _ => .node)
  · exact .bind fun _ => .node

theorem spans_letStatement (hgrammar : grammar.Sound source) (single : Bool) :
    Spans source (letStatement grammar single) :=
  .look Looks.peek fun _ => .choose (spans_expressionStatement hgrammar)
    (.look (Looks.check _) fun _ => .ofWhole (whole_variableDeclaration hgrammar))

theorem spans_functionStatement (hgrammar : grammar.Sound source) (single : Bool) :
    Spans source (functionStatement grammar single) := by
  intro origin hplaced
  refine .bind (whole_functionDeclaration hgrammar origin hplaced) fun function => ?_
  split
  · exact .pure fun _ h => h.covers_span
  · exact .look (Looks.check _) fun _ => .pure fun _ h => h.covers_span

/-! ## Imports and exports -/

theorem ends_importRest (typeOnly : Bool) (phase : String) :
    Ends start (importRest start typeOnly phase) :=
  .bind fun _ => .bind fun _ => .bind fun _ => .bind fun _ => .bind fun _ => .node

theorem spans_importDeclaration : Spans source (importDeclaration false) := by
  refine .position reads_importDeclaration fun start => .bind fun _ => .bind fun kind => ?_
  split
  · exact .bind fun _ => .bind fun _ => .bind fun _ => .node
  · refine .context fun context hcontext => Ends.bind fun next => ?_
    refine .skip (by rw [hcontext]; rfl) (Ends.bind fun _ => .bind fun _ => .bind fun _ => ?_)
    refine .skip (by rw [hcontext]; rfl) (Ends.bind fun _ => ?_)
    split
    · exact .bind fun _ => ends_importRest _ _
    · exact .choose (.bind fun _ => ends_importRest _ _) (ends_importRest _ _)
    · exact ends_importRest _ _

theorem ends_exportList (typeOnly : Bool) : Ends start (exportList start typeOnly) := by
  refine .bind fun _ => .bind fun _ => .bind fun _ => .bind fun _ => .bind fun list => ?_
  have hrest : ∀ name attributes, Ends start (do
      endStatement
      node (.exportNamed typeOnly) start [list, name, attributes]) := fun _ _ =>
    .bind fun _ => .node
  refine .bind fun _ => .choose (.bind fun name => .bind fun attributes => hrest name attributes) ?_
  exact .bind fun _ => hrest _ _

theorem ends_exportAll (typeOnly : Bool) : Ends start (exportAll start typeOnly) := by
  have hrest : ∀ exported, Ends start (do
      expectWord .from_
      let source ← moduleSource
      let attributes ← importAttributes
      endStatement
      node (.exportAll exported typeOnly) start [source, attributes]) := fun _ =>
    .bind fun _ => .bind fun _ => .bind fun _ => .bind fun _ => .node
  exact .bind fun _ => .bind fun _ => .choose (.bind fun _ => hrest _) (hrest _)

theorem ends_exportDefault (decorators : Option Node) :
    Ends start (exportDefault grammar start decorators) := by
  refine .bind fun _ => .bind fun _ => .bind fun _ => .choose (.bind fun _ => .node) ?_
  have hrest : ∀ value, Ends start (node .exportDefault start [value]) := fun _ => .node
  refine .bind fun _ => .bind fun _ => .bind fun _ => .bind fun _ => .bind fun _ => ?_
  refine .choose (.bind hrest) (.choose (.bind hrest) ?_)
  exact .bind fun value => .bind fun _ => hrest value

theorem spanned_exportDeclaration (decorators : Option Node) :
    Spanned (exportDeclaration grammar decorators) := by
  refine .position fun start => .bind fun _ => .bind fun _ => ?_
  refine .choose (ends_exportDefault decorators) (.bind fun _ => .choose (.bind fun _ => .node) ?_)
  refine .bind fun _ => .answer (answers_typedExport start) (Ends.bind fun _ => ?_)
  refine .choose (ends_exportList _) (.bind fun _ => .choose (ends_exportAll _) ?_)
  exact .bind fun _ => .node

/-- An export takes a token of its own, behind the decorators that stand in front of it. -/
theorem here_lt_exportDeclaration (hgrammar : grammar.Sound source) {origin : Progress}
    (hplaced : origin.Placed source) (decorators : Node) :
    Triple (· = origin) (exportDeclaration grammar (some decorators)) fun _ progress =>
      origin.here < progress.lastStop := by
  refine .here fun start hstart => ?_
  subst hstart
  -- behind the words of the export, the class that is exported takes more tokens
  have hclass : ∀ {middle : Progress} (kind : Kind), Reached source true start [] middle →
      Triple (· = middle)
        (exportedClass grammar (some decorators) >>= fun inner => node kind start.here [inner])
        fun _ progress => start.here < progress.lastStop := by
    intro middle kind hwords
    refine reads_exportedClass hgrammar (some decorators) hwords.placed _ fun inner _ => ?_
    intro context progress value last _ hpre hread
    cases hread
    obtain ⟨_, hothers, _⟩ := hpre.parts
    exact Nat.lt_of_le_of_lt hwords.here_le (hothers.here_lt rfl)
  refine .reach hplaced (.pass (Passes.expectWord _) fun _ => ?_)
  refine .look (Looks.isWord _) fun isDefault => .choose ?_ ?_
  · refine .pass (Passes.expectWord _) fun _ => .look Looks.peek fun next => ?_
    refine .look looks_atClass fun found => .fixed fun middle hwords => ?_
    exact .choose (hclass _ hwords) (.fail rfl)
  · refine .look looks_atClass fun found => .fixed fun middle hwords => ?_
    exact .choose (hclass _ hwords) (.fail rfl)

theorem spans_decoratedStatement (hgrammar : grammar.Sound source) (single : Bool) :
    Spans source (decoratedStatement grammar single) := by
  intro origin hplaced
  refine .here fun start hstart => ?_
  subst hstart
  refine .reach hplaced (.read (reads_decorators hgrammar) fun decorators => ?_)
  refine .look (Looks.isPlainWord _) fun atExport => .choose ?_ (.look (Looks.check _) fun _ => ?_)
  · intro context progress value last hcontext hpre hread
    have hreached := reads_exportDeclaration hgrammar (some decorators) _ _ _ _ hcontext hpre hread
    rw [spanned_exportDeclaration (some decorators) progress _ _ _ _ hcontext rfl hread]
    exact {
      lo_le := hpre.here_le
      lt := here_lt_exportDeclaration hgrammar hpre.placed decorators _ _ _ _ hcontext rfl hread
      le_hi := Nat.le_refl _
      start := hpre.placed.token.start.isValid
      stop := hreached.placed.lastStop }
  · refine .context fun context hcontext => .skip hcontext (.value ?_)
    exact (held_classRest hgrammar _ _ start.here decorators).mono (fun _ h => h)
      fun _ _ h => h.covers_span

/-! ## All statements -/

theorem spans_wordStatement (hgrammar : grammar.Sound source) (single : Bool) (word : Word) :
    Spans source (wordStatement grammar single word) := by
  have hvariable : Spans source (variableDeclaration grammar) :=
    .ofWhole (whole_variableDeclaration hgrammar)
  unfold wordStatement
  split
  · exact spans_ifStatement hgrammar
  · exact spans_doWhile hgrammar
  · exact spans_whileStatement hgrammar
  · exact spans_forStatement hgrammar
  · exact spans_jump fun _ => rfl
  · exact spans_jump fun _ => rfl
  · exact spans_returnStatement hgrammar
  · exact spans_withStatement hgrammar
  · exact spans_switchStatement hgrammar
  · exact spans_throwStatement hgrammar
  · exact spans_tryStatement hgrammar
  · exact spans_debuggerStatement
  · exact spans_functionStatement hgrammar single
  · exact .look (Looks.check _) fun _ => .ofWhole (whole_classDefinition hgrammar _ _)
  · refine .look Looks.peek fun next => ?_
    split
    · exact spans_expressionStatement hgrammar
    · exact spans_expressionStatement hgrammar
    · exact spans_importDeclaration
  · exact .ofReads (fun _ hplaced => .reach hplaced (reads_exportDeclaration hgrammar none))
      (spanned_exportDeclaration none)
  · exact hvariable
  · exact .look (Looks.check _) fun _ => hvariable
  · exact spans_letStatement hgrammar single
  · exact .look looks_atAsyncFunction fun _ =>
      .choose (spans_functionStatement hgrammar single) (spans_expressionStatement hgrammar)
  · exact .look looks_atUsing fun _ =>
      .choose (.look (Looks.check _) fun _ => hvariable) (spans_expressionStatement hgrammar)

theorem spans_statement (hgrammar : grammar.Sound source) (single : Bool) :
    Spans source (statement grammar single) := by
  refine .answer answers_atTypedDeclaration fun origin hplaced => .skip rfl ?_
  refine Spans.look Looks.tokenKind (fun kind => ?_) origin hplaced
  split
  · exact spans_block hgrammar
  · exact spans_emptyStatement
  · exact spans_decoratedStatement hgrammar single
  · exact spans_wordStatement hgrammar single _
  · exact spans_expressionStatement hgrammar

theorem spans_ofDepth (depth : Nat) (single : Bool) :
    Spans source (Grammar.ofDepth depth (.statement single)) := by
  cases depth with
  | zero => exact fun _ _ => .refuse
  | succ depth => exact spans_statement (sound_ofDepth depth) single

/-! ## Lists of statements -/

/-- Directives cover what the statements that they stand for cover. -/
theorem map_span_withDirectives (list : List (Node × Option Token)) :
    (statements.withDirectives list).map Node.span = list.map fun entry => entry.1.span := by
  fun_induction statements.withDirectives list with
  | case1 span value lone place parts token rest ih => exact congrArg (span :: ·) ih
  | case2 list => rw [List.map_map]; rfl

/-- Statements are read one behind the other. -/
theorem ordered_statements (hgrammar : grammar.Sound source)
    (hspans : Spans source (grammar (.statement false))) {origin : Progress}
    (hplaced : origin.Placed source) (expectDirectives : Bool) :
    Triple (· = origin) (statements grammar expectDirectives) fun nodes _ =>
      Ordered source origin.here source.utf8ByteSize (nodes.map Node.span) := by
  -- what has been read so far, with the place where the next statement begins
  let found (list : List (Node × Option Token)) (progress : Progress) : Prop :=
    progress.Placed source ∧ origin.here ≤ progress.here ∧
      Ordered source origin.here progress.here (list.map fun entry => entry.1.span)
  have hstatement : ∀ (list : List (Node × Option Token)) (token : Option Token),
      Triple (found list) (grammar (.statement false)) fun node =>
        found (list ++ [(node, token)]) := by
    intro list token context progress value last hcontext ⟨hhere, horigin, hlist⟩ hread
    have hreached := hgrammar.statement false progress hhere _ _ _ _ hcontext rfl hread
    have hcovers := hspans progress hhere _ _ _ _ hcontext rfl hread
    refine ⟨hreached.placed, Nat.le_trans horigin hreached.here_le, ?_⟩
    rw [List.map_append]
    exact hlist.snoc (hcovers.mono (Nat.le_refl _) hreached.placed.le) (Nat.le_refl _) horigin
  refine .through found ?_ fun list => ?_
  · refine .mono (.collect found fun list => ?_) ?_ fun _ _ h => h
    · refine .look Looks.tokenKind fun kind => ?_
      split
      · exact .pure fun _ h => h
      · exact .pure fun _ h => h
      · refine .look Looks.token fun token => ?_
        exact .bind (hstatement list (some token)) fun _ => .pure fun _ h => h
      · exact .bind (hstatement list none) fun _ => .pure fun _ h => h
    · rintro progress rfl
      exact ⟨hplaced, Nat.le_refl _, .nil⟩
  · refine .pure fun progress ⟨hhere, _, hlist⟩ => ?_
    have hall := hlist.mono (Nat.le_refl _) hhere.token.start.isValid.le_utf8ByteSize
    split
    · rwa [map_span_withDirectives]
    · rwa [List.map_map]

end Grammar

/-! ## Programs -/

theorem ordered_programBody {grammar : Grammar} (hgrammar : grammar.Sound source)
    (hspans : Spans source (grammar (.statement false))) {origin : Progress}
    (hplaced : origin.Placed source) :
    Triple (· = origin) (programBody grammar) fun root _ =>
      Ordered source origin.here source.utf8ByteSize (root.children.map Node.span) := by
  refine .bind (Grammar.ordered_statements hgrammar hspans hplaced true) fun body => ?_
  refine .look Looks.tokenKind fun kind => .look (Looks.check _) fun _ => ?_
  exact .look Looks.token fun token => .pure fun _ h => h

/-- The statements of a program without types stand in its source one behind another. -/
theorem Program.ordered_of_read? {program : Program}
    (hread : Program.read? false source = some program) :
    Ordered program.source 0 program.source.utf8ByteSize (program.root.children.map Node.span) := by
  unfold Program.read? at hread
  dsimp only at hread
  split at hread
  · cases hread
  · rename_i root last hbody
    split at hread
    · cases hread
      have hfirst := Token.placed_firstToken source
      have hordered := ordered_programBody (Grammar.sound_ofDepth _) (Grammar.spans_ofDepth _ false)
        ⟨hfirst, String.Pos.Raw.isValid_zero, Nat.zero_le _⟩ _ _ _ _ rfl rfl hbody
      exact hordered.mono (Nat.zero_le _) (Nat.le_refl _)
    · cases hread

end WebBundle.Syntax

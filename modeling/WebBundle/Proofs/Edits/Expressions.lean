import WebBundle.Proofs.Edits.Functions

/-!
# Expressions

The readers of literals, of accesses and calls and of operators.  An operand that has been
read becomes a part of a larger expression which begins where the operand does, so along
the accesses and the operators behind it what has been read is always one node that covers
all of it.  A call is scanned: what may be replaced of it is known from its first argument.
-/

namespace WebBundle.Syntax.Grammar

open Reading

variable {source : String} {grammar : Grammar} {origin : Progress}

theorem whole_expression (hgrammar : grammar.Sound source) :
    Whole source (expression grammar) := by
  refine .position fun origin hplaced => .bind (.single hplaced hgrammar.assignment) fun parts => ?_
  split
  · exact .pure fun _ h => h.2 _ rfl
  · exact .mono (.held rfl) (fun _ h => h.1) fun _ _ h => h

/-! ## Literals -/

theorem whole_parenthesized (hgrammar : grammar.Sound source) :
    Whole source (parenthesized grammar) := by
  refine .begin fun origin => .pass (Passes.expectMark _) fun _ => ?_
  refine .bind (.within (.append (whole_expression hgrammar).reads) fun _ => rfl) fun inner => ?_
  exact .pass (Passes.expectMark _) fun _ => .held rfl

theorem whole_spread (hgrammar : grammar.Sound source) : Whole source (spread grammar) := by
  refine .begin fun origin => .pass (Passes.expectMark _) fun _ => ?_
  refine .bind (.within (.append hgrammar.assignment.reads) fun _ => rfl) fun inner => ?_
  exact .held rfl

theorem whole_arrayLiteral (hgrammar : grammar.Sound source) :
    Whole source (arrayLiteral grammar) := by
  refine .begin fun origin => .pass (Passes.expectMark _) fun _ => ?_
  refine .through (fun parts : List Node × Nat => Reached source true origin parts.1)
    (.within (.read (.commaNodes (.look (Looks.isMark _) fun atComma => .begin fun origin => ?_))
      fun elements => ?_) fun _ => rfl) fun ⟨elements, stop⟩ => ?_
  · refine .choose (.look Looks.position fun here => .pure fun _ h => ?_) ?_
    · exact h.exchange (Plain.nil.free rfl).fits
    · refine .look (Looks.isMark _) fun atRest => .choose ?_ ?_
      · exact .append (whole_spread hgrammar).reads.weaken
      · exact .append hgrammar.assignment.reads.weaken
  · exact .look Looks.progress fun _ => .pure fun _ h => h
  · exact .pass (Passes.expectMark _) fun _ => .held rfl

theorem whole_shorthandProperty (hgrammar : grammar.Sound source) :
    Whole source (shorthandProperty grammar) := by
  refine .begin fun origin => .look Looks.token fun token => ?_
  refine .read whole_reference.reads fun name => ?_
  have hrest : ∀ key value, Triple (Reached source true origin [key, value])
      (node (.property true false) origin.here [key, value]) (Held source origin origin.here) :=
    fun _ _ => .held rfl
  split
  · rename_i word text escaped htoken
    have hkey : Plain [⟨.propertyName text, token.span, []⟩] := Plain.nil.free rfl
    refine .value (.exchange (fun _ h => hkey.fits.append h.fits (Nat.le_refl _) h.here_le) ?_)
    refine .eat (Eats.eatMark _) (fun _ h => h) ?_ (.value (hrest _ name))
    exact .read hgrammar.assignment.reads fun value => .bind (.nodeBehind [_] rfl) (hrest _)
  · exact .through (fun _ _ => False) .refuse fun _ _ _ _ _ _ hfalse => hfalse.elim

theorem whole_objectMember (hgrammar : grammar.Sound source) :
    Whole source (objectMember grammar) := by
  refine .look (Looks.isMark _) fun atRest origin hplaced => ?_
  refine .choose (whole_spread hgrammar origin hplaced) ?_
  refine Whole.position (fun origin hplaced => ?_) origin hplaced
  refine .look looks_atIdentifier fun atName => .look Looks.peek fun next => ?_
  refine .choose (whole_shorthandProperty hgrammar origin hplaced) (.reach hplaced ?_)
  refine .pass passes_methodStart fun head => ?_
  refine .read (reads_propertyKey hgrammar) fun ⟨key, computed⟩ => .look (Looks.check _) fun _ => ?_
  refine .look (Looks.isMark _) fun atParameters => .look (Looks.isMark _) fun atTypes => ?_
  refine .choose (.read (whole_methodFunction hgrammar _ _).reads fun function => .held rfl) ?_
  refine .pass (Passes.expectMark _) fun _ => ?_
  exact .read hgrammar.assignment.reads fun value => .held rfl

theorem whole_objectLiteral (hgrammar : grammar.Sound source) :
    Whole source (objectLiteral grammar) := by
  refine .begin fun origin => .pass (Passes.expectMark _) fun _ => ?_
  refine .through (fun parts : List Node × Nat => Reached source true origin parts.1)
    (.within (.read (.commaNodes (whole_objectMember hgrammar).reads.weaken) fun members => ?_)
      fun _ => rfl) fun ⟨members, stop⟩ => ?_
  · exact .look Looks.progress fun _ => .pure fun _ h => h
  · exact .pass (Passes.expectMark _) fun _ => .held rfl

theorem passes_templatePart : Passes source true templatePart := by
  refine .look Looks.tokenKind fun kind => Reads.begin fun origin => ?_
  split
  · exact .pass Passes.advance fun _ => .pure fun _ h => h
  · exact .refuse

theorem passes_templateContinuation : Passes source true templateContinuation := by
  refine Reads.begin fun origin => .token fun progress hprogress => ?_
  split
  · rename_i part hpart
    obtain ⟨hplaced, hstart⟩ := hprogress.placed.token.asTemplate? hpart
    exact .setToken hprogress hplaced hstart (.append passes_templatePart)
  · exact .refuse

theorem whole_templateLiteral (hgrammar : grammar.Sound source) (isTagged : Bool) :
    Whole source (templateLiteral grammar isTagged) := by
  refine .begin fun origin => .pass passes_templatePart fun ⟨first, isLast⟩ => ?_
  -- each substitution comes with another part of text
  refine .through (fun (template : TemplateProgress) progress =>
    Reached source true origin template.substitutions progress ∧
      template.substitutions.length < template.quasis.length) ?_ fun complete => ?_
  · refine .mono (.iterate _ (fun template => ?_) _) (fun _ h => ⟨h, Nat.one_pos⟩) fun _ _ h => h
    refine .choose (.pure fun _ h => h) (.fact fun hlength => ?_)
    refine .bind (.within (.append (whole_expression hgrammar).reads) fun _ => rfl) fun inner => ?_
    refine .pass passes_templateContinuation fun ⟨quasi, isLast⟩ => .pure fun _ h => ⟨h, ?_⟩
    change (template.substitutions ++ [inner]).length < (template.quasis ++ [quasi]).length
    rw [List.length_append, List.length_append]
    exact Nat.add_lt_add_right hlength 1
  · exact .fact fun hlength => .look (Looks.check _) fun _ => .leaf rfl fun _ => hlength

theorem whole_regexLiteral : Whole source regexLiteral := by
  refine .begin fun origin => .token fun progress hprogress => ?_
  split
  · rename_i regex hregex
    obtain ⟨hplaced, hstart⟩ := hprogress.placed.token.asRegex? hregex
    refine .setToken hprogress hplaced hstart (.pass Passes.advance fun token => ?_)
    exact .leaf rfl fun _ => trivial
  · exact .refuse

theorem whole_simpleNode {kind : Kind} (hkind : Scan.isScanned kind = false)
    (hregular : ∀ span, Node.Regular ⟨kind, span, []⟩) : Whole source (simpleNode kind) :=
  .begin fun _ => .pass Passes.advance fun _ => .leaf hkind hregular

theorem looks_atAsyncFunction : Looks atAsyncFunction :=
  Looks.peek.bind fun _ => (Looks.isPlainWord _).bind fun _ => .pure _

theorem whole_primary (hgrammar : grammar.Sound source) : Whole source (primary grammar) := by
  refine .look Looks.token fun token => ?_
  split
  · exact whole_simpleNode rfl fun _ => rfl
  · exact whole_simpleNode rfl fun _ => trivial
  · exact whole_simpleNode rfl fun _ => rfl
  · exact whole_templateLiteral hgrammar false
  · exact whole_regexLiteral
  · exact whole_regexLiteral
  · exact whole_parenthesized hgrammar
  · exact whole_arrayLiteral hgrammar
  · exact whole_objectLiteral hgrammar
  · exact fun origin hplaced =>
      .within (whole_classDefinition hgrammar .expression {} origin hplaced) fun _ => rfl
  · exact whole_simpleNode rfl fun _ => trivial
  · exact whole_simpleNode rfl fun _ => rfl
  · exact whole_simpleNode rfl fun _ => rfl
  · exact whole_simpleNode rfl fun _ => rfl
  · exact whole_functionExpression hgrammar .expression
  · exact whole_classDefinition hgrammar .expression {}
  · refine .look looks_atAsyncFunction fun found origin hplaced => .choose ?_ ?_
    · exact whole_functionExpression hgrammar .expression origin hplaced
    · exact whole_reference origin hplaced
  · exact whole_reference

/-! ## Accesses -/

/-- The expression of an access covers everything from an offset on. -/
structure Access.Holds (source : String) (origin : Progress) (start : Nat) (access : Access)
    (progress : Progress) : Prop where
  held : Held source origin start access.node progress
  untyped : access.hasTypeArguments = false

theorem Access.bare_eq {access : Access} (h : access.hasTypeArguments = false) :
    access.bare = access.node := by
  rw [Access.bare, h]

section Access

variable {start : Nat} {access : Access} {α : Type} {reader : Reading α}
variable {post : α → Progress → Prop}

/-- The expression of an access is what has been read. -/
theorem ofHolds (h : Triple (Reached source true origin [access.node]) reader post) :
    Triple (access.Holds source origin start) reader post :=
  h.mono (fun _ h => h.held.toReached) fun _ _ h => h

/-- Without types at its end the expression of an access is bare. -/
theorem ofBare (h : Triple (Reached source true origin [access.bare]) reader post) :
    Triple (access.Holds source origin start) reader post :=
  h.mono (fun _ h => Access.bare_eq h.untyped ▸ h.held.toReached) fun _ _ h => h

theorem held_memberName (start : Nat) (object : Node) (optional : Bool) :
    Triple (Reached source true origin [object]) (memberName start object optional)
      (Held source origin start) := by
  refine .look Looks.tokenKind fun kind => ?_
  split
  · exact .pass Passes.advance fun _ => .held rfl
  · exact .pass passes_anyWord fun _ => .held rfl

theorem held_computedMember (hgrammar : grammar.Sound source) (start : Nat) (object : Node)
    (optional : Bool) :
    Triple (Reached source true origin [object]) (computedMember grammar start object optional)
      (Held source origin start) := by
  refine .pass (Passes.expectMark _) fun _ => ?_
  refine .bind (.within (.append (whole_expression hgrammar).reads) fun _ => rfl) fun key => ?_
  exact .pass (Passes.expectMark _) fun _ => .held rfl

theorem holds_taggedTemplate (hgrammar : grammar.Sound source) (start : Nat) (access : Access) :
    Triple (access.Holds source origin start) (taggedTemplate grammar start access)
      (Access.Holds source origin start) := by
  refine .look (Looks.check _) fun _ => ofBare ?_
  refine .read (whole_templateLiteral hgrammar true).reads fun template => ?_
  exact .bind (.held rfl) fun node => .pure fun _ h => ⟨h, rfl⟩

/-- An access is continued by another one, or stays as it is. -/
theorem holds_memberStep (hgrammar : grammar.Sound source) (start : Nat) (access : Access) :
    Triple (access.Holds source origin start) (memberStep grammar start access)
      fun next => (next.getD access).Holds source origin start := by
  refine .context fun context hcontext => .look Looks.tokenKind fun kind => ?_
  split
  · refine ofHolds (.pass Passes.advance fun _ => ?_)
    exact .bind (held_memberName _ _ _) fun node => .pure fun _ h => ⟨h, rfl⟩
  · refine .choose (.pure fun _ h => h) (ofHolds ?_)
    exact .bind (held_computedMember hgrammar _ _ _) fun node => .pure fun _ h => ⟨h, rfl⟩
  · refine .look Looks.peek fun next => ?_
    split
    · refine .choose (.pure fun _ h => h) (ofHolds (.pass Passes.advance fun _ => ?_))
      exact .bind (held_computedMember hgrammar _ _ _) fun node => .pure fun _ h => ⟨h, rfl⟩
    · refine ofHolds (.pass Passes.advance fun _ => ?_)
      exact .bind (held_memberName _ _ _) fun node => .pure fun _ h => ⟨h, rfl⟩
    · refine ofHolds (.pass Passes.advance fun _ => ?_)
      exact .bind (held_memberName _ _ _) fun node => .pure fun _ h => ⟨h, rfl⟩
    · exact .pure fun _ h => h
  · exact .look Looks.token fun token => .skip (by rw [hcontext]; rfl) (.pure fun _ h => h)
  · exact .bind (holds_taggedTemplate hgrammar start access) fun next => .pure fun _ h => h
  · exact .skip hcontext (.pure fun _ h => h)
  · exact .skip hcontext (.pure fun _ h => h)
  · exact .pure fun _ h => h

theorem holds_memberRest (hgrammar : grammar.Sound source) (start : Nat) (access : Access) :
    Triple (access.Holds source origin start) (memberRest grammar start access)
      (Access.Holds source origin start) :=
  .iterate _ (holds_memberStep hgrammar start) access

end Access

/-! ## Calls -/

/-- The arguments of a call stand in a row. -/
theorem row_callArguments (hgrammar : grammar.Sound source) (hplaced : origin.Placed source) :
    Triple (· = origin) (callArguments grammar) fun items progress =>
      ∃ place arguments, items = ⟨.list, place, arguments⟩ ∧
        Row source true origin arguments progress := by
  refine .look Looks.position fun start => .reach hplaced (.pass (Passes.expectMark _) fun _ => ?_)
  have hitem : Whole source
      (do if ← isMark .ellipsis then spread grammar else grammar .assignment) :=
    .look (Looks.isMark _) fun _ origin hplaced =>
      .choose (whole_spread hgrammar origin hplaced) (hgrammar.assignment origin hplaced)
  refine .bind (.within (.row hitem) fun _ => rfl) fun arguments => ?_
  refine .passRow (Passes.expectMark _) fun _ => ?_
  intro context progress value last _ hrow hread
  cases hread
  exact ⟨_, arguments, rfl, hrow⟩

theorem reads_callArguments (hgrammar : grammar.Sound source) :
    Reads source true (fun node => [node]) (callArguments grammar) := by
  intro origin hplaced
  refine (row_callArguments hgrammar hplaced).mono (fun _ h => h) fun items progress h => ?_
  obtain ⟨place, arguments, rfl, hrow⟩ := h
  exact hrow.exchange (hrow.fits.free rfl)

/-- A call behind its callee. -/
theorem held_of_row {middle final : Progress} {callee : Node} {place : Span}
    {arguments : List Node} (hcallee : Reached source true origin [callee] middle)
    (hrow : Row source true middle arguments final) (optional : Bool) :
    Held source origin origin.here
      ⟨.call optional, ⟨origin.here, final.lastStop⟩, [callee, ⟨.list, place, arguments⟩]⟩
      final := by
  have hboth : Reached source true origin ([callee] ++ arguments) final :=
    hcallee.trans hrow.toReached
  exact { hboth.exchange (.call hcallee.fits hrow.fits hrow.first hboth.covers hcallee.here_le
    hrow.here_le) with span_eq := rfl }

/-- The arguments of a call are read, and the call becomes a node. -/
theorem callBehind (hgrammar : grammar.Sound source) {callee : Node} {optional : Bool} {β : Type}
    {rest : Node → Reading β} {post : β → Progress → Prop}
    (hrest : ∀ node, Triple (Held source origin origin.here node) (rest node) post) :
    Triple (Reached source true origin [callee])
      (callArguments grammar >>= fun items =>
        node (.call optional) origin.here [callee, items] >>= rest) post := by
  refine .through (fun items progress => ∃ middle place arguments,
    items = ⟨.list, place, arguments⟩ ∧ Reached source true origin [callee] middle ∧
      Row source true middle arguments progress) ?_ fun items => .bind ?_ hrest
  · intro context progress items last hcontext hpre hread
    obtain ⟨place, arguments, hitems, hrow⟩ :=
      row_callArguments hgrammar hpre.placed _ _ _ _ hcontext rfl hread
    exact ⟨progress, place, arguments, hitems, hpre, hrow⟩
  · intro context progress call last _ hpre hread
    obtain ⟨middle, place, arguments, rfl, hcallee, hrow⟩ := hpre
    cases hread
    exact held_of_row hcallee hrow optional

theorem holds_callStep (hgrammar : grammar.Sound source) (access : Access) :
    Triple (access.Holds source origin origin.here) (callStep grammar origin.here access)
      fun next => (next.getD access).Holds source origin origin.here := by
  refine .look Looks.tokenKind fun kind => ?_
  split
  · exact ofBare (callBehind hgrammar fun node => .pure fun _ h => ⟨h, rfl⟩)
  · refine .bind (holds_memberStep hgrammar origin.here access) fun next => ?_
    cases next with
    | some next => exact .pure fun _ h => h
    | none =>
        refine ofBare (.pass Passes.advance fun _ => .context fun context hcontext => ?_)
        exact .skip hcontext (callBehind hgrammar fun node => .pure fun _ h => ⟨h, rfl⟩)
  · exact holds_memberStep hgrammar origin.here access

/-! ## What accesses stand behind -/

theorem whole_importExpression (hgrammar : grammar.Sound source) :
    Whole source (importExpression grammar) := by
  have hcall : ∀ (origin : Progress) (phase : String), Triple (Reached source true origin [])
      (importExpression.call grammar origin.here phase) (Held source origin origin.here) := by
    intro origin phase
    refine .pass (Passes.expectMark _) fun _ => ?_
    refine .through (fun parts => Reached source true origin parts) (.within ?_ fun _ => rfl)
      fun parts => .pass (Passes.expectMark _) fun _ => .held rfl
    refine .read hgrammar.assignment.reads fun first => .pass (Eats.eatMark _).passes fun found => ?_
    refine .look (Looks.isMark _) fun atEnd => .choose ?_ ?_
    · refine .read hgrammar.assignment.reads fun options => ?_
      exact .pass (Eats.eatMark _).passes fun _ => .value (.pure fun _ h => h)
    · exact .missing (.value (.pure fun _ h => h))
  refine .begin fun origin => .pass (Passes.expectWord _) fun _ => ?_
  refine .eat (Eats.eatMark _) (fun _ h => h) ?_ (hcall origin "")
  refine .look Looks.tokenKind fun kind => ?_
  split
  · exact .pass Passes.advance fun _ => .leaf rfl fun _ => trivial
  · exact .pass Passes.advance fun _ => hcall origin _
  · exact .pass Passes.advance fun _ => hcall origin _
  · exact .refuse

theorem whole_superExpression : Whole source superExpression := by
  intro origin hplaced
  have hnode : Whole source (simpleNode .superExpression) := whole_simpleNode rfl fun _ => trivial
  refine .bind (hnode origin hplaced) fun node => .look Looks.tokenKind fun kind => ?_
  split <;> first
    | exact .pure fun _ h => h
    | exact .refuse

theorem whole_newTarget : Whole source newTarget := by
  refine .begin fun origin => .pass (Passes.expectWord _) fun _ => ?_
  refine .pass (Passes.expectMark _) fun _ => .pass passes_anyWord fun name => ?_
  exact .look (Looks.check _) fun _ => .leaf rfl fun _ => trivial

theorem whole_accessBase (hgrammar : grammar.Sound source) :
    Whole source (accessBase grammar) := by
  refine .look Looks.tokenKind fun kind => ?_
  split
  · exact whole_superExpression
  · exact whole_importExpression hgrammar
  · exact whole_newTarget
  · exact whole_primary hgrammar

/-! ## Creations of objects -/

/-- Where the words `new` begin: the first of them at the origin. -/
def WordsRead (source : String) (origin : Progress) : List Nat → Progress → Prop
  | [], progress => progress = origin
  | start :: _, progress => start = origin.here ∧ Reached source true origin [] progress

theorem wordsRead_newWords (hplaced : origin.Placed source) :
    Triple (· = origin) newWords (WordsRead source origin) := by
  refine .collect (WordsRead source origin) fun found => ?_
  cases found with
  | nil =>
      refine .here fun progress hprogress => ?_
      obtain rfl : progress = origin := hprogress
      refine .look (Looks.isPlainWord _) fun atNew => .look Looks.peek fun next => ?_
      refine .choose ?_ (.pure fun _ h => h)
      exact .bind (Passes.advance progress hplaced) fun _ => .pure fun _ h => ⟨rfl, h⟩
  | cons start rest =>
      refine .look Looks.position fun here => .look (Looks.isPlainWord _) fun atNew => ?_
      refine .look Looks.peek fun next => .choose ?_ (.pure fun _ h => h)
      refine .mono (.fact fun hstart : start = origin.here => .pass Passes.advance fun _ => ?_)
        (fun _ h => ⟨h.2, h.1⟩) fun _ _ h => h
      exact .pure fun _ h => ⟨hstart, h⟩

/-- One creation of an object takes the arguments behind its callee. -/
theorem createBehind (hgrammar : grammar.Sound source) {start : Nat} {callee : Access}
    (first : Nat) {rest : Node → Reading Access} {post : Access → Progress → Prop}
    (hrest : ∀ node, Triple (Held source origin first node) (rest node) post) :
    Triple (callee.Holds source origin start)
      (do
        check !callee.isOptional
        let items ← if ← isMark .parenOpen then callArguments grammar
          else pure ⟨.list, ⟨(← progress).lastStop, (← progress).lastStop⟩, []⟩
        let created ← node .newCall first [callee.bare, items]
        rest created) post := by
  refine .look (Looks.check _) fun _ => ofBare (.look (Looks.isMark _) fun found => ?_)
  have hcreated : ∀ items, Triple (Reached source true origin [callee.bare, items])
      (node .newCall first [callee.bare, items] >>= rest) post := fun _ => .bind (.held rfl) hrest
  refine .choose (.read (reads_callArguments hgrammar) hcreated) ?_
  refine .look Looks.progress fun before => .look Looks.progress fun after => .value ?_
  refine .exchange (fun _ h => ?_) (hcreated _)
  exact h.fits.append (Plain.nil.free rfl).fits h.here_le (Nat.le_refl _)

/-- The outermost creation of an object covers everything from its own word on. -/
theorem holds_newCalls (hgrammar : grammar.Sound source) (outermost : Nat) (inner : List Nat)
    {start : Nat} (callee : Access) :
    Triple (callee.Holds source origin start) (newCalls grammar (inner ++ [outermost]) callee)
      (Access.Holds source origin outermost) := by
  induction inner generalizing start callee with
  | nil => exact createBehind hgrammar outermost fun created => .pure fun _ h => ⟨h, rfl⟩
  | cons first inner ih =>
      obtain ⟨next, outer, houter⟩ : ∃ next outer, inner ++ [outermost] = next :: outer :=
        List.exists_cons_of_ne_nil (List.append_ne_nil_of_right_ne_nil _ (List.cons_ne_nil _ _))
      rw [List.cons_append, houter]
      rw [houter] at ih
      refine createBehind hgrammar first fun created => ?_
      refine .mono (.bind (holds_memberRest hgrammar first _) fun access => ih access)
        (fun _ h => ⟨h, rfl⟩) fun _ _ h => h

theorem whole_leftHand (hgrammar : grammar.Sound source) : Whole source (leftHand grammar) := by
  intro origin hplaced
  -- the accesses and calls behind the base or the creations begin at the origin
  have hrest : ∀ chain : Access → Reading Node,
      (∀ access, access.hasTypeArguments = false →
        Triple (Reached source true origin [access.node]) (chain access)
          (Held source origin origin.here)) →
      ∀ access, Triple (Access.Holds source origin origin.here access)
        (do
          let access ← iterate (callStep grammar origin.here) access
          if access.isOptional then chain access else return access.node)
        (Held source origin origin.here) := by
    intro chain hchain access
    refine .bind (.iterate _ (holds_callStep hgrammar) access) fun access => ?_
    refine .choose ?_ (.pure fun _ h => h.held)
    exact .mono (.fact fun huntyped : access.hasTypeArguments = false => hchain access huntyped)
      (fun _ h => ⟨h.held.toReached, h.untyped⟩) fun _ _ h => h
  refine .bind (wordsRead_newWords hplaced) fun starts => ?_
  cases starts with
  | nil =>
      refine .here fun progress hprogress => ?_
      obtain rfl : progress = origin := hprogress
      refine .bind (whole_accessBase hgrammar progress hplaced) fun base => .value ?_
      refine .mono (hrest _ (fun access huntyped => ?_) { node := base }) (fun _ h => ⟨h, rfl⟩)
        fun _ _ h => h
      rw [huntyped]
      exact .held rfl
  | cons start outer =>
      refine .here fun progress hwords => ?_
      obtain ⟨rfl, hreached⟩ : start = origin.here ∧ Reached source true origin [] progress := hwords
      have hbase : Triple (· = progress) (accessBase grammar) (Held source origin progress.here) :=
        (whole_accessBase hgrammar progress hreached.placed).mono (fun _ h => h)
          fun _ _ h => h.after hreached
      refine .bind hbase fun base => ?_
      have hcreate : ∀ callee, Triple (Access.Holds source origin progress.here callee)
          (newCalls grammar (outer.reverse ++ [origin.here]) callee)
          (Access.Holds source origin origin.here) :=
        holds_newCalls hgrammar origin.here outer.reverse
      obtain ⟨first, more, hfirst⟩ : ∃ first more, (origin.here :: outer).reverse = first :: more :=
        List.exists_cons_of_ne_nil (List.reverse_ne_nil_iff.mpr (List.cons_ne_nil _ _))
      rw [← List.reverse_cons, hfirst] at hcreate
      rw [hfirst]
      refine .look (Looks.check _) fun _ => ?_
      refine .mono (.bind (holds_memberRest hgrammar _ _) fun callee => ?_) (fun _ h => ⟨h, rfl⟩)
        fun _ _ h => h
      refine .bind (hcreate callee) (hrest _ fun access huntyped => ?_)
      rw [huntyped]
      exact .held rfl

/-! ## Operators -/

/-- An operand that has been read becomes a part. -/
theorem ofHeld {α : Type} {start : Nat} {operand : Node} {reader : Reading α}
    {post : α → Progress → Prop}
    (h : Triple (Reached source true origin [operand]) reader post) :
    Triple (Held source origin start operand) reader post :=
  h.mono (fun _ h => h.toReached) fun _ _ h => h

theorem whole_updateExpression (hgrammar : grammar.Sound source) :
    Whole source (updateExpression grammar) := by
  refine .position fun origin hplaced => .look Looks.tokenKind fun kind => ?_
  split
  · refine .reach hplaced (.pass Passes.advance fun _ => ?_)
    refine .read hgrammar.unary.reads fun operand => .look (Looks.check _) fun _ => ?_
    exact .held rfl
  · refine .bind (hgrammar.leftHand origin hplaced) fun operand => ?_
    refine .look Looks.token fun token => ?_
    split
    · refine .look (Looks.check _) fun _ => ofHeld (.pass Passes.advance fun _ => ?_)
      exact .held rfl
    · exact .pure fun _ h => h

theorem whole_unaryExpression (hgrammar : grammar.Sound source) :
    Whole source (unaryExpression grammar) := by
  refine .position fun origin hplaced => .look Looks.tokenKind fun kind => ?_
  split
  · refine .reach hplaced (.pass Passes.advance fun _ => ?_)
    exact .read hgrammar.unary.reads fun operand => .held rfl
  · refine .context fun context hcontext => .look (Looks.isMark _) fun atTypes => ?_
    refine .skip (by rw [hcontext]; rfl) (.look (Looks.isPlainWord _) fun atAwait => ?_)
    refine .choose (.look Looks.context fun context => .choose ?_ ?_) ?_
    · refine .reach hplaced (.pass Passes.advance fun _ => ?_)
      exact .read hgrammar.unary.reads fun operand => .held rfl
    · refine .look Looks.peek fun next => .look (Looks.check _) fun _ => ?_
      exact whole_updateExpression hgrammar origin hplaced
    · exact whole_updateExpression hgrammar origin hplaced

theorem whole_privateOperand (hgrammar : grammar.Sound source) :
    Whole source (privateOperand grammar) := by
  refine .look Looks.tokenKind fun kind => ?_
  split
  · refine .look Looks.context fun context => .look Looks.peek fun next => ?_
    exact .look (Looks.check _) fun _ => whole_simpleNode rfl fun _ => trivial
  · exact hgrammar.unary

/-- No types stand behind an operand. -/
theorem answers_typeOperator (level start : Nat) (operand : Node) :
    Answers (typeOperator grammar level start operand) none :=
  .look (Looks.isPlainWord _) fun _ => .look (Looks.isPlainWord _) fun _ =>
    .context fun _ hcontext => .look Looks.token fun _ => .skip (by rw [hcontext]; rfl) (.pure _)

/-- An operand is continued by an operator with another one, or stays as it is. -/
theorem held_operatorStep (hgrammar : grammar.Sound source) (level start : Nat) (left : Node) :
    Triple (Held source origin start left) (operatorStep grammar level start left)
      fun next => Held source origin start (next.getD left) := by
  refine .answer (answers_typeOperator level start left) ?_
  refine .look Looks.context fun context => .look Looks.tokenKind fun kind => ?_
  split
  · exact .pure fun _ h => h
  · rename_i operator _
    refine .choose (.pure fun _ h => h) (.look (Looks.check _) fun _ => ofHeld ?_)
    refine .pass Passes.advance fun _ => .read (hgrammar.operators _).reads fun right => ?_
    refine .look (Looks.check _) fun _ => .bind (.held ?_) fun node => .pure fun _ h => h
    cases operator.isLogical <;> rfl

theorem whole_operators (hgrammar : grammar.Sound source) (level : Nat) :
    Whole source (operators grammar level) :=
  .holding (whole_privateOperand hgrammar) fun _ first =>
    .iterate _ (held_operatorStep hgrammar level _) first

/-! ## Assignments -/

theorem whole_yieldExpression (hgrammar : grammar.Sound source) :
    Whole source (yieldExpression grammar) := by
  refine .begin fun origin => .pass (Passes.expectWord _) fun _ => .look Looks.token fun token => ?_
  refine .choose (.missing (.held rfl)) ?_
  refine .pass (Eats.eatMark _).passes fun delegate => ?_
  exact .read hgrammar.assignment.reads fun value => .held rfl

theorem held_conditionalRest (hgrammar : grammar.Sound source) (start : Nat) (test : Node) :
    Triple (Reached source true origin [test]) (conditionalRest grammar start test)
      (Held source origin start) := by
  refine .bind (.within (.append hgrammar.assignment.reads) fun _ => rfl) fun whenTrue => ?_
  refine .pass (Passes.expectMark _) fun _ => ?_
  exact .read hgrammar.assignment.reads fun whenFalse => .held rfl

theorem held_assignmentRest (hgrammar : grammar.Sound source) (start : Nat) (operator : String)
    (left : Node) :
    Triple (Reached source true origin [left]) (assignmentRest grammar start operator left)
      (Held source origin start) := by
  unfold assignmentRest
  dsimp only
  split
  · rename_i target htarget
    have hlike : Like [left] [target] := by
      split at htarget
      · exact like_toTarget? htarget
      · split at htarget
        · cases htarget
          exact .refl _
        · cases htarget
    refine .exchange (fun _ h => h.fits.like hlike) (.pass Passes.advance fun _ => ?_)
    exact .read hgrammar.assignment.reads fun value => .held rfl
  · exact .refuse

theorem looks_atYield : Looks atYield := by
  refine (Looks.isPlainWord _).bind fun found => .choose ?_ (.pure _)
  refine Looks.context.bind fun context => .choose (.pure _) ?_
  exact Looks.peek.bind fun next => (Looks.check _).bind fun _ => .pure _

theorem whole_assignment (hgrammar : grammar.Sound source) :
    Whole source (assignment grammar) := by
  refine .look looks_atYield fun atYield origin hplaced => ?_
  refine .choose (whole_yieldExpression hgrammar origin hplaced) ?_
  -- what follows an arrow that was not there follows as well if none was looked for
  refine .look looks_mayBeginArrow fun found => .choose
    (.through (fun (arrow : Option Node) progress =>
        arrow.elim (progress = origin) (Held source origin origin.here · progress))
      (.optional (whole_arrowFunction hgrammar origin hplaced) (fun _ _ h => h) fun _ h => h)
      ?next)
    (.value (?next none))
  intro arrow
  cases arrow with
  | some arrow => exact .pure fun _ h => h
  | none =>
      refine Whole.holding (fun origin hplaced => ?_) (fun origin left => ?_) origin hplaced
      · exact .within (hgrammar.operators 0 origin hplaced) fun _ => rfl
      · refine .look Looks.tokenKind fun kind => ?_
        split
        · exact ofHeld (held_assignmentRest hgrammar origin.here _ left)
        · refine .eat (Eats.eatMark _) (fun _ h => h.toReached) ?_ (.pure fun _ h => h)
          exact held_conditionalRest hgrammar origin.here left

end WebBundle.Syntax.Grammar

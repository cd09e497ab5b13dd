import WebBundle.Proofs.Syntax.Expression
import WebBundle.Syntax.Program

/-!
# Expressions from the start of a text

A source text is read as an expression by the readers that programs are read with.  The
expressions that generated code is made of are strings, accesses to a variable, calls with a
string and sums of such: each is read as a whole, up to the punctuator that closes it.
-/

namespace WebBundle.Syntax

open Reading

/-! ## Readers on the start of a text -/

/-- How far a source has been read before anything is taken. -/
def Progress.atStart (source : String) : Progress :=
  let first := firstToken (.ofText source)
  { token := first
    lastStop := 0
    comments := first.comments.reverse.map (first.start.offset, ·) }

/-- Runs a reader from the start of a source, as programs are read. -/
def readStart? {α : Type} (reader : Grammar → Reading α) (source : String) :
    Option (α × Progress) :=
  let size := source.toList.length
  reader (Grammar.ofDepth (16 * (size + 4))) { hasTypes := false, limit := size + 4 }
    (.atStart source)

/-- Programs are read from their start. -/
theorem Program.read?_eq (source : String) :
    Program.read? false source = match readStart? programBody source with
      | none => none
      | some (root, progress) =>
        let isValid := hasOnlyPatternDefaults root && (false || (allExportedNames root).Nodup)
        if isValid then some { source, root, comments := progress.comments.reverse } else none :=
  rfl

/-- Reads a source text as one expression. -/
def readExpression? (source : String) : Option Node :=
  match readStart? Grammar.expression source with
  | none => none
  | some (node, progress) =>
    if progress.token.kind = .finish && hasOnlyPatternDefaults node then some node else none

namespace Grammar

variable {context : Context} {progress last : Progress} {node : Node}

/-! ## Through the levels of the grammar -/

theorem unary_string (depth : Nat) (hlimit : 0 < context.limit) (htypes : context.hasTypes = false)
    {value : String} {lone : Bool} (hkind : progress.token.kind = .string value lone)
    (hend : EndsAccess progress.token.next.kind) :
    ofDepth (depth + 2) .unary context progress =
      some (⟨.stringLiteral value lone, progress.token.span, []⟩, pass progress) :=
  unaryExpression_operand htypes (hkind ▸ .text value lone) (leftHand_string hlimit hkind hend) hend

theorem unary_member (depth : Nat) (hlimit : 1 < context.limit) (htypes : context.hasTypes = false)
    {first second : Word} {name member : String} (hword : IsPlainName first)
    (hkind : progress.token.kind = .word first name false)
    (hdot : progress.token.next.kind = .mark .dot)
    (hmember : progress.token.next.next.kind = .word second member false)
    (hend : EndsAccess progress.token.next.next.next.kind) :
    ofDepth (depth + 2) .unary context progress =
      some (⟨.staticMember member false,
          ⟨progress.token.start.offset, progress.token.next.next.stop.offset⟩,
          [⟨.reference (.ofText name), progress.token.span, []⟩]⟩,
        pass (pass (pass progress))) :=
  unaryExpression_operand htypes (hkind ▸ .name name hword)
    (leftHand_member hlimit hkind hword hdot hmember hend) hend

/-- A string is read up to what ends it. -/
theorem operators_string (depth level : Nat) (hlimit : 0 < context.limit)
    (htypes : context.hasTypes = false) {value : String} {lone : Bool}
    (hkind : progress.token.kind = .string value lone)
    (hend : EndsOperand progress.token.next.kind) :
    ofDepth (depth + 3) (.operators level) context progress =
      some (⟨.stringLiteral value lone, progress.token.span, []⟩, pass progress) :=
  operators_operand level hlimit (hkind ▸ .text value lone)
    (unary_string depth hlimit htypes hkind (.operand hend)) hend

/-- An operand with what it is accessed by is an expression, up to what closes it. -/
theorem assignment_leftHand (depth : Nat) (hlimit : 0 < context.limit)
    (htypes : context.hasTypes = false) (harrow : context.allowArrowType = true)
    (hoperand : IsOperand progress.token.kind) (hnext : progress.token.next.kind ≠ .mark .arrow)
    (hleft : leftHand (ofDepth depth) context progress = some (node, last))
    (hend : Closes last.token.kind) :
    ofDepth (depth + 4) .assignment context progress = some (node, last) := by
  have hunary : ofDepth (depth + 2) .unary context progress = some (node, last) :=
    unaryExpression_operand htypes hoperand hleft (.operand (.closing hend))
  have hoperators : ofDepth (depth + 3) (.operators 0) context progress = some (node, last) :=
    operators_operand 0 hlimit hoperand hunary (.closing hend)
  exact assignment_operand harrow hoperand hnext hoperators hend

/-! ## The expressions of generated code -/

/-- A place in plain code with room for what is nested in an expression. -/
structure Roomy (depth : Nat) (context : Context) : Prop where
  depth : 8 ≤ depth
  limit : 1 < context.limit
  types : context.hasTypes = false
  arrow : context.allowArrowType = true
  decorator : context.inDecorator = false

theorem roomy_atStart (size : Nat) :
    Roomy (16 * (size + 4)) { hasTypes := false, limit := size + 4 } :=
  ⟨by omega, by simp, rfl, rfl, rfl⟩

theorem assignment_string (depth : Nat) (hlimit : 0 < context.limit)
    (htypes : context.hasTypes = false) (harrow : context.allowArrowType = true)
    {value : String} {lone : Bool} (hkind : progress.token.kind = .string value lone)
    (hend : Closes progress.token.next.kind) :
    ofDepth (depth + 4) .assignment context progress =
      some (⟨.stringLiteral value lone, progress.token.span, []⟩, pass progress) :=
  assignment_leftHand depth hlimit htypes harrow (hkind ▸ .text value lone)
    (fun harrow => by rw [harrow] at hend; cases hend)
    (leftHand_string hlimit hkind (.operand (.closing hend))) hend

variable {depth : Nat} {name member value : String} {first second : Word} {lone : Bool}
  {kind : TokenKind}

theorem assignment_member (hroom : Roomy depth context) (hword : IsPlainName first)
    (hyields : Yields progress.token
      [.word first name false, .mark .dot, .word second member false, kind])
    (hend : Closes kind) :
    ∃ span inner last, ofDepth depth .assignment context progress =
        some (⟨.staticMember member false, span, [⟨.reference (.ofText name), inner, []⟩]⟩, last) ∧
      last.token = progress.token.next.next.next := by
  obtain ⟨depth, rfl⟩ := Nat.exists_eq_add_of_le' hroom.depth
  obtain ⟨hname, hdot, hmember, hkind, -⟩ := hyields
  have hclose : Closes progress.token.next.next.next.kind := hkind ▸ hend
  exact ⟨_, _, _, assignment_leftHand (depth + 4) (Nat.zero_lt_of_lt hroom.limit) hroom.types
    hroom.arrow (hname ▸ .name name hword) (by rw [hdot]; decide)
    (leftHand_member hroom.limit hname hword hdot hmember (.operand (.closing hclose))) hclose, rfl⟩

theorem assignment_element (hroom : Roomy depth context) (hword : IsPlainName first)
    (hyields : Yields progress.token
      [.word first name false, .mark .bracketOpen, .string value lone, .mark .bracketClose, kind])
    (hend : Closes kind) :
    ∃ span inner key last, ofDepth depth .assignment context progress =
        some (⟨.computedMember false, span,
          [⟨.reference (.ofText name), inner, []⟩, ⟨.stringLiteral value lone, key, []⟩]⟩, last) ∧
      last.token = progress.token.next.next.next.next := by
  obtain ⟨depth, rfl⟩ := Nat.exists_eq_add_of_le' hroom.depth
  obtain ⟨hname, hopen, hvalue, hbracket, hkind, -⟩ := hyields
  have hlimit : 0 < context.limit := Nat.zero_lt_of_lt hroom.limit
  have hkey := @assignment_string (nested context) (pass (pass progress)) depth hlimit hroom.types
    hroom.arrow value lone hvalue (by rw [pass_token, pass_token, hbracket]; exact .bracketClose)
  have hbehind : (pass (pass (pass progress))).token = progress.token.next.next.next := by
    simp only [pass_token]
  generalize pass (pass (pass progress)) = behind at hkey hbehind
  have hexpression := @expression_single (nested context) _ behind _ _ hlimit hkey
    (by rw [hbehind, hbracket]; decide)
  have hstep := callStep_element progress.token.start.offset
    { node := ⟨.reference (.ofText name), progress.token.span, []⟩ } hroom.decorator hopen
    hexpression (by rw [hbehind]; exact hbracket)
  have hlast : (pass behind).token = progress.token.next.next.next.next := by
    rw [pass_token, hbehind]
  have hclose : Closes (pass behind).token.kind := by
    rw [hlast, hkind]
    exact hend
  generalize pass behind = last at hstep hlast hclose
  have hleft := leftHand_access hroom.limit hname hword hstep (.operand (.closing hclose))
  exact ⟨_, _, _, last, assignment_leftHand (depth + 4) hlimit hroom.types hroom.arrow
    (hname ▸ .name name hword) (by rw [hopen]; decide) hleft hclose, hlast⟩

theorem assignment_call (hroom : Roomy depth context) (hword : IsPlainName first)
    (hyields : Yields progress.token
      [.word first name false, .mark .parenOpen, .string value lone, .mark .parenClose, kind])
    (hend : Closes kind) :
    ∃ span inner list key last, ofDepth depth .assignment context progress =
        some (⟨.call false, span, [⟨.reference (.ofText name), inner, []⟩,
          ⟨.list, list, [⟨.stringLiteral value lone, key, []⟩]⟩]⟩, last) ∧
      last.token = progress.token.next.next.next.next := by
  obtain ⟨depth, rfl⟩ := Nat.exists_eq_add_of_le' hroom.depth
  obtain ⟨hname, hopen, hvalue, hparen, hkind, -⟩ := hyields
  have hlimit : 0 < context.limit := Nat.zero_lt_of_lt hroom.limit
  have hargument := @assignment_string (nested context) (pass (pass progress)) depth hlimit
    hroom.types hroom.arrow value lone hvalue
    (by rw [pass_token, pass_token, hparen]; exact .parenClose)
  have hbehind : (pass (pass (pass progress))).token = progress.token.next.next.next := by
    simp only [pass_token]
  generalize pass (pass (pass progress)) = behind at hargument hbehind
  have hmark : ∀ mark, (pass progress).token.next.kind ≠ .mark mark := by
    intro mark hmark
    rw [pass_token, hvalue] at hmark
    cases hmark
  have hstep := @callStep_call context (pass progress) behind (ofDepth (depth + 4))
    progress.token.start.offset ⟨.reference (.ofText name), progress.token.span, []⟩ _ hroom.limit
    hopen hmark hargument (by rw [hbehind]; exact hparen)
  have hlast : (pass behind).token = progress.token.next.next.next.next := by
    rw [pass_token, hbehind]
  have hclose : Closes (pass behind).token.kind := by
    rw [hlast, hkind]
    exact hend
  generalize pass behind = last at hstep hlast hclose
  have hleft := leftHand_access hroom.limit hname hword hstep (.operand (.closing hclose))
  exact ⟨_, _, _, _, last, assignment_leftHand (depth + 4) hlimit hroom.types hroom.arrow
    (hname ▸ .name name hword) (by rw [hopen]; decide) hleft hclose, hlast⟩

/-- A sum of a property and a string. -/
theorem assignment_sum (hroom : Roomy depth context) (hword : IsPlainName first)
    (hyields : Yields progress.token
      [.word first name false, .mark .dot, .word second member false, .mark .plus,
        .string value lone, kind])
    (hend : Closes kind) :
    ∃ span left inner right last, ofDepth depth .assignment context progress =
        some (⟨.binary "+", span,
          [⟨.staticMember member false, left, [⟨.reference (.ofText name), inner, []⟩]⟩,
            ⟨.stringLiteral value lone, right, []⟩]⟩, last) ∧
      last.token = progress.token.next.next.next.next.next := by
  obtain ⟨depth, rfl⟩ := Nat.exists_eq_add_of_le' hroom.depth
  obtain ⟨hname, hdot, hmember, hplus, hstring, hkind, -⟩ := hyields
  have hoperand : IsOperand progress.token.kind := hname ▸ .name name hword
  have hleft := unary_member (depth + 4) hroom.limit hroom.types hword hname hdot hmember
    (by rw [hplus]; exact .plus)
  have hbehind : (pass (pass (pass progress))).token = progress.token.next.next.next := by
    simp only [pass_token]
  generalize pass (pass (pass progress)) = behind at hleft hbehind
  have hlast : (pass (pass behind)).token = progress.token.next.next.next.next.next := by
    simp only [pass_token, hbehind]
  have hclose : Closes (pass (pass behind)).token.kind := by
    rw [hlast, hkind]
    exact hend
  have hright := @operators_string context (pass behind) (depth + 3) 10
    (Nat.zero_lt_of_lt hroom.limit) hroom.types value lone
    (by rw [pass_token, hbehind]; exact hstring) (.closing hclose)
  generalize pass (pass behind) = last at hright hlast hclose
  have hsum := operators_sum hroom.limit hoperand hleft (by rw [hbehind]; exact hplus) hright
    (.closing hclose)
  have hoperators : ofDepth (depth + 7) (.operators 0) = operators (ofDepth (depth + 6)) 0 := rfl
  rw [← hoperators] at hsum
  exact ⟨_, _, _, _, last,
    assignment_operand hroom.arrow hoperand (by rw [hdot]; decide) hsum hclose, hlast⟩

/-- A string in front of a colon is the key of a property, whose value is what comes behind. -/
theorem objectMember_string {grammar : Grammar} (hkind : progress.token.kind = .string value lone)
    (hcolon : progress.token.next.kind = .mark .colon) :
    objectMember grammar context progress =
      (do
        let read ← grammar .assignment
        Reading.node (.property false false) progress.token.start.offset
          [⟨.stringLiteral value lone, progress.token.span, []⟩, read])
        context (pass (pass progress)) := by
  have hadvance : advance context progress = some (progress.token, pass progress) :=
    advance_apply (by simp [hkind]) (by simp [hkind])
  have hkey : propertyKey grammar context progress =
      some ((⟨.stringLiteral value lone, progress.token.span, []⟩, false), pass progress) := by
    simp [propertyKey, stringLiteral, hkind, hadvance, Token.span]
  have hnext : (pass progress).token.kind = .mark .colon := hcolon
  simp [objectMember, atIdentifier, methodStart, hkind, hkey, hcolon, Node.kind,
    MethodStart.isMarked, expectMark_of_mark hnext]

end Grammar

/-! ## From the start of a source -/

/-- A source begins with an expression, which a token of some kind closes. -/
def ReadsExpression (source : String) (kind : TokenKind) (node : Node) : Prop :=
  ∃ last, readStart? (fun grammar => grammar .assignment) source = some (node, last) ∧
    last.token.kind = kind

/-- An expression that nothing comes behind is what the whole source is read as. -/
theorem ReadsExpression.readExpression? {source : String} {node : Node}
    (h : ReadsExpression source .finish node) (hdefaults : hasOnlyPatternDefaults node = true) :
    readExpression? source = some node := by
  obtain ⟨last, hread, hlast⟩ := h
  have hexpression : readStart? Grammar.expression source = some (node, last) :=
    Grammar.expression_single (Nat.succ_pos _) hread (by rw [hlast]; decide)
  rw [Syntax.readExpression?, hexpression]
  simp [hlast, hdefaults]

section Source

variable {source name value member : String} {word : Word} {kind : TokenKind} {lone : Bool}

theorem readsExpression_string (hend : Closes kind)
    (hyields : Yields (Progress.atStart source).token [.string value lone, kind]) :
    ∃ span, ReadsExpression source kind ⟨.stringLiteral value lone, span, []⟩ := by
  obtain ⟨hvalue, hkind, -⟩ := hyields
  have hroom := Grammar.roomy_atStart source.toList.length
  obtain ⟨depth, hdepth⟩ := Nat.exists_eq_add_of_le' (Nat.le_trans (by decide : 4 ≤ 8) hroom.depth)
  have hread := @Grammar.assignment_string _ (.atStart source) depth
    (Nat.zero_lt_of_lt hroom.limit) hroom.types hroom.arrow _ _ hvalue (by rw [hkind]; exact hend)
  rw [← hdepth] at hread
  exact ⟨_, _, hread, hkind⟩

theorem readsExpression_member (hend : Closes kind)
    (hyields : Yields (Progress.atStart source).token
      [.word .other name false, .mark .dot, .word word member false, kind]) :
    ∃ span inner, ReadsExpression source kind
      ⟨.staticMember member false, span, [⟨.reference (.ofText name), inner, []⟩]⟩ := by
  obtain ⟨span, inner, last, hread, hlast⟩ :=
    Grammar.assignment_member (Grammar.roomy_atStart _) (.inr rfl) hyields hend
  exact ⟨span, inner, last, hread, by rw [hlast]; exact hyields.2.2.2.1⟩

theorem readsExpression_element (hend : Closes kind)
    (hyields : Yields (Progress.atStart source).token
      [.word .other name false, .mark .bracketOpen, .string value lone, .mark .bracketClose,
        kind]) :
    ∃ span inner key, ReadsExpression source kind
      ⟨.computedMember false, span,
        [⟨.reference (.ofText name), inner, []⟩, ⟨.stringLiteral value lone, key, []⟩]⟩ := by
  obtain ⟨span, inner, key, last, hread, hlast⟩ :=
    Grammar.assignment_element (Grammar.roomy_atStart _) (.inr rfl) hyields hend
  exact ⟨span, inner, key, last, hread, by rw [hlast]; exact hyields.2.2.2.2.1⟩

theorem readsExpression_call (hend : Closes kind)
    (hyields : Yields (Progress.atStart source).token
      [.word .other name false, .mark .parenOpen, .string value lone, .mark .parenClose, kind]) :
    ∃ span inner list key, ReadsExpression source kind
      ⟨.call false, span, [⟨.reference (.ofText name), inner, []⟩,
        ⟨.list, list, [⟨.stringLiteral value lone, key, []⟩]⟩]⟩ := by
  obtain ⟨span, inner, list, key, last, hread, hlast⟩ :=
    Grammar.assignment_call (Grammar.roomy_atStart _) (.inr rfl) hyields hend
  exact ⟨span, inner, list, key, last, hread, by rw [hlast]; exact hyields.2.2.2.2.1⟩

theorem readsExpression_sum (hend : Closes kind)
    (hyields : Yields (Progress.atStart source).token
      [.word .other name false, .mark .dot, .word word member false, .mark .plus,
        .string value lone, kind]) :
    ∃ span left inner right, ReadsExpression source kind
      ⟨.binary "+", span,
        [⟨.staticMember member false, left, [⟨.reference (.ofText name), inner, []⟩]⟩,
          ⟨.stringLiteral value lone, right, []⟩]⟩ := by
  obtain ⟨span, left, inner, right, last, hread, hlast⟩ :=
    Grammar.assignment_sum (Grammar.roomy_atStart _) (.inr rfl) hyields hend
  exact ⟨span, left, inner, right, last, hread, by rw [hlast]; exact hyields.2.2.2.2.2.1⟩

end Source

end WebBundle.Syntax

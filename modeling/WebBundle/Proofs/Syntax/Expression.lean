import WebBundle.Proofs.Syntax.Reading
import WebBundle.Proofs.Syntax.Tokens
import WebBundle.Syntax.Grammar.Statement

/-!
# Reading simple expressions

An operand that is a name with one access or call, or a string, is read through all levels
of the grammar, up to the operator or the punctuator that ends it.  From this follows how
a sum and an assignment of such operands are read.
-/

namespace WebBundle.Syntax.Grammar

open Reading

variable {context : Context} {progress last : Progress} {grammar : Grammar} {node : Node}

/-- Words that begin no construct of their own where an expression is expected. -/
def IsPlainName (word : Word) : Prop := word = .module_ ∨ word = .other

/-- Tokens that begin an operand and no other construct. -/
inductive IsOperand : TokenKind → Prop where
  | name {word : Word} (name : String) : IsPlainName word → IsOperand (.word word name false)
  | text (value : String) (lone : Bool) : IsOperand (.string value lone)

/-- Tokens that end all operands. -/
inductive EndsOperand : TokenKind → Prop where
  | assign : EndsOperand (.mark .assign)
  | closing {kind : TokenKind} : Closes kind → EndsOperand kind

/-- Tokens that no access begins with. -/
inductive EndsAccess : TokenKind → Prop where
  | plus : EndsAccess (.mark .plus)
  | operand {kind : TokenKind} : EndsOperand kind → EndsAccess kind

/-! ## Operands -/

theorem primary_name {word : Word} {name : String}
    (hkind : progress.token.kind = .word word name false) (hword : IsPlainName word) :
    primary grammar context progress =
      some (⟨.reference (.ofText name), progress.token.span, []⟩, pass progress) := by
  have hadvance : advance context progress = some (progress.token, pass progress) :=
    advance_apply (by simp [hkind]) (by simp [hkind])
  have hreference : reference context progress =
      some (⟨.reference (.ofText name), progress.token.span, []⟩, pass progress) := by
    have hidentifier : isIdentifier context word = true := by
      rcases hword with rfl | rfl <;> simp [isIdentifier, Word.isReserved]
    simp [reference, identifier, atIdentifier, anyWord, hkind, hidentifier, hadvance, Token.span]
  rcases hword with rfl | rfl <;> simp [primary, hkind, hreference]

theorem primary_string {value : String} {lone : Bool}
    (hkind : progress.token.kind = .string value lone) :
    primary grammar context progress =
      some (⟨.stringLiteral value lone, progress.token.span, []⟩, pass progress) := by
  have hadvance : advance context progress = some (progress.token, pass progress) :=
    advance_apply (by simp [hkind]) (by simp [hkind])
  simp [primary, hkind, simpleNode, hadvance, Token.span]

theorem newWords_of_operand (hlimit : 0 < context.limit)
    (hoperand : IsOperand progress.token.kind) :
    newWords context progress = some ([], progress) := by
  obtain ⟨limit, hlimit⟩ : ∃ limit, context.limit = limit + 1 := ⟨context.limit - 1, by omega⟩
  have hnew : isPlainWord .new_ context progress = some (false, progress) := by
    generalize hkind : progress.token.kind = kind at hoperand
    cases hoperand with
    | name name hword => rcases hword with rfl | rfl <;> simp [isPlainWord, hkind]
    | text value lone => simp [isPlainWord, hkind]
  simp [newWords, collect, hlimit, collectFor, hnew]

theorem callStep_end (start : Nat) (access : Access) (hend : EndsAccess progress.token.kind) :
    callStep grammar start access context progress = some (none, progress) := by
  generalize hkind : progress.token.kind = kind at hend
  rcases hend with _ | (_ | (_ | _ | _ | _ | _ | _)) <;> simp [callStep, memberStep, hkind]

theorem callStep_member (start : Nat) (access : Access) {word : Word} {member : String}
    (hdot : progress.token.kind = .mark .dot)
    (hmember : progress.token.next.kind = .word word member false) :
    callStep grammar start access context progress =
      some (some
        { node := ⟨.staticMember member false, ⟨start, progress.token.next.stop.offset⟩,
            [access.node]⟩
          isOptional := access.isOptional },
        pass (pass progress)) := by
  have hadvance : advance context progress = some (progress.token, pass progress) :=
    advance_apply (by simp [hdot]) (by simp [hdot])
  have hname : advance context (pass progress) =
      some (progress.token.next, pass (pass progress)) :=
    advance_apply (by simp [hmember]) (by simp [hmember])
  simp [callStep, memberStep, hdot, hadvance, memberName, anyWord, hmember, hname]

theorem callStep_element (start : Nat) (access : Access) {key : Node}
    (hdecorator : context.inDecorator = false)
    (hopen : progress.token.kind = .mark .bracketOpen)
    (hkey : expression grammar (nested context) (pass progress) = some (key, last))
    (hclose : last.token.kind = .mark .bracketClose) :
    callStep grammar start access context progress =
      some (some
        { node := ⟨.computedMember false, ⟨start, last.token.stop.offset⟩, [access.node, key]⟩
          isOptional := access.isOptional },
        pass last) := by
  have hcomputed : computedMember grammar start access.node false context progress =
      some (⟨.computedMember false, ⟨start, last.token.stop.offset⟩, [access.node, key]⟩,
        pass last) := by
    simp [computedMember, expectMark_of_mark hopen, hkey, expectMark_of_mark hclose]
  simp [callStep, memberStep, hopen, hdecorator, hcomputed]

theorem callStep_call (start : Nat) {object argument : Node} (hlimit : 1 < context.limit)
    (hopen : progress.token.kind = .mark .parenOpen)
    (hmark : ∀ mark, progress.token.next.kind ≠ .mark mark)
    (hargument : grammar .assignment (nested context) (pass progress) = some (argument, last))
    (hclose : last.token.kind = .mark .parenClose) :
    callStep grammar start { node := object } context progress =
      some (some
        { node := ⟨.call false, ⟨start, last.token.stop.offset⟩,
            [object, ⟨.list, ⟨progress.token.start.offset, last.token.stop.offset⟩, [argument]⟩]⟩ },
        pass last) := by
  have hlist := @commaList_single _ (nested context) (pass progress) last .parenClose
    (do if ← isMark .ellipsis then spread grammar else grammar .assignment) argument hlimit
    (by simp [hmark]) (by simp [hmark, hargument]) hclose
  have harguments : callArguments grammar context progress =
      some (⟨.list, ⟨progress.token.start.offset, last.token.stop.offset⟩, [argument]⟩,
        pass last) := by
    simp [callArguments, expectMark_of_mark hopen, hlist, expectMark_of_mark hclose]
  simp [callStep, hopen, harguments, Access.bare]

theorem leftHand_string {value : String} {lone : Bool} (hlimit : 0 < context.limit)
    (hkind : progress.token.kind = .string value lone)
    (hend : EndsAccess progress.token.next.kind) :
    leftHand grammar context progress =
      some (⟨.stringLiteral value lone, progress.token.span, []⟩, pass progress) := by
  have hnew : newWords context progress = some ([], progress) :=
    newWords_of_operand hlimit (hkind ▸ .text value lone)
  have hbase : accessBase grammar context progress =
      some (⟨.stringLiteral value lone, progress.token.span, []⟩, pass progress) := by
    simp [accessBase, hkind, primary_string hkind]
  have hiterate := fun access => iterate_done hlimit
    (@callStep_end context (pass progress) grammar progress.token.start.offset access hend)
  simp [leftHand, hnew, hbase, hiterate]

/-- A name with one access or call behind it. -/
theorem leftHand_access {word : Word} {name : String} (hlimit : 1 < context.limit)
    (hkind : progress.token.kind = .word word name false) (hword : IsPlainName word)
    (hstep : callStep grammar progress.token.start.offset
      { node := ⟨.reference (.ofText name), progress.token.span, []⟩ } context (pass progress) =
        some (some { node }, last))
    (hend : EndsAccess last.token.kind) :
    leftHand grammar context progress = some (node, last) := by
  have hnew : newWords context progress = some ([], progress) :=
    newWords_of_operand (by omega) (hkind ▸ .name name hword)
  have hbase : accessBase grammar context progress =
      some (⟨.reference (.ofText name), progress.token.span, []⟩, pass progress) := by
    have hprimary := @primary_name context progress grammar word name hkind hword
    rcases hword with rfl | rfl <;> simp [accessBase, hkind, hprimary]
  have hiterate := iterate_once hlimit hstep (callStep_end _ _ hend)
  simp [leftHand, hnew, hbase, hiterate]

theorem leftHand_member {first second : Word} {name member : String} (hlimit : 1 < context.limit)
    (hkind : progress.token.kind = .word first name false) (hword : IsPlainName first)
    (hdot : progress.token.next.kind = .mark .dot)
    (hmember : progress.token.next.next.kind = .word second member false)
    (hend : EndsAccess progress.token.next.next.next.kind) :
    leftHand grammar context progress =
      some (⟨.staticMember member false,
          ⟨progress.token.start.offset, progress.token.next.next.stop.offset⟩,
          [⟨.reference (.ofText name), progress.token.span, []⟩]⟩,
        pass (pass (pass progress))) :=
  leftHand_access hlimit hkind hword
    (@callStep_member context (pass progress) grammar _ _ second member hdot hmember) hend

/-- Without a sign in front of it or behind it an expression is the one of the level below. -/
theorem updateExpression_of_ne
    (hfirst : progress.token.kind ≠ .mark .increment ∧ progress.token.kind ≠ .mark .decrement)
    (hleft : grammar .leftHand context progress = some (node, last))
    (hlast : last.token.kind ≠ .mark .increment ∧ last.token.kind ≠ .mark .decrement) :
    updateExpression grammar context progress = some (node, last) := by
  simp only [updateExpression, bind_apply, position_apply, tokenKind_apply]
  split
  · exact absurd ‹_› hfirst.1
  · exact absurd ‹_› hfirst.2
  · simp only [bind_apply, hleft, token_apply]
    split
    · exact absurd ‹_› hlast.1
    · exact absurd ‹_› hlast.2
    · rfl

theorem updateExpression_operand (hoperand : IsOperand progress.token.kind)
    (hleft : grammar .leftHand context progress = some (node, last))
    (hend : EndsAccess last.token.kind) :
    updateExpression grammar context progress = some (node, last) := by
  refine updateExpression_of_ne ?_ hleft ?_
  · generalize progress.token.kind = kind at hoperand
    cases hoperand <;> simp
  · generalize last.token.kind = kind at hend
    rcases hend with _ | (_ | (_ | _ | _ | _ | _ | _)) <;> simp

theorem unaryExpression_operand (htypes : context.hasTypes = false)
    (hoperand : IsOperand progress.token.kind)
    (hleft : grammar .leftHand context progress = some (node, last))
    (hend : EndsAccess last.token.kind) :
    unaryExpression grammar context progress = some (node, last) := by
  have hupdate := updateExpression_operand hoperand hleft hend
  generalize hkind : progress.token.kind = kind at hoperand
  cases hoperand with
  | name name hword =>
      rcases hword with rfl | rfl <;>
        simp [unaryExpression, unaryOperator?, hkind, htypes, isPlainWord, hupdate]
  | text value lone =>
      simp [unaryExpression, unaryOperator?, hkind, htypes, isPlainWord, hupdate]

theorem privateOperand_operand (hoperand : IsOperand progress.token.kind)
    (hunary : grammar .unary context progress = some (node, last)) :
    privateOperand grammar context progress = some (node, last) := by
  generalize hkind : progress.token.kind = kind at hoperand
  cases hoperand <;> simp [privateOperand, hkind, hunary]

/-! ## Operators -/

theorem operatorStep_end (level start : Nat) (left : Node)
    (hend : EndsOperand progress.token.kind) :
    operatorStep grammar level start left context progress = some (none, progress) := by
  generalize hkind : progress.token.kind = kind at hend
  rcases hend with _ | (_ | _ | _ | _ | _ | _) <;>
    simp [operatorStep, typeOperator, isPlainWord, hkind, infixOperator?, markOperator?]

theorem operators_operand (level : Nat) (hlimit : 0 < context.limit)
    (hoperand : IsOperand progress.token.kind)
    (hunary : grammar .unary context progress = some (node, last))
    (hend : EndsOperand last.token.kind) :
    operators grammar level context progress = some (node, last) := by
  have hfirst := privateOperand_operand hoperand hunary
  have hiterate := fun start => iterate_done hlimit
    (@operatorStep_end context last grammar level start node hend)
  simp [operators, hfirst, hiterate]

theorem operators_sum {right : Node} {final : Progress} (hlimit : 1 < context.limit)
    (hoperand : IsOperand progress.token.kind)
    (hunary : grammar .unary context progress = some (node, last))
    (hplus : last.token.kind = .mark .plus)
    (hright : grammar (.operators 10) context (pass last) = some (right, final))
    (hend : EndsOperand final.token.kind) :
    operators grammar 0 context progress =
      some (⟨.binary "+", ⟨progress.token.start.offset, final.lastStop⟩, [node, right]⟩,
        final) := by
  have hfirst := privateOperand_operand hoperand hunary
  have hadvance : advance context last = some (last.token, pass last) :=
    advance_apply (by simp [hplus]) (by simp [hplus])
  have htext : Mark.text .plus = "+" := by decide
  have hstep : operatorStep grammar 0 progress.token.start.offset node context last =
      some (some ⟨.binary "+", ⟨progress.token.start.offset, final.lastStop⟩, [node, right]⟩,
        final) := by
    simp [operatorStep, typeOperator, isPlainWord, hplus, infixOperator?, markOperator?,
      hadvance, hright, htext, mixesBadly]
  have hiterate := iterate_once hlimit hstep (operatorStep_end _ _ _ hend)
  simp [operators, hfirst, hiterate]

/-! ## Assignments -/

theorem atYield_operand (hoperand : IsOperand progress.token.kind) :
    atYield context progress = some (false, progress) := by
  generalize hkind : progress.token.kind = kind at hoperand
  cases hoperand with
  | name name hword => rcases hword with rfl | rfl <;> simp [atYield, hkind, isPlainWord]
  | text value lone => simp [atYield, hkind, isPlainWord]

theorem mayBeginArrow_operand (hoperand : IsOperand progress.token.kind)
    (hnext : progress.token.next.kind ≠ .mark .arrow) :
    mayBeginArrow context progress = some (false, progress) := by
  generalize hkind : progress.token.kind = kind at hoperand
  cases hoperand with
  | name name hword => rcases hword with rfl | rfl <;> simp [mayBeginArrow, hkind, hnext]
  | text value lone => simp [mayBeginArrow, hkind]

theorem allowArrowType_eq (harrow : context.allowArrowType = true) :
    { context with allowArrowType := true } = context := by
  cases context
  cases harrow
  rfl

theorem assignment_operand (harrow : context.allowArrowType = true)
    (hoperand : IsOperand progress.token.kind)
    (hnext : progress.token.next.kind ≠ .mark .arrow)
    (hleft : grammar (.operators 0) context progress = some (node, last))
    (hend : Closes last.token.kind) :
    assignment grammar context progress = some (node, last) := by
  generalize hkind : last.token.kind = kind at hend
  have hquestion : eatMark .question context last = some (false, last) :=
    eatMark_of_ne (by rw [hkind]; cases hend <;> decide)
  cases hend <;>
    simp [assignment, atYield_operand hoperand, mayBeginArrow_operand hoperand hnext,
      allowArrowType_eq harrow, hleft, assignmentOperator?, hkind, hquestion]

theorem assignment_to_member {span : Span} {member : String} {object right : Node}
    {final : Progress} (harrow : context.allowArrowType = true)
    (hoperand : IsOperand progress.token.kind)
    (hnext : progress.token.next.kind ≠ .mark .arrow)
    (hleft : grammar (.operators 0) context progress =
      some (⟨.staticMember member false, span, [object]⟩, last))
    (hassign : last.token.kind = .mark .assign)
    (hright : grammar .assignment context (pass last) = some (right, final)) :
    assignment grammar context progress =
      some (⟨.assignment "=", ⟨progress.token.start.offset, final.lastStop⟩,
          [⟨.staticMember member false, span, [object]⟩, right]⟩,
        final) := by
  have hadvance : advance context last = some (last.token, pass last) :=
    advance_apply (by simp [hassign]) (by simp [hassign])
  have htext : Mark.text .assign = "=" := by decide
  simp [assignment, atYield_operand hoperand, mayBeginArrow_operand hoperand hnext,
    allowArrowType_eq harrow, hleft, assignmentOperator?, hassign, htext, assignmentRest,
    toTarget?, isSimpleTarget, hadvance, hright]

/-- One expression without commas behind it. -/
theorem expression_single (hlimit : 0 < context.limit)
    (hread : grammar .assignment context progress = some (node, last))
    (hend : last.token.kind ≠ .mark .comma) :
    expression grammar context progress = some (node, last) := by
  obtain ⟨limit, hlimit⟩ : ∃ limit, context.limit = limit + 1 := ⟨context.limit - 1, by omega⟩
  simp [expression, commaSequence, hread, collect, hlimit, collectFor, eatMark_of_ne hend]

/-! ## Statements -/

theorem expressionStatement_assignment {operator : String} {span : Span} {children : List Node}
    (hlimit : 0 < context.limit)
    (hread : grammar .assignment context progress =
      some (⟨.assignment operator, span, children⟩, last))
    (hend : last.token.kind = .mark .semicolon) :
    expressionStatement grammar context progress =
      some (⟨.expressionStatement, ⟨progress.token.start.offset, last.token.stop.offset⟩,
          [⟨.assignment operator, span, children⟩]⟩,
        pass last) := by
  have hexpression : expression grammar context progress =
      some (⟨.assignment operator, span, children⟩, last) :=
    expression_single hlimit hread (by simp [hend])
  simp [expressionStatement, hexpression, endStatement, eatMark_of_mark hend, Node.kind]

theorem statement_module {name : String} (single : Bool) (htypes : context.hasTypes = false)
    (hkind : progress.token.kind = .word .module_ name false) :
    statement grammar single context progress = expressionStatement grammar context progress := by
  have husing : atUsing context progress = some (false, progress) := by
    simp [atUsing, isPlainWord, hkind]
  simp [statement, atTypedDeclaration, htypes, hkind, wordStatement, husing]

theorem statements_single {word : Word} {name : String} (hlimit : 1 < context.limit)
    (hkind : progress.token.kind = .word word name false)
    (hread : grammar (.statement false) context progress = some (node, last))
    (hend : last.token.kind = .finish) :
    statements grammar true context progress = some ([node], last) := by
  obtain ⟨limit, hlimit⟩ : ∃ limit, context.limit = limit + 2 := ⟨context.limit - 2, by omega⟩
  simp [statements, collect, hlimit, collectFor, hkind, hread, hend, statements.withDirectives]

end WebBundle.Syntax.Grammar

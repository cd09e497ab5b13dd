import WebBundle.Proofs.Json.Tokens
import WebBundle.Proofs.Syntax.Plain

/-!
# JSON values as expressions

Where an expression is expected the readers of scripts take a JSON value as far as the reader of
JSON does.  The tree they give is plain.  Every nesting of values passes the same levels of the
grammar, so the depth that is needed grows with the number of characters.
-/

namespace WebBundle.Syntax

namespace Grammar

open Reading

variable {context : Context} {progress last : Progress} {grammar : Grammar} {node : Node}

/-- Tokens that begin a value and no other construct. -/
inductive BeginsPrimary : TokenKind → Prop where
  | number : BeginsPrimary .number
  | text (value : String) (lone : Bool) : BeginsPrimary (.string value lone)
  | null (name : String) : BeginsPrimary (.word .null_ name false)
  | true (name : String) : BeginsPrimary (.word .true_ name false)
  | false (name : String) : BeginsPrimary (.word .false_ name false)
  | bracket : BeginsPrimary (.mark .bracketOpen)
  | brace : BeginsPrimary (.mark .braceOpen)

/-- Tokens that begin a value, perhaps with its sign. -/
inductive BeginsData : TokenKind → Prop where
  | primary {kind : TokenKind} : BeginsPrimary kind → BeginsData kind
  | minus : BeginsData (.mark .minus)

/-! ## Through the levels of the grammar -/

theorem leftHand_primary (hlimit : 0 < context.limit) (hbegins : BeginsPrimary progress.token.kind)
    (hprimary : primary grammar context progress = some (node, last))
    (hend : Closes last.token.kind) :
    leftHand grammar context progress = some (node, last) := by
  obtain ⟨limit, hlimits⟩ : ∃ limit, context.limit = limit + 1 := ⟨context.limit - 1, by omega⟩
  have hnew : newWords context progress = some ([], progress) := by
    generalize hkind : progress.token.kind = kind at hbegins
    cases hbegins <;> simp [newWords, collect, hlimits, collectFor, isPlainWord, hkind]
  have hbase : accessBase grammar context progress = some (node, last) := by
    generalize hkind : progress.token.kind = kind at hbegins
    cases hbegins <;> simp [accessBase, hkind, hprimary]
  have hiterate := fun access => iterate_done hlimit
    (@callStep_end context last grammar progress.token.start.offset access
      (.operand (.closing hend)))
  simp [leftHand, hnew, hbase, hiterate]

theorem unaryExpression_primary (htypes : context.hasTypes = false)
    (hbegins : BeginsPrimary progress.token.kind)
    (hleft : grammar .leftHand context progress = some (node, last))
    (hend : Closes last.token.kind) :
    unaryExpression grammar context progress = some (node, last) := by
  have hupdate : updateExpression grammar context progress = some (node, last) := by
    refine updateExpression_of_ne ?_ hleft ?_
    · generalize progress.token.kind = kind at hbegins
      cases hbegins <;> simp
    · generalize last.token.kind = kind at hend
      cases hend <;> simp
  generalize hkind : progress.token.kind = kind at hbegins
  cases hbegins <;> simp [unaryExpression, unaryOperator?, hkind, htypes, isPlainWord, hupdate]

theorem unaryExpression_minus (hkind : progress.token.kind = .mark .minus)
    (hunary : grammar .unary context (pass progress) = some (node, last)) :
    unaryExpression grammar context progress =
      some (⟨.unary "-", ⟨progress.token.start.offset, last.lastStop⟩, [node]⟩, last) := by
  have hadvance : advance context progress = some (progress.token, pass progress) :=
    advance_apply (by simp [hkind]) (by simp [hkind])
  simp [unaryExpression, unaryOperator?, hkind, hadvance, hunary]

theorem operators_data (level : Nat) (hlimit : 0 < context.limit)
    (hbegins : BeginsData progress.token.kind)
    (hunary : grammar .unary context progress = some (node, last))
    (hend : Closes last.token.kind) :
    operators grammar level context progress = some (node, last) := by
  have hfirst : privateOperand grammar context progress = some (node, last) := by
    generalize hkind : progress.token.kind = kind at hbegins
    rcases hbegins with (_ | _ | _ | _ | _ | _ | _) | _ <;> simp [privateOperand, hkind, hunary]
  have hiterate := fun start => iterate_done hlimit
    (@operatorStep_end context last grammar level start node (.closing hend))
  simp [operators, hfirst, hiterate]

theorem assignment_data (harrow : context.allowArrowType = true)
    (hbegins : BeginsData progress.token.kind)
    (hnext : ∀ word name escaped, progress.token.kind = .word word name escaped →
      progress.token.next.kind ≠ .mark .arrow)
    (hleft : grammar (.operators 0) context progress = some (node, last))
    (hend : Closes last.token.kind) :
    assignment grammar context progress = some (node, last) := by
  have hyield : atYield context progress = some (false, progress) := by
    generalize hkind : progress.token.kind = kind at hbegins
    rcases hbegins with (_ | _ | _ | _ | _ | _ | _) | _ <;> simp [atYield, hkind, isPlainWord]
  have hnoArrow : mayBeginArrow context progress = some (false, progress) := by
    generalize hkind : progress.token.kind = kind at hbegins
    rcases hbegins with (_ | _ | _ | _ | _ | _ | _) | _ <;> first
      | simp [mayBeginArrow, hkind, hnext _ _ _ hkind]
      | simp [mayBeginArrow, hkind]
  generalize hkind : last.token.kind = kind at hend
  have hquestion : eatMark .question context last = some (false, last) :=
    eatMark_of_ne (by rw [hkind]; cases hend <;> decide)
  cases hend <;>
    simp [assignment, hyield, hnoArrow, allowArrowType_eq harrow, hleft, assignmentOperator?,
      hkind, hquestion]

/-- A place in plain code with room for a value of some number of characters. -/
structure Spacious (size depth : Nat) (context : Context) : Prop where
  depth : 4 * size + 5 ≤ depth
  limit : size < context.limit
  types : context.hasTypes = false
  arrow : context.allowArrowType = true

theorem Spacious.mono {size less depth : Nat} (h : Spacious size depth context)
    (hless : less ≤ size) : Spacious less depth context :=
  ⟨by have := h.depth; omega, Nat.lt_of_le_of_lt hless h.limit, h.types, h.arrow⟩

/-- Between brackets there is room for what is shorter by the bracket. -/
theorem Spacious.nested {size depth : Nat} (h : Spacious (size + 1) (depth + 4) context) :
    Spacious size depth (Grammar.nested context) :=
  ⟨by have := h.depth; omega, Nat.lt_of_succ_lt h.limit, h.types, h.arrow⟩

theorem assignment_primary {size depth : Nat} (hroom : Spacious size (depth + 4) context)
    (hbegins : BeginsPrimary progress.token.kind)
    (hnext : ∀ word name escaped, progress.token.kind = .word word name escaped →
      progress.token.next.kind ≠ .mark .arrow)
    (hprimary : primary (ofDepth depth) context progress = some (node, last))
    (hend : Closes last.token.kind) :
    ofDepth (depth + 4) .assignment context progress = some (node, last) := by
  have hlimit : 0 < context.limit := Nat.zero_lt_of_lt hroom.limit
  have hleft : ofDepth (depth + 1) .leftHand context progress = some (node, last) :=
    leftHand_primary hlimit hbegins hprimary hend
  have hunary : ofDepth (depth + 2) .unary context progress = some (node, last) :=
    unaryExpression_primary hroom.types hbegins hleft hend
  have hoperators : ofDepth (depth + 3) (.operators 0) context progress = some (node, last) :=
    operators_data 0 hlimit (.primary hbegins) hunary hend
  exact assignment_data hroom.arrow (.primary hbegins) hnext hoperators hend

theorem assignment_minus {size depth : Nat} (hroom : Spacious size (depth + 5) context)
    (hkind : progress.token.kind = .mark .minus) (hbegins : BeginsPrimary progress.token.next.kind)
    (hprimary : primary (ofDepth depth) context (pass progress) = some (node, last))
    (hend : Closes last.token.kind) :
    ofDepth (depth + 5) .assignment context progress =
      some (⟨.unary "-", ⟨progress.token.start.offset, last.lastStop⟩, [node]⟩, last) := by
  have hlimit : 0 < context.limit := Nat.zero_lt_of_lt hroom.limit
  have hleft : ofDepth (depth + 1) .leftHand context (pass progress) = some (node, last) :=
    leftHand_primary hlimit hbegins hprimary hend
  have hoperand : ofDepth (depth + 2) .unary context (pass progress) = some (node, last) :=
    unaryExpression_primary hroom.types hbegins hleft hend
  have hunary := unaryExpression_minus hkind hoperand
  have hsign : BeginsData progress.token.kind := hkind ▸ .minus
  have hoperators := @operators_data _ _ _ (ofDepth (depth + 3)) _ 0 hlimit hsign hunary hend
  exact assignment_data hroom.arrow hsign (fun _ _ _ hword => by rw [hkind] at hword; cases hword)
    hoperators hend

/-! ## Literals -/

theorem primary_literal (hbegins : BeginsPrimary progress.token.kind)
    (hbracket : progress.token.kind ≠ .mark .bracketOpen)
    (hbrace : progress.token.kind ≠ .mark .braceOpen) :
    ∃ literal, primary grammar context progress = some (literal, pass progress) ∧
      IsPlain literal := by
  have hadvance : advance context progress = some (progress.token, pass progress) := by
    generalize hkind : progress.token.kind = kind at hbegins
    cases hbegins <;> exact advance_apply (by simp [hkind]) (by simp [hkind])
  have hsimple (kind : Kind) (hplain : kind.IsPlain)
      (hprimary : primary grammar context progress = simpleNode kind context progress) :
      ∃ literal, primary grammar context progress = some (literal, pass progress) ∧
        IsPlain literal := by
    refine ⟨⟨kind, progress.token.span, []⟩, ?_, .leaf hplain _⟩
    rw [hprimary]
    simp [simpleNode, hadvance, Token.span]
  generalize hkind : progress.token.kind = kind at hbegins
  cases hbegins with
  | number => exact hsimple _ (.number progress.token.spelling) (by simp [primary, hkind])
  | text value lone => exact hsimple _ (.string value lone) (by simp [primary, hkind])
  | null name => exact hsimple _ .null (by simp [primary, hkind])
  | true name => exact hsimple _ (.boolean true) (by simp [primary, hkind])
  | false name => exact hsimple _ (.boolean false) (by simp [primary, hkind])
  | bracket => exact absurd hkind hbracket
  | brace => exact absurd hkind hbrace

/-! ## Lists of values -/

/-- A reader takes a value up to the rest of a text, and gives a plain tree. -/
def ReadsData (reader : Reading Node) (context : Context) (text rest : List Char) : Prop :=
  ∀ progress, ReadAt progress.token text → BeginsData progress.token.kind ∧
    ∃ node last, reader context progress = some (node, last) ∧ ReadAt last.token rest ∧ IsPlain node

/-- One item of a list with the comma behind it, unless the list is closed. -/
def listStep (close : Mark) (item : Reading Node) : Reading (Option Node) := do
  if ← isMark close then return none
  let value ← item
  if !(← isMark close) then expectMark .comma
  return some value

theorem collectFor_nil {reader : Reading (Option Node)} (limit : Nat)
    (hread : reader context progress = some (none, progress)) :
    collectFor reader (limit + 1) context progress = some ([], progress) := by
  simp [collectFor, hread]

theorem collectFor_cons {reader : Reading (Option Node)} {limit : Nat} {nodes : List Node}
    {behind : Progress} (hread : reader context progress = some (some node, behind))
    (hmore : collectFor reader limit context behind = some (nodes, last)) :
    collectFor reader (limit + 1) context progress = some (node :: nodes, last) := by
  simp [collectFor, hread, hmore]

/-- The characters and the punctuators that close lists of values. -/
inductive IsClose : Char → Mark → Prop where
  | bracket : IsClose ']' .bracketClose
  | brace : IsClose '\x7d' .braceClose

section Lists

variable {close : Char} {mark : Mark} {item : Reading Node} {text rest : List Char}

theorem IsClose.lexes (h : IsClose close mark) (rest : List Char) :
    Lexes (close :: rest) (.mark mark) rest := by
  cases h <;> exact fun _ _ _ => ⟨rfl, rfl⟩

theorem IsClose.closing (h : IsClose close mark) {more : List Char}
    (hskip : Json.skipBlank text = close :: more) : Closing text :=
  ⟨close, by cases h <;> decide, more, hskip⟩

theorem IsClose.kind_ne (h : IsClose close mark) (hbegins : BeginsData progress.token.kind) :
    progress.token.kind ≠ .mark mark := by
  intro hkind
  rw [hkind] at hbegins
  cases h <;> rcases hbegins with (_ | _ | _ | _ | _ | _ | _) | _

theorem lexes_comma (rest : List Char) : Lexes (',' :: rest) (.mark .comma) rest :=
  fun _ _ _ => ⟨rfl, rfl⟩

/-- Items are read one after the other up to what closes the list, which is not taken. -/
def ReadsList (close : Char) (mark : Mark) (item : Reading Node) (context : Context)
    (text rest : List Char) : Prop :=
  ∀ limit progress, text.length < limit → ReadAt progress.token text →
    ∃ nodes last, collectFor (listStep mark item) limit context progress = some (nodes, last) ∧
      ReadAt last.token (close :: rest) ∧ ∀ node ∈ nodes, IsPlain node

theorem collectFor_close {limit : Nat} (hclose : IsClose close mark) (hlimit : 0 < limit)
    (hat : ReadAt progress.token (close :: rest)) :
    collectFor (listStep mark item) limit context progress = some ([], progress) := by
  obtain ⟨limit, rfl⟩ := Nat.exists_eq_add_of_le' hlimit
  exact collectFor_nil limit (by simp [listStep, hat.kind (hclose.lexes rest)])

/-- An item and what stands behind it. -/
theorem readsList_cons {α : Type} {found : α} {items : List α} {behind : List Char}
    {reader : List Char → Option (List α × List Char)} (hclose : IsClose close mark)
    (hmore : Json.readMore close found reader behind = some (items, rest))
    (hlength : behind.length < text.length)
    (hitem : Closing behind → ReadsData item context text behind)
    (hreader : ∀ {later items}, later.length ≤ text.length → reader later = some (items, rest) →
      ReadsList close mark item context later rest) :
    ReadsList close mark item context text rest := by
  intro limit progress hlimit hat
  obtain ⟨limit, rfl⟩ := Nat.exists_eq_add_of_le' (Nat.zero_lt_of_lt hlimit)
  have hbound : (Json.skipBlank behind).length ≤ behind.length := List.length_dropWhile_le _ _
  rw [Json.readMore] at hmore
  split at hmore
  · rename_i hclosed
    obtain ⟨more, hskip⟩ := List.head?_eq_some_iff.mp hclosed
    rw [hskip] at hmore
    cases hmore
    obtain ⟨hbegins, node, last, hread, hlast, hplain⟩ := hitem (hclose.closing hskip) progress hat
    have hplace : ReadAt last.token (close :: more) := hskip ▸ hlast.skip
    have hkind := hplace.kind (hclose.lexes more)
    have hstep : listStep mark item context progress = some (some node, last) := by
      simp [listStep, hclose.kind_ne hbegins, hread, hkind]
    have hnil := @collectFor_close context last close mark item more limit hclose (by omega) hplace
    exact ⟨[node], last, collectFor_cons hstep hnil, hplace, by simpa using hplain⟩
  · split at hmore
    · rename_i hcomma
      obtain ⟨more, hskip⟩ := List.head?_eq_some_iff.mp hcomma
      obtain ⟨⟨others, after⟩, hothers, heq⟩ := Option.map_eq_some_iff.mp hmore
      cases heq
      rw [hskip, List.tail_cons] at hothers
      have hclosing : Closing behind := ⟨',', by decide, more, hskip⟩
      obtain ⟨hbegins, node, last, hread, hlast, hplain⟩ := hitem hclosing progress hat
      have hplace : ReadAt last.token (',' :: more) := hskip ▸ hlast.skip
      have hkind := hplace.kind (lexes_comma more)
      have hother : Mark.comma ≠ mark := by cases hclose <;> decide
      have hstep : listStep mark item context progress = some (some node, pass last) := by
        simp [listStep, hclose.kind_ne hbegins, hread, hkind, hother, expectMark_of_mark hkind]
      have hlater : (Json.skipBlank more).length ≤ more.length := List.length_dropWhile_le _ _
      have hskipped : more.length + 1 = (Json.skipBlank behind).length := by
        rw [hskip, List.length_cons]
      obtain ⟨nodes, final, hnodes, hfinal, hall⟩ := hreader (by omega) hothers limit (pass last)
        (by omega) (hplace.next (lexes_comma more)).skip
      exact ⟨node :: nodes, final, collectFor_cons hstep hnodes, hfinal,
        List.forall_mem_cons.mpr ⟨hplain, hall⟩⟩
    · cases hmore

/-- What is read between brackets, of which nothing has been taken. -/
theorem readsData_between {α : Type} {bracket : Char} {opening : Mark} {wrap : List α → Json}
    {reader : Nat → List Char → Option (List α × List Char)} {fuel depth : Nat} {value : Json}
    {item : Grammar → Reading Node} (hclose : IsClose close mark)
    (hlexes : ∀ text, Lexes (bracket :: text) (.mark opening) text)
    (hbegins : BeginsPrimary (.mark opening))
    (hprimary : ∀ {grammar : Grammar} {context : Context} {progress last : Progress}
      {nodes : List Node}, progress.token.kind = .mark opening →
      commaList mark (item grammar) (nested context) (pass progress) = some (nodes, last) →
      last.token.kind = .mark mark → (∀ node ∈ nodes, IsPlain node) →
      ∃ node, primary grammar context progress = some (node, pass last) ∧ IsPlain node)
    (hreader : ∀ {text found rest context depth}, reader fuel text = some (found, rest) →
      Spacious text.length depth context →
      ReadsList close mark (item (ofDepth depth)) context text rest)
    (hread : Json.readBetween close wrap reader fuel text = some (value, rest))
    (hclosing : Closing rest) (hroom : Spacious (text.length + 1) depth context) :
    ReadsData (ofDepth depth .assignment) context (bracket :: text) rest := by
  intro progress hat
  have hkind := hat.kind (hlexes text)
  have hbegin : BeginsPrimary progress.token.kind := hkind ▸ hbegins
  refine ⟨.primary hbegin, ?_⟩
  obtain ⟨depth, rfl⟩ := Nat.exists_eq_add_of_le' (show 4 ≤ depth by have := hroom.depth; omega)
  have hnested := hroom.nested
  have hinside := (hat.next (hlexes text)).skip
  have hlist : ∃ nodes last,
      commaList mark (item (ofDepth depth)) (nested context) (pass progress) =
        some (nodes, last) ∧
      ReadAt last.token (close :: rest) ∧ ∀ node ∈ nodes, IsPlain node := by
    rw [Json.readBetween] at hread
    split at hread
    · rename_i hclosed
      obtain ⟨more, hskip⟩ := List.head?_eq_some_iff.mp hclosed
      rw [hskip] at hread hinside
      cases hread
      exact ⟨[], pass progress, collectFor_close hclose (Nat.zero_lt_of_lt hnested.limit) hinside,
        hinside, fun _ hnode => by cases hnode⟩
    · obtain ⟨⟨found, after⟩, hfound, heq⟩ := Option.map_eq_some_iff.mp hread
      cases heq
      have hshorter : (Json.skipBlank text).length ≤ text.length := List.length_dropWhile_le _ _
      have hspacious := hnested.mono hshorter
      exact hreader hfound hspacious _ (pass progress) hspacious.limit hinside
  obtain ⟨nodes, last, hnodes, hlast, hall⟩ := hlist
  obtain ⟨node, hnode, hplain⟩ := hprimary hkind hnodes (hlast.kind (hclose.lexes rest)) hall
  have hbehind : ReadAt (pass last).token rest := hlast.next (hclose.lexes rest)
  refine ⟨node, pass last, ?_, hbehind, hplain⟩
  exact assignment_primary hroom hbegin (fun _ _ _ hword => by rw [hkind] at hword; cases hword)
    hnode (hbehind.closes hclosing)

end Lists

/-! ## Arrays and objects -/

/-- An element of an array, as array literals read it. -/
def element (grammar : Grammar) : Reading Node := do
  if ← isMark .comma then
    let here ← position
    return ⟨.hole, ⟨here, here⟩, []⟩
  else if ← isMark .ellipsis then spread grammar
  else grammar .assignment

theorem primary_array {nodes : List Node} (hkind : progress.token.kind = .mark .bracketOpen)
    (hlist : commaList .bracketClose (element grammar) (nested context) (pass progress) =
      some (nodes, last))
    (hclose : last.token.kind = .mark .bracketClose) (hall : ∀ node ∈ nodes, IsPlain node) :
    ∃ node, primary grammar context progress = some (node, pass last) ∧ IsPlain node := by
  refine ⟨⟨.arrayLiteral (listEndsWithComma nodes last.lastStop),
    ⟨progress.token.start.offset, last.token.stop.offset⟩, nodes⟩, ?_, .mk (.array _) hall⟩
  unfold element at hlist
  simp [primary, hkind, arrayLiteral, expectMark_of_mark hkind, hlist, expectMark_of_mark hclose]

theorem primary_object {nodes : List Node} (hkind : progress.token.kind = .mark .braceOpen)
    (hlist : commaList .braceClose (objectMember grammar) (nested context) (pass progress) =
      some (nodes, last))
    (hclose : last.token.kind = .mark .braceClose) (hall : ∀ node ∈ nodes, IsPlain node) :
    ∃ node, primary grammar context progress = some (node, pass last) ∧ IsPlain node := by
  refine ⟨⟨.objectLiteral (listEndsWithComma nodes last.lastStop),
    ⟨progress.token.start.offset, last.token.stop.offset⟩, nodes⟩, ?_, .mk (.object _) hall⟩
  simp [primary, hkind, objectLiteral, expectMark_of_mark hkind, hlist, expectMark_of_mark hclose]

section Values

variable {text rest : List Char} {kind : TokenKind} {depth : Nat}

theorem readsData_literal (hlexes : Lexes text kind rest) (hbegins : BeginsPrimary kind)
    (hbracket : kind ≠ .mark .bracketOpen) (hbrace : kind ≠ .mark .braceOpen)
    (hclosing : Closing rest) (hroom : Spacious text.length depth context) :
    ReadsData (ofDepth depth .assignment) context text rest := by
  intro progress hat
  obtain rfl := hat.kind hlexes
  refine ⟨.primary hbegins, ?_⟩
  obtain ⟨depth, rfl⟩ := Nat.exists_eq_add_of_le' (show 4 ≤ depth by have := hroom.depth; omega)
  obtain ⟨node, hprimary, hplain⟩ :=
    @primary_literal context progress (ofDepth depth) hbegins hbracket hbrace
  have hbehind : ReadAt (pass progress).token rest := hat.next hlexes
  have hend := hbehind.closes hclosing
  refine ⟨node, pass progress, ?_, hbehind, hplain⟩
  exact assignment_primary hroom hbegins
    (fun _ _ _ _ harrow => by rw [pass_token, harrow] at hend; cases hend) hprimary hend

theorem readsData_negative {unsigned : List Char} (hminus : Lexes text (.mark .minus) unsigned)
    (hlexes : Lexes unsigned .number rest) (hclosing : Closing rest)
    (hroom : Spacious text.length depth context) :
    ReadsData (ofDepth depth .assignment) context text rest := by
  intro progress hat
  have hkind := hat.kind hminus
  refine ⟨hkind ▸ .minus, ?_⟩
  obtain ⟨depth, rfl⟩ := Nat.exists_eq_add_of_le' (show 5 ≤ depth by have := hroom.depth; omega)
  have hnumber : ReadAt (pass progress).token unsigned := hat.next hminus
  have hoperand := hnumber.kind hlexes
  have hbegins : BeginsPrimary (pass progress).token.kind := hoperand ▸ .number
  obtain ⟨node, hprimary, hplain⟩ := @primary_literal context (pass progress) (ofDepth depth)
    hbegins (by rw [hoperand]; decide) (by rw [hoperand]; decide)
  have hbehind : ReadAt (pass (pass progress)).token rest := hnumber.next hlexes
  refine ⟨_, pass (pass progress),
    assignment_minus hroom hkind hbegins hprimary (hbehind.closes hclosing), hbehind, ?_⟩
  exact .mk (.unary _) (by simpa using hplain)

/-- An element of an array that is a value. -/
theorem ReadsData.element {grammar : Grammar}
    (h : ReadsData (grammar .assignment) context text rest) :
    ReadsData (Grammar.element grammar) context text rest := by
  intro progress hat
  obtain ⟨hbegins, hread⟩ := h progress hat
  have helement :
      Grammar.element grammar context progress = grammar .assignment context progress := by
    generalize hkind : progress.token.kind = kind at hbegins
    rcases hbegins with (_ | _ | _ | _ | _ | _ | _) | _ <;> simp [Grammar.element, hkind]
  rw [helement]
  exact ⟨hbegins, hread⟩

/-- A member of an object whose value is read. -/
theorem readsData_member {fuel : Nat} {member : Option String × Json}
    (hread : Json.readMember? fuel text = some (member, rest))
    (hvalue : ∀ {later value}, later.length ≤ text.length →
      Json.readValue? fuel later = some (value, rest) →
      ReadsData (ofDepth depth .assignment) context later rest) :
    ReadsData (objectMember (ofDepth depth)) context text rest := by
  rw [Json.readMember?] at hread
  split at hread
  · rename_i hquote
    obtain ⟨behind, rfl⟩ := List.head?_eq_some_iff.mp hquote
    obtain ⟨⟨key, after⟩, hkey, hmember⟩ := Option.bind_eq_some_iff.mp hread
    dsimp only at hmember
    split at hmember
    · rename_i hcolon
      obtain ⟨⟨value, last⟩, hfound, heq⟩ := Option.map_eq_some_iff.mp hmember
      cases heq
      obtain ⟨more, hskip⟩ := List.head?_eq_some_iff.mp hcolon
      rw [hskip, List.tail_cons] at hfound
      have hlength : (Json.skipBlank more).length ≤ ('"' :: behind).length := by
        obtain ⟨part, hpart, -⟩ := Json.readString?_takes hkey
        rw [List.tail_cons] at hpart
        have hlater : (Json.skipBlank more).length ≤ more.length := List.length_dropWhile_le _ _
        have hbound : (Json.skipBlank after).length ≤ after.length := List.length_dropWhile_le _ _
        rw [hskip, List.length_cons] at hbound
        rw [hpart, List.length_cons, List.length_append]
        omega
      intro progress hat
      obtain ⟨name, lone, hname⟩ := lexes_readString? hkey
      have hkind := hat.kind hname
      have hbehind : ReadAt progress.token.next (':' :: more) := hskip ▸ (hat.next hname).skip
      have hlexes : Lexes (':' :: more) (.mark .colon) more := fun _ _ _ => ⟨rfl, rfl⟩
      obtain ⟨-, node, last, hnode, hlast, hplain⟩ :=
        hvalue hlength hfound (pass (pass progress)) (hbehind.next hlexes).skip
      refine ⟨hkind ▸ .primary (.text name lone), ⟨.property false false,
        ⟨progress.token.start.offset, last.lastStop⟩,
        [⟨.stringLiteral name lone, progress.token.span, []⟩, node]⟩, last, ?_, hlast,
        .mk .property ?_⟩
      · rw [objectMember_string hkind (hbehind.kind hlexes)]
        simp [hnode]
      · simpa using ⟨IsPlain.leaf (.string name lone) _, hplain⟩
    · cases hmember
  · cases hread

/-- The readers of JSON and those of scripts read the same texts, at some depth. -/
structure AllRead (fuel : Nat) : Prop where
  value : ∀ {text value rest depth context}, Json.readValue? fuel text = some (value, rest) →
    Closing rest → Spacious text.length depth context →
    ReadsData (ofDepth depth .assignment) context text rest
  items : ∀ {text items rest context depth}, Json.readItems? fuel text = some (items, rest) →
    Spacious text.length depth context →
    ReadsList ']' .bracketClose (Grammar.element (ofDepth depth)) context text rest
  members : ∀ {text members rest context depth},
    Json.readMembers? fuel text = some (members, rest) → Spacious text.length depth context →
    ReadsList '\x7d' .braceClose (objectMember (ofDepth depth)) context text rest

/-- A word of JSON, which only what closes the value stands behind. -/
theorem lexes_word {name : List Char} {word : Word} (hname : Identifier.isName name = true)
    (hword : Word.ofSpelling name = word) (hclosing : Closing rest) :
    Lexes (name ++ rest) (.word word (String.ofList name) false) rest :=
  hword ▸ lexes_name hname hclosing.endsName

theorem AllRead.readValue? {fuel : Nat} (h : AllRead fuel) {value : Json}
    (hread : Json.readValue? (fuel + 1) text = some (value, rest)) (hclosing : Closing rest)
    (hroom : Spacious text.length depth context) :
    ReadsData (ofDepth depth .assignment) context text rest := by
  have hread' := hread
  rw [Json.readValue?.eq_def] at hread
  dsimp only at hread
  split at hread
  · cases hread
    have hlexes := @lexes_word rest ['n', 'u', 'l', 'l'] .null_ (by decide) (by decide) hclosing
    exact readsData_literal hlexes (.null _) (by decide) (by decide) hclosing hroom
  · cases hread
    have hlexes := @lexes_word rest ['t', 'r', 'u', 'e'] .true_ (by decide) (by decide) hclosing
    exact readsData_literal hlexes (.true _) (by decide) (by decide) hclosing hroom
  · cases hread
    have hlexes := @lexes_word rest ['f', 'a', 'l', 's', 'e'] .false_ (by decide) (by decide)
      hclosing
    exact readsData_literal hlexes (.false _) (by decide) (by decide) hclosing hroom
  · obtain ⟨⟨found, last⟩, hstring, heq⟩ := Option.map_eq_some_iff.mp hread
    cases heq
    obtain ⟨name, lone, hlexes⟩ := lexes_readString? hstring
    exact readsData_literal hlexes (.text name lone) nofun nofun hclosing hroom
  · rw [Json.readValue?_bracket] at hread'
    exact readsData_between .bracket (fun _ _ _ _ => ⟨rfl, rfl⟩) .bracket primary_array h.items
      hread' hclosing hroom
  · rw [Json.readValue?_brace] at hread'
    exact readsData_between .brace (fun _ _ _ _ => ⟨rfl, rfl⟩) .brace primary_object h.members
      hread' hclosing hroom
  · obtain ⟨⟨spelling, last⟩, hnumber, heq⟩ := Option.map_eq_some_iff.mp hread
    cases heq
    obtain hlexes | ⟨unsigned, hminus, hlexes⟩ := lexes_readNumber? hnumber hclosing.beginsWith
    · exact readsData_literal hlexes .number nofun nofun hclosing hroom
    · exact readsData_negative hminus hlexes hclosing hroom

theorem allRead (fuel : Nat) : AllRead fuel := by
  induction fuel with
  | zero =>
      constructor <;> intro _ _ _ _ _ hread <;> cases hread
  | succ fuel ih =>
      refine ⟨ih.readValue?, fun hread hroom => ?_, fun hread hroom => ?_⟩
      · rw [Json.readItems?_succ] at hread
        obtain ⟨⟨item, behind⟩, hitem, hmore⟩ := Option.bind_eq_some_iff.mp hread
        exact readsList_cons .bracket hmore ((Json.allTake fuel).value hitem).length_lt
          (fun hclosing => (ih.value hitem hclosing hroom).element)
          fun hlater hothers => ih.items hothers (hroom.mono hlater)
      · rw [Json.readMembers?_succ] at hread
        obtain ⟨⟨member, behind⟩, hmember, hmore⟩ := Option.bind_eq_some_iff.mp hread
        have htakes := Json.readMember?_takes (Json.allTake fuel).value hmember
        exact readsList_cons .brace hmore htakes.length_lt
          (fun hclosing => readsData_member hmember fun hlater hvalue =>
            ih.value hvalue hclosing (hroom.mono hlater))
          fun hlater hothers => ih.members hothers (hroom.mono hlater)

end Values

end Grammar

end WebBundle.Syntax

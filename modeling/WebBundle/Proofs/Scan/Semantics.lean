import WebBundle.Proofs.Edits.Apart

/-!
# What expressions mean

A running program evaluates an expression by the rules of the language: it may read
variables, call methods of objects, throw, and change whatever these change.  The rules are
written down here for literals, names, parentheses, templates and sums; everything else is
left to the realm that the program runs in.  A value that is known before the program runs
is the value that these rules give, and finding it changes nothing.
-/

namespace WebBundle.Scan

open Syntax

/-! ## Values -/

/-- The UTF-16 units of a character. -/
def unitsOf (c : Char) : List UInt16 :=
  if c.toNat < 0x10000 then [.ofNat c.toNat]
  else
    [.ofNat (0xD800 + (c.toNat - 0x10000) / 0x400), .ofNat (0xDC00 + (c.toNat - 0x10000) % 0x400)]

/-- The UTF-16 units of a text. -/
def units (text : String) : List UInt16 := text.toList.flatMap unitsOf

@[simp]
theorem units_append (first second : String) :
    units (first ++ second) = units first ++ units second := by
  simp [units]

/-- A value that is no object.  A text is any row of units, also one with half of a
surrogate pair. -/
inductive Primitive where
  | text (units : List UInt16)
  | number (value : Float)
  | boolean (value : Bool)
  | null
  | undefined
  | bigint (value : Int)
  | symbol (number : Nat)

/-- Whether a value is a text. -/
def Primitive.isText : Primitive → Bool
  | text _ => true
  | _ => false

/-- A value of a running program. -/
inductive Value (Object : Type) where
  | primitive (value : Primitive)
  | object (object : Object)

/-- What an object is to be converted to. -/
inductive Hint where
  | anything
  | text

/-- Something that a program does: it has a result or throws a value, and it changes the
state. -/
abbrev Action (Object State : Type) := EStateM (Value Object) State

/-- What the rules for expressions leave open. -/
structure Realm (Object State : Type) where
  /-- Reads a name that is declared around an expression. -/
  readDeclared : String → Action Object State (Value Object)
  /-- Reads any other name, apart from `undefined`. -/
  readGlobal : String → Action Object State (Value Object)
  /-- Converts an object by its methods. -/
  convert : Hint → Object → Action Object State Primitive
  /-- The error for values that cannot be converted or added. -/
  refusal : Value Object
  /-- What a numeral means. -/
  numeral : List Char → Float
  /-- The number that a text stands for. -/
  numberOfText : List UInt16 → Float
  /-- Evaluates an expression of any other form where some names are declared. -/
  other : (bound : List String) → Node → Action Object State (Value Object)

namespace Realm

variable {Object State : Type} (realm : Realm Object State)

/-- A value as one that is no object. -/
def toPrimitive (hint : Hint) : Value Object → Action Object State Primitive
  | .primitive value => pure value
  | .object object => realm.convert hint object

/-- A value that is no object as a text. -/
def textOf : Primitive → Action Object State (List UInt16)
  | .text units => pure units
  | .number value => pure (units (Decimal.textOfFloat value))
  | .boolean true => pure (units "true")
  | .boolean false => pure (units "false")
  | .null => pure (units "null")
  | .undefined => pure (units "undefined")
  | .bigint value => pure (units (toString value))
  | .symbol _ => throw realm.refusal

/-- A value as a text. -/
def toText (value : Value Object) : Action Object State (List UInt16) := do
  realm.textOf (← realm.toPrimitive .text value)

/-- A value that is no object as a number of one of the two kinds. -/
def toNumber : Primitive → Action Object State (Float ⊕ Int)
  | .text units => pure (.inl (realm.numberOfText units))
  | .number value => pure (.inl value)
  | .boolean value => pure (.inl (if value then 1 else 0))
  | .null => pure (.inl 0)
  | .undefined => pure (.inl (0 / 0))
  | .bigint value => pure (.inr value)
  | .symbol _ => throw realm.refusal

/-- The sum of values that are no objects: if one of them is a text, the other one becomes
a text too, and otherwise both become numbers. -/
def sum (left right : Primitive) : Action Object State Primitive := do
  if left.isText || right.isText then
    return .text ((← realm.textOf left) ++ (← realm.textOf right))
  else
    match ← realm.toNumber left, ← realm.toNumber right with
    | .inl left, .inl right => return .number (left + right)
    | .inr left, .inr right => return .bigint (left + right)
    | _, _ => throw realm.refusal

/-- The sum of two values. -/
def add (left right : Value Object) : Action Object State (Value Object) := do
  let left ← realm.toPrimitive .anything left
  let right ← realm.toPrimitive .anything right
  return .primitive (← realm.sum left right)

/-- Reads a name where some names are declared; nobody can give the global `undefined`
another value. -/
def read (bound : List String) (name : String) : Action Object State (Value Object) :=
  if bound.contains name then realm.readDeclared name
  else if name = "undefined" then pure (.primitive .undefined)
  else realm.readGlobal name

end Realm

end WebBundle.Scan

namespace WebBundle.Syntax

open Scan (units)

/-- Whether a part of a template has no half of a surrogate pair that stands alone. -/
def Quasi.isPaired (quasi : Quasi) : Bool :=
  match readTemplateFrom? 0 (quasi.raw ++ ['`']) with
  | some ⟨some elements, _, _, _⟩ => !(textOfElements elements).2
  | _ => true

/-- Whether the tree knows the text of a part of a template. -/
def Quasi.isKnown (quasi : Quasi) : Bool := quasi.cooked.isSome && quasi.isPaired

/-- The units of a part of a template. -/
def Quasi.units (quasi : Quasi) : List UInt16 := Scan.units (quasi.cooked.getD "")

/-- Whether a literal has no half of a surrogate pair that stands alone. -/
def Kind.isPaired : Kind → Bool
  | .stringLiteral _ hasLoneSurrogate => !hasLoneSurrogate
  | .templateLiteral quasis => quasis.all Quasi.isPaired
  | _ => true

end WebBundle.Syntax

namespace WebBundle.Scan

open Syntax

namespace Realm

variable {Object State : Type}

mutual

/-- Evaluates an expression where some names are declared.  Literals mean what the tree says;
a text with half of a surrogate pair is no text of the tree. -/
def run (realm : Realm Object State) (bound : List String) :
    Node → Action Object State (Value Object)
  | ⟨.stringLiteral value false, _, _⟩ => pure (.primitive (.text (units value)))
  | ⟨.numberLiteral spelling, _, _⟩ => pure (.primitive (.number (realm.numeral spelling)))
  | ⟨.booleanLiteral value, _, _⟩ => pure (.primitive (.boolean value))
  | ⟨.nullLiteral, _, _⟩ => pure (.primitive .null)
  | ⟨.reference name, _, _⟩ => realm.read bound name.text
  | ⟨.parenthesized, _, [inner]⟩ => realm.run bound inner
  | ⟨.templateLiteral quasis, span, substitutions⟩ =>
    if quasis.all Quasi.isKnown then do
      return .primitive (.text (← realm.runTemplate bound quasis substitutions))
    else realm.other bound ⟨.templateLiteral quasis, span, substitutions⟩
  | ⟨.binary "+", _, [left, right]⟩ => do
    let left ← realm.run bound left
    let right ← realm.run bound right
    realm.add left right
  | node => realm.other bound node

/-- Evaluates the substitutions of a template, each of which becomes a text before the next
one is evaluated.  No template has more substitutions than parts. -/
def runTemplate (realm : Realm Object State) (bound : List String) :
    List Quasi → List Node → Action Object State (List UInt16)
  | quasis, [] => pure (quasis.flatMap Quasi.units)
  | [], _ :: _ => pure []
  | quasi :: quasis, node :: rest => do
    let text ← realm.toText (← realm.run bound node)
    return quasi.units ++ text ++ (← realm.runTemplate bound quasis rest)

end

end Realm

/-! ## Literals -/

/-- The literals of an expression are read as the language reads them.  Reading is not what
is proved here, and it is no matter of course: texts with half of a surrogate pair are kept
in a form of their own, and numerals of a base other than ten that have many digits are
rounded more than once. -/
structure ReadsLiterals {Object State : Type} (realm : Realm Object State) (node : Node) :
    Prop where
  paired : ∀ inner ∈ node.nodes, inner.kind.isPaired = true
  numerals : ∀ inner ∈ node.nodes, ∀ spelling, inner.kind = .numberLiteral spelling →
    realm.numeral spelling = Numeral.value spelling

theorem ReadsLiterals.inside {Object State : Type} {realm : Realm Object State}
    {inner outer : Node} (hreads : ReadsLiterals realm outer) (hinner : inner ∈ outer.nodes) :
    ReadsLiterals realm inner where
  paired := fun node hnode => hreads.paired node (Node.nodes_subset outer hinner hnode)
  numerals := fun node hnode => hreads.numerals node (Node.nodes_subset outer hinner hnode)

/-! ## Known values -/

namespace Evaluated

/-- The value that is known. -/
def value? : Evaluated → Option Primitive
  | text value => some (.text (units value))
  | number value => some (.number value)
  | boolean value => some (.boolean value)
  | null => some .null
  | undefined => some .undefined
  | unknown => none

variable {Object State : Type} (realm : Realm Object State)

/-- The text of a known value is what the program converts it to. -/
theorem textOf_of_toText? {known : Evaluated} {text : String}
    (htext : known.toText? = some text) :
    ∃ value, known.value? = some value ∧ realm.textOf value = pure (units text) := by
  cases known with
  | text value =>
      cases htext
      exact ⟨_, rfl, rfl⟩
  | number value =>
      cases htext
      exact ⟨_, rfl, rfl⟩
  | boolean value =>
      cases htext
      cases value <;> exact ⟨_, rfl, rfl⟩
  | null =>
      cases htext
      exact ⟨_, rfl, rfl⟩
  | undefined =>
      cases htext
      exact ⟨_, rfl, rfl⟩
  | unknown => cases htext

theorem isText_of_value? {known : Evaluated} {value : Primitive}
    (hvalue : known.value? = some value) : value.isText = known.isText := by
  cases known <;> cases hvalue <;> rfl

/-- A known sum is what the program adds. -/
theorem sum_of_add {left right : Evaluated} {value : Primitive}
    (hvalue : (left.add right).value? = some value) :
    ∃ first second, left.value? = some first ∧ right.value? = some second ∧
      realm.sum first second = pure value := by
  rw [add.eq_def] at hvalue
  split at hvalue
  · cases hvalue
    exact ⟨_, _, rfl, rfl, rfl⟩
  · split at hvalue
    · rename_i htext
      split at hvalue
      · rename_i hleft hright
        cases hvalue
        obtain ⟨first, hfirst, hfirstText⟩ := textOf_of_toText? realm hleft
        obtain ⟨second, hsecond, hsecondText⟩ := textOf_of_toText? realm hright
        refine ⟨first, second, hfirst, hsecond, ?_⟩
        rw [← isText_of_value? hfirst, ← isText_of_value? hsecond] at htext
        rw [Realm.sum, if_pos htext, hfirstText, hsecondText, pure_bind, pure_bind, units_append]
      · cases hvalue
    · cases hvalue

end Evaluated

/-! ## Expressions -/

theorem isSome_of_mem_quasis {quasis : List Quasi} {texts : List (Option String)} {text : String}
    (hjoin : joinTemplate quasis texts = some text) :
    ∀ quasi ∈ quasis, quasi.cooked.isSome = true := by
  fun_induction joinTemplate quasis texts generalizing text with
  | case1 => exact List.forall_mem_nil _
  | case2 => cases hjoin
  | case3 cooked raw rest ih =>
      obtain ⟨behind, hbehind, -⟩ := Option.map_eq_some_iff.mp hjoin
      exact List.forall_mem_cons.mpr ⟨rfl, ih hbehind⟩
  | case4 => cases hjoin
  | case5 cooked raw rest here texts ih =>
      obtain ⟨behind, hbehind, -⟩ := Option.map_eq_some_iff.mp hjoin
      exact List.forall_mem_cons.mpr ⟨rfl, ih hbehind⟩

section Run

variable {Object State : Type} {realm : Realm Object State} {bound : List String}

/-- If the value of an expression is known, running the expression gives it. -/
def Realm.Gives (realm : Realm Object State) (bound : List String) (node : Node) : Prop :=
  ∀ value, (evaluate bound node).value? = some value →
    realm.run bound node = pure (.primitive value)

theorem flatMap_units_of_joinTemplate {quasis : List Quasi} {text : String}
    (hjoin : joinTemplate quasis [] = some text) : quasis.flatMap Quasi.units = units text := by
  induction quasis generalizing text with
  | nil =>
      cases hjoin
      rfl
  | cons quasi rest ih =>
      obtain ⟨_ | cooked, raw⟩ := quasi
      · cases hjoin
      · obtain ⟨behind, hbehind, rfl⟩ := Option.map_eq_some_iff.mp hjoin
        rw [List.flatMap_cons, ih hbehind, units_append]
        rfl

/-- A known text is what a running program converts the value to. -/
theorem Realm.Gives.toText {node : Node} (hgives : realm.Gives bound node) {text : String}
    (htext : (evaluate bound node).toText? = some text) :
    (do realm.toText (← realm.run bound node)) = pure (units text) := by
  obtain ⟨value, hvalue, hunits⟩ := Evaluated.textOf_of_toText? realm htext
  rw [hgives value hvalue, pure_bind, Realm.toText, Realm.toPrimitive, pure_bind, hunits]

/-- A template is joined as a running program does it. -/
theorem runTemplate_of_joinTemplate {quasis : List Quasi} {substitutions : List Node}
    (hgives : ∀ node ∈ substitutions, realm.Gives bound node) {text : String}
    (hjoin : joinTemplate quasis (evaluateTexts bound substitutions) = some text) :
    realm.runTemplate bound quasis substitutions = pure (units text) := by
  induction substitutions generalizing quasis text with
  | nil =>
      rw [evaluateTexts] at hjoin
      rw [Realm.runTemplate, flatMap_units_of_joinTemplate hjoin]
  | cons node rest ih =>
      rw [evaluateTexts] at hjoin
      obtain ⟨hnode, hrest⟩ := List.forall_mem_cons.mp hgives
      match quasis with
      | [] =>
          cases hjoin
          rw [Realm.runTemplate]
          rfl
      | ⟨none, _⟩ :: _ => cases hjoin
      | ⟨some cooked, raw⟩ :: quasis =>
          cases htext : (evaluate bound node).toText? with
          | none =>
              rw [htext] at hjoin
              cases hjoin
          | some here =>
              rw [htext] at hjoin
              obtain ⟨behind, hbehind, rfl⟩ := Option.map_eq_some_iff.mp hjoin
              rw [Realm.runTemplate, ← bind_assoc, hnode.toText htext, pure_bind,
                ih hrest hbehind, pure_bind, units_append, units_append]
              rfl

/-- What is known of an expression is right if what is known of its parts is: one case for
each rule. -/
theorem gives_of_children {kind : Kind} {span : Span} {children : List Node}
    (hreads : ReadsLiterals realm ⟨kind, span, children⟩)
    (hgives : ∀ child ∈ children, realm.Gives bound child) :
    realm.Gives bound ⟨kind, span, children⟩ := by
  have hself := Node.mem_nodes_self ⟨kind, span, children⟩
  intro value hvalue
  rw [evaluate.eq_def] at hvalue
  split at hvalue
  · -- a text
    rename_i text hasLone _ _ heq
    cases heq
    cases hvalue
    obtain rfl : hasLone = false := by simpa [Kind.isPaired, Node.kind] using hreads.paired _ hself
    rw [Realm.run]
  · -- a number
    rename_i spelling _ _ heq
    cases heq
    cases hvalue
    rw [Realm.run, hreads.numerals _ hself spelling rfl]
  · rename_i heq
    cases heq
    cases hvalue
    rw [Realm.run]
  · rename_i heq
    cases heq
    cases hvalue
    rw [Realm.run]
  · -- a name
    rename_i name _ _ heq
    cases heq
    split at hvalue
    · rename_i hname
      rw [Bool.and_eq_true, decide_eq_true_eq, Bool.not_eq_true'] at hname
      cases hvalue
      rw [Realm.run, Realm.read, hname.1, hname.2, if_neg Bool.false_ne_true, if_pos rfl]
    · cases hvalue
  · -- an expression in parentheses
    rename_i inner heq
    cases heq
    rw [Realm.run]
    exact hgives inner List.mem_cons_self value hvalue
  · -- a template
    rename_i quasis _ _ heq
    cases heq
    split at hvalue
    · rename_i text hjoin
      cases hvalue
      have hknown : quasis.all Quasi.isKnown = true := by
        rw [List.all_eq_true]
        intro quasi hquasi
        have hpaired := List.all_eq_true.mp (hreads.paired _ hself) quasi hquasi
        rw [Quasi.isKnown, isSome_of_mem_quasis hjoin quasi hquasi, hpaired]
        rfl
      rw [Realm.run, if_pos hknown, runTemplate_of_joinTemplate hgives hjoin, pure_bind]
    · cases hvalue
  · -- a sum
    rename_i left right heq
    cases heq
    obtain ⟨first, second, hfirst, hsecond, hsum⟩ := Evaluated.sum_of_add realm hvalue
    rw [Realm.run, hgives left (by simp) first hfirst, hgives right (by simp) second hsecond]
    simp only [pure_bind, Realm.add, Realm.toPrimitive, hsum]
  · cases hvalue

mutual

/-- A value that is known before a program runs is the value that the expression gives. -/
theorem gives_of_readsLiterals : ∀ node : Node, ReadsLiterals realm node → realm.Gives bound node
  | ⟨kind, span, children⟩, hreads => by
      apply gives_of_children hreads
      apply forall_gives_of_readsLiterals children
      intro child hchild
      exact hreads.inside (Node.mem_nodes_of_mem_children ⟨kind, span, children⟩ hchild)

theorem forall_gives_of_readsLiterals : ∀ nodes : List Node,
    (∀ node ∈ nodes, ReadsLiterals realm node) → ∀ node ∈ nodes, realm.Gives bound node
  | [], _ => List.forall_mem_nil _
  | node :: rest, hreads => by
      obtain ⟨hnode, hrest⟩ := List.forall_mem_cons.mp hreads
      exact List.forall_mem_cons.mpr ⟨gives_of_readsLiterals node hnode,
        forall_gives_of_readsLiterals rest hrest⟩

end

end Run

end WebBundle.Scan

import WebBundle.Text.Identifier

/-!
# Syntax trees

A source text is read into an ordered tree.  Every node says what it is, which
bytes of the source it covers and what it consists of, in source order.  A part
that may be missing, such as the `else` of an `if`, is an `absent` node, so the
position of a part among the children always tells its role.  A walk over the
tree in order therefore meets everything in the order of the source.
-/

namespace WebBundle.Syntax

/-- A range of bytes of a source text. -/
structure Span where
  start : Nat
  stop : Nat
  deriving DecidableEq, Repr, Inhabited

/-- A part of a template literal between substitutions; text with an invalid
escape has no cooked form. -/
structure Quasi where
  cooked : Option String
  raw : List Char
  deriving DecidableEq, Repr

/-- A name in an import or export list, which may be written as a string. -/
structure ModuleName where
  text : String
  quoted : Bool := false
  deriving DecidableEq, Repr, Inhabited

/-- The keyword of a variable declaration. -/
inductive VariableKind where
  | functionScoped
  | blockScoped
  | constant
  | resource
  | asyncResource
  deriving DecidableEq, Repr

/-- Where a function or a class stands. -/
inductive Role where
  | declaration
  | expression
  /-- The function of a method or of an accessor. -/
  | member
  deriving DecidableEq, Repr

/-- What a member of a class or an object with a function is. -/
inductive MemberForm where
  | method
  | getter
  | setter
  | constructor
  deriving DecidableEq, Repr

/-- Words in front of a class member or a parameter that only types know. -/
structure Modifiers where
  isStatic : Bool := false
  isAbstract : Bool := false
  isDeclared : Bool := false
  /-- The member makes its parameter a field of the class. -/
  isParameterField : Bool := false
  deriving DecidableEq, Repr, Inhabited

/-- Ways to state the type of an expression. -/
inductive TypeForm where
  | assertion
  | nonNull
  | instantiation
  deriving DecidableEq, Repr

/-- Declarations that exist only for types. -/
inductive TypeDeclaration where
  | interface
  | alias
  deriving DecidableEq, Repr

/-- What a node is; the comment names its children where there are any. -/
inductive Kind where
  /-- A part that is not there. -/
  | absent
  /-- A sequence of parts. -/
  | list
  -- expressions
  | reference (name : Identifier.Name)
  | privateName (name : String)
  | nullLiteral
  | booleanLiteral (value : Bool)
  | numberLiteral (spelling : List Char)
  | bigintLiteral (spelling : List Char)
  | stringLiteral (value : String) (hasLoneSurrogate : Bool)
  | regexLiteral (spelling : List Char)
  /-- The substitutions. -/
  | templateLiteral (quasis : List Quasi)
  /-- The tag and the template. -/
  | taggedTemplate
  /-- Elements, spreads and holes. -/
  | arrayLiteral (trailingComma : Bool)
  /-- Properties and spreads. -/
  | objectLiteral (trailingComma : Bool)
  | hole
  | spread
  /-- The key and the value. -/
  | property (shorthand computed : Bool)
  /-- The key and the function. -/
  | objectMethod (form : MemberForm) (computed : Bool)
  /-- A key that is written as a name. -/
  | propertyName (name : String)
  /-- The name, the parameters and the body. -/
  | function (role : Role) (isAsync isGenerator : Bool)
  | parameters
  /-- The decorators and the pattern. -/
  | parameter (modifiers : Modifiers)
  | functionBody
  /-- The parameters and the body; an expression body stands alone. -/
  | arrow (isAsync expressionBody : Bool)
  /-- The decorators, the name, the superclass and the body. -/
  | classDefinition (role : Role) (modifiers : Modifiers)
  | classBody
  /-- The decorators, the key and the function. -/
  | method (form : MemberForm) (computed : Bool) (modifiers : Modifiers)
  /-- The decorators, the key and the value. -/
  | field (computed : Bool) (modifiers : Modifiers)
  /-- The decorators, the key and the value. -/
  | accessor (computed : Bool) (modifiers : Modifiers)
  | staticBlock
  | decorator
  | unary (operator : String)
  | update (operator : String) (isPrefixed : Bool)
  | binary (operator : String)
  | logical (operator : String)
  | assignment (operator : String)
  | conditional
  | sequence
  /-- The callee and the arguments. -/
  | call (optional : Bool)
  /-- The callee and the arguments. -/
  | newCall
  /-- A call that has no effect of its own. -/
  | pure
  /-- The object. -/
  | staticMember (name : String) (optional : Bool)
  /-- The object and the key. -/
  | computedMember (optional : Bool)
  /-- The object. -/
  | privateMember (name : String) (optional : Bool)
  /-- A whole chain with `?.` in it. -/
  | chain
  /-- The source and the options. -/
  | importCall (phase : String)
  | metaProperty (base name : String)
  | awaitExpression
  | yieldExpression (delegate : Bool)
  | thisExpression
  | superExpression
  | parenthesized
  /-- An expression with a type. -/
  | typed (form : TypeForm)
  -- patterns
  | binding (name : String)
  /-- Properties and a rest. -/
  | objectPattern
  /-- The key and the pattern. -/
  | patternProperty (shorthand computed : Bool)
  /-- Elements, holes and a rest. -/
  | arrayPattern
  /-- The pattern and its default. -/
  | defaulted
  | rest
  -- statements
  | block
  | variableDeclaration (kind : VariableKind) (isDeclared : Bool)
  /-- The pattern and the initial value. -/
  | declarator
  | expressionStatement
  | directive (raw : List Char)
  | emptyStatement
  | ifStatement
  /-- The initialiser, the test, the update and the body. -/
  | forStatement
  | forIn
  | forOf (isAwait : Bool)
  | whileStatement
  /-- The body and the test. -/
  | doWhile
  | returnStatement
  | breakStatement (label : Option String)
  | continueStatement (label : Option String)
  | throwStatement
  /-- The block, the handler and the finalizer. -/
  | tryStatement
  /-- The parameter and the block. -/
  | catchClause
  /-- The discriminant and the cases. -/
  | switchStatement
  /-- The test and the statements. -/
  | switchCase
  | labeled (label : String)
  | debuggerStatement
  | withStatement
  -- modules
  /-- The specifiers, the source and the attributes. -/
  | importDeclaration (typeOnly : Bool) (phase : String)
  /-- The local binding. -/
  | importDefault
  /-- The local binding. -/
  | importNamespace
  /-- The local binding. -/
  | importNamed (imported : ModuleName) (typeOnly : Bool)
  /-- The specifiers, the source and the attributes. -/
  | exportNamed (typeOnly : Bool)
  | exportSpecifier (localName exported : ModuleName) (typeOnly : Bool)
  /-- The declaration. -/
  | exportDeclaration
  /-- The declaration or the expression. -/
  | exportDefault
  /-- The source and the attributes. -/
  | exportAll (exported : Option ModuleName) (typeOnly : Bool)
  /-- The key and the value of an import attribute. -/
  | attribute
  -- types
  /-- Something that only types know and that binds nothing. -/
  | erased
  | typeDeclaration (form : TypeDeclaration) (name : String)
  /-- The name and the members. -/
  | enumeration (isConst isDeclared : Bool)
  /-- The key and the initial value. -/
  | enumMember
  /-- The name and the body. -/
  | namespaceDeclaration (isDeclared : Bool)
  /-- The local binding and what it stands for. -/
  | importEquals (typeOnly isExported : Bool)
  /-- The argument of an external module reference. -/
  | requireReference
  | exportAssignment
  | program
  deriving Inhabited

/-- A node of a syntax tree. -/
inductive Node where
  | mk (kind : Kind) (span : Span) (children : List Node)
  deriving Inhabited

namespace Node

/-- What the node is. -/
def kind : Node → Kind
  | mk kind _ _ => kind

/-- The bytes of the source that the node covers. -/
def span : Node → Span
  | mk _ span _ => span

/-- The parts of the node, in source order. -/
def children : Node → List Node
  | mk _ _ children => children

/-- A part that is not there. -/
def missing : Node := mk .absent ⟨0, 0⟩ []

/-- Whether a part is there. -/
def isPresent : Node → Bool
  | mk .absent _ _ => false
  | _ => true

/-- A node with another span. -/
def withSpan (node : Node) (span : Span) : Node :=
  mk node.kind span node.children

end Node

end WebBundle.Syntax

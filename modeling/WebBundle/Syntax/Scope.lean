import WebBundle.Syntax.Program

/-!
# Scopes

Some nodes open a scope.  A declaration belongs to the innermost scope around
it, but a `var` declaration belongs to the innermost function, static block,
namespace or program and merely passes through the scopes in between.  Two
declarations of one name in one scope may clash.  A reference is global if no
scope around it declares its name.
-/

namespace WebBundle.Syntax

/-- Ways to declare a name. -/
inductive DeclarationForm where
  /-- Declared by `var`, or by the parameter of a handler that is a plain name. -/
  | functionScoped
  /-- Declared by `let`, `const` or `using`, or by a pattern of a handler. -/
  | blockScoped
  | classForm
  | function
  | parameter
  | imported
  | enumeration
  | enumMember
  | space
  | typeAlias
  | interface
  deriving DecidableEq, Repr

namespace DeclarationForm

/-- Whether two declarations of one name in one scope clash when the first form
comes before the second in the list of forms. -/
def clashesInOrder : DeclarationForm → DeclarationForm → Bool
  | .blockScoped, .imported => false
  | .blockScoped, .typeAlias => false
  | .blockScoped, .interface => false
  | .blockScoped, _ => true
  | .functionScoped, .classForm => true
  | .functionScoped, .enumeration => true
  | .classForm, .classForm => true
  | .classForm, .parameter => true
  | .classForm, .enumeration => true
  | .classForm, .typeAlias => true
  | .function, .enumeration => true
  | .parameter, .parameter => true
  | .parameter, .enumeration => true
  | .imported, .imported => true
  | .enumeration, .typeAlias => true
  | .enumeration, .interface => true
  | .enumMember, .enumMember => true
  | .typeAlias, .typeAlias => true
  | .typeAlias, .interface => true
  | _, _ => false

/-- Whether a declaration is for types only. -/
def isType : DeclarationForm → Bool
  | .typeAlias | .interface => true
  | _ => false

/-- Whether two declarations of one name in one scope clash. -/
def clashes (first second : DeclarationForm) : Bool :=
  clashesInOrder first second || clashesInOrder second first

end DeclarationForm

/-- A declared name. -/
structure Declaration where
  form : DeclarationForm
  name : String
  deriving DecidableEq, Repr

/-- The names of a pattern as declarations. -/
def declarationsOf (form : DeclarationForm) (pattern : Node) : List Declaration :=
  (boundNames pattern).map (⟨form, ·⟩)

/-- Whether nodes of a kind open a scope. -/
def Kind.opensScope : Kind → Bool
  | .program | .block | .function _ _ _ | .arrow _ _ | .classDefinition _ _ | .staticBlock
  | .forStatement | .forIn | .forOf _ | .switchStatement | .catchClause
  | .namespaceDeclaration _ | .enumeration _ _ => true
  | _ => false

/-- Whether a scope keeps the `var` declarations inside of it. -/
def Kind.keepsVariables : Kind → Bool
  | .program | .function _ _ _ | .arrow _ _ | .staticBlock | .namespaceDeclaration _ => true
  | _ => false

/-- The names that the patterns of declarators bind. -/
def declaratorNames (form : DeclarationForm) (declarators : List Node) : List Declaration :=
  declarators.flatMap fun
    | ⟨.declarator, _, pattern :: _⟩ => declarationsOf form pattern
    | _ => []

/-- What a node that is a declaration itself declares around it. -/
def ownDeclarations : Node → List Declaration
  | ⟨.variableDeclaration kind _, _, declarators⟩ =>
    if kind = .functionScoped then [] else declaratorNames .blockScoped declarators
  | ⟨.function .declaration _ _, _, name :: _⟩ => declarationsOf .function name
  | ⟨.classDefinition .declaration _, _, _ :: name :: _⟩ => declarationsOf .classForm name
  | ⟨.importDefault, _, [name]⟩ => declarationsOf .imported name
  | ⟨.importNamespace, _, [name]⟩ => declarationsOf .imported name
  | ⟨.importNamed _ _, _, [name]⟩ => declarationsOf .imported name
  | ⟨.importEquals _ _, _, name :: _⟩ => declarationsOf .imported name
  | ⟨.enumeration _ _, _, name :: _⟩ => declarationsOf .enumeration name
  | ⟨.enumMember, _, [⟨.propertyName name, _, _⟩, _]⟩ => [⟨.enumMember, name⟩]
  | ⟨.enumMember, _, [⟨.stringLiteral name _, _, _⟩, _]⟩ => [⟨.enumMember, name⟩]
  | ⟨.namespaceDeclaration _, _, name :: _⟩ => declarationsOf .space name
  | ⟨.typeDeclaration .alias name, _, _⟩ => [⟨.typeAlias, name⟩]
  | ⟨.typeDeclaration .interface name, _, _⟩ => [⟨.interface, name⟩]
  | _ => []

mutual

/-- What is declared in a node without going into scopes. -/
def blockDeclarations : Node → List Declaration
  | ⟨kind, span, children⟩ =>
    ownDeclarations ⟨kind, span, children⟩ ++
      if kind.opensScope then [] else blockDeclarationsIn children

/-- What is declared in several nodes without going into scopes. -/
def blockDeclarationsIn : List Node → List Declaration
  | [] => []
  | node :: rest => blockDeclarations node ++ blockDeclarationsIn rest

end

mutual

/-- The `var` declarations in a node that belong to a scope around it. -/
def variableDeclarations : Node → List Declaration
  | ⟨.variableDeclaration .functionScoped _, _, declarators⟩ =>
    declaratorNames .functionScoped declarators ++ variableDeclarationsIn declarators
  | ⟨kind, _, children⟩ => if kind.keepsVariables then [] else variableDeclarationsIn children

/-- The `var` declarations in several nodes that belong to a scope around them. -/
def variableDeclarationsIn : List Node → List Declaration
  | [] => []
  | node :: rest => variableDeclarations node ++ variableDeclarationsIn rest

end

/-- The declarations of parameters. -/
def parameterDeclarations (parameters : Node) : List Declaration :=
  parameters.children.flatMap fun
    | ⟨.parameter _, _, [_, pattern]⟩ => declarationsOf .parameter pattern
    | pattern => declarationsOf .parameter pattern

/-- The declarations of the parameter of a handler. -/
def handledDeclarations (parameter : Node) : List Declaration :=
  match parameter.kind with
  | .binding _ => declarationsOf .functionScoped parameter
  | _ => declarationsOf .blockScoped parameter

/-- Everything declared in the scope that a node opens or passing through it. -/
def scopeDeclarations : Node → List Declaration
  | ⟨.function _ _ _, _, [_, parameters, body]⟩ =>
    parameterDeclarations parameters ++ blockDeclarations body ++ variableDeclarations body
  | ⟨.arrow _ _, _, [parameters, body]⟩ =>
    parameterDeclarations parameters ++ blockDeclarations body ++ variableDeclarations body
  | ⟨.catchClause, _, [parameter, ⟨_, _, body⟩]⟩ =>
    handledDeclarations parameter ++ blockDeclarationsIn body ++ variableDeclarationsIn body
  | ⟨.namespaceDeclaration _, _, [_, ⟨.block, _, body⟩]⟩ =>
    blockDeclarationsIn body ++ variableDeclarationsIn body
  | ⟨.classDefinition _ _, _, _⟩ => []
  | ⟨kind, _, children⟩ =>
    if kind.opensScope then blockDeclarationsIn children ++ variableDeclarationsIn children else []

/-- The name by which a function or class expression knows itself. -/
def ownName : Node → List String
  | ⟨.function .expression _ _, _, name :: _⟩ => boundNames name
  | ⟨.classDefinition _ _, _, _ :: name :: _⟩ => boundNames name
  | ⟨.enumeration _ _, _, name :: _⟩ => boundNames name
  | ⟨.namespaceDeclaration _, _, name :: _⟩ => boundNames name
  | _ => []

/-- The names that the scope of a node adds for values. -/
def scopeNames (node : Node) : List String :=
  let declarations := (scopeDeclarations node).filter fun declaration => !declaration.form.isType
  ownName node ++ declarations.map Declaration.name

/-- Whether two of some declarations clash. -/
def hasClash : List Declaration → Bool
  | [] => false
  | declaration :: rest =>
    (rest.any fun other =>
      other.name = declaration.name && declaration.form.clashes other.form) || hasClash rest

mutual

/-- Whether declarations clash in no scope of a tree. -/
def hasValidScopes : Node → Bool
  | ⟨kind, span, children⟩ =>
    !hasClash (scopeDeclarations ⟨kind, span, children⟩) && haveValidScopes children

/-- Whether declarations clash in no scope of several trees. -/
def haveValidScopes : List Node → Bool
  | [] => true
  | node :: rest => hasValidScopes node && haveValidScopes rest

end

/-! ## Walking with the declared names -/

/-- A node with the names that are declared around it. -/
structure Site where
  node : Node
  bound : List String

/-- How many of the first children of a node stand outside of its scope. -/
def Kind.outerChildren : Kind → Nat
  | .classDefinition _ _ | .switchStatement => 1
  | _ => 0

mutual

/-- The wanted nodes of a tree, outer ones first, with the names around them. -/
def sitesFrom (wanted : Kind → Bool) (bound : List String) : Node → List Site
  | ⟨kind, span, children⟩ =>
    let node : Node := ⟨kind, span, children⟩
    let inner := scopeNames node ++ bound
    let rest := sitesFromAll wanted bound inner kind.outerChildren children
    if wanted kind then ⟨node, bound⟩ :: rest else rest

/-- The wanted nodes of several trees, of which the first ones are outside. -/
def sitesFromAll (wanted : Kind → Bool) (bound inner : List String) :
    (outside : Nat) → List Node → List Site
  | _, [] => []
  | 0, node :: rest => sitesFrom wanted inner node ++ sitesFromAll wanted bound inner 0 rest
  | outside + 1, node :: rest =>
    sitesFrom wanted bound node ++ sitesFromAll wanted bound inner outside rest

end

namespace Program

/-- Whether no declarations of the program clash. -/
def isValid (program : Program) : Bool := hasValidScopes program.root

/-- The wanted nodes of a program in the order of the source. -/
def sites (program : Program) (wanted : Kind → Bool) : List Site :=
  sitesFrom wanted [] program.root

/-- The names that are declared at the top of the program. -/
def topNames (program : Program) : List String := scopeNames program.root

end Program

end WebBundle.Syntax

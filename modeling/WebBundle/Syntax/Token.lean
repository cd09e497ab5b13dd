import WebBundle.Syntax.Tree

/-!
# Tokens

A token is a word, a punctuator, a literal or a part of a template.  Words are
classified when they are read; whether a word is a keyword depends on where it
stands, so the reader of the grammar decides that.
-/

namespace WebBundle.Syntax

/-- Punctuators. -/
inductive Mark where
  | braceOpen | braceClose | parenOpen | parenClose | bracketOpen | bracketClose
  | dot | ellipsis | semicolon | comma | colon | question | questionDot | arrow | atSign
  | less | greater | lessEqual | greaterEqual | equal | notEqual | same | notSame
  | plus | minus | star | slash | percent | power | increment | decrement
  | shiftLeft | shiftRight | shiftRightZero
  | bitAnd | bitOr | bitXor | bitNot | not | logicalAnd | logicalOr | coalesce
  | assign | plusAssign | minusAssign | starAssign | slashAssign | percentAssign | powerAssign
  | shiftLeftAssign | shiftRightAssign | shiftRightZeroAssign
  | andAssign | orAssign | xorAssign | logicalAndAssign | logicalOrAssign | coalesceAssign
  deriving DecidableEq, Repr

/-- How each punctuator is written; a longer one stands before its own start. -/
def Mark.spellings : List (Mark × List Char) :=
  [(.shiftRightZeroAssign, ">>>=".toList),
   (.ellipsis, "...".toList), (.same, "===".toList), (.notSame, "!==".toList),
   (.shiftRightZero, ">>>".toList), (.shiftLeftAssign, "<<=".toList),
   (.shiftRightAssign, ">>=".toList), (.powerAssign, "**=".toList),
   (.logicalAndAssign, "&&=".toList), (.logicalOrAssign, "||=".toList),
   (.coalesceAssign, "??=".toList),
   (.arrow, "=>".toList), (.lessEqual, "<=".toList), (.greaterEqual, ">=".toList),
   (.equal, "==".toList), (.notEqual, "!=".toList), (.power, "**".toList),
   (.increment, "++".toList), (.decrement, "--".toList), (.shiftLeft, "<<".toList),
   (.shiftRight, ">>".toList), (.logicalAnd, "&&".toList), (.logicalOr, "||".toList),
   (.coalesce, "??".toList), (.questionDot, "?.".toList), (.plusAssign, "+=".toList),
   (.minusAssign, "-=".toList), (.starAssign, "*=".toList), (.slashAssign, "/=".toList),
   (.percentAssign, "%=".toList), (.andAssign, "&=".toList), (.orAssign, "|=".toList),
   (.xorAssign, "^=".toList),
   (.braceOpen, ['\x7b']), (.braceClose, ['\x7d']), (.parenOpen, ['(']), (.parenClose, [')']),
   (.bracketOpen, ['[']), (.bracketClose, [']']), (.dot, ['.']), (.semicolon, [';']),
   (.comma, [',']), (.colon, [':']), (.question, ['?']), (.atSign, ['@']), (.less, ['<']),
   (.greater, ['>']), (.plus, ['+']), (.minus, ['-']), (.star, ['*']), (.slash, ['/']),
   (.percent, ['%']), (.bitAnd, ['&']), (.bitOr, ['|']), (.bitXor, ['^']), (.bitNot, ['~']),
   (.not, ['!']), (.assign, ['='])]

/-- The text of a punctuator. -/
def Mark.text (mark : Mark) : String :=
  match Mark.spellings.find? fun entry => entry.1 = mark with
  | some (_, spelling) => String.ofList spelling
  | none => ""

/-- Words with a meaning of their own somewhere in the grammar. -/
inductive Word where
  | abstract_ | accessor_ | as_ | asserts_ | async_ | await_ | break_ | case_ | catch_ | class_
  | const_ | constructor_ | continue_ | debugger_ | declare_ | default_ | defer_ | delete_ | do_
  | else_ | enum_ | export_ | extends_ | false_ | finally_ | for_ | from_ | function_ | get_
  | global_ | if_ | implements_ | import_ | in_ | infer_ | instanceof_ | interface_ | is_
  | keyof_ | let_ | meta_ | module_ | namespace_ | new_ | null_ | of_ | out_ | override_
  | package_ | private_ | protected_ | public_ | readonly_ | require_ | return_ | satisfies_
  | set_ | source_ | static_ | super_ | switch_ | target_ | this_ | throw_ | true_ | try_
  | type_ | typeof_ | undefined_ | unique_ | using_ | var_ | void_ | while_ | with_ | yield_
  /-- Any other word. -/
  | other
  deriving DecidableEq, Repr

/-- How each special word is written. -/
def Word.spellings : List (Word × List Char) :=
  [(.abstract_, "abstract".toList), (.accessor_, "accessor".toList), (.as_, "as".toList),
   (.asserts_, "asserts".toList), (.async_, "async".toList), (.await_, "await".toList),
   (.break_, "break".toList), (.case_, "case".toList), (.catch_, "catch".toList),
   (.class_, "class".toList), (.const_, "const".toList), (.constructor_, "constructor".toList),
   (.continue_, "continue".toList), (.debugger_, "debugger".toList),
   (.declare_, "declare".toList), (.default_, "default".toList), (.defer_, "defer".toList),
   (.delete_, "delete".toList), (.do_, "do".toList), (.else_, "else".toList),
   (.enum_, "enum".toList), (.export_, "export".toList), (.extends_, "extends".toList),
   (.false_, "false".toList), (.finally_, "finally".toList), (.for_, "for".toList),
   (.from_, "from".toList), (.function_, "function".toList), (.get_, "get".toList),
   (.global_, "global".toList), (.if_, "if".toList), (.implements_, "implements".toList),
   (.import_, "import".toList), (.in_, "in".toList), (.infer_, "infer".toList),
   (.instanceof_, "instanceof".toList), (.interface_, "interface".toList), (.is_, "is".toList),
   (.keyof_, "keyof".toList), (.let_, "let".toList), (.meta_, "meta".toList),
   (.module_, "module".toList), (.namespace_, "namespace".toList), (.new_, "new".toList),
   (.null_, "null".toList), (.of_, "of".toList), (.out_, "out".toList),
   (.override_, "override".toList), (.package_, "package".toList),
   (.private_, "private".toList), (.protected_, "protected".toList),
   (.public_, "public".toList), (.readonly_, "readonly".toList), (.require_, "require".toList),
   (.return_, "return".toList), (.satisfies_, "satisfies".toList), (.set_, "set".toList),
   (.source_, "source".toList), (.static_, "static".toList), (.super_, "super".toList),
   (.switch_, "switch".toList), (.target_, "target".toList), (.this_, "this".toList),
   (.throw_, "throw".toList), (.true_, "true".toList), (.try_, "try".toList),
   (.type_, "type".toList), (.typeof_, "typeof".toList), (.undefined_, "undefined".toList),
   (.unique_, "unique".toList), (.using_, "using".toList), (.var_, "var".toList),
   (.void_, "void".toList), (.while_, "while".toList), (.with_, "with".toList),
   (.yield_, "yield".toList)]

/-- Classifies a word. -/
def Word.ofSpelling (spelling : List Char) : Word :=
  match Word.spellings.find? fun entry => entry.2 = spelling with
  | some (word, _) => word
  | none => .other

/-- Words that can never be the name of a binding or of a reference. -/
def Word.isReserved : Word → Bool
  | .break_ | .case_ | .catch_ | .class_ | .const_ | .continue_ | .debugger_ | .default_
  | .delete_ | .do_ | .else_ | .enum_ | .export_ | .extends_ | .false_ | .finally_ | .for_
  | .function_ | .if_ | .import_ | .in_ | .instanceof_ | .new_ | .null_ | .return_ | .super_
  | .switch_ | .this_ | .throw_ | .true_ | .try_ | .typeof_ | .var_ | .void_ | .while_
  | .with_ => true
  | _ => false

/-- What a token is. -/
inductive TokenKind where
  | word (word : Word) (name : String) (escaped : Bool)
  | privateName (name : String)
  | mark (mark : Mark)
  | number
  | bigint
  | string (value : String) (hasLoneSurrogate : Bool)
  /-- A part of a template; the last part ends with a backtick. -/
  | template (quasi : Quasi) (isLast : Bool)
  | regex
  | finish
  /-- Characters that begin no token. -/
  | invalid
  deriving DecidableEq, Repr, Inhabited

/-- A comment that stands in front of a token. -/
structure Comment where
  /-- The whole comment with its delimiters. -/
  text : List Char
  isLine : Bool
  /-- Whether a line has ended between the token before and the comment. -/
  startsLine : Bool
  /-- Whether a line ends directly behind the comment. -/
  endsLine : Bool
  deriving DecidableEq, Repr, Inhabited

/-- A place in a source text: the characters from there on and its byte offset. -/
structure Cursor where
  chars : List Char
  offset : Nat
  deriving DecidableEq, Repr, Inhabited

/-- A token with its place. -/
structure Token where
  kind : TokenKind
  /-- Where the token begins. -/
  start : Cursor
  /-- Where the token ends. -/
  stop : Cursor
  /-- Whether a line ends between the token before and this one. -/
  afterNewline : Bool
  /-- The comments that belong to this token. -/
  comments : List Comment
  deriving DecidableEq, Repr, Inhabited

namespace Token

/-- The first characters of a text that fill a number of bytes. -/
def takeBytes : (bytes : Nat) → List Char → List Char
  | _, [] => []
  | 0, _ => []
  | bytes + 1, c :: rest => c :: takeBytes (bytes + 1 - c.utf8Size) rest

/-- The characters a token is written with. -/
def spelling (token : Token) : List Char :=
  takeBytes (token.stop.offset - token.start.offset) token.start.chars

/-- The bytes a token covers. -/
def span (token : Token) : Span := ⟨token.start.offset, token.stop.offset⟩

end Token

end WebBundle.Syntax

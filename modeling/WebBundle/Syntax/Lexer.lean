import WebBundle.Syntax.Literal

/-!
# Reading tokens

A token is read at a place of the source, behind the blanks and comments in
front of it.  Comments belong to the token behind them unless they end the line
of the token before.  A slash is read as division and a brace as a brace; where
the grammar expects a regular expression or the rest of a template, the token
is read again from where it begins.
-/

namespace WebBundle.Syntax

namespace Cursor

/-- The place a number of characters further on. -/
def advance : (count : Nat) → Cursor → Cursor
  | 0, cursor => cursor
  | _ + 1, ⟨[], offset⟩ => ⟨[], offset⟩
  | count + 1, ⟨c :: rest, offset⟩ => advance count ⟨rest, offset + c.utf8Size⟩

/-- The start of a source text. -/
def ofText (text : String) : Cursor := ⟨text.toList, 0⟩

end Cursor

/-- What stands between two tokens, as far as it has been read. -/
structure Gap where
  /-- Whether a line has ended since the token before. -/
  newline : Bool
  /-- Whether comments that follow stand on a line of their own. -/
  lineStarted : Bool
  /-- The comments for the next token, last first. -/
  pending : List Comment

namespace Gap

/-- Notes the end of a line: comments directly behind the last token are its own. -/
def endLine (gap : Gap) : Gap :=
  { newline := true
    lineStarted := true
    pending := if gap.lineStarted then
        match gap.pending with
        | last :: before => { last with endsLine := true } :: before
        | [] => []
      else [] }

/-- Adds a comment up to the end of its line.  It belongs to the token before
unless it starts a line or stands behind `=` or `(`. -/
def addLineComment (gap : Gap) (keep : Bool) (text : List Char) : Gap :=
  { newline := true
    lineStarted := true
    pending := if gap.lineStarted || keep then
        ⟨text, true, gap.lineStarted, true⟩ :: gap.pending
      else [] }

/-- Adds a comment between delimiters. -/
def addBlockComment (gap : Gap) (text : List Char) : Gap :=
  { gap with
    newline := gap.newline || text.any isLineEnd
    pending := ⟨text, false, gap.lineStarted, false⟩ :: gap.pending }

end Gap

/-- The characters up to and including the end of a block comment. -/
def blockCommentEnd? : List Char → Option (List Char)
  | [] => none
  | '*' :: '/' :: _ => some ['*', '/']
  | c :: rest => (blockCommentEnd? rest).map (c :: ·)

/-- Reads blanks and comments; `skip` characters belong to a comment that has
been read.  A comment without an end stops the reading where it begins. -/
def skipGap (keep : Bool) : (skip : Nat) → Gap → (offset : Nat) → List Char → Gap × Cursor
  | _, gap, offset, [] => (gap, ⟨[], offset⟩)
  | skip + 1, gap, offset, c :: rest => skipGap keep skip gap (offset + c.utf8Size) rest
  | 0, gap, offset, '/' :: '/' :: rest =>
    let text := rest.takeWhile (!isLineEnd ·)
    skipGap keep (text.length + 1) (gap.addLineComment keep ('/' :: '/' :: text)) (offset + 1)
      ('/' :: rest)
  | 0, gap, offset, '/' :: '*' :: rest =>
    match blockCommentEnd? rest with
    | some text =>
      skipGap keep (text.length + 1) (gap.addBlockComment ('/' :: '*' :: text)) (offset + 1)
        ('*' :: rest)
    | none => (gap, ⟨'/' :: '*' :: rest, offset⟩)
  | 0, gap, offset, c :: rest =>
    if isLineEnd c then skipGap keep 0 gap.endLine (offset + c.utf8Size) rest
    else if isBlank c then skipGap keep 0 gap (offset + c.utf8Size) rest
    else (gap, ⟨c :: rest, offset⟩)

/-- The punctuator at the start of a text and its length.  A question mark and
a point in front of a digit are two tokens. -/
def readMark? (text : List Char) : Option (Mark × Nat) :=
  match Mark.spellings.find? fun entry => entry.2.isPrefixOf text with
  | none => none
  | some (.questionDot, _) =>
    match text with
    | _ :: _ :: c :: _ => if c.isDigit then some (.question, 1) else some (.questionDot, 2)
    | _ => some (.questionDot, 2)
  | some (mark, spelling) => some (mark, spelling.length)

/-- The token at the start of a text and the number of its characters. -/
def readKind (text : List Char) : TokenKind × Nat :=
  match text with
  | [] => (.finish, 0)
  | '#' :: rest =>
    match readName? rest with
    | some (name, used, _) => (.privateName (String.ofList name), used + 1)
    | none => (.invalid, 0)
  | '`' :: rest =>
    match readTemplateFrom? 0 rest with
    | some part => (.template part.quasi part.isLast, part.used + 1)
    | none => (.invalid, 0)
  | '/' :: '*' :: _ => (.invalid, 0)
  | c :: rest =>
    if c = '"' || c = '\'' then
      match readStringFrom? c 0 rest with
      | some (elements, used) =>
        let (value, lone) := textOfElements elements
        (.string value lone, used + 1)
      | none => (.invalid, 0)
    else
      let isNumber := c.isDigit || (c = '.' && match rest with
        | next :: _ => next.isDigit
        | [] => false)
      if isNumber then
        match readNumber? text with
        | some (used, isBigint) => (if isBigint then .bigint else .number, used)
        | none => (.invalid, 0)
      else
        match readMark? text with
        | some (mark, used) => (.mark mark, used)
        | none =>
          match readName? text with
          | some (name, used, escaped) =>
            (.word (Word.ofSpelling name) (String.ofList name) escaped, used)
          | none => (.invalid, 0)

/-- The token behind the blanks and comments at a place. -/
def readToken (keep : Bool) (gap : Gap) (cursor : Cursor) : Token :=
  let (gap, start) := skipGap keep 0 gap cursor.offset cursor.chars
  let (kind, used) := readKind start.chars
  { kind, start, stop := start.advance used, afterNewline := gap.newline,
    comments := gap.pending.reverse }

/-- The first token of a source; the line that begins with `#!` is skipped. -/
def firstToken (cursor : Cursor) : Token :=
  let start := match cursor.chars with
    | '#' :: '!' :: rest => cursor.advance ((rest.takeWhile (!isLineEnd ·)).length + 2)
    | _ => cursor
  readToken false ⟨true, true, []⟩ start

namespace Token

/-- The token behind a token. -/
def next (token : Token) : Token :=
  let keep := match token.kind with
    | .mark .assign | .mark .parenOpen => true
    | _ => false
  readToken keep ⟨false, false, []⟩ token.stop

/-- Reads a slash again as a regular expression. -/
def asRegex? (token : Token) : Option Token :=
  match token.start.chars with
  | '/' :: rest =>
    (countRegex? rest).map fun used =>
      { token with kind := .regex, stop := token.start.advance (used + 1) }
  | _ => none

/-- Reads a closing brace again as the next part of a template. -/
def asTemplate? (token : Token) : Option Token :=
  match token.start.chars with
  | '\x7d' :: rest =>
    (readTemplateFrom? 0 rest).map fun part =>
      { token with
        kind := .template part.quasi part.isLast
        stop := token.start.advance (part.used + 1) }
  | _ => none

/-- Reads only the first character of a punctuator that begins with it. -/
def asSingle? (token : Token) (c : Char) (mark : Mark) : Option Token :=
  match token.start.chars with
  | first :: _ =>
    if first = c then some { token with kind := .mark mark, stop := token.start.advance 1 }
    else none
  | [] => none

end Token

end WebBundle.Syntax

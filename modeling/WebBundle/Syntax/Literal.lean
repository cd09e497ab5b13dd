import WebBundle.Syntax.Token
import WebBundle.Text.Identifier
import WebBundle.Text.Printable
import WebBundle.Json.Basic

/-!
# Characters of names and literals

The readers of this module say how many characters of a text belong to a name,
a number, a string, a template or a regular expression, and what those
characters mean.  A reader that meets an escape of several characters skips
them one by one, so that every reader recurses on the text itself.
-/

namespace WebBundle.Syntax

/-- Characters that end a line. -/
def isLineEnd (c : Char) : Bool :=
  c = '\n' || c = '\r' || c = '\u2028' || c = '\u2029'

/-- Blank characters that end no line. -/
def isBlank (c : Char) : Bool :=
  c = ' ' || c = '\t' || c = '\x0b' || c = '\x0c' || c = '\xa0' || c = '\ufeff' ||
    c = '\x85' || c = '\u1680' || ('\u2000' ≤ c && c ≤ '\u200b') || c = '\u202f' ||
    c = '\u205f' || c = '\u3000'

/-- The value of a run of hexadecimal digits. -/
def hexNumber (digits : List Char) : Nat :=
  digits.foldl (fun value c => 16 * value + (Json.hexValue? c).getD 0) 0

/-- Whether a character is a hexadecimal digit. -/
def isHexDigit (c : Char) : Bool := (Json.hexValue? c).isSome

/-! ## Escapes -/

/-- A part of the text of a literal: a character, or half of a surrogate pair
that stands alone. -/
inductive Element where
  | char (c : Char)
  | lone (unit : Nat)
  deriving DecidableEq, Repr

private def isHighHalf (unit : Nat) : Bool := 0xD800 ≤ unit && unit < 0xDC00

private def isLowHalf (unit : Nat) : Bool := 0xDC00 ≤ unit && unit < 0xE000

/-- One UTF-16 unit as an element. -/
def Element.ofUnit (unit : Nat) : Element :=
  if isHighHalf unit || isLowHalf unit then .lone unit else .char (Char.ofNat unit)

/-- A code point behind `\u`, and the number of characters that spell it; two
escaped halves of a surrogate pair are one code point. -/
def readCodePoint? : List Char → Option (Element × Nat)
  | '\x7b' :: rest =>
    let digits := rest.takeWhile isHexDigit
    match digits, rest.dropWhile isHexDigit with
    | _ :: _, '\x7d' :: _ =>
      let value := hexNumber digits
      if value < 0x110000 then some (.ofUnit value, digits.length + 2) else none
    | _, _ => none
  | a :: b :: c :: d :: rest =>
    if [a, b, c, d].all isHexDigit then
      let high := hexNumber [a, b, c, d]
      match isHighHalf high, rest with
      | true, '\\' :: 'u' :: e :: f :: g :: h :: _ =>
        let low := hexNumber [e, f, g, h]
        if [e, f, g, h].all isHexDigit && isLowHalf low then
          some (.char (Char.ofNat (0x10000 + (high - 0xD800) * 0x400 + (low - 0xDC00))), 10)
        else some (.lone high, 4)
      | _, _ => some (.ofUnit high, 4)
    else none
  | _ => none

private def isOctal (c : Char) : Bool := '0' ≤ c && c ≤ '7'

/-- The elements an escape stands for and the number of characters behind the
backslash.  Octal escapes are refused in templates, except for `\0`. -/
def readEscape? (inTemplate : Bool) : List Char → Option (List Element × Nat)
  | [] => none
  | '\r' :: '\n' :: _ => some ([], 2)
  | 'u' :: rest => (readCodePoint? rest).map fun (element, used) => ([element], used + 1)
  | 'x' :: a :: b :: _ =>
    if isHexDigit a && isHexDigit b then some ([.char (Char.ofNat (hexNumber [a, b]))], 3) else none
  | 'x' :: _ => none
  | c :: rest =>
    if isLineEnd c then some ([], 1)
    else if c = 'n' then some ([.char '\n'], 1)
    else if c = 't' then some ([.char '\t'], 1)
    else if c = 'r' then some ([.char '\r'], 1)
    else if c = 'b' then some ([.char '\x08'], 1)
    else if c = 'f' then some ([.char '\x0c'], 1)
    else if c = 'v' then some ([.char '\x0b'], 1)
    else if c.isDigit then
      let followed := match rest with
        | next :: _ => next.isDigit
        | [] => false
      if c = '0' && !followed then some ([.char '\x00'], 1)
      else if inTemplate then none
      else if isOctal c then
        let limit := if c ≤ '3' then 2 else 1
        let more := (rest.take limit).takeWhile isOctal
        let value := (c :: more).foldl (fun value c => 8 * value + (c.toNat - '0'.toNat)) 0
        some ([.char (Char.ofNat value)], more.length + 1)
      else some ([.char c], 1)
    else some ([.char c], 1)

private def isLone : Element → Bool
  | .lone _ => true
  | .char _ => false

/-- How a literal with unpaired surrogate halves is kept as a text: each half,
and each replacement character, is a replacement character and four digits. -/
def Element.marked : Element → List Char
  | .lone unit => '\ufffd' :: Digest.hexDigits 4 unit
  | .char c => if c = '\ufffd' then '\ufffd' :: "fffd".toList else [c]

/-- The text of a literal, and whether it has unpaired surrogate halves. -/
def textOfElements (elements : List Element) : String × Bool :=
  if elements.any isLone then (String.ofList (elements.flatMap Element.marked), true)
  else
    (String.ofList (elements.flatMap fun
      | .char c => [c]
      | .lone _ => []), false)

/-! ## Names -/

/-- The characters of a name from here on, the number of characters that spell
them and whether there were escapes.  `skip` characters belong to an escape
that has been read. -/
def readNameFrom? (isFirst : Bool) : (skip : Nat) → List Char → Option (List Char × Nat × Bool)
  | skip + 1, _ :: rest =>
    (readNameFrom? isFirst skip rest).map fun (name, used, escaped) => (name, used + 1, escaped)
  | _, [] => some ([], 0, false)
  | 0, '\\' :: rest =>
    match rest with
    | 'u' :: after =>
      match readCodePoint? after with
      | some (.char c, used) =>
        if if isFirst then Identifier.isStart c else Identifier.isContinue c then
          match readNameFrom? false (used + 1) rest with
          | some (name, length, _) => some (c :: name, length + 1, true)
          | none => none
        else none
      | _ => none
    | _ => none
  | 0, c :: rest =>
    if if isFirst then Identifier.isStart c else Identifier.isContinue c then
      match readNameFrom? false 0 rest with
      | some (name, length, escaped) => some (c :: name, length + 1, escaped)
      | none => none
    else some ([], 0, false)

/-- A name at the start of a text: its characters, the number of characters
that spell them and whether there were escapes. -/
def readName? (text : List Char) : Option (List Char × Nat × Bool) :=
  match readNameFrom? true 0 text with
  | some ([], _) => none
  | found => found

/-! ## Numbers -/

/-- The number of digits and separators at the start of a text; a separator
stands between two digits. -/
def countDigits? (isDigit : Char → Bool) (text : List Char) : Option Nat :=
  let run := text.takeWhile fun c => isDigit c || c = '_'
  let rec separated : List Char → Bool
    | '_' :: '_' :: _ => false
    | ['_'] => false
    | _ :: rest => separated rest
    | [] => true
  match run with
  | [] => none
  | first :: _ => if first ≠ '_' && separated run then some run.length else none

/-- The number of characters of an exponent, if there is one. -/
def countExponent? (text : List Char) : Option Nat :=
  match text with
  | mark :: rest =>
    if mark = 'e' || mark = 'E' then
      match rest with
      | sign :: digits =>
        if sign = '+' || sign = '-' then (countDigits? Char.isDigit digits).map (· + 2)
        else (countDigits? Char.isDigit rest).map (· + 1)
      | [] => none
    else some 0
  | [] => some 0

/-- The number of characters of a fraction and an exponent behind the digits
in front of the point. -/
def countFraction? (text : List Char) : Option Nat :=
  match text with
  | '.' :: rest =>
    match rest with
    | c :: _ =>
      if c.isDigit || c = '_' then
        match countDigits? Char.isDigit rest with
        | some digits => (countExponent? (rest.drop digits)).map (· + digits + 1)
        | none => none
      else (countExponent? rest).map (· + 1)
    | [] => some 1
  | _ => countExponent? text

def baseDigit? (mark : Char) : Option (Char → Bool) :=
  if mark = 'x' || mark = 'X' then some isHexDigit
  else if mark = 'o' || mark = 'O' then some isOctal
  else if mark = 'b' || mark = 'B' then some fun c => c = '0' || c = '1'
  else none

/-- Adds the letter of a big integer to a count of digits. -/
def withBigint (text : List Char) (used : Nat) : Nat × Bool :=
  match text.drop used with
  | 'n' :: _ => (used + 1, true)
  | _ => (used, false)

/-- The number of characters of a number without regard to what follows, and
whether it is a big integer. -/
def countNumber? (text : List Char) : Option (Nat × Bool) :=
  match text with
  | '0' :: mark :: rest =>
    match baseDigit? mark with
    | some isDigit => (countDigits? isDigit rest).map fun digits => withBigint text (digits + 2)
    | none =>
      if mark.isDigit then
        let digits := (text.takeWhile Char.isDigit).length
        if (text.take digits).all isOctal then some (digits, false)
        else (countFraction? (text.drop digits)).map fun more => (digits + more, false)
      else if mark = '_' then none
      else if mark = 'n' then some (2, true)
      else (countFraction? (mark :: rest)).map fun more => (1 + more, false)
  | '.' :: _ => (countFraction? text).map (·, false)
  | _ =>
    match countDigits? Char.isDigit text with
    | none => none
    | some digits =>
      match text.drop digits with
      | 'n' :: _ => some (digits + 1, true)
      | rest => (countFraction? rest).map fun more => (digits + more, false)

/-- A number at the start of a text; no name or digit may follow it directly. -/
def readNumber? (text : List Char) : Option (Nat × Bool) :=
  match countNumber? text with
  | none => none
  | some (used, isBigint) =>
    match text.drop used with
    | c :: _ => if c.isDigit || Identifier.isStart c then none else some (used, isBigint)
    | [] => some (used, isBigint)

/-! ## Strings, templates and regular expressions -/

/-- The elements of a string up to its closing quote, and the number of
characters including the quote. -/
def readStringFrom? (quote : Char) : (skip : Nat) → List Char → Option (List Element × Nat)
  | _, [] => none
  | skip + 1, _ :: rest =>
    (readStringFrom? quote skip rest).map fun (elements, used) => (elements, used + 1)
  | 0, c :: rest =>
    if c = quote then some ([], 1)
    else if c = '\\' then
      match readEscape? false rest with
      | none => none
      | some (here, used) =>
        (readStringFrom? quote used rest).map fun (elements, length) =>
          (here ++ elements, length + 1)
    else if c = '\n' || c = '\r' then none
    else (readStringFrom? quote 0 rest).map fun (elements, used) => (.char c :: elements, used + 1)

/-- A part of a template literal that has been read. -/
structure TemplatePart where
  /-- The elements, or none after an invalid escape. -/
  cooked : Option (List Element)
  raw : List Char
  /-- Whether the template ends here. -/
  isLast : Bool
  /-- The number of characters including the end of the part. -/
  used : Nat

/-- Puts characters in front of a part. -/
private def TemplatePart.cons (part : TemplatePart) (here : Option (List Element)) (c : Char) :
    TemplatePart :=
  { part with
    cooked := match here, part.cooked with
      | some here, some rest => some (here ++ rest)
      | _, _ => none
    raw := c :: part.raw
    used := part.used + 1 }

/-- A part of a template up to the next substitution or the end.  In both forms
of the text a line ends with a line feed. -/
def readTemplateFrom? : (skip : Nat) → List Char → Option TemplatePart
  | _, [] => none
  | skip + 1, c :: rest =>
    (readTemplateFrom? skip rest).map fun part =>
      if c = '\r' then { part with used := part.used + 1, raw := match rest with
        | '\n' :: _ => part.raw
        | _ => '\n' :: part.raw }
      else part.cons (some []) c
  | 0, '`' :: _ => some ⟨some [], [], true, 1⟩
  | 0, '$' :: '\x7b' :: _ => some ⟨some [], [], false, 2⟩
  | 0, '\\' :: rest =>
    match readEscape? true rest with
    | none =>
      let used := match rest with
        | [] => 0
        | _ :: _ => 1
      (readTemplateFrom? used rest).map (·.cons none '\\')
    | some (here, used) => (readTemplateFrom? used rest).map (·.cons (some here) '\\')
  | 0, '\r' :: '\n' :: rest =>
    (readTemplateFrom? 0 rest).map fun part =>
      { part.cons (some [.char '\n']) '\n' with used := part.used + 2 }
  | 0, '\r' :: rest => (readTemplateFrom? 0 rest).map (·.cons (some [.char '\n']) '\n')
  | 0, c :: rest => (readTemplateFrom? 0 rest).map (·.cons (some [.char c]) c)

/-- The quasi of a part of a template. -/
def TemplatePart.quasi (part : TemplatePart) : Quasi :=
  ⟨part.cooked.map fun elements => (textOfElements elements).1, part.raw⟩

/-- The number of characters of the body of a regular expression, including the
closing slash. -/
def countRegexBody? : (inClass escaped : Bool) → List Char → Option Nat
  | _, _, [] => none
  | inClass, escaped, c :: rest =>
    if isLineEnd c then none
    else if escaped then (countRegexBody? inClass false rest).map (· + 1)
    else if c = '\\' then (countRegexBody? inClass true rest).map (· + 1)
    else if c = '[' then (countRegexBody? true false rest).map (· + 1)
    else if c = ']' then (countRegexBody? false false rest).map (· + 1)
    else if c = '/' && !inClass then some 1
    else (countRegexBody? inClass false rest).map (· + 1)

/-- The number of characters of a regular expression whose opening slash has
been read.  Each flag may be given once. -/
def countRegex? (text : List Char) : Option Nat :=
  match text with
  | '*' :: _ => none
  | _ =>
    match countRegexBody? false false text with
    | none => none
    | some body =>
      let flags := (text.drop body).takeWhile Identifier.isContinue
      let known := flags.all fun flag => flag ∈ "dgimsuvy".toList
      let rec distinct : List Char → Bool
        | [] => true
        | flag :: rest => !rest.contains flag && distinct rest
      if known && distinct flags then some (body + flags.length) else none

end WebBundle.Syntax

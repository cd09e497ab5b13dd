import WebBundle.Decimal.Text
import WebBundle.Digest
import WebBundle.Syntax.Numeral
import WebBundle.Syntax.Tree

/-!
# Spellings of literals

A number is written with the fewest characters: as a decimal, with an exponent or
in base sixteen.  A string stands between double quotes unless single quotes need
fewer escapes.  The closing tag of a script is never written as it is, because a
script may become part of a document.
-/

namespace WebBundle.Syntax.Writing

/-! ## Numbers -/

/-- Whether all characters of a text are decimal digits. -/
def allDigits (text : List Char) : Bool := text.all Char.isDigit

/-- A decimal text without a zero in front of its point and without a plus sign. -/
def compactDecimal (text : List Char) : List Char :=
  let text := text.filter (· ≠ '+')
  match text with
  | '0' :: '.' :: rest => '.' :: rest
  | text => text

/-- The spelling in base sixteen of a positive float that is a whole number. -/
def inBaseSixteen (bits : UInt64) : List Char :=
  let binary := Decimal.Binary.ofBits bits
  let value := binary.mantissa * Nat.pow 2 binary.exponent.toNat / Nat.pow 2 (-binary.exponent).toNat
  let width := value.log2 / 4 + 1
  '0' :: 'x' :: Digest.hexDigits width value

/-- The spelling with a negative exponent of a text with zeros behind its point. -/
def smallExponential? : List Char → Option (List Char)
  | '.' :: '0' :: rest =>
    let digits := rest.dropWhile (· = '0')
    some (digits ++ 'e' :: '-' :: Decimal.digitsOf (rest.length + 1))
  | _ => none

/-- The spelling with an exponent of a text that ends with zeros. -/
def wholeExponential? (text : List Char) : Option (List Char) :=
  let zeros := (text.reverse.takeWhile (· = '0')).length
  if zeros = 0 then none
  else some (text.take (text.length - zeros) ++ 'e' :: Decimal.digitsOf zeros)

/-- The number that the characters of an exponent spell. -/
def exponentValue : List Char → Int
  | '-' :: digits => -(Numeral.decimalDigits digits : Int)
  | digits => Numeral.decimalDigits digits

/-- The spelling without a point of a text with a point and an exponent. -/
def pointlessExponential? (text : List Char) : Option (List Char) :=
  let whole := text.takeWhile (· ≠ '.')
  let fraction := ((text.dropWhile (· ≠ '.')).drop 1).takeWhile (· ≠ 'e')
  match text.dropWhile (· ≠ 'e') with
  | _ :: exponent =>
    if text.contains '.' then
      let exponent := exponentValue exponent - fraction.length
      let sign := if exponent < 0 then ['-'] else []
      some (whole ++ fraction ++ 'e' :: sign ++ Decimal.digitsOf exponent.natAbs)
    else none
  | [] => none

/-- The first of the shortest texts. -/
def shortestOf (first : List Char) : List (List Char) → List Char
  | [] => first
  | text :: rest => shortestOf (if text.length < first.length then text else first) rest

/-- The spelling of a float that is not negative. -/
def numberText (value : Float) : List Char :=
  let bits := value.toBits
  let text := (Decimal.textOfBits bits).toList
  if text.length ≤ 3 && allDigits text then text
  else if text.head? = some 'I' then text
  else
    let compact := compactDecimal text
    let isWhole := text.contains '+' || !(text.contains '.' || text.contains 'e')
    let candidates := [
      if isWhole then some (inBaseSixteen bits) else none,
      smallExponential? compact,
      if compact.getLast? = some '0' then wholeExponential? compact
      else pointlessExponential? compact]
    shortestOf compact (candidates.filterMap id)

/-! ## Strings -/

/-- Breaks the closing tags of scripts in a text. -/
def breakTags : List Char → List Char
  | '<' :: '/' :: rest =>
    if (rest.take 6).map Char.toLower = "script".toList then '<' :: '\\' :: '/' :: breakTags rest
    else '<' :: '/' :: breakTags rest
  | c :: rest => c :: breakTags rest
  | [] => []

/-- The quote that needs fewer escapes around a text. -/
def quoteFor (text : List Char) : Char :=
  if text.count '\'' < text.count '"' then '\'' else '"'

/-- How a character is written between quotes, in front of another one. -/
def escapeBefore (quote : Char) (next : Option Char) (c : Char) : List Char :=
  if c = '\x00' then
    if (next.map Char.isDigit).getD false then "\\x00".toList else "\\0".toList
  else if c = '\x07' then "\\x07".toList
  else if c = '\x08' then "\\b".toList
  else if c = '\n' then "\\n".toList
  else if c = '\x0b' then "\\v".toList
  else if c = '\x0c' then "\\f".toList
  else if c = '\r' then "\\r".toList
  else if c = '\x1b' then "\\x1B".toList
  else if c = '\\' then "\\\\".toList
  else if c = quote then ['\\', c]
  else if c = '\u00a0' then "\\xA0".toList
  else if c = '\u2028' then "\\u2028".toList
  else if c = '\u2029' then "\\u2029".toList
  else [c]

/-- The characters between the quotes of a string.  In a text with unpaired
surrogate halves, four digits behind a replacement character name a half; `skip`
of them are passed over. -/
def escapeText (quote : Char) (hasLone : Bool) : (skip : Nat) → List Char → List Char
  | _, [] => []
  | skip + 1, _ :: rest => escapeText quote hasLone skip rest
  | 0, c :: rest =>
    if hasLone && c = '\ufffd' then
      let digits := rest.take 4
      let written := if digits = "fffd".toList then [c] else '\\' :: 'u' :: digits
      written ++ escapeText quote hasLone 4 rest
    else escapeBefore quote rest.head? c ++ escapeText quote hasLone 0 rest

/-- The spelling of a string. -/
def stringText (value : String) (hasLone : Bool) : String :=
  let text := value.toList
  let quote := quoteFor text
  String.ofList (quote :: breakTags (escapeText quote hasLone 0 text) ++ [quote])

/-- The first quote of a text that is not escaped. -/
def firstQuote? : (escaped : Bool) → List Char → Option Char
  | _, [] => none
  | true, _ :: rest => firstQuote? false rest
  | false, c :: rest =>
    if c = '"' || c = '\'' then some c else firstQuote? (c = '\\') rest

/-- The spelling of a directive, whose escapes stay as they are. -/
def directiveText (raw : List Char) : String :=
  let quote := if firstQuote? false raw = some '"' then '\'' else '"'
  String.ofList (quote :: raw ++ [quote, ';'])

/-! ## Templates -/

/-- The parts of a template with the texts of its substitutions between them. -/
def templateText : List Quasi → List String → String
  | [], _ => ""
  | [quasi], _ => String.ofList (breakTags quasi.raw)
  | quasi :: rest, substitutions =>
    String.ofList (breakTags quasi.raw) ++ "$\x7b" ++ substitutions.headD "" ++ "\x7d" ++
      templateText rest substitutions.tail

end WebBundle.Syntax.Writing

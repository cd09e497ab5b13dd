import WebBundle.Text.Range
import WebBundle.Text.Printable.Table
import WebBundle.Digest

/-!
# Texts inside messages

A message shows a text between double quotes.  Quotes, backslashes and the
common control characters have short escapes, printable characters are kept,
and everything else is written as a braced code point.
-/

namespace WebBundle.Printable

/-- Whether a character is shown as it is. -/
def isPrintable (c : Char) : Bool :=
  if c.toNat < 128 then 32 ≤ c.toNat && c.toNat < 127 else inRanges ranges c.toNat

/-- A number in lower-case hexadecimal without leading zeros. -/
def shortHex (value : Nat) : List Char :=
  match (Digest.hexDigits 6 value).dropWhile (· = '0') with
  | [] => ['0']
  | digits => digits

/-- How one character is shown. -/
def escape (c : Char) : List Char :=
  if c = '\x00' then ['\\', '0']
  else if c = '\t' then ['\\', 't']
  else if c = '\n' then ['\\', 'n']
  else if c = '\r' then ['\\', 'r']
  else if c = '"' then ['\\', '"']
  else if c = '\\' then ['\\', '\\']
  else if isPrintable c then [c]
  else '\\' :: 'u' :: '\x7b' :: shortHex c.toNat ++ ['\x7d']

/-- A text as it is shown in a message. -/
def quote (text : String) : String :=
  String.ofList ('"' :: text.toList.flatMap escape ++ ['"'])

end WebBundle.Printable

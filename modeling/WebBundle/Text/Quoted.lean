import WebBundle.Text.Identifier

/-!
# Quoted texts in generated code

A text is quoted between double quotes; a quote, a backslash and the control
characters below the space are escaped and every other character stands for
itself.  The same form is a JSON string and a JavaScript string literal.  A
property is accessed with a dot when its name is an identifier name, and with
a quoted name in brackets otherwise.
-/

namespace WebBundle.Quoted

private def lowerHex (value : Nat) : Char :=
  if value < 10 then Char.ofNat (48 + value) else Char.ofNat (87 + value)

/-- The escape of one character inside double quotes. -/
def escape (c : Char) : List Char :=
  if c = '"' then ['\\', '"']
  else if c = '\\' then ['\\', '\\']
  else if c = '\x08' then ['\\', 'b']
  else if c = '\x0c' then ['\\', 'f']
  else if c = '\n' then ['\\', 'n']
  else if c = '\r' then ['\\', 'r']
  else if c = '\t' then ['\\', 't']
  else if c.toNat < 32 then
    ['\\', 'u', '0', '0', lowerHex (c.toNat / 16), lowerHex (c.toNat % 16)]
  else [c]

/-- The characters of a quoted text. -/
def encode (text : List Char) : List Char :=
  '"' :: text.flatMap escape ++ ['"']

/-- A text between double quotes, escaped. -/
def literal (text : String) : String :=
  String.ofList (encode text.toList)

/-- Access to a property of an object: `object.name` or `object["name"]`. -/
def access (object property : String) : String :=
  if Identifier.isName property.toList then object ++ "." ++ property
  else object ++ "[" ++ literal property ++ "]"

end WebBundle.Quoted

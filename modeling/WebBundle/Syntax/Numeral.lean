import WebBundle.Syntax.Literal

/-!
# Values of numerals

A decimal numeral means the float nearest to its exact value.  Numerals in
another base mean the float nearest to their value as long as they have few
digits; longer ones are rounded digit by digit.
-/

namespace WebBundle.Syntax.Numeral

/-- The float nearest to `mantissa * 10 ^ exponent`; values out of reach are
zero or infinite. -/
def ofDecimal (mantissa : Nat) (exponent : Int) : Float :=
  let magnitude : Int := exponent + (Nat.repr mantissa).length
  if mantissa = 0 || magnitude < -400 then 0
  else if 400 < magnitude then 1 / 0
  else Float.ofScientific mantissa (exponent < 0) exponent.natAbs

/-- The number that a run of decimal digits spells. -/
def decimalDigits (digits : List Char) : Nat :=
  digits.foldl (fun value c => 10 * value + (c.toNat - '0'.toNat)) 0

/-- The exponent behind the digits of a decimal numeral. -/
def exponentOf : List Char → Int
  | _ :: '-' :: digits => -(decimalDigits digits : Int)
  | _ :: '+' :: digits => decimalDigits digits
  | _ :: digits => decimalDigits digits
  | [] => 0

/-- The value of a decimal numeral without separators. -/
def decimal (spelling : List Char) : Float :=
  let whole := spelling.takeWhile Char.isDigit
  let rest := spelling.dropWhile Char.isDigit
  let (fraction, rest) := match rest with
    | '.' :: rest => (rest.takeWhile Char.isDigit, rest.dropWhile Char.isDigit)
    | rest => ([], rest)
  ofDecimal (decimalDigits (whole ++ fraction)) (exponentOf rest - fraction.length)

/-- The value of digits in a base; up to `exactDigits` of them are exact before
the value is rounded. -/
def inBase (base exactDigits : Nat) (digits : List Char) : Float :=
  let values := digits.map fun c => (Json.hexValue? c).getD 0
  if values.length ≤ exactDigits then
    Float.ofNat (values.foldl (fun value digit => base * value + digit) 0)
  else values.foldl (fun value digit => value * Float.ofNat base + Float.ofNat digit) 0

/-- The value of a numeral. -/
def value (spelling : List Char) : Float :=
  let spelling := spelling.filter (· ≠ '_')
  match spelling with
  | '0' :: mark :: digits =>
    if mark = 'x' || mark = 'X' then inBase 16 16 digits
    else if mark = 'o' || mark = 'O' then inBase 8 21 digits
    else if mark = 'b' || mark = 'B' then inBase 2 64 digits
    else if (mark :: digits).all fun c => '0' ≤ c && c ≤ '7' then inBase 8 21 (mark :: digits)
    else decimal spelling
  | _ => decimal spelling

end WebBundle.Syntax.Numeral

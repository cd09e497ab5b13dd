import WebBundle.Decimal.Shortest

/-!
# Numbers as texts of a script

The text of a number uses the fewest digits that read back.  It is positional
from `1e-6` up to but excluding `1e21` and exponential outside, with one digit
before the point and a sign after the `e`.  Both zeros are `0`.
-/

namespace WebBundle.Decimal

/-- The decimal digits of a number. -/
def digitsOf (value : Nat) : List Char := (Nat.repr value).toList

/-- A decimal written without an exponent. -/
def positional (decimal : Digits) : List Char :=
  let digits := digitsOf decimal.digits
  if 0 ≤ decimal.exponent then digits ++ List.replicate decimal.exponent.toNat '0'
  else
    let places := (-decimal.exponent).toNat
    if places < digits.length then
      digits.take (digits.length - places) ++ '.' :: digits.drop (digits.length - places)
    else '0' :: '.' :: List.replicate (places - digits.length) '0' ++ digits

/-- The exponent of the first digit of a decimal. -/
def leadingExponent (decimal : Digits) : Int :=
  decimal.exponent + (digitsOf decimal.digits).length - 1

/-- A decimal written with one digit before the point and a signed exponent. -/
def exponential (decimal : Digits) : List Char :=
  let exponent := leadingExponent decimal
  let mantissa := match digitsOf decimal.digits with
    | [] => []
    | [digit] => [digit]
    | digit :: rest => digit :: '.' :: rest
  let sign := if exponent < 0 then '-' else '+'
  mantissa ++ 'e' :: sign :: digitsOf exponent.natAbs

/-- The text of a positive finite float. -/
def textOfPositive (bits : UInt64) : List Char :=
  let decimal := shortest bits
  let exponent := leadingExponent decimal
  if -6 ≤ exponent && exponent < 21 then positional decimal else exponential decimal

private def magnitudeMask : UInt64 := 0x7FFFFFFFFFFFFFFF
private def infinityBits : UInt64 := 0x7FF0000000000000

/-- The text of the float with these bits. -/
def textOfBits (bits : UInt64) : String :=
  let magnitude := bits &&& magnitudeMask
  if infinityBits < magnitude then "NaN"
  else if magnitude = 0 then "0"
  else
    let text := if magnitude = infinityBits then "Infinity".toList else textOfPositive magnitude
    String.ofList (if bits = magnitude then text else '-' :: text)

/-- The text of a float. -/
def textOfFloat (value : Float) : String := textOfBits value.toBits

end WebBundle.Decimal

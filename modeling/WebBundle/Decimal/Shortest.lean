/-!
# Shortest decimals

Every finite float is a number `m * 2 ^ q`, and every real number closer to it
than to its neighbours reads back as that float; the ends of this interval
belong to it exactly when `m` is even.  Among the decimals `a * 10 ^ g` of the
interval, those with the largest `g` have the fewest digits.  The search walks
down from a power that is too large and stops at the first grid with a point in
the interval; of two neighbours on that grid it takes the nearer one.
-/

namespace WebBundle.Decimal

/-- A positive number `mantissa * 2 ^ exponent` as a float stores it. -/
structure Binary where
  mantissa : Nat
  exponent : Int
  /-- The neighbour below is only half as far away as the one above. -/
  narrowBelow : Bool
  deriving DecidableEq, Repr

/-- Splits the bits of a finite float, without its sign. -/
def Binary.ofBits (bits : UInt64) : Binary :=
  let raw := (bits &&& 0x7FFFFFFFFFFFFFFF).toNat
  let fraction := raw % Nat.pow 2 52
  let exponent : Nat := raw / Nat.pow 2 52
  if exponent = 0 then ⟨fraction, -1074, false⟩
  else ⟨fraction + Nat.pow 2 52, (exponent : Int) - 1075, fraction = 0 && exponent ≠ 1⟩

/-- A decimal `digits * 10 ^ exponent`. -/
structure Digits where
  digits : Nat
  exponent : Int
  deriving DecidableEq, Repr

/-- The numerators of a float and of the ends of its interval in units of a
quarter of its last place, over the power of ten `10 ^ grid`, with their common
denominator. -/
structure Scaled where
  low : Nat
  value : Nat
  high : Nat
  denominator : Nat
  closed : Bool
  deriving DecidableEq, Repr

/-- Brings a float and its interval to the grid of multiples of `10 ^ grid`. -/
def Binary.scale (binary : Binary) (grid : Int) : Scaled :=
  let shift := binary.exponent - 2
  let factor := Nat.pow 2 shift.toNat * Nat.pow 10 (-grid).toNat
  let quarter := 4 * binary.mantissa
  { low := (quarter - if binary.narrowBelow then 1 else 2) * factor
    value := quarter * factor
    high := (quarter + 2) * factor
    denominator := Nat.pow 2 (-shift).toNat * Nat.pow 10 grid.toNat
    closed := binary.mantissa % 2 = 0 }

/-- Whether a point of the grid reads back as the float. -/
def Scaled.contains (scaled : Scaled) (point : Nat) : Bool :=
  let numerator := point * scaled.denominator
  if scaled.closed then scaled.low ≤ numerator && numerator ≤ scaled.high
  else scaled.low < numerator && numerator < scaled.high

/-- The point of the grid that reads back and lies nearest, if there is one. -/
def Scaled.nearest? (scaled : Scaled) : Option Nat :=
  let below := scaled.value / scaled.denominator
  let above := below + 1
  let distanceBelow := scaled.value - below * scaled.denominator
  let distanceAbove := above * scaled.denominator - scaled.value
  match scaled.contains below && below ≠ 0, scaled.contains above with
  | true, true => some (if distanceBelow ≤ distanceAbove then below else above)
  | true, false => some below
  | false, true => some above
  | false, false => none

/-- Walks down the grids from `10 ^ grid` for at most `steps` of them. -/
def searchGrid (binary : Binary) : (steps : Nat) → (grid : Int) → Digits
  | 0, _ => ⟨0, 0⟩
  | steps + 1, grid =>
    match (binary.scale grid).nearest? with
    | some point => ⟨point, grid⟩
    | none => searchGrid binary steps (grid - 1)

/-- A power of ten above the number: three decimal digits hold less than ten
binary ones. -/
def startGrid (binary : Binary) : Int :=
  ((binary.mantissa.log2 : Int) + binary.exponent + 1) * 30103 / 100000 + 1

/-- Moves the trailing zeros of the digits, at most `steps`, into the exponent. -/
def stripZeros : (steps : Nat) → Digits → Digits
  | 0, decimal => decimal
  | steps + 1, decimal =>
    if decimal.digits ≠ 0 && decimal.digits % 10 = 0 then
      stripZeros steps ⟨decimal.digits / 10, decimal.exponent + 1⟩
    else decimal

/-- The shortest decimal that reads back as the float with these bits, which
must be positive and finite. -/
def shortest (bits : UInt64) : Digits :=
  let binary := Binary.ofBits bits
  stripZeros 20 (searchGrid binary 40 (startGrid binary))

end WebBundle.Decimal

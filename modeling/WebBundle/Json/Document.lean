import WebBundle.Json.Basic

/-!
# JSON documents

A document is held to more than the grammar: strings and keys have no unpaired
surrogates, numbers fit a double and arrays and objects are nested at most 127
deep.
-/

namespace WebBundle.Json

/-- The number of digits in front of an exponent and the exponent itself. -/
def splitNumber (spelling : List Char) : List Char × Int :=
  let unsigned := spelling.filter (· ≠ '-') |>.takeWhile fun c => c ≠ 'e' && c ≠ 'E'
  let exponent := (spelling.dropWhile fun c => c ≠ 'e' && c ≠ 'E').drop 1
  let magnitude (digits : List Char) : Nat :=
    digits.foldl (fun value c => 10 * value + (c.toNat - '0'.toNat)) 0
  let exponent : Int := match exponent with
    | '-' :: digits => -(magnitude digits : Int)
    | '+' :: digits => magnitude digits
    | digits => magnitude digits
  let whole := unsigned.takeWhile (· ≠ '.')
  let fraction := (unsigned.dropWhile (· ≠ '.')).drop 1
  (whole ++ fraction, exponent - fraction.length)

/-- Whether a number is small enough for a double.  A number with more than 400
digits in front of the point is too large, and one below one is small enough. -/
def fitsDouble (spelling : List Char) : Bool :=
  let (digits, exponent) := splitNumber spelling
  let digits := digits.dropWhile (· = '0')
  if digits.isEmpty then true
  else
    let magnitude := (digits.length : Int) + exponent
    if magnitude ≤ 0 then true
    else if 400 < magnitude then false
    else
      let value := digits.foldl (fun value c => 10 * value + (c.toNat - '0'.toNat)) 0
      let limit := Nat.pow 2 1024 - Nat.pow 2 970
      if 0 ≤ exponent then value * Nat.pow 10 exponent.toNat < limit
      else value < limit * Nat.pow 10 (-exponent).toNat

mutual

/-- Whether a value is a document with at most `depth` nested containers. -/
def isDocument (depth : Nat) : Json → Bool
  | .null => true
  | .bool _ => true
  | .number spelling => fitsDouble spelling
  | .string value => value.isSome
  | .array items =>
    match depth with
    | 0 => false
    | depth + 1 => areDocuments depth items
  | .object members =>
    match depth with
    | 0 => false
    | depth + 1 => areMembers depth members

def areDocuments (depth : Nat) : List Json → Bool
  | [] => true
  | item :: items => isDocument depth item && areDocuments depth items

def areMembers (depth : Nat) : List (Option String × Json) → Bool
  | [] => true
  | (key, value) :: members => key.isSome && isDocument depth value && areMembers depth members

end

/-- The deepest nesting of arrays and objects. -/
def maximumDepth : Nat := 127

/-- A text that is one document. -/
def readDocument? (text : String) : Option Json :=
  (read? text).filter (isDocument maximumDepth)

/-- The last member of an object with a key. -/
def member? (json : Json) (key : String) : Option Json :=
  match json with
  | .object members =>
    (members.reverse.find? fun member => member.1 = some key).map (·.2)
  | _ => none

/-- The characters of a string value. -/
def string? : Json → Option String
  | .string value => value
  | _ => none

end WebBundle.Json

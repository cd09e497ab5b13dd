/-!
# Specifiers

A specifier is a path with an optional query from the first `?` on and an
optional fragment from the first `#` on.  A leading `/`, `.` or `#` belongs to
the path, and a `#` behind a NUL belongs to it as well; the NUL is dropped.
-/

namespace WebBundle.Resolver

/-- The parts of a specifier. -/
structure Specifier where
  path : List Char
  query : Option (List Char) := none
  fragment : Option (List Char) := none
  deriving DecidableEq, Repr

namespace Specifier

/-- Splits a text at the fragment; an escaped mark does not begin one. -/
def splitFragment : (skip : Nat) → (previous : Char) → List Char → List Char × Option (List Char)
  | _, _, [] => ([], none)
  | skip + 1, _, c :: rest =>
    let (before, fragment) := splitFragment skip c rest
    (c :: before, fragment)
  | 0, previous, c :: rest =>
    if c = '#' && previous ≠ '\x00' then ([], some (c :: rest))
    else
      let (before, fragment) := splitFragment 0 c rest
      (c :: before, fragment)

/-- Drops the NUL in front of every escaped mark. -/
def unescape : List Char → List Char
  | '\x00' :: '#' :: rest => '#' :: unescape rest
  | c :: rest => c :: unescape rest
  | [] => []

/-- Reads a specifier; the path must not be empty. -/
def read? (text : String) : Option Specifier :=
  let chars := text.toList
  let skip := match chars with
    | '/' :: _ | '.' :: _ | '#' :: _ => 1
    | _ => 0
  let (rest, fragment) := splitFragment skip (chars.headD ' ') chars
  let start := rest.take skip
  let body := rest.drop skip
  let path := start ++ body.takeWhile (· ≠ '?')
  let query := body.dropWhile (· ≠ '?')
  if path.isEmpty then none
  else some { path := unescape path, query := if query.isEmpty then none else some query, fragment }

end Specifier

end WebBundle.Resolver

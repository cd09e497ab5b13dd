import WebBundle.Syntax.Tree

/-!
# Splicing

A source is edited by replacing ranges of bytes.  The ranges do not overlap; of
two replacements of one range the later one counts.
-/

namespace WebBundle.Output

open Syntax (Span)

/-- A new text for a range of a source. -/
structure Replacement where
  span : Span
  text : List Char

/-- The text that is put where an offset is. -/
def insertedAt (replacements : List Replacement) (offset : Nat) : List Char :=
  match (replacements.filter fun replacement => replacement.span.start = offset).getLast? with
  | some replacement => replacement.text
  | none => []

/-- Whether the character at an offset is replaced. -/
def isReplaced (replacements : List Replacement) (offset : Nat) : Bool :=
  replacements.any fun replacement =>
    replacement.span.start ≤ offset && offset < replacement.span.stop

/-- A text, which begins at an offset, with its replacements. -/
def splice (replacements : List Replacement) : (offset : Nat) → List Char → List Char
  | _, [] => []
  | offset, c :: rest =>
    let kept := if isReplaced replacements offset then [] else [c]
    insertedAt replacements offset ++ kept ++ splice replacements (offset + c.utf8Size) rest

end WebBundle.Output

/-!
# Texts in file names and messages

Names of chunks hold only letters and digits of ASCII and `-`, `_` and `.`;
every other character becomes an underscore.  Qualified type names lose the
path in front of their last segment.
-/

namespace WebBundle.Text

/-- Replaces every character that is not safe in a file name by `_`. -/
def sanitizeFileName (text : String) : String :=
  String.ofList <| text.toList.map fun c =>
    if c.isAlphanum || c = '-' || c = '_' || c = '.' then c else '_'

private def isWordStart (c : Char) : Bool := c.isAlpha || c = '_'

private def isWordPart (c : Char) : Bool := c.isAlphanum || c = '_'

/-- Drops one path segment `name::` from the front of a text. -/
def dropPathSegment? : List Char → Option (List Char)
  | [] => none
  | first :: rest =>
    if isWordStart first then
      match rest.dropWhile isWordPart with
      | ':' :: ':' :: after => some after
      | _ => none
    else none

private theorem length_dropWhile_le (test : Char → Bool) (text : List Char) :
    (text.dropWhile test).length ≤ text.length :=
  (List.dropWhile_sublist test).length_le

theorem length_dropPathSegment {text after : List Char}
    (hdrop : dropPathSegment? text = some after) : after.length < text.length := by
  unfold dropPathSegment? at hdrop
  split at hdrop
  · simp at hdrop
  · rename_i first rest
    split at hdrop
    · split at hdrop
      · rename_i tail heq
        have hle := length_dropWhile_le isWordPart rest
        simp only [Option.some.injEq] at hdrop
        subst hdrop
        rw [heq] at hle
        simp only [List.length_cons] at hle ⊢
        omega
      · simp at hdrop
    · simp at hdrop

/-- Removes every path segment `name::`; a segment may begin anywhere inside a
text, so the letters before it that cannot start a name are kept. -/
def dropPathSegments (text : List Char) : List Char :=
  match text with
  | [] => []
  | first :: rest =>
    match _hdrop : dropPathSegment? (first :: rest) with
    | some after => dropPathSegments after
    | none => first :: dropPathSegments rest
termination_by text.length
decreasing_by
  · exact length_dropPathSegment ‹_›
  · simp

/-- A qualified type name without the paths of its parts. -/
def withoutPaths (text : String) : String :=
  String.ofList (dropPathSegments text.toList)

end WebBundle.Text

import WebBundle.Filename.Template

/-!
# File names of worklets

A worklet is named by the chunk template of the build that starts it, with
`.worklet` in front of the final extension.  The file is referred to before it
is rendered, so placeholders for the hash of the file become placeholders for
the hash of the build and keep their length.
-/

namespace WebBundle.Filename

/-- Letters of an extension: those of ASCII and the two characters that differ
from an ASCII letter only by case. -/
def isExtensionLetter (c : Char) : Bool :=
  c.isAlpha || c = '\u017f' || c = '\u212a'

/-- A template with `.worklet` in front of the final extension, if the template
ends in a dot and one or more letters. -/
def insertWorklet (template : List Char) : List Char :=
  let reversed := template.reverse
  match reversed.takeWhile isExtensionLetter, reversed.dropWhile isExtensionLetter with
  | letter :: letters, '.' :: rest =>
    rest.reverse ++ ".worklet.".toList ++ (letter :: letters).reverse
  | _, _ => template

/-- The placeholder for the hash of the file that starts behind an opening bracket. -/
def readFileHash? (text : List Char) : Option (Placeholder × List Char) :=
  [Field.chunkHash, Field.contentHash].findSome? fun field => readField? field text

theorem length_readFileHash {text rest : List Char} {placeholder : Placeholder}
    (hread : readFileHash? text = some (placeholder, rest)) : rest.length < text.length := by
  obtain ⟨field, -, hfield⟩ := List.exists_of_findSome?_eq_some hread
  exact length_readField hfield

/-- A placeholder for the hash of the build, with the modifiers of another one. -/
def Placeholder.withRunHash (placeholder : Placeholder) : Placeholder :=
  { placeholder with field := .hash }

/-- A text in which every placeholder for the hash of the file asks for the hash of
the build. -/
def withRunHash (text : List Char) : List Char :=
  match text with
  | [] => []
  | c :: rest =>
    if c = '[' then
      match _hread : readFileHash? rest with
      | some (placeholder, after) => placeholder.withRunHash.text ++ withRunHash after
      | none => c :: withRunHash rest
    else c :: withRunHash rest
termination_by text.length
decreasing_by
  · have := length_readFileHash _hread
    simp only [List.length_cons]
    omega
  · simp
  · simp

/-- The chunk template of a build that compiles a worklet. -/
def workletChunkTemplate (template : String) : String :=
  String.ofList (insertWorklet template.toList)

/-- The entry template of a build that compiles a worklet. -/
def workletEntryTemplate (template : String) : String :=
  String.ofList (withRunHash template.toList)

end WebBundle.Filename

import WebBundle.Text.Digit

/-!
# File name templates

A template such as `[name]-[contenthash:8].js` is plain text with placeholders
in brackets.  A placeholder names a value and may carry up to two numbers
after colons, of which the first limits how much of a hash is used.  Reading a
template splits it into pieces; rendering substitutes the known values and
leaves a placeholder without a value as it was written.  Substituted values are
never read again.
-/

namespace WebBundle.Filename

/-- What a placeholder stands for. -/
inductive Field where
  | name
  | id
  | hash
  | contentHash
  | chunkHash
  | ext
  | extName
  deriving DecidableEq, Repr

/-- How a field is spelled inside the brackets. -/
def Field.spelling : Field → List Char
  | .name => "name".toList
  | .id => "id".toList
  | .hash => "hash".toList
  | .contentHash => "contenthash".toList
  | .chunkHash => "chunkhash".toList
  | .ext => "ext".toList
  | .extName => "extname".toList

def Field.all : List Field :=
  [.name, .id, .hash, .contentHash, .chunkHash, .ext, .extName]

/-- Fields that stand for the hash of the rendered file itself. -/
def Field.isContentHash : Field → Bool
  | .contentHash | .chunkHash => true
  | _ => false

/-- A placeholder: its field and the digits after each colon. -/
structure Placeholder where
  field : Field
  modifiers : List (List Char)
  deriving DecidableEq, Repr

/-- A placeholder as it is written. -/
def Placeholder.text (placeholder : Placeholder) : List Char :=
  '[' :: placeholder.field.spelling ++
    placeholder.modifiers.flatMap (fun digits => ':' :: digits) ++ [']']

/-- A template is a sequence of literal characters and placeholders. -/
inductive Piece where
  | literal (c : Char)
  | placeholder (placeholder : Placeholder)
  deriving DecidableEq, Repr

/-- A piece as it is written. -/
def Piece.text : Piece → List Char
  | .literal c => [c]
  | .placeholder hole => hole.text

/-- The text behind an expected start, if it begins that way. -/
def dropStart? : (start text : List Char) → Option (List Char)
  | [], text => some text
  | _ :: _, [] => none
  | expected :: start, c :: text => if c = expected then dropStart? start text else none

/-- Up to `count` colon-separated digit runs, and the text behind them. -/
def readModifiers : (count : Nat) → List Char → List (List Char) × List Char
  | 0, text => ([], text)
  | count + 1, text =>
    match text with
    | ':' :: after =>
      match after.takeWhile Digit.isDecimal with
      | [] => ([], text)
      | digits =>
        let (more, rest) := readModifiers count (after.dropWhile Digit.isDecimal)
        (digits :: more, rest)
    | _ => ([], text)

/-- One placeholder of the given field at the start of a text that begins
behind the opening bracket. -/
def readField? (field : Field) (text : List Char) : Option (Placeholder × List Char) :=
  match dropStart? field.spelling text with
  | none => none
  | some after =>
    match readModifiers 2 after with
    | (modifiers, ']' :: rest) => some (⟨field, modifiers⟩, rest)
    | _ => none

/-- The placeholder that starts behind an opening bracket. -/
def readPlaceholder? (text : List Char) : Option (Placeholder × List Char) :=
  Field.all.findSome? fun field => readField? field text

theorem length_dropStart {start text after : List Char}
    (hdrop : dropStart? start text = some after) : after.length ≤ text.length := by
  induction start generalizing text with
  | nil => simp [dropStart?] at hdrop; simp [hdrop]
  | cons expected start ih =>
    cases text with
    | nil => simp [dropStart?] at hdrop
    | cons c text =>
      simp only [dropStart?] at hdrop
      split at hdrop
      · exact Nat.le_trans (ih hdrop) (by simp)
      · simp at hdrop

theorem length_readModifiers (count : Nat) (text : List Char) :
    (readModifiers count text).2.length ≤ text.length := by
  induction count generalizing text with
  | zero => simp [readModifiers]
  | succ count ih =>
    unfold readModifiers
    split
    · rename_i after
      split
      · simp
      · have hle := (@List.dropWhile_sublist _ after Digit.isDecimal).length_le
        have hrest := ih (after.dropWhile Digit.isDecimal)
        simp only [List.length_cons]
        omega
    · simp

theorem length_readField {field : Field} {text rest : List Char} {placeholder : Placeholder}
    (hread : readField? field text = some (placeholder, rest)) : rest.length < text.length := by
  unfold readField? at hread
  split at hread
  · simp at hread
  · rename_i after hafter
    have hstart := length_dropStart hafter
    have hmodifiers := length_readModifiers 2 after
    split at hread
    · rename_i modifiers tail heq
      rw [heq] at hmodifiers
      simp only [List.length_cons] at hmodifiers
      simp only [Option.some.injEq, Prod.mk.injEq] at hread
      obtain ⟨-, rfl⟩ := hread
      omega
    · simp at hread

theorem length_readPlaceholder {text rest : List Char} {placeholder : Placeholder}
    (hread : readPlaceholder? text = some (placeholder, rest)) : rest.length < text.length := by
  unfold readPlaceholder? at hread
  obtain ⟨field, -, hfield⟩ := List.exists_of_findSome?_eq_some hread
  exact length_readField hfield

/-- The pieces of a template, found from left to right. -/
def pieces (text : List Char) : List Piece :=
  match text with
  | [] => []
  | c :: rest =>
    if c = '[' then
      match _hread : readPlaceholder? rest with
      | some (placeholder, after) => .placeholder placeholder :: pieces after
      | none => .literal c :: pieces rest
    else .literal c :: pieces rest
termination_by text.length
decreasing_by
  · have := length_readPlaceholder _hread
    simp only [List.length_cons]
    omega
  · simp
  · simp

/-- Values for the placeholders of a template. -/
structure Values where
  name : Option String := none
  id : Option String := none
  /-- The hash of the whole build. -/
  hash : Option String := none
  /-- The hash of the rendered file. -/
  contentHash : Option String := none
  /-- The extension without its dot. -/
  ext : Option String := none
  deriving DecidableEq, Repr

/-- The number of characters of a hash that is used when nothing is said. -/
def defaultHashLength : Nat := 8

/-- The number spelled by ASCII digits, if it fits a machine word. -/
def wordOfDigits? (digits : List Char) : Option Nat :=
  if digits.all Char.isDigit then
    let value := digits.foldl (fun value c => 10 * value + (c.toNat - '0'.toNat)) 0
    if value < UInt64.size then some value else none
  else none

/-- How much of a hash a placeholder asks for. -/
def Placeholder.hashLength (placeholder : Placeholder) : Nat :=
  (placeholder.modifiers.head?.bind wordOfDigits?).getD defaultHashLength

/-- The value a placeholder stands for, if it is known. -/
def Placeholder.value? (placeholder : Placeholder) (values : Values) : Option (List Char) :=
  let truncated (hash : String) := hash.toList.take placeholder.hashLength
  match placeholder.field with
  | .name => values.name.map String.toList
  | .id => values.id.map String.toList
  | .hash => values.hash.map truncated
  | .contentHash | .chunkHash => values.contentHash.map truncated
  | .ext => values.ext.map String.toList
  | .extName => values.ext.map fun ext => if ext = "" then [] else '.' :: ext.toList

/-- What a piece contributes to the rendered name. -/
def Piece.render (values : Values) : Piece → List Char
  | .literal c => [c]
  | .placeholder hole => (hole.value? values).getD hole.text

/-- A template with its known values substituted. -/
def render (template : String) (values : Values) : String :=
  String.ofList ((pieces template.toList).flatMap (Piece.render values))

/-- Whether a piece is a placeholder for the hash of the rendered file. -/
def Piece.isContentHash : Piece → Bool
  | .literal _ => false
  | .placeholder hole => hole.field.isContentHash

/-- Whether a rendered name depends on the rendered file. -/
def hasContentHash (template : String) : Bool :=
  (pieces template.toList).any Piece.isContentHash

end WebBundle.Filename

import WebBundle.Text.Range
import WebBundle.Text.Identifier.Table

/-!
# Identifier names

An identifier name starts with a character of Unicode class `ID_Start`, a
dollar sign or an underscore; later characters may also be of class
`ID_Continue` or one of the two joiners.  Reserved words are identifier names:
they are excluded only where a binding or a reference is expected.
-/

namespace WebBundle.Identifier

/-- The zero-width non-joiner and the zero-width joiner. -/
def isJoiner (c : Char) : Bool := c = '\u200c' || c = '\u200d'

/-- Characters that may start an identifier name. -/
def isStart (c : Char) : Bool :=
  if c.toNat < 128 then c.isAlpha || c = '$' || c = '_'
  else inRanges startRanges c.toNat

/-- Characters that may continue an identifier name. -/
def isContinue (c : Char) : Bool :=
  if c.toNat < 128 then c.isAlphanum || c = '$' || c = '_'
  else isJoiner c || inRanges startRanges c.toNat || inRanges continueRanges c.toNat

/-- Whether a whole text is one identifier name. -/
def isName : List Char → Bool
  | [] => false
  | first :: rest => isStart first && rest.all isContinue

/-- A text without characters that no identifier name has. -/
structure Name where
  text : String
  isPlain : text.toList.all isContinue = true
  deriving DecidableEq, Repr

/-- The name that a text spells; characters that no name has are left out. -/
def Name.ofText (text : String) : Name where
  text := String.ofList (text.toList.filter isContinue)
  isPlain := by simp

theorem isContinue_of_isStart {c : Char} (hstart : isStart c = true) : isContinue c = true := by
  unfold isStart at hstart
  unfold isContinue
  split at hstart <;> rename_i hsmall
  · simp only [hsmall, if_true, Char.isAlphanum, Bool.or_eq_true] at hstart ⊢
    rcases hstart with (halpha | hdollar) | hunderscore
    · exact .inl (.inl (.inl halpha))
    · exact .inl (.inr hdollar)
    · exact .inr hunderscore
  · simp [hsmall, hstart]

/-- A text that is a name spells itself. -/
theorem Name.text_ofText {text : String} (hplain : text.toList.all isContinue = true) :
    (Name.ofText text).text = text := by
  have hfilter := List.filter_eq_self.mpr (List.all_eq_true.mp hplain)
  simp only [ofText, hfilter, String.ofList_toList]

end WebBundle.Identifier

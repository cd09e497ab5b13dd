import Mathlib.Tactic.IntervalCases
import WebBundle.Json.Basic
import WebBundle.Text.Quoted

/-!
# Quoted texts are JSON strings

The reader of JSON strings gives back the characters of a quoted text and stops behind
its closing quote.  Every character is quoted as one element: as itself, by a letter
behind a backslash, or as a unit of four digits.
-/

namespace WebBundle.Quoted

open Json (Element readElements? decodeElements? readString? readUnit? simpleEscape?)

/-- The control characters that a letter stands for. -/
def HasLetter (c : Char) : Prop :=
  c = '\x08' ∨ c = '\x0c' ∨ c = '\n' ∨ c = '\r' ∨ c = '\t'

instance (c : Char) : Decidable (HasLetter c) := by
  unfold HasLetter
  infer_instance

theorem escape_plain {c : Char} (hcontrol : ¬ c.toNat < 32) (hquote : c ≠ '"')
    (hslash : c ≠ '\\') : escape c = [c] := by
  have hletter : ¬ HasLetter c := by
    rintro (rfl | rfl | rfl | rfl | rfl)
    all_goals exact hcontrol (by decide)
  simp only [HasLetter, not_or] at hletter
  simp only [escape, hquote, hslash, hletter, hcontrol, if_false]

/-- How a quoted character reads. -/
def element (c : Char) : Element :=
  if c.toNat < 32 ∧ ¬ HasLetter c then .unit c.toNat else .char c

/-! ## One character -/

theorem readElements?_letter {letter c : Char} (hletter : letter ≠ 'u')
    (hescape : simpleEscape? letter = some c) (rest : List Char) :
    readElements? ('\\' :: letter :: rest) =
      (readElements? rest).map fun read => (.char c :: read.1, read.2) := by
  rw [Json.readElements?.eq_4 letter rest fun _ _ _ _ _ hu => absurd hu hletter, hescape]
  cases readElements? rest <;> rfl

theorem readElements?_unit {a b c d : Char} {value : Nat}
    (hunit : readUnit? [a, b, c, d] = some (value, [])) (rest : List Char) :
    readElements? ('\\' :: 'u' :: a :: b :: c :: d :: rest) =
      (readElements? rest).map fun read => (.unit value :: read.1, read.2) := by
  rw [Json.readElements?.eq_3, hunit]
  cases readElements? rest <;> rfl

theorem readElements?_self {c : Char} (hquote : c ≠ '"') (hslash : c ≠ '\\')
    (hcontrol : ¬ c.toNat < 32) (rest : List Char) :
    readElements? (c :: rest) =
      (readElements? rest).map fun read => (.char c :: read.1, read.2) := by
  rw [Json.readElements?.eq_5 c rest hquote (fun _ _ _ _ _ hc => absurd hc hslash)
    fun _ _ hc => absurd hc hslash]
  simp only [hslash, hcontrol, decide_false, Bool.or_self, Bool.false_eq_true, if_false]
  cases readElements? rest <;> rfl

/-- The four digits of a control character. -/
theorem escape_control : ∀ value < 32, ¬ HasLetter (Char.ofNat value) →
    ∃ high low, escape (Char.ofNat value) = ['\\', 'u', '0', '0', high, low] ∧
      readUnit? ['0', '0', high, low] = some (value, []) := by
  intro value hvalue hletter
  interval_cases value
  all_goals first
    | exact ⟨_, _, rfl, by decide⟩
    | exact absurd (by decide) hletter

/-- The reader takes the escape of a character as one element. -/
theorem readElements?_escape (c : Char) (rest : List Char) :
    readElements? (escape c ++ rest) =
      (readElements? rest).map fun read => (element c :: read.1, read.2) := by
  by_cases hcontrol : c.toNat < 32
  · by_cases hletter : HasLetter c
    · rw [element, if_neg fun h => h.2 hletter]
      rcases hletter with rfl | rfl | rfl | rfl | rfl
      all_goals exact readElements?_letter (by decide) (by decide) rest
    · rw [element, if_pos ⟨hcontrol, hletter⟩]
      have hsame : Char.ofNat c.toNat = c := Char.ofNat_toNat c
      obtain ⟨high, low, hescape, hunit⟩ :=
        escape_control c.toNat hcontrol (by rwa [hsame])
      rw [hsame] at hescape
      rw [hescape]
      exact readElements?_unit hunit rest
  · rw [element, if_neg fun h => hcontrol h.1]
    by_cases hquote : c = '"'
    · subst hquote
      exact readElements?_letter (by decide) (by decide) rest
    · by_cases hslash : c = '\\'
      · subst hslash
        exact readElements?_letter (by decide) (by decide) rest
      · rw [escape_plain hcontrol hquote hslash]
        exact readElements?_self hquote hslash hcontrol rest

/-! ## Whole texts -/

theorem readElements?_flatMap (text rest : List Char) :
    readElements? (text.flatMap escape ++ '"' :: rest) = some (text.map element, rest) := by
  induction text with
  | nil => rfl
  | cons c text ih =>
      rw [List.flatMap_cons, List.append_assoc, readElements?_escape, ih]
      rfl

theorem decodeElements?_map (text : List Char) :
    decodeElements? (text.map element) = some text := by
  induction text with
  | nil => rfl
  | cons c text ih =>
      rw [List.map_cons, element]
      split
      · rename_i hcontrol
        have hstep : decodeElements? (.unit c.toNat :: text.map element) =
            (decodeElements? (text.map element)).map (Char.ofNat c.toNat :: ·) := by
          have hlow : ¬ 55296 ≤ c.toNat := by omega
          have hhigh : ¬ 56320 ≤ c.toNat := by omega
          cases text.map element with
          | nil => simp [decodeElements?, hlow]
          | cons next later =>
              cases next <;> simp [decodeElements?, hlow, hhigh]
        rw [hstep, ih, Option.map_some, Char.ofNat_toNat]
      · rw [decodeElements?, ih, Option.map_some]

/-- The reader of JSON strings gives back a quoted text and what stands behind it. -/
theorem readString?_encode (text : String) (rest : List Char) :
    readString? (text.toList.flatMap escape ++ '"' :: rest) = some (some text, rest) := by
  simp only [readString?, readElements?_flatMap, Option.map_some, decodeElements?_map,
    String.ofList_toList]

end WebBundle.Quoted

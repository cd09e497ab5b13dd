import Mathlib.Data.List.TakeWhile
import WebBundle.Json.Basic

/-!
# Parts of JSON texts

The reader of JSON values takes a part off the front of a text and looks at what stands behind
it only to see where a number ends.  So a part that was read in front of one text is read in the
same way in front of any other text that does not go on with a number, and alone.  How deep the
reader may go is bounded by the length of the part.
-/

namespace WebBundle.Json

/-! ## Strings -/

/-- The reader of strings takes the elements up to the closing quote, whatever stands behind
it. -/
theorem readElements?_takes {text rest : List Char} {elements : List Element}
    (hread : readElements? text = some (elements, rest)) :
    ∃ part, text = part ++ rest ∧
      ∀ more, readElements? (part ++ more) = some (elements, more) := by
  fun_induction readElements? text generalizing elements with
  | case1 => cases hread
  | case2 text =>
      cases hread
      exact ⟨['"'], rfl, fun more => rfl⟩
  | case3 a b c d text value unread later last hlater hunit ih =>
      cases hread
      obtain ⟨part, rfl, htakes⟩ := ih hlater
      refine ⟨'\\' :: 'u' :: a :: b :: c :: d :: part, rfl, fun more => ?_⟩
      rw [List.cons_append, List.cons_append, List.cons_append, List.cons_append,
        List.cons_append, List.cons_append, readElements?, hunit, htakes more]
  | case4 => cases hread
  | case5 letter text hplain c later last hlater hescape ih =>
      cases hread
      obtain ⟨part, rfl, htakes⟩ := ih hlater
      refine ⟨'\\' :: letter :: part, rfl, fun more => ?_⟩
      have hletter : letter ≠ 'u' := by
        rintro rfl
        cases hescape
      rw [List.cons_append, List.cons_append,
        readElements?.eq_4 letter _ fun _ _ _ _ _ hu => absurd hu hletter, hescape, htakes more]
  | case6 => cases hread
  | case7 => cases hread
  | case8 c text hquote hunit hescape hplain later last hlater ih =>
      cases hread
      obtain ⟨part, rfl, htakes⟩ := ih hlater
      refine ⟨c :: part, rfl, fun more => ?_⟩
      have hslash : c ≠ '\\' := by
        rintro rfl
        exact hplain rfl
      rw [List.cons_append, readElements?.eq_5 c _ hquote (fun _ _ _ _ _ h => absurd h hslash)
        fun _ _ h => absurd h hslash, if_neg hplain, htakes more]
  | case9 => cases hread

theorem readString?_takes {text rest : List Char} {value : Option String}
    (hread : readString? text = some (value, rest)) :
    ∃ part, text = part ++ rest ∧ ∀ more, readString? (part ++ more) = some (value, more) := by
  obtain ⟨⟨elements, last⟩, helements, heq⟩ := Option.map_eq_some_iff.mp hread
  cases heq
  obtain ⟨part, rfl, htakes⟩ := readElements?_takes helements
  exact ⟨part, rfl, fun more => by rw [readString?, htakes more, Option.map_some]⟩

/-! ## Numbers -/

/-- A text that no digits go on with. -/
def StopsDigits (text : List Char) : Prop := ∀ c ∈ text.head?, c.isDigit = false

/-- A text that no number goes on with. -/
def Stops (text : List Char) : Prop :=
  ∀ c ∈ text.head?, c.isDigit = false ∧ c ≠ '.' ∧ c ≠ 'e' ∧ c ≠ 'E'

theorem stopsDigits_cons {c : Char} {rest : List Char} :
    StopsDigits (c :: rest) ↔ c.isDigit = false := by
  simp [StopsDigits]

theorem stops_nil : Stops [] := fun _ hc => nomatch hc

theorem stops_cons {c : Char} {rest : List Char} :
    Stops (c :: rest) ↔ c.isDigit = false ∧ c ≠ '.' ∧ c ≠ 'e' ∧ c ≠ 'E' := by
  simp [Stops]

theorem Stops.digits {text : List Char} (h : Stops text) : StopsDigits text :=
  fun c hc => (h c hc).1

theorem span_digits {digits rest : List Char} (hdigits : ∀ c ∈ digits, c.isDigit = true)
    (hrest : StopsDigits rest) :
    (digits ++ rest).takeWhile Char.isDigit = digits ∧
      (digits ++ rest).dropWhile Char.isDigit = rest := by
  have hnone : rest.takeWhile Char.isDigit = [] ∧ rest.dropWhile Char.isDigit = rest := by
    cases rest with
    | nil => exact ⟨rfl, rfl⟩
    | cons c rest =>
        rw [stopsDigits_cons] at hrest
        simp [hrest]
  rw [List.takeWhile_append_of_pos hdigits, List.dropWhile_append_of_pos hdigits, hnone.1,
    hnone.2, List.append_nil]
  exact ⟨rfl, rfl⟩

theorem readDigits?_of_digits {digits rest : List Char} (hdigits : ∀ c ∈ digits, c.isDigit = true)
    (hempty : digits ≠ []) (hrest : StopsDigits rest) :
    readDigits? (digits ++ rest) = some (digits, rest) := by
  obtain ⟨htake, hdrop⟩ := span_digits hdigits hrest
  rw [readDigits?, htake, hdrop]
  cases digits with
  | nil => exact absurd rfl hempty
  | cons digit digits => rfl

theorem readDigits?_eq_some {text rest digits : List Char}
    (hread : readDigits? text = some (digits, rest)) :
    text = digits ++ rest ∧ digits ≠ [] ∧ ∀ c ∈ digits, c.isDigit = true := by
  rw [readDigits?] at hread
  split at hread
  · cases hread
  · rename_i found hfound
    cases hread
    exact ⟨List.takeWhile_append_dropWhile.symm, hfound, fun _ hc => List.mem_takeWhile_imp hc⟩

theorem readWhole?_zero {rest : List Char} (hrest : StopsDigits rest) :
    readWhole? ('0' :: rest) = some (['0'], rest) := by
  cases rest with
  | nil => rfl
  | cons c rest =>
      rw [stopsDigits_cons] at hrest
      rw [readWhole?, hrest]
      rfl

/-- The whole part of a number begins with a digit and ends where no digits go on. -/
theorem readWhole?_takes {text rest whole : List Char}
    (hread : readWhole? text = some (whole, rest)) :
    text = whole ++ rest ∧ (∃ digit digits, whole = digit :: digits ∧ digit.isDigit = true) ∧
      ∀ more, StopsDigits more → readWhole? (whole ++ more) = some (whole, more) := by
  rw [readWhole?.eq_def] at hread
  split at hread
  · rename_i behind
    have hwhole : whole = ['0'] ∧ behind = rest := by
      split at hread
      · split at hread <;> cases hread
        exact ⟨rfl, rfl⟩
      · cases hread
        exact ⟨rfl, rfl⟩
    obtain ⟨rfl, rfl⟩ := hwhole
    exact ⟨rfl, ⟨'0', [], rfl, rfl⟩, fun more hmore => readWhole?_zero hmore⟩
  · rename_i hzero
    obtain ⟨rfl, hempty, hall⟩ := readDigits?_eq_some hread
    cases whole with
    | nil => exact absurd rfl hempty
    | cons digit digits =>
        refine ⟨rfl, ⟨digit, digits, rfl, hall digit List.mem_cons_self⟩, fun more hmore => ?_⟩
        have hdigit : digit ≠ '0' := by
          rintro rfl
          exact hzero _ rfl
        rw [List.cons_append, readWhole?.eq_def]
        split
        · rename_i heq
          exact absurd (List.cons.inj heq).1 hdigit
        · exact readDigits?_of_digits hall hempty hmore

/-- The fraction of a number begins with a point, if there is one. -/
theorem readFraction?_takes {text rest fraction : List Char}
    (hread : readFraction? text = some (fraction, rest)) :
    text = fraction ++ rest ∧ (∀ c ∈ fraction.head?, c = '.') ∧
      ∀ more, StopsDigits more → (∀ c ∈ more.head?, c ≠ '.') →
        readFraction? (fraction ++ more) = some (fraction, more) := by
  rw [readFraction?.eq_def] at hread
  split at hread
  · rename_i behind
    obtain ⟨⟨digits, last⟩, hdigits, heq⟩ := Option.map_eq_some_iff.mp hread
    cases heq
    obtain ⟨rfl, hempty, hall⟩ := readDigits?_eq_some hdigits
    refine ⟨rfl, by simp, fun more hmore _ => ?_⟩
    rw [List.cons_append, readFraction?, readDigits?_of_digits hall hempty hmore, Option.map_some]
  · cases hread
    refine ⟨rfl, by simp, fun more _ hpoint => ?_⟩
    rw [List.nil_append, readFraction?.eq_def]
    split
    · exact absurd rfl (hpoint '.' rfl)
    · rfl

theorem readExponent?_of_stops {text : List Char} (h : Stops text) :
    readExponent? text = some ([], text) := by
  cases text with
  | nil => rfl
  | cons mark text =>
      obtain ⟨_, _, hlower, hupper⟩ := stops_cons.mp h
      simp [readExponent?, hlower, hupper]

/-- The exponent of a number begins with an `e`, if there is one. -/
theorem readExponent?_takes {text rest exponent : List Char}
    (hread : readExponent? text = some (exponent, rest)) :
    text = exponent ++ rest ∧ (∀ c ∈ exponent.head?, c = 'e' ∨ c = 'E') ∧
      ∀ more, Stops more → readExponent? (exponent ++ more) = some (exponent, more) := by
  have hnone : ∀ more, Stops more → readExponent? ([] ++ more) = some ([], more) :=
    fun more hmore => readExponent?_of_stops hmore
  rw [readExponent?.eq_def] at hread
  split at hread
  · rename_i mark behind
    split at hread
    · rename_i hmark
      have hmarks : mark = 'e' ∨ mark = 'E' := by simpa using hmark
      split at hread
      · rename_i sign after
        split at hread
        · rename_i hsign
          obtain ⟨⟨digits, last⟩, hdigits, heq⟩ := Option.map_eq_some_iff.mp hread
          cases heq
          obtain ⟨rfl, hempty, hall⟩ := readDigits?_eq_some hdigits
          refine ⟨rfl, by simpa using hmarks, fun more hmore => ?_⟩
          rw [List.cons_append, List.cons_append, readExponent?, if_pos hmark]
          simp only [if_pos hsign, readDigits?_of_digits hall hempty hmore.digits, Option.map_some]
        · rename_i hsign
          obtain ⟨⟨digits, last⟩, hdigits, heq⟩ := Option.map_eq_some_iff.mp hread
          cases heq
          obtain ⟨hbehind, hempty, hall⟩ := readDigits?_eq_some hdigits
          cases digits with
          | nil => exact absurd rfl hempty
          | cons digit digits =>
              cases hbehind
              refine ⟨rfl, by simpa using hmarks, fun more hmore => ?_⟩
              have htake := readDigits?_of_digits hall hempty hmore.digits
              rw [List.cons_append] at htake ⊢
              rw [List.cons_append, readExponent?, if_pos hmark]
              simp only [if_neg hsign, htake, Option.map_some]
      · cases hread
    · cases hread
      exact ⟨rfl, by simp, hnone⟩
  · cases hread
    exact ⟨rfl, by simp, hnone⟩

/-- The parts of a number behind its sign are read one after the other. -/
theorem readUnsigned_takes {text behind later rest whole fraction exponent : List Char}
    (hwhole : readWhole? text = some (whole, behind))
    (hfraction : readFraction? behind = some (fraction, later))
    (hexponent : readExponent? later = some (exponent, rest)) :
    text = whole ++ (fraction ++ (exponent ++ rest)) ∧ ∀ more, Stops more →
      readWhole? (whole ++ (fraction ++ (exponent ++ more))) =
          some (whole, fraction ++ (exponent ++ more)) ∧
        readFraction? (fraction ++ (exponent ++ more)) = some (fraction, exponent ++ more) ∧
        readExponent? (exponent ++ more) = some (exponent, more) := by
  obtain ⟨rfl, _, takesWhole⟩ := readWhole?_takes hwhole
  obtain ⟨rfl, hpoint, takesFraction⟩ := readFraction?_takes hfraction
  obtain ⟨rfl, hmark, takesExponent⟩ := readExponent?_takes hexponent
  refine ⟨rfl, fun more hmore => ?_⟩
  have hbehind : ∀ c ∈ (exponent ++ more).head?, c.isDigit = false ∧ c ≠ '.' := by
    cases exponent with
    | nil => exact fun c hc => ⟨(hmore c hc).1, (hmore c hc).2.1⟩
    | cons mark digits =>
        intro c hc
        cases hc
        rcases hmark mark rfl with rfl | rfl <;> decide
  have hdigits : StopsDigits (fraction ++ (exponent ++ more)) := by
    cases fraction with
    | nil => exact fun c hc => (hbehind c hc).1
    | cons point digits =>
        intro c hc
        cases hc
        rw [hpoint point rfl]
        rfl
  exact ⟨takesWhole _ hdigits,
    takesFraction _ (fun c hc => (hbehind c hc).1) fun c hc => (hbehind c hc).2,
    takesExponent more hmore⟩

/-- The reader of numbers takes what is spelled, which begins with a sign or a digit. -/
theorem readNumber?_takes {text rest spelling : List Char}
    (hread : readNumber? text = some (spelling, rest)) :
    text = spelling ++ rest ∧
      (∃ first later, spelling = first :: later ∧ (first = '-' ∨ first.isDigit = true)) ∧
      ∀ more, Stops more → readNumber? (spelling ++ more) = some (spelling, more) := by
  rw [readNumber?.eq_def] at hread
  split at hread
  rename_i sign unsigned hsign
  simp only [Option.bind_eq_bind, Option.bind_eq_some_iff, Option.some.injEq, Prod.mk.injEq,
    Prod.exists] at hread
  obtain ⟨whole, behind, hwhole, fraction, later, hfraction, exponent, last, hexponent, rfl,
    rfl⟩ := hread
  obtain ⟨hunsigned, htakes⟩ := readUnsigned_takes hwhole hfraction hexponent
  obtain ⟨_, ⟨digit, digits, hdigits, hdigit⟩, _⟩ := readWhole?_takes hwhole
  have hminus : digit ≠ '-' := by
    rintro rfl
    cases hdigit
  subst hunsigned hdigits
  have hsigned : (sign = ['-'] ∨ sign = []) ∧
      text = sign ++ (digit :: digits ++ (fraction ++ (exponent ++ last))) := by
    split at hsign
    · cases hsign
      exact ⟨.inl rfl, rfl⟩
    · cases hsign
      exact ⟨.inr rfl, rfl⟩
  obtain ⟨hsigns, rfl⟩ := hsigned
  refine ⟨by simp, ?_, fun more hmore => ?_⟩
  · rcases hsigns with rfl | rfl
    · exact ⟨'-', _, rfl, .inl rfl⟩
    · exact ⟨digit, _, rfl, .inr hdigit⟩
  · obtain ⟨takesWhole, takesFraction, takesExponent⟩ := htakes more hmore
    have hassoc : sign ++ digit :: digits ++ fraction ++ exponent ++ more =
        sign ++ (digit :: digits ++ (fraction ++ (exponent ++ more))) := by
      simp
    rw [List.cons_append] at takesWhole
    rw [hassoc, readNumber?.eq_def]
    rcases hsigns with rfl | rfl
    · simp [takesWhole, takesFraction, takesExponent]
    · simp [hminus, takesWhole, takesFraction, takesExponent]

/-! ## White space -/

theorem skipBlank_eq {text tail : List Char} (h : skipBlank text = tail) :
    ∃ blanks, text = blanks ++ tail ∧ (∀ c ∈ blanks, isBlank c = true) ∧
      ∀ c ∈ tail.head?, isBlank c = false := by
  refine ⟨text.takeWhile isBlank, ?_, fun _ hc => List.mem_takeWhile_imp hc, ?_⟩
  · rw [← h, skipBlank, List.takeWhile_append_dropWhile]
  · intro c hc
    rw [← h, skipBlank] at hc
    obtain ⟨rest, hrest⟩ := List.head?_eq_some_iff.mp hc
    have hnonempty : text.dropWhile isBlank ≠ [] := by rw [hrest]; exact List.cons_ne_nil _ _
    have hfirst := List.head_dropWhile_not isBlank hnonempty
    simpa only [hrest, List.head_cons] using hfirst

theorem skipBlank_append {blanks tail : List Char} (hblanks : ∀ c ∈ blanks, isBlank c = true)
    (htail : ∀ c ∈ tail.head?, isBlank c = false) : skipBlank (blanks ++ tail) = tail := by
  rw [skipBlank, List.dropWhile_append_of_pos hblanks]
  cases tail with
  | nil => rfl
  | cons c tail =>
      have hc := htail c rfl
      rw [List.dropWhile_cons_of_neg (by simp [hc])]

/-- No number goes on with white space. -/
theorem stops_blanks {blanks tail : List Char} (hblanks : ∀ c ∈ blanks, isBlank c = true)
    (htail : Stops tail) : Stops (blanks ++ tail) := by
  cases blanks with
  | nil => exact htail
  | cons c blanks =>
      have hc := hblanks c List.mem_cons_self
      simp only [isBlank, Bool.or_eq_true, decide_eq_true_eq] at hc
      rw [List.cons_append, stops_cons]
      rcases hc with ((rfl | rfl) | rfl) | rfl <;> decide

/-! ## Values -/

/-- A reader takes what stands in front of the rest of a text as a value.  It does so in front of
every text that no number goes on with, and it needs to go no deeper than twice the number of
characters that it takes, and somewhat more. -/
def Takes {α : Type} (reader : (fuel : Nat) → List Char → Option (α × List Char)) (more : Nat)
    (text : List Char) (value : α) (rest : List Char) : Prop :=
  ∃ part, part ≠ [] ∧ text = part ++ rest ∧
    ∀ fuel behind, 2 * part.length + more ≤ fuel → Stops behind →
      reader fuel (part ++ behind) = some (value, behind)

/-- Something is taken. -/
theorem Takes.length_lt {α : Type} {reader : Nat → List Char → Option (α × List Char)} {more : Nat}
    {text rest : List Char} {value : α} (h : Takes reader more text value rest) :
    rest.length < text.length := by
  obtain ⟨part, hpart, rfl, -⟩ := h
  have hlength : 0 < part.length := List.length_pos_iff.mpr hpart
  rw [List.length_append]
  omega

theorem takes_of_succ {α : Type} {reader : Nat → List Char → Option (α × List Char)} {more : Nat}
    {part rest : List Char} {value : α} (hpart : part ≠ [])
    (htaken : ∀ fuel behind, 2 * part.length + more ≤ fuel + 1 → Stops behind →
      reader (fuel + 1) (part ++ behind) = some (value, behind)) :
    Takes reader more (part ++ rest) value rest := by
  refine ⟨part, hpart, rfl, fun fuel behind hfuel hbehind => ?_⟩
  have hlength : 0 < part.length := List.length_pos_iff.mpr hpart
  obtain ⟨less, rfl⟩ : ∃ less, fuel = less + 1 := ⟨fuel - 1, by omega⟩
  exact htaken less behind hfuel hbehind

theorem readValue?_number (fuel : Nat) {c : Char} (hc : c = '-' ∨ c.isDigit = true)
    (rest : List Char) :
    readValue? (fuel + 1) (c :: rest) =
      (readNumber? (c :: rest)).map fun (spelling, rest) => (.number spelling, rest) := by
  rw [readValue?.eq_def]
  dsimp only
  split <;> rename_i heq <;> first
    | rfl
    | (obtain ⟨rfl, _⟩ := List.cons.inj heq
       rcases hc with hc | hc <;> cases hc)

theorem takes_number {text rest : List Char} {spelling : List Char}
    (hread : readNumber? text = some (spelling, rest)) :
    Takes readValue? 0 text (.number spelling) rest := by
  obtain ⟨rfl, ⟨first, later, rfl, hfirst⟩, htakes⟩ := readNumber?_takes hread
  refine takes_of_succ (List.cons_ne_nil _ _) fun fuel behind _ hbehind => ?_
  have htaken := htakes behind hbehind
  rw [List.cons_append] at htaken ⊢
  rw [readValue?_number fuel hfirst, htaken, Option.map_some]

theorem takes_string {text rest : List Char} {value : Option String}
    (hread : readString? text = some (value, rest)) :
    Takes readValue? 0 ('"' :: text) (.string value) rest := by
  obtain ⟨part, rfl, htakes⟩ := readString?_takes hread
  refine takes_of_succ (List.cons_ne_nil '"' part) fun fuel behind _ _ => ?_
  rw [List.cons_append, readValue?, htakes behind, Option.map_some]

/-! ## Arrays and objects

An array and an object differ in their brackets, in how they put together what stands between
them, and in the reader of one or more items or members. -/

/-- What stands behind an opening bracket: nothing but white space up to the closing one, or what
a reader finds. -/
def readBetween {α : Type} (close : Char) (wrap : List α → Json)
    (reader : (fuel : Nat) → List Char → Option (List α × List Char)) (fuel : Nat)
    (text : List Char) : Option (Json × List Char) :=
  if (skipBlank text).head? = some close then some (wrap [], (skipBlank text).tail)
  else (reader fuel (skipBlank text)).map fun (found, rest) => (wrap found, rest)

/-- What stands behind an item: the closing bracket, or a comma and more items. -/
def readMore {α : Type} (close : Char) (item : α)
    (reader : List Char → Option (List α × List Char)) (text : List Char) :
    Option (List α × List Char) :=
  if (skipBlank text).head? = some close then some ([item], (skipBlank text).tail)
  else if (skipBlank text).head? = some ',' then
    (reader (skipBlank (skipBlank text).tail)).map fun (items, rest) => (item :: items, rest)
  else none

theorem readValue?_bracket (fuel : Nat) (text : List Char) :
    readValue? (fuel + 1) ('[' :: text) = readBetween ']' .array readItems? fuel text := by
  rw [readValue?, readBetween]
  cases skipBlank text with
  | nil => rfl
  | cons c rest =>
      by_cases hclose : c = ']'
      · subst hclose
        rfl
      · simp [hclose]

theorem readValue?_brace (fuel : Nat) (text : List Char) :
    readValue? (fuel + 1) ('\x7b' :: text) = readBetween '\x7d' .object readMembers? fuel text := by
  rw [readValue?, readBetween]
  cases skipBlank text with
  | nil => rfl
  | cons c rest =>
      by_cases hclose : c = '\x7d'
      · subst hclose
        rfl
      · simp [hclose]

theorem readItems?_succ (fuel : Nat) (text : List Char) :
    readItems? (fuel + 1) text =
      (readValue? fuel text).bind fun (item, rest) => readMore ']' item (readItems? fuel) rest := by
  rw [readItems?]
  cases readValue? fuel text with
  | none => rfl
  | some read =>
      obtain ⟨item, rest⟩ := read
      simp only [Option.bind_some, readMore]
      cases skipBlank rest with
      | nil => rfl
      | cons c rest =>
          by_cases hclose : c = ']'
          · subst hclose
            rfl
          · by_cases hcomma : c = ','
            · subst hcomma
              rfl
            · simp [hclose, hcomma]

/-- One member of an object: its key, a colon and its value. -/
def readMember? (fuel : Nat) (text : List Char) :
    Option ((Option String × Json) × List Char) :=
  if text.head? = some '"' then
    (readString? text.tail).bind fun (key, rest) =>
      if (skipBlank rest).head? = some ':' then
        (readValue? fuel (skipBlank (skipBlank rest).tail)).map fun (value, rest) =>
          ((key, value), rest)
      else none
  else none

theorem readMembers?_succ (fuel : Nat) (text : List Char) :
    readMembers? (fuel + 1) text = (readMember? fuel text).bind fun (found, rest) =>
      readMore '\x7d' found (readMembers? fuel) rest := by
  rw [readMembers?.eq_def, readMember?]
  dsimp only
  cases text with
  | nil => rfl
  | cons quote text =>
      by_cases hquote : quote = '"'
      · subst hquote
        simp only [List.head?_cons, List.tail_cons, if_true]
        cases readString? text with
        | none => rfl
        | some read =>
            obtain ⟨key, rest⟩ := read
            simp only [Option.bind_some]
            cases skipBlank rest with
            | nil => rfl
            | cons colon rest =>
                by_cases hcolon : colon = ':'
                · subst hcolon
                  simp only [List.head?_cons, List.tail_cons, if_true]
                  cases readValue? fuel (skipBlank rest) with
                  | none => rfl
                  | some read =>
                      obtain ⟨value, rest⟩ := read
                      simp only [Option.map_some, Option.bind_some, readMore]
                      cases skipBlank rest with
                      | nil => rfl
                      | cons c rest =>
                          by_cases hclose : c = '\x7d'
                          · subst hclose
                            rfl
                          · by_cases hcomma : c = ','
                            · subst hcomma
                              rfl
                            · simp [hclose, hcomma]
                · simp [hcolon]
      · simp [hquote]

/-- A part behind white space is read as before in front of every other text. -/
theorem skipBlank_part {text part rest : List Char} (hpart : part ≠ [])
    (hskip : skipBlank text = part ++ rest) :
    ∃ blanks, (∀ c ∈ blanks, isBlank c = true) ∧ text = blanks ++ part ++ rest ∧
      ∀ behind, skipBlank (blanks ++ part ++ behind) = part ++ behind := by
  obtain ⟨blanks, rfl, hblanks, hhead⟩ := skipBlank_eq hskip
  refine ⟨blanks, hblanks, (List.append_assoc _ _ _).symm, fun behind => ?_⟩
  obtain ⟨first, later, rfl⟩ := List.exists_cons_of_ne_nil hpart
  rw [List.append_assoc]
  exact skipBlank_append hblanks hhead

theorem head?_part {part : List Char} (hpart : part ≠ []) (behind rest : List Char) :
    (part ++ behind).head? = (part ++ rest).head? := by
  obtain ⟨first, later, rfl⟩ := List.exists_cons_of_ne_nil hpart
  rfl

section Brackets

variable {α : Type} {close bracket : Char} {wrap : List α → Json} {fuel : Nat}
  {one : Nat → List Char → Option (α × List Char)}
  {reader : Nat → List Char → Option (List α × List Char)}

theorem takes_between
    (hopen : ∀ fuel text,
      readValue? (fuel + 1) (bracket :: text) = readBetween close wrap reader fuel text)
    (hreader : ∀ {text found rest}, reader fuel text = some (found, rest) →
      Takes reader 1 text found rest)
    {text rest : List Char} {value : Json}
    (hread : readBetween close wrap reader fuel text = some (value, rest)) :
    Takes readValue? 0 (bracket :: text) value rest := by
  rw [readBetween] at hread
  split at hread
  · rename_i hclosed
    obtain ⟨later, hskip⟩ := List.head?_eq_some_iff.mp hclosed
    rw [hskip] at hread
    cases hread
    obtain ⟨blanks, _, rfl, hskips⟩ := skipBlank_part (List.cons_ne_nil close []) hskip
    refine takes_of_succ (List.cons_ne_nil bracket (blanks ++ [close])) fun fuel behind _ _ => ?_
    rw [List.cons_append, hopen, readBetween, hskips behind]
    exact if_pos rfl
  · rename_i hclosed
    obtain ⟨⟨found, last⟩, hfound, heq⟩ := Option.map_eq_some_iff.mp hread
    cases heq
    obtain ⟨part, hpart, hskip, htaken⟩ := hreader hfound
    obtain ⟨blanks, _, rfl, hskips⟩ := skipBlank_part hpart hskip
    refine takes_of_succ (List.cons_ne_nil bracket (blanks ++ part))
      fun fuel behind hfuel hbehind => ?_
    have hopened : (part ++ behind).head? ≠ some close := by
      rw [head?_part hpart behind rest, ← hskip]
      exact hclosed
    have hdeep : 2 * part.length + 1 ≤ fuel := by
      rw [List.length_cons, List.length_append] at hfuel
      omega
    rw [List.cons_append, hopen, readBetween, hskips behind, if_neg hopened,
      htaken fuel behind hdeep hbehind, Option.map_some]

/-- What stands behind an item is taken in front of every text, and no number goes on with it. -/
theorem readMore_takes (hclose : Stops [close])
    (hreader : ∀ {text found rest}, reader fuel text = some (found, rest) →
      Takes reader 1 text found rest)
    {item : α} {text rest : List Char} {found : List α}
    (hread : readMore close item (reader fuel) text = some (found, rest)) :
    ∃ part, text = part ++ rest ∧ (∀ behind, Stops (part ++ behind)) ∧
      ∀ fuel behind, 2 * part.length ≤ fuel → Stops behind →
        readMore close item (reader fuel) (part ++ behind) = some (found, behind) := by
  rw [readMore] at hread
  split at hread
  · rename_i hclosed
    obtain ⟨later, hskip⟩ := List.head?_eq_some_iff.mp hclosed
    rw [hskip] at hread
    cases hread
    obtain ⟨blanks, hblanks, rfl, hskips⟩ := skipBlank_part (List.cons_ne_nil close []) hskip
    refine ⟨blanks ++ [close], rfl, fun behind => ?_, fun fuel behind _ _ => ?_⟩
    · rw [List.append_assoc]
      exact stops_blanks hblanks (stops_cons.mpr (stops_cons.mp hclose))
    · rw [readMore, hskips behind]
      exact if_pos rfl
  · rename_i hclosed
    split at hread
    · rename_i hcomma
      obtain ⟨⟨items, last⟩, hitems, heq⟩ := Option.map_eq_some_iff.mp hread
      cases heq
      obtain ⟨later, hskip⟩ := List.head?_eq_some_iff.mp hcomma
      rw [hskip, List.tail_cons] at hitems
      obtain ⟨part, hpart, hlater, htaken⟩ := hreader hitems
      obtain ⟨after, _, rfl, hafter⟩ := skipBlank_part hpart hlater
      obtain ⟨blanks, hblanks, rfl, hskips⟩ :=
        skipBlank_part (List.cons_ne_nil ',' (after ++ part)) hskip
      refine ⟨blanks ++ ',' :: (after ++ part), rfl, fun behind => ?_,
        fun fuel behind hfuel hbehind => ?_⟩
      · rw [List.append_assoc]
        exact stops_blanks hblanks (stops_cons.mpr (by decide))
      · have hdeep : 2 * part.length + 1 ≤ fuel := by
          rw [List.length_append, List.length_cons, List.length_append] at hfuel
          omega
        have hother : some ',' ≠ some close := by
          rw [← hcomma]
          exact hclosed
        rw [readMore, hskips behind, List.cons_append, List.head?_cons, List.tail_cons,
          if_neg hother, if_pos rfl, hafter behind, htaken fuel behind hdeep hbehind,
          Option.map_some]
    · cases hread

/-- A reader of one or more items takes parts if the reader of one item does, and if it does so
itself less deep. -/
theorem takes_items (hclose : Stops [close])
    (hsucc : ∀ fuel text, reader (fuel + 1) text =
      (one fuel text).bind fun (item, rest) => readMore close item (reader fuel) rest)
    (hone : ∀ {text item rest}, one fuel text = some (item, rest) → Takes one 0 text item rest)
    (hreader : ∀ {text found rest}, reader fuel text = some (found, rest) →
      Takes reader 1 text found rest)
    {text rest : List Char} {found : List α}
    (hread : reader (fuel + 1) text = some (found, rest)) : Takes reader 1 text found rest := by
  rw [hsucc] at hread
  obtain ⟨⟨item, later⟩, hitem, hmore⟩ := Option.bind_eq_some_iff.mp hread
  obtain ⟨more, rfl, hstops, htakesMore⟩ := readMore_takes hclose hreader hmore
  obtain ⟨part, hpart, rfl, htakesItem⟩ := hone hitem
  rw [← List.append_assoc]
  refine takes_of_succ (List.append_ne_nil_of_left_ne_nil hpart more)
    fun fuel behind hfuel hbehind => ?_
  rw [List.length_append] at hfuel
  rw [List.append_assoc, hsucc, htakesItem fuel _ (by omega) (hstops behind), Option.bind_some]
  exact htakesMore fuel behind (by omega) hbehind

end Brackets

theorem readMember?_takes {fuel : Nat}
    (hvalue : ∀ {text value rest}, readValue? fuel text = some (value, rest) →
      Takes readValue? 0 text value rest)
    {text rest : List Char} {found : Option String × Json}
    (hread : readMember? fuel text = some (found, rest)) : Takes readMember? 0 text found rest := by
  rw [readMember?] at hread
  split at hread
  · rename_i hquote
    obtain ⟨behind, rfl⟩ := List.head?_eq_some_iff.mp hquote
    obtain ⟨⟨key, later⟩, hkey, hmember⟩ := Option.bind_eq_some_iff.mp hread
    dsimp only at hmember
    split at hmember
    · rename_i hcolon
      obtain ⟨⟨value, last⟩, hfound, heq⟩ := Option.map_eq_some_iff.mp hmember
      cases heq
      obtain ⟨after, hskip⟩ := List.head?_eq_some_iff.mp hcolon
      rw [hskip, List.tail_cons] at hfound
      obtain ⟨part, hpart, hlater, htaken⟩ := hvalue hfound
      obtain ⟨blanks, _, rfl, hblanks⟩ := skipBlank_part hpart hlater
      obtain ⟨before, _, rfl, hbefore⟩ :=
        skipBlank_part (List.cons_ne_nil ':' (blanks ++ part)) hskip
      obtain ⟨name, hname, htakesName⟩ := readString?_takes hkey
      rw [List.tail_cons] at hname
      subst hname
      refine ⟨'"' :: (name ++ (before ++ ':' :: (blanks ++ part))), List.cons_ne_nil _ _,
        by simp only [List.cons_append, List.append_assoc], fun fuel behind hfuel hbehind => ?_⟩
      have hdeep : 2 * part.length ≤ fuel := by
        simp only [List.length_cons, List.length_append] at hfuel
        omega
      rw [List.cons_append, readMember?, List.head?_cons, if_pos rfl, List.tail_cons,
        List.append_assoc, htakesName, Option.bind_some]
      dsimp only
      rw [hbefore behind, List.cons_append, List.head?_cons, if_pos rfl, List.tail_cons,
        hblanks behind, htaken fuel behind hdeep hbehind, Option.map_some]
    · cases hmember
  · cases hread

/-! ## Every value -/

/-- The three readers take parts, at some depth. -/
structure AllTake (fuel : Nat) : Prop where
  value : ∀ {text value rest}, readValue? fuel text = some (value, rest) →
    Takes readValue? 0 text value rest
  items : ∀ {text items rest}, readItems? fuel text = some (items, rest) →
    Takes readItems? 1 text items rest
  members : ∀ {text members rest}, readMembers? fuel text = some (members, rest) →
    Takes readMembers? 1 text members rest

theorem AllTake.readValue? {fuel : Nat} (h : AllTake fuel) {text rest : List Char} {value : Json}
    (hread : readValue? (fuel + 1) text = some (value, rest)) :
    Takes Json.readValue? 0 text value rest := by
  have hread' := hread
  rw [Json.readValue?.eq_def] at hread
  dsimp only at hread
  split at hread
  · cases hread
    exact takes_of_succ (List.cons_ne_nil 'n' ['u', 'l', 'l']) fun _ _ _ _ => rfl
  · cases hread
    exact takes_of_succ (List.cons_ne_nil 't' ['r', 'u', 'e']) fun _ _ _ _ => rfl
  · cases hread
    exact takes_of_succ (List.cons_ne_nil 'f' ['a', 'l', 's', 'e']) fun _ _ _ _ => rfl
  · obtain ⟨⟨text, last⟩, htext, heq⟩ := Option.map_eq_some_iff.mp hread
    cases heq
    exact takes_string htext
  · rw [readValue?_bracket] at hread'
    exact takes_between readValue?_bracket h.items hread'
  · rw [readValue?_brace] at hread'
    exact takes_between readValue?_brace h.members hread'
  · obtain ⟨⟨spelling, last⟩, hnumber, heq⟩ := Option.map_eq_some_iff.mp hread
    cases heq
    exact takes_number hnumber

theorem allTake (fuel : Nat) : AllTake fuel := by
  induction fuel with
  | zero =>
      constructor <;> intro _ _ _ hread <;> cases hread
  | succ fuel ih =>
      exact ⟨ih.readValue?,
        takes_items (stops_cons.mpr (by decide)) readItems?_succ ih.value ih.items,
        takes_items (stops_cons.mpr (by decide)) readMembers?_succ
          (readMember?_takes ih.value) ih.members⟩

/-- A value that was read off the front of a text is a part of the text, and it is read in the same
way in front of every text that no number goes on with. -/
theorem readPart?_takes {text rest : List Char} {value : Json}
    (hread : readPart? text = some (value, rest)) :
    ∃ part, text = part ++ rest ∧
      ∀ behind, Stops behind → readPart? (part ++ behind) = some (value, behind) := by
  obtain ⟨part, hpart, hskip, htaken⟩ := (allTake _).value hread
  obtain ⟨blanks, _, rfl, hskips⟩ := skipBlank_part hpart hskip
  refine ⟨blanks ++ part, rfl, fun behind hbehind => ?_⟩
  rw [readPart?, hskips behind]
  refine htaken _ behind ?_ hbehind
  simp only [List.length_append]
  omega

end WebBundle.Json

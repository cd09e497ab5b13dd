import WebBundle.Proofs.Json.Parts
import WebBundle.Proofs.Syntax.Tokens

/-!
# JSON as tokens of a script

Strings, numbers and the three words of JSON are tokens of scripts that extend equally far.  The two
readers differ in where they look: that of scripts takes both escaped halves of a surrogate pair at
once, and it refuses a number that a name goes on with.  So the strings agree whatever follows, and
the rest agrees in front of what may stand behind a value.
-/

namespace WebBundle.Syntax

open Json (isBlank skipBlank readElements? readUnit?)

/-! ## Strings -/

/-- What an escape covers is skipped. -/
theorem readStringFrom?_skip (quote : Char) (part rest : List Char) :
    readStringFrom? quote part.length (part ++ rest) =
      (readStringFrom? quote 0 rest).map fun read => (read.1, read.2 + part.length) := by
  induction part with
  | nil =>
      rw [List.length_nil, List.nil_append]
      cases readStringFrom? quote 0 rest <;> rfl
  | cons c part ih =>
      rw [List.length_cons, List.cons_append, readStringFrom?, ih, Option.map_map]
      rfl

/-- From a text up to some rest a string is read, behind its opening quote. -/
def ReadsString (text rest : List Char) : Prop :=
  ∃ elements part, text = part ++ rest ∧
    readStringFrom? '"' 0 text = some (elements, part.length)

theorem ReadsString.escape {here : List Element} {part text rest : List Char}
    (hescape : readEscape? false (part ++ text) = some (here, part.length))
    (h : ReadsString text rest) : ReadsString ('\\' :: (part ++ text)) rest := by
  obtain ⟨elements, later, rfl, hread⟩ := h
  refine ⟨here ++ elements, '\\' :: (part ++ later), by simp, ?_⟩
  rw [Quoted.readStringFrom?_slash hescape, readStringFrom?_skip, hread, Option.map_some,
    Option.map_some, List.length_cons, List.length_append, Nat.add_comm later.length]

theorem ReadsString.char {c : Char} {text rest : List Char} (hquote : c ≠ '"') (hslash : c ≠ '\\')
    (hline : c ≠ '\n') (hreturn : c ≠ '\r') (h : ReadsString text rest) :
    ReadsString (c :: text) rest := by
  obtain ⟨elements, later, rfl, hread⟩ := h
  refine ⟨.char c :: elements, c :: later, rfl, ?_⟩
  rw [readStringFrom?, if_neg hquote, if_neg hslash, if_neg (by simp [hline, hreturn]), hread,
    Option.map_some, List.length_cons]

/-- An escape of one letter that JSON knows. -/
theorem readEscape?_letter {letter c : Char} (hletter : Json.simpleEscape? letter = some c)
    (text : List Char) : ∃ here, readEscape? false (letter :: text) = some (here, 1) := by
  have hletters : letter ∈ ['"', '\\', '/', 'b', 'f', 'n', 'r', 't'] := by
    by_contra hother
    simp only [List.mem_cons, List.not_mem_nil, or_false, not_or] at hother
    simp [Json.simpleEscape?, hother] at hletter
  simp only [List.mem_cons, List.not_mem_nil, or_false] at hletters
  rcases hletters with rfl | rfl | rfl | rfl | rfl | rfl | rfl | rfl
  case inr.inr.inr.inr.inr.inr.inl =>
    -- this letter begins an escape of its own only as the character it stands for
    exact ⟨_, by rw [readEscape?.eq_def]; rfl⟩
  all_goals exact ⟨_, rfl⟩

/-- Four digits that JSON reads as one unit. -/
theorem isHexDigit_of_readUnit? {a b c d : Char} {unit : Nat × List Char}
    (hunit : readUnit? [a, b, c, d] = some unit) : [a, b, c, d].all isHexDigit = true := by
  simp only [readUnit?, Option.bind_eq_bind, Option.bind_eq_some_iff] at hunit
  obtain ⟨_, ha, _, hb, _, hc, _, hd, -⟩ := hunit
  simp [isHexDigit, ha, hb, hc, hd]

/-- An escape of a unit is read alone or together with the other half of its pair. -/
theorem readEscape?_unit {a b c d : Char} (hdigits : [a, b, c, d].all isHexDigit = true)
    (text : List Char) : ∃ here,
    readEscape? false (['u', a, b, c, d] ++ text) = some (here, 5) ∨
      ∃ e f g h behind, text = '\\' :: 'u' :: e :: f :: g :: h :: behind ∧
        readEscape? false (['u', a, b, c, d, '\\', 'u', e, f, g, h] ++ behind) =
          some (here, 11) := by
  have hopen : a ≠ '\x7b' := by
    rintro rfl
    simp only [List.all_cons] at hdigits
    exact absurd (Bool.and_eq_true_iff.mp hdigits).1 (by decide)
  have hescape (tail : List Char) : readEscape? false (['u', a, b, c, d] ++ tail) =
      (readCodePoint? (a :: b :: c :: d :: tail)).map fun read => ([read.1], read.2 + 1) := rfl
  -- behind the upper half of a pair the reader looks for the lower one
  have hunit (tail : List Char) : ∃ element, readCodePoint? (a :: b :: c :: d :: tail) =
      some (element, 4) ∨ ∃ e f g h behind, tail = '\\' :: 'u' :: e :: f :: g :: h :: behind ∧
        readCodePoint? (a :: b :: c :: d :: tail) = some (element, 10) := by
    rw [readCodePoint?.eq_def]
    split
    · rename_i heq
      exact absurd (List.cons.inj heq).1 hopen
    · rename_i heq
      cases heq
      rw [if_pos hdigits]
      dsimp only
      split
      · split
        · exact ⟨_, .inr ⟨_, _, _, _, _, rfl, rfl⟩⟩
        · exact ⟨_, .inl rfl⟩
      · exact ⟨_, .inl rfl⟩
    · rename_i hshort
      exact absurd rfl (hshort a b c d tail)
  obtain ⟨element, hread | ⟨e, f, g, h, behind, rfl, hread⟩⟩ := hunit text
  · exact ⟨[element], .inl (by rw [hescape, hread, Option.map_some])⟩
  · exact ⟨[element], .inr ⟨e, f, g, h, behind, rfl, (hescape _).trans (congrArg _ hread)⟩⟩

/-- A string of JSON is a string of a script, and so is what stands behind an escape of a unit in
front of it: a script may take that one together with the escape before. -/
theorem readsString_and_behind {text rest : List Char} {elements : List Json.Element}
    (hread : readElements? text = some (elements, rest)) :
    ReadsString text rest ∧
      ∀ e f g h behind, text = '\\' :: 'u' :: e :: f :: g :: h :: behind →
        ReadsString behind rest := by
  fun_induction readElements? text generalizing elements with
  | case1 => cases hread
  | case2 text =>
      cases hread
      refine ⟨⟨[], ['"'], rfl, rfl⟩, fun _ _ _ _ _ heq => ?_⟩
      exact absurd (List.cons.inj heq).1 (by decide)
  | case3 a b c d text value unread later last hlater hunit ih =>
      cases hread
      obtain ⟨hstring, hbehind⟩ := ih hlater
      refine ⟨?_, fun _ _ _ _ _ heq => ?_⟩
      · obtain ⟨here, hescape | ⟨e, f, g, h, behind, rfl, hescape⟩⟩ :=
          readEscape?_unit (isHexDigit_of_readUnit? hunit) text
        · exact ReadsString.escape hescape hstring
        · exact ReadsString.escape hescape (hbehind e f g h behind rfl)
      · cases heq
        exact hstring
  | case4 => cases hread
  | case5 letter text hplain c later last hlater hescape ih =>
      cases hread
      refine ⟨?_, fun _ _ _ _ _ heq => ?_⟩
      · obtain ⟨here, hread⟩ := readEscape?_letter hescape text
        exact @ReadsString.escape here [letter] text _ hread (ih hlater).1
      · cases heq
        cases hescape
  | case6 => cases hread
  | case7 => cases hread
  | case8 c text hquote hunit hescape hplain later last hlater ih =>
      cases hread
      have hslash : c ≠ '\\' := fun heq => hplain (by simp [heq])
      have hcontrol : ¬ c.toNat < 32 := fun hsmall => hplain (by simp [hsmall])
      refine ⟨(ih hlater).1.char hquote hslash ?_ ?_, fun _ _ _ _ _ heq => ?_⟩
      · rintro rfl
        exact hcontrol (by decide)
      · rintro rfl
        exact hcontrol (by decide)
      · exact absurd (List.cons.inj heq).1 hslash
  | case9 => cases hread

/-- A string of JSON is one token. -/
theorem lexes_readString? {text rest : List Char} {value : Option String}
    (hread : Json.readString? text = some (value, rest)) :
    ∃ found lone, Lexes ('"' :: text) (.string found lone) rest := by
  obtain ⟨⟨elements, last⟩, helements, heq⟩ := Option.map_eq_some_iff.mp hread
  cases heq
  obtain ⟨found, part, rfl, hfound⟩ := (readsString_and_behind helements).1
  refine ⟨(textOfElements found).1, (textOfElements found).2,
    lexes_of_readKind (by decide) (by decide) (by decide) ?_⟩
  simp [readKind, hfound]

/-! ## What stands behind a value -/

/-- A text that begins with one of some characters. -/
def BeginsWith (heads text : List Char) : Prop := ∃ c ∈ heads, ∃ rest, text = c :: rest

theorem BeginsWith.mono {heads more text : List Char} (h : BeginsWith heads text)
    (hmore : heads ⊆ more) : BeginsWith more text := by
  obtain ⟨c, hc, rest, rfl⟩ := h
  exact ⟨c, hmore hc, rest, rfl⟩

/-- Characters that may stand directly behind a value. -/
def closers : List Char := [' ', '\n', '\t', '\r', ';', ',', ']', '\x7d']

/-- Characters that may stand directly behind a part of a number. -/
def partClosers : List Char := ['.', 'e', 'E'] ++ closers

/-- What is checked for each of some characters holds for them. -/
theorem forall_of_all {p : Char → Prop} [DecidablePred p] {heads : List Char}
    (h : heads.all (fun c => p c) = true) : ∀ c ∈ heads, p c :=
  fun c hc => of_decide_eq_true (List.all_eq_true.mp h c hc)

/-! ## Numbers -/

theorem separated_digits {digits : List Char} (hdigits : ∀ c ∈ digits, c.isDigit = true) :
    countDigits?.separated digits = true := by
  induction digits with
  | nil => rfl
  | cons c digits ih =>
      have hc : c ≠ '_' := by
        rintro rfl
        exact absurd (hdigits '_' List.mem_cons_self) (by decide)
      rw [countDigits?.separated]
      · exact ih fun other hother => hdigits other (List.mem_cons_of_mem _ hother)
      · exact fun _ heq _ => hc heq
      · exact fun heq _ => hc heq

/-- Digits of JSON are digits of a script. -/
theorem countDigits?_of_readDigits? {text rest digits : List Char}
    (hread : Json.readDigits? text = some (digits, rest)) (hrest : BeginsWith partClosers rest) :
    countDigits? Char.isDigit text = some digits.length := by
  obtain ⟨rfl, hempty, hdigits⟩ := Json.readDigits?_eq_some hread
  have hrun : (digits ++ rest).takeWhile (fun c => c.isDigit || c = '_') = digits := by
    have hnone : ∀ c ∈ partClosers, (c.isDigit || c = '_') = false :=
      forall_of_all (by decide)
    obtain ⟨c, hc, more, rfl⟩ := hrest
    rw [List.takeWhile_append_of_pos fun c hc => by simp [hdigits c hc],
      List.takeWhile_cons_of_neg (by simp [hnone c hc]), List.append_nil]
  rw [countDigits?, hrun]
  cases digits with
  | nil => exact absurd rfl hempty
  | cons digit digits =>
      have hdigit : digit ≠ '_' := by
        rintro rfl
        exact absurd (hdigits '_' List.mem_cons_self) (by decide)
      exact if_pos (by simp [hdigit, separated_digits hdigits])

theorem countExponent?_of_readExponent? {text rest exponent : List Char}
    (hread : Json.readExponent? text = some (exponent, rest))
    (hrest : BeginsWith partClosers rest) :
    countExponent? text = some exponent.length := by
  cases text with
  | nil =>
      cases hread
      rfl
  | cons mark behind =>
      by_cases hmark : (mark = 'e' || mark = 'E') = true
      · rw [Json.readExponent?.eq_def] at hread
        rw [countExponent?.eq_def]
        simp only [if_pos hmark] at hread ⊢
        cases behind with
        | nil => cases hread
        | cons sign after =>
            by_cases hsign : (sign = '+' || sign = '-') = true
            · simp only [if_pos hsign] at hread ⊢
              obtain ⟨⟨digits, last⟩, hdigits, heq⟩ := Option.map_eq_some_iff.mp hread
              cases heq
              rw [countDigits?_of_readDigits? hdigits hrest]
              rfl
            · simp only [if_neg hsign] at hread ⊢
              obtain ⟨⟨digits, last⟩, hdigits, heq⟩ := Option.map_eq_some_iff.mp hread
              cases heq
              rw [countDigits?_of_readDigits? hdigits hrest]
              rfl
      · rw [Json.readExponent?.eq_def] at hread
        rw [countExponent?.eq_def]
        simp only [if_neg hmark] at hread ⊢
        cases hread
        rfl

/-- What stands behind the fraction, if it is no exponent, stands behind the number. -/
theorem beginsWith_exponent {exponent rest : List Char}
    (hmark : ∀ c ∈ exponent.head?, c = 'e' ∨ c = 'E') (hrest : BeginsWith partClosers rest) :
    BeginsWith partClosers (exponent ++ rest) := by
  cases exponent with
  | nil => exact hrest
  | cons mark digits =>
      refine ⟨mark, ?_, _, rfl⟩
      rcases hmark mark rfl with rfl | rfl <;> decide

theorem countFraction?_of_readFraction? {text behind rest fraction exponent : List Char}
    (hfraction : Json.readFraction? text = some (fraction, behind))
    (hexponent : Json.readExponent? behind = some (exponent, rest))
    (hrest : BeginsWith partClosers rest) :
    countFraction? text = some (fraction.length + exponent.length) := by
  have hcount := countExponent?_of_readExponent? hexponent hrest
  have hbehind : BeginsWith partClosers behind := by
    obtain ⟨rfl, hmark, -⟩ := Json.readExponent?_takes hexponent
    exact beginsWith_exponent hmark hrest
  rw [Json.readFraction?.eq_def] at hfraction
  split at hfraction
  · obtain ⟨⟨digits, last⟩, hdigits, heq⟩ := Option.map_eq_some_iff.mp hfraction
    cases heq
    have hall := countDigits?_of_readDigits? hdigits hbehind
    obtain ⟨rfl, hempty, hdigit⟩ := Json.readDigits?_eq_some hdigits
    cases digits with
    | nil => exact absurd rfl hempty
    | cons digit digits =>
        rw [List.cons_append] at hall ⊢
        have hfirst : (digit.isDigit || decide (digit = '_')) = true := by
          rw [hdigit digit List.mem_cons_self, Bool.true_or]
        rw [countFraction?.eq_def]
        simp only [if_pos hfirst, hall]
        rw [← List.cons_append, List.drop_left, hcount, Option.map_some,
          @List.length_cons _ '.', Nat.add_assoc, Nat.add_comm exponent.length]
  · rename_i hpoint
    cases hfraction
    rw [countFraction?.eq_def]
    split
    · exact absurd rfl (hpoint _)
    · rw [hcount, List.length_nil, Nat.zero_add]

/-- The whole part of a number ends where a script ends it, too. -/
theorem countNumber?_of_readWhole? {text behind whole : List Char} {more : Nat}
    (hwhole : Json.readWhole? text = some (whole, behind)) (hbehind : BeginsWith partClosers behind)
    (hmore : countFraction? behind = some more) :
    countNumber? text = some (whole.length + more, false) := by
  obtain ⟨mark, hmark, rest, rfl⟩ := hbehind
  have hclosers : ∀ c ∈ partClosers, (baseDigit? c).isNone = true ∧ c.isDigit = false ∧ c ≠ '_' ∧
      c ≠ 'n' :=
    forall_of_all (by decide)
  obtain ⟨hbase, hdigit, hline, hbig⟩ := hclosers mark hmark
  rw [Option.isNone_iff_eq_none] at hbase
  rw [Json.readWhole?.eq_def] at hwhole
  split at hwhole
  · rename_i after
    have hparts : whole = ['0'] ∧ after = mark :: rest := by
      split at hwhole
      · split at hwhole <;> cases hwhole
        exact ⟨rfl, rfl⟩
      · cases hwhole
    obtain ⟨rfl, rfl⟩ := hparts
    simp only [countNumber?, hbase, hdigit, hline, hbig, hmore]
    rfl
  · rename_i hzero
    obtain ⟨rfl, hempty, hdigits⟩ := Json.readDigits?_eq_some hwhole
    have hcount := countDigits?_of_readDigits? hwhole ⟨mark, hmark, rest, rfl⟩
    rw [countNumber?.eq_def]
    split
    · rename_i heq
      cases whole with
      | nil => exact absurd rfl hempty
      | cons digit digits => exact absurd (List.cons.inj heq).1 fun h => hzero _ (by rw [h]; rfl)
    · rename_i heq
      cases whole with
      | nil => exact absurd rfl hempty
      | cons digit digits =>
          cases heq
          exact absurd (hdigits '.' List.mem_cons_self) (by decide)
    · rw [hcount]
      dsimp only
      rw [List.drop_left]
      split
      · rename_i heq
        cases heq
        exact absurd rfl hbig
      · rw [hmore]
        rfl

/-- A digit begins neither a gap nor a text in quotes. -/
theorem not_blank_of_isDigit {c : Char} (hdigit : c.isDigit = true) :
    isLineEnd c = false ∧ isBlank c = false := by
  have hten : ∀ code < 10, isLineEnd (Char.ofNat (48 + code)) = false ∧
      isBlank (Char.ofNat (48 + code)) = false := by
    decide
  obtain ⟨hlow, hhigh⟩ : 48 ≤ c.toNat ∧ c.toNat ≤ 57 := Char.isDigit_iff_toNat.mp hdigit
  have hnone := hten (c.toNat - 48) (by omega)
  rwa [Nat.add_sub_cancel' hlow, Char.ofNat_toNat] at hnone

theorem readKind_number {c : Char} {rest : List Char} {used : Nat} (hdigit : c.isDigit = true)
    (hread : readNumber? (c :: rest) = some (used, false)) :
    readKind (c :: rest) = (.number, used) := by
  rw [readKind.eq_def]
  split <;> rename_i heq <;> cases heq
  case h_5 =>
    have hquote : ¬ (c = '"' ∨ c = '\'') := by
      rintro (rfl | rfl) <;> cases hdigit
    simp [hquote, hdigit, hread]
  all_goals cases hdigit

/-- In front of a digit a minus is the punctuator. -/
theorem lexes_minus {digit : Char} (hdigit : digit.isDigit = true) (rest : List Char) :
    Lexes ('-' :: digit :: rest) (.mark .minus) (digit :: rest) := by
  have hminus : ('-' == digit) = false := beq_eq_false_iff_ne.mpr fun h => by
    rw [← h] at hdigit
    cases hdigit
  have hassign : ('=' == digit) = false := beq_eq_false_iff_ne.mpr fun h => by
    rw [← h] at hdigit
    cases hdigit
  refine @lexes_of_readKind '-' [] _ _ (by decide) (by decide) (by decide) ?_
  simp [readKind, readMark?, Mark.spellings, List.find?, List.isPrefixOf, hminus, hassign]

/-- The parts of a number behind its sign are one token. -/
theorem lexes_unsigned {text behind later rest whole fraction exponent : List Char}
    (hwhole : Json.readWhole? text = some (whole, behind))
    (hfraction : Json.readFraction? behind = some (fraction, later))
    (hexponent : Json.readExponent? later = some (exponent, rest))
    (hrest : BeginsWith closers rest) : Lexes text .number rest := by
  have hend : BeginsWith partClosers rest := hrest.mono (List.subset_append_right _ _)
  have hmore := countFraction?_of_readFraction? hfraction hexponent hend
  have hbehind : BeginsWith partClosers behind := by
    obtain ⟨rfl, hpoint, -⟩ := Json.readFraction?_takes hfraction
    obtain ⟨rfl, hmark, -⟩ := Json.readExponent?_takes hexponent
    cases fraction with
    | nil => exact @beginsWith_exponent exponent rest hmark hend
    | cons point digits =>
        refine ⟨point, ?_, _, rfl⟩
        rw [hpoint point rfl]
        decide
  have hcount := countNumber?_of_readWhole? hwhole hbehind hmore
  obtain ⟨-, ⟨digit, digits, rfl, hdigit⟩, -⟩ := Json.readWhole?_takes hwhole
  obtain ⟨rfl, -⟩ := Json.readUnsigned_takes hwhole hfraction hexponent
  obtain ⟨c, hc, tail, rfl⟩ := hrest
  have htext : digit :: digits ++ (fraction ++ (exponent ++ c :: tail)) =
      digit :: (digits ++ (fraction ++ exponent) ++ c :: tail) := by
    simp
  have hlength : (digit :: digits).length + (fraction.length + exponent.length) =
      (digits ++ (fraction ++ exponent)).length + 1 := by
    simp only [List.length_append, List.length_cons]
    omega
  rw [htext, hlength] at hcount
  have hother : ∀ c ∈ closers, (c.isDigit || Identifier.isStart c) = false :=
    forall_of_all (by decide)
  have hnumber : readNumber? (digit :: (digits ++ (fraction ++ exponent) ++ c :: tail)) =
      some ((digits ++ (fraction ++ exponent)).length + 1, false) := by
    rw [readNumber?, hcount]
    dsimp only
    rw [List.drop_succ_cons, List.drop_left]
    simp only [hother c hc, Bool.false_eq_true, if_false]
  obtain ⟨hline, hblank⟩ := not_blank_of_isDigit hdigit
  have hslash : digit ≠ '/' := fun h => absurd (h ▸ hdigit) (by decide)
  rw [htext]
  exact lexes_of_readKind hslash hline hblank (readKind_number hdigit hnumber)

/-- A number of JSON is one token, or two if it has a sign. -/
theorem lexes_readNumber? {text rest spelling : List Char}
    (hread : Json.readNumber? text = some (spelling, rest)) (hrest : BeginsWith closers rest) :
    Lexes text .number rest ∨
      ∃ unsigned, Lexes text (.mark .minus) unsigned ∧ Lexes unsigned .number rest := by
  rw [Json.readNumber?.eq_def] at hread
  split at hread
  rename_i sign unsigned hsign
  simp only [Option.bind_eq_bind, Option.bind_eq_some_iff, Option.some.injEq, Prod.mk.injEq,
    Prod.exists] at hread
  obtain ⟨whole, behind, hwhole, fraction, later, hfraction, exponent, last, hexponent, rfl,
    rfl⟩ := hread
  have hnumber := lexes_unsigned hwhole hfraction hexponent hrest
  split at hsign
  · cases hsign
    obtain ⟨rfl, ⟨digit, digits, rfl, hdigit⟩, -⟩ := Json.readWhole?_takes hwhole
    exact .inr ⟨_, lexes_minus hdigit _, hnumber⟩
  · cases hsign
    exact .inl hnumber

/-! ## Places -/

/-- A token is read from the start of a text. -/
def ReadAt (token : Token) (text : List Char) : Prop :=
  ∃ keep gap offset, token = readToken keep gap ⟨text, offset⟩

section Places

variable {token : Token} {text rest : List Char} {found : TokenKind}

theorem ReadAt.kind (h : ReadAt token text) (hlexes : Lexes text found rest) :
    token.kind = found := by
  obtain ⟨keep, gap, offset, rfl⟩ := h
  exact (hlexes keep gap offset).1

theorem ReadAt.next (h : ReadAt token text) (hlexes : Lexes text found rest) :
    ReadAt token.next rest := by
  obtain ⟨keep, gap, offset, rfl⟩ := h
  obtain ⟨-, hstop⟩ := hlexes keep gap offset
  generalize readToken keep gap ⟨text, offset⟩ = token at hstop
  exact ⟨_, _, token.stop.offset, by rw [Token.next, ← hstop]⟩

/-- No line that begins with `#!` is in front of the first token. -/
theorem readAt_firstToken (hhash : text.head? ≠ some '#') :
    ReadAt (firstToken ⟨text, 0⟩) text := by
  rw [firstToken]
  split
  · rename_i htext
    dsimp only at htext
    rw [htext] at hhash
    exact absurd rfl hhash
  · exact ⟨_, _, _, rfl⟩

theorem ReadAt.blank (h : ReadAt token (' ' :: text)) : ReadAt token text := by
  obtain ⟨keep, gap, offset, rfl⟩ := h
  exact ⟨keep, gap, _, rfl⟩

/-- White space of JSON is skipped by scripts. -/
theorem ReadAt.skip (h : ReadAt token text) : ReadAt token (Json.skipBlank text) := by
  induction text with
  | nil => exact h
  | cons c text ih =>
      by_cases hblank : Json.isBlank c = true
      · rw [Json.skipBlank, List.dropWhile_cons_of_pos hblank]
        obtain ⟨keep, gap, offset, rfl⟩ := h
        simp only [Json.isBlank, Bool.or_eq_true, decide_eq_true_eq] at hblank
        rcases hblank with ((rfl | rfl) | rfl) | rfl
        · exact ih ⟨keep, gap, _, rfl⟩
        · exact ih ⟨keep, gap.endLine, _, rfl⟩
        · exact ih ⟨keep, gap, _, rfl⟩
        · exact ih ⟨keep, gap.endLine, _, rfl⟩
      · rwa [Json.skipBlank, List.dropWhile_cons_of_neg hblank]

/-- A text that closes the value in front of it, perhaps behind white space. -/
def Closing (text : List Char) : Prop :=
  BeginsWith [';', ',', ']', '\x7d'] (Json.skipBlank text)

theorem Closing.beginsWith (h : Closing rest) : BeginsWith closers rest := by
  cases rest with
  | nil =>
      obtain ⟨c, -, more, heq⟩ := h
      cases heq
  | cons first more =>
      refine ⟨first, ?_, more, rfl⟩
      by_cases hblank : Json.isBlank first = true
      · simp only [Json.isBlank, Bool.or_eq_true, decide_eq_true_eq] at hblank
        rcases hblank with ((rfl | rfl) | rfl) | rfl <;> decide
      · obtain ⟨c, hc, more, heq⟩ := h
        rw [Json.skipBlank, List.dropWhile_cons_of_neg hblank] at heq
        cases heq
        exact List.mem_append_right [' ', '\n', '\t', '\r'] hc

theorem Closing.endsName (h : Closing rest) : EndsName rest := by
  obtain ⟨c, hc, more, rfl⟩ := h.beginsWith
  have hends : ∀ c ∈ closers, Identifier.isContinue c = false ∧ c ≠ '\\' :=
    forall_of_all (by decide)
  obtain ⟨hcontinue, hslash⟩ := hends c hc
  exact endsName_cons hcontinue hslash more

theorem ReadAt.closes (h : ReadAt token rest) (hrest : Closing rest) : Closes token.kind := by
  obtain ⟨c, hc, more, hskip⟩ := hrest
  have hplace := h.skip
  rw [hskip] at hplace
  have hmark : c ∈ [';', ',', ')', ']', '\x7d'] := by
    simp only [List.mem_cons, List.not_mem_nil, or_false] at hc ⊢
    rcases hc with rfl | rfl | rfl | rfl <;> decide
  obtain ⟨kind, last, hkind, hlexes⟩ := (Closed.mark hmark).lexes
  rw [hplace.kind hlexes]
  exact hkind

end Places

end WebBundle.Syntax

import WebBundle.Proofs.Text.Quoted
import WebBundle.Syntax.Lexer

/-!
# Tokens of a text that is put together

A generated text is cut into the texts of its tokens.  What is read from the start of each
of them is stated for every place that it can stand at, so the tokens of the whole text
follow one from the other.  A quoted text is one token whatever stands behind it; a name is
one where nothing behind it can go on with the name.

The reader of tokens takes a quoted text as one string literal with that text as its value.
As in JSON, every character is quoted by something that stands for one element of the
literal, which is the character itself.
-/

namespace WebBundle.Quoted

open Syntax (readStringFrom? readEscape? readKind)

/-- Something that a string literal may go on with: the reader takes it as a whole, for the
characters of a text. -/
def StandsFor (part text : List Char) : Prop :=
  ∀ rest, readStringFrom? '"' 0 (part ++ rest) =
    (readStringFrom? '"' 0 rest).map fun read => (text.map .char ++ read.1, read.2 + part.length)

theorem readStringFrom?_slash {rest : List Char} {elements : List Syntax.Element} {used : Nat}
    (hescape : readEscape? false rest = some (elements, used)) :
    readStringFrom? '"' 0 ('\\' :: rest) =
      (readStringFrom? '"' used rest).map fun read => (elements ++ read.1, read.2 + 1) := by
  conv_lhs => unfold readStringFrom?
  rw [if_neg (by decide), if_pos rfl, hescape]

theorem standsFor_letter {letter c : Char}
    (hescape : ∀ rest, readEscape? false (letter :: rest) = some ([.char c], 1)) :
    StandsFor ['\\', letter] [c] := by
  intro rest
  rw [List.cons_append, List.singleton_append, readStringFrom?_slash (hescape rest),
    readStringFrom?, Option.map_map]
  rfl

theorem standsFor_unit {high low c : Char}
    (hescape : ∀ rest, readEscape? false ('u' :: '0' :: '0' :: high :: low :: rest) =
      some ([.char c], 5)) :
    StandsFor ['\\', 'u', '0', '0', high, low] [c] := by
  intro rest
  have hskip : readStringFrom? '"' 5 ('u' :: '0' :: '0' :: high :: low :: rest) =
      (readStringFrom? '"' 0 rest).map fun read => (read.1, read.2 + 5) := by
    simp only [readStringFrom?, Option.map_map]
    rfl
  simp only [List.cons_append, List.nil_append]
  rw [readStringFrom?_slash (hescape rest), hskip, Option.map_map]
  rfl

theorem standsFor_self {c : Char} (hquote : c ≠ '"') (hslash : c ≠ '\\') (hline : c ≠ '\n')
    (hreturn : c ≠ '\r') : StandsFor [c] [c] := by
  intro rest
  rw [List.singleton_append, readStringFrom?, if_neg hquote, if_neg hslash,
    if_neg (by simp [hline, hreturn])]
  rfl

/-- The escape of a control character without a letter of its own. -/
theorem standsFor_control : ∀ value < 32, ¬ HasLetter (Char.ofNat value) →
    StandsFor (escape (Char.ofNat value)) [Char.ofNat value] := by
  intro value hvalue hletter
  interval_cases value
  all_goals first
    | exact absurd (by decide) hletter
    | exact standsFor_unit fun rest => rfl

theorem standsFor_escape (c : Char) : StandsFor (escape c) [c] := by
  by_cases hcontrol : c.toNat < 32
  · by_cases hletter : HasLetter c
    · rcases hletter with rfl | rfl | rfl | rfl | rfl
      all_goals exact standsFor_letter fun rest => rfl
    · have hsame : Char.ofNat c.toNat = c := Char.ofNat_toNat c
      have hread := standsFor_control c.toNat hcontrol (by rwa [hsame])
      rwa [hsame] at hread
  · by_cases hquote : c = '"'
    · subst hquote
      exact standsFor_letter fun rest => rfl
    · by_cases hslash : c = '\\'
      · subst hslash
        exact standsFor_letter fun rest => rfl
      · have hline : c ≠ '\n' := by
          rintro rfl
          exact hcontrol (by decide)
        have hreturn : c ≠ '\r' := by
          rintro rfl
          exact hcontrol (by decide)
        rw [escape_plain hcontrol hquote hslash]
        exact standsFor_self hquote hslash hline hreturn

theorem standsFor_flatMap (text : List Char) : StandsFor (text.flatMap escape) text := by
  induction text with
  | nil =>
      intro rest
      cases h : readStringFrom? '"' 0 rest <;> simp [h]
  | cons c text ih =>
      intro rest
      rw [List.flatMap_cons, List.append_assoc, standsFor_escape c, ih, Option.map_map]
      congr 1
      funext read
      simp only [Function.comp_apply, List.map_cons, List.map_nil, List.cons_append,
        List.nil_append, List.length_append, Prod.mk.injEq, true_and]
      omega

/-- Characters are kept as they are, also the one that surrogate halves are marked with. -/
theorem textOfElements_char (text : List Char) :
    Syntax.textOfElements (text.map .char) = (String.ofList text, false) := by
  unfold Syntax.textOfElements
  split
  · rename_i hany
    obtain ⟨element, hmem, hlone⟩ := List.any_eq_true.mp hany
    obtain ⟨c, -, rfl⟩ := List.mem_map.mp hmem
    cases hlone
  · simp [List.flatMap_map]

/-- A quoted text is read as one string literal of that text, whatever comes behind it. -/
theorem readKind_encode (text rest : List Char) :
    readKind (encode text ++ rest) = (.string (String.ofList text) false, (encode text).length) := by
  have hend : readStringFrom? '"' 0 ('"' :: rest) = some ([], 1) := rfl
  have hread : readStringFrom? '"' 0 (text.flatMap escape ++ '"' :: rest) =
      some (text.map .char, (text.flatMap escape).length + 1) := by
    rw [standsFor_flatMap, hend, Option.map_some, List.append_nil, Nat.add_comm]
  have htext : encode text ++ rest = '"' :: (text.flatMap escape ++ '"' :: rest) := by
    simp [encode]
  have hlength : (encode text).length = (text.flatMap escape).length + 1 + 1 := by
    simp [encode]
  rw [htext, hlength]
  simp [readKind, hread, textOfElements_char]

end WebBundle.Quoted

namespace WebBundle.Syntax

open Identifier

/-! ## Tokens one behind the other -/

/-- What the tokens from one on are. -/
def Yields : Token → List TokenKind → Prop
  | _, [] => True
  | token, kind :: rest => token.kind = kind ∧ Yields token.next rest

/-- From the start of a text a token is read, which leaves the rest. -/
def Lexes (text : List Char) (kind : TokenKind) (rest : List Char) : Prop :=
  ∀ keep gap offset, (readToken keep gap ⟨text, offset⟩).kind = kind ∧
    (readToken keep gap ⟨text, offset⟩).stop.chars = rest

/-- The tokens that are read from the start of a text. -/
def Spells : List Char → List TokenKind → Prop
  | _, [] => True
  | text, kind :: more => ∃ rest, Lexes text kind rest ∧ Spells rest more

theorem Lexes.spells {text rest : List Char} {kind : TokenKind} {more : List TokenKind}
    (h : Lexes text kind rest) (hmore : Spells rest more) : Spells text (kind :: more) :=
  ⟨rest, h, hmore⟩

theorem Spells.yields {text : List Char} {kinds : List TokenKind} (h : Spells text kinds)
    (keep : Bool) (gap : Gap) (offset : Nat) :
    Yields (readToken keep gap ⟨text, offset⟩) kinds := by
  induction kinds generalizing text keep gap offset with
  | nil => trivial
  | cons kind more ih =>
      obtain ⟨rest, hlexes, hmore⟩ := h
      obtain ⟨hkind, hstop⟩ := hlexes keep gap offset
      refine ⟨hkind, ?_⟩
      generalize readToken keep gap ⟨text, offset⟩ = token at hstop
      have hplace : token.stop = ⟨rest, token.stop.offset⟩ := by
        rw [← hstop]
      rw [Token.next, hplace]
      exact ih hmore _ _ _

/-- No line that begins with `#!` is in front of the first token. -/
theorem Spells.yields_firstToken {text : List Char} {kinds : List TokenKind} (h : Spells text kinds)
    (hhash : text.head? ≠ some '#') : Yields (firstToken ⟨text, 0⟩) kinds := by
  rw [firstToken]
  split
  · rename_i htext
    dsimp only at htext
    rw [htext] at hhash
    exact absurd rfl hhash
  · exact h.yields _ _ _

/-! ## Single tokens -/

theorem chars_advance (count : Nat) (chars : List Char) (offset : Nat) :
    (Cursor.advance count ⟨chars, offset⟩).chars = chars.drop count := by
  induction count generalizing chars offset with
  | zero => rfl
  | succ count ih =>
      cases chars with
      | nil => rfl
      | cons c rest => exact ih rest _

/-- A token whose text begins neither with a blank nor with a comment. -/
theorem lexes_of_readKind {c : Char} {text rest : List Char} {kind : TokenKind}
    (hslash : c ≠ '/') (hline : isLineEnd c = false) (hblank : isBlank c = false)
    (hread : readKind (c :: (text ++ rest)) = (kind, text.length + 1)) :
    Lexes (c :: (text ++ rest)) kind rest := by
  intro keep gap offset
  have hgap : skipGap keep 0 gap offset (c :: (text ++ rest)) =
      (gap, ⟨c :: (text ++ rest), offset⟩) := by
    rw [skipGap]
    · simp [hline, hblank]
    · exact fun _ hc => absurd hc hslash
    · exact fun _ hc => absurd hc hslash
  simp only [readToken, hgap, hread, chars_advance, List.drop_succ_cons, List.drop_left, and_self]

theorem lexes_blank {text rest : List Char} {kind : TokenKind} (h : Lexes text kind rest) :
    Lexes (' ' :: text) kind rest :=
  fun keep gap offset => h keep gap (offset + 1)

theorem Spells.blank {text : List Char} {kinds : List TokenKind} (h : Spells text kinds) :
    Spells (' ' :: text) kinds := by
  cases kinds with
  | nil => trivial
  | cons kind more =>
      obtain ⟨rest, hlexes, hmore⟩ := h
      exact ⟨rest, lexes_blank hlexes, hmore⟩

/-- A quoted text is a string literal, whatever comes behind it. -/
theorem lexes_encode (text rest : List Char) :
    Lexes (Quoted.encode text ++ rest) (.string (String.ofList text) false) rest := by
  have hread := Quoted.readKind_encode text rest
  rw [Quoted.encode, List.cons_append, List.cons_append] at hread ⊢
  exact lexes_of_readKind (by decide) (by decide) (by decide) hread

/-! ## Names -/

/-- A character that may begin a name begins neither a gap nor another token. -/
structure BeginsName (c : Char) : Prop where
  slash : c ≠ '/'
  line : isLineEnd c = false
  blank : isBlank c = false
  hash : c ≠ '#'
  backtick : c ≠ '`'
  quote : c ≠ '"'
  apostrophe : c ≠ '\''
  point : c ≠ '.'
  digit : c.isDigit = false

theorem ne_of_isStart {c other : Char} (hstart : isStart c = true)
    (hother : isStart other = false) : c ≠ other := by
  rintro rfl
  rw [hstart] at hother
  cases hother

theorem ne_of_all {c : Char} (hstart : isStart c = true) {others : List Char}
    (hothers : others.all (fun other => !isStart other) = true) : ∀ other ∈ others, c ≠ other := by
  intro other hother
  have hnone := List.all_eq_true.mp hothers other hother
  exact ne_of_isStart hstart ((Bool.not_eq_true' _).mp hnone)

theorem isStart_of_blank : ∀ code < 12, isStart (Char.ofNat (0x2000 + code)) = false := by
  decide +kernel

theorem isBlank_of_isStart {c : Char} (hstart : isStart c = true) : isBlank c = false := by
  have hspace : '\u2000' ≤ c → ¬ c ≤ '\u200b' := by
    intro hlow hhigh
    have hfirst : 0x2000 ≤ c.toNat := hlow
    have hlast : c.toNat ≤ 0x200b := hhigh
    have hnone := isStart_of_blank (c.toNat - 0x2000) (by omega)
    rw [Nat.add_sub_cancel' hfirst, Char.ofNat_toNat, hstart] at hnone
    cases hnone
  have hnone : [' ', '\t', '\x0b', '\x0c', '\xa0', '\ufeff', '\x85', '\u1680', '\u202f', '\u205f',
      '\u3000'].all (fun other => !isStart other) = true := by
    decide +kernel
  have hne := ne_of_all hstart hnone
  simp only [List.forall_mem_cons] at hne
  simp only [isBlank, hne, decide_false, Bool.or_false, Bool.false_or, Bool.and_eq_false_iff,
    decide_eq_false_iff_not]
  exact not_and_or.mp fun h => hspace h.1 h.2

theorem beginsName_of_isStart {c : Char} (hstart : isStart c = true) : BeginsName c where
  slash := ne_of_isStart hstart (by decide)
  line := by
    have hnone : ['\n', '\r', '\u2028', '\u2029'].all (fun other => !isStart other) = true := by
      decide +kernel
    have hne := ne_of_all hstart hnone
    simp only [List.forall_mem_cons] at hne
    simp [isLineEnd, hne]
  blank := isBlank_of_isStart hstart
  hash := ne_of_isStart hstart (by decide)
  backtick := ne_of_isStart hstart (by decide)
  quote := ne_of_isStart hstart (by decide)
  apostrophe := ne_of_isStart hstart (by decide)
  point := ne_of_isStart hstart (by decide)
  digit := by
    rw [Bool.eq_false_iff]
    intro hdigit
    have hten : ∀ code < 10, isStart (Char.ofNat (48 + code)) = false := by decide
    obtain ⟨hlow, hhigh⟩ : 48 ≤ c.toNat ∧ c.toNat ≤ 57 := Char.isDigit_iff_toNat.mp hdigit
    have hnone := hten (c.toNat - 48) (by omega)
    rw [Nat.add_sub_cancel' hlow, Char.ofNat_toNat, hstart] at hnone
    cases hnone

theorem isContinue_of_isDigit {c : Char} (hdigit : c.isDigit = true) : isContinue c = true := by
  have hhigh : c.toNat ≤ 57 := (Char.isDigit_iff_toNat.mp hdigit).2
  have hsmall : c.toNat < 128 := by omega
  simp [isContinue, hsmall, Char.isAlphanum, hdigit]

/-- No punctuator begins with a character that may begin a name. -/
theorem readMark?_of_isStart {c : Char} (hstart : isStart c = true) (rest : List Char) :
    readMark? (c :: rest) = none := by
  have hspellings : ∀ entry ∈ Mark.spellings, entry.2.head?.all (fun c => !isStart c) = true ∧
      entry.2 ≠ [] := by
    decide +kernel
  have hnone : (Mark.spellings.find? fun entry => entry.2.isPrefixOf (c :: rest)) = none := by
    rw [List.find?_eq_none]
    intro entry hentry hprefix
    obtain ⟨hhead, hne⟩ := hspellings entry hentry
    cases hspelling : entry.2 with
    | nil => exact hne hspelling
    | cons first more =>
        rw [hspelling] at hhead hprefix
        obtain ⟨hsame, -⟩ := Bool.and_eq_true_iff.mp hprefix
        rw [← eq_of_beq hsame] at hstart
        simp [hstart] at hhead
  rw [readMark?.eq_def, hnone]

/-- What stands behind a name does not go on with it. -/
def EndsName (rest : List Char) : Prop :=
  ∀ c, rest.head? = some c → isContinue c = false ∧ c ≠ '\\'

theorem readNameFrom?_plain {isFirst : Bool} {name rest : List Char}
    (hname : name.all isContinue = true)
    (hfirst : isFirst = true → ∃ c more, name = c :: more ∧ isStart c = true)
    (hrest : EndsName rest) :
    readNameFrom? isFirst 0 (name ++ rest) = some (name, name.length, false) := by
  induction name generalizing isFirst with
  | nil =>
      have hlater : isFirst = false := by
        rw [Bool.eq_false_iff]
        intro hisFirst
        obtain ⟨c, more, hname, -⟩ := hfirst hisFirst
        cases hname
      subst hlater
      cases rest with
      | nil => rfl
      | cons c more =>
          obtain ⟨hcontinue, hslash⟩ := hrest c rfl
          rw [List.nil_append, readNameFrom?]
          · simp [hcontinue]
          · exact fun hc => hslash hc
  | cons c name ih =>
      rw [List.all_cons, Bool.and_eq_true] at hname
      have hplace : (if isFirst then isStart c else isContinue c) = true := by
        split
        · rename_i hisFirst
          obtain ⟨first, more, hsame, hstart⟩ := hfirst hisFirst
          cases hsame
          exact hstart
        · exact hname.1
      have hslash : c ≠ '\\' := by
        rintro rfl
        exact absurd hname.1 (by decide)
      have hmore := @ih false hname.2 fun h => absurd h (by decide)
      rw [List.cons_append, readNameFrom?]
      · rw [if_pos hplace, hmore]
        rfl
      · exact fun hc => hslash hc

/-- A name is a word where nothing behind it goes on with the name. -/
theorem lexes_name {name rest : List Char} (hname : isName name = true) (hrest : EndsName rest) :
    Lexes (name ++ rest) (.word (Word.ofSpelling name) (String.ofList name) false) rest := by
  cases name with
  | nil => cases hname
  | cons c more =>
      rw [isName, Bool.and_eq_true] at hname
      obtain ⟨hstart, hmore⟩ := hname
      have hbegins := beginsName_of_isStart hstart
      have hall : (c :: more).all isContinue = true := by
        rw [List.all_cons, isContinue_of_isStart hstart, hmore]
        rfl
      have hread : readName? (c :: more ++ rest) = some (c :: more, (c :: more).length, false) := by
        rw [readName?, readNameFrom?_plain hall (fun _ => ⟨c, more, rfl, hstart⟩) hrest]
      have hmark := readMark?_of_isStart hstart (more ++ rest)
      rw [List.cons_append] at hread ⊢
      refine lexes_of_readKind hbegins.slash hbegins.line hbegins.blank ?_
      rw [readKind.eq_def]
      split
      · rename_i heq
        cases heq
      · rename_i heq
        cases heq
        exact absurd rfl hbegins.hash
      · rename_i heq
        cases heq
        exact absurd rfl hbegins.backtick
      · rename_i heq
        exact absurd (List.cons.inj heq).1 hbegins.slash
      · rename_i first text _ _ _ heq
        cases heq
        simp [hbegins.quote, hbegins.apostrophe, hbegins.digit, hbegins.point, hmark, hread]

theorem readMark?_point {c : Char} (hpoint : c ≠ '.') (rest : List Char) :
    readMark? ('.' :: c :: rest) = some (.dot, 1) := by
  have hne : ('.' == c) = false := beq_eq_false_iff_ne.mpr hpoint.symm
  simp [readMark?, Mark.spellings, List.find?, List.isPrefixOf, hne]

/-- In front of a name a point is the punctuator. -/
theorem lexes_point {name : List Char} (hname : isName name = true) (rest : List Char) :
    Lexes ('.' :: (name ++ rest)) (.mark .dot) (name ++ rest) := by
  cases name with
  | nil => cases hname
  | cons c more =>
      rw [isName, Bool.and_eq_true] at hname
      have hbegins := beginsName_of_isStart hname.1
      refine @lexes_of_readKind '.' [] _ _ (by decide) (by decide) (by decide) ?_
      simp [readKind, hbegins.digit, readMark?_point hbegins.point]

/-- No special word begins with an underscore. -/
theorem ofSpelling_underscore (name : List Char) : Word.ofSpelling ('_' :: name) = .other := by
  have hspellings : ∀ entry ∈ Word.spellings, entry.2.head? ≠ some '_' := by decide +kernel
  have hnone : (Word.spellings.find? fun entry => entry.2 = '_' :: name) = none := by
    rw [List.find?_eq_none]
    intro entry hentry hsame
    refine hspellings entry hentry ?_
    rw [of_decide_eq_true hsame]
    rfl
  rw [Word.ofSpelling, hnone]

/-! ## What stands behind an expression -/

/-- Punctuators that end an expression, and the end of a source. -/
inductive Closes : TokenKind → Prop where
  | finish : Closes .finish
  | semicolon : Closes (.mark .semicolon)
  | comma : Closes (.mark .comma)
  | parenClose : Closes (.mark .parenClose)
  | bracketClose : Closes (.mark .bracketClose)
  | braceClose : Closes (.mark .braceClose)

/-- A text that ends the expression in front of it, perhaps behind blanks. -/
inductive Closed : List Char → Prop where
  | finish : Closed []
  | blank {rest : List Char} : Closed rest → Closed (' ' :: rest)
  | mark {c : Char} {rest : List Char} : c ∈ [';', ',', ')', ']', '\x7d'] → Closed (c :: rest)

theorem Closed.lexes {text : List Char} (h : Closed text) :
    ∃ kind rest, Closes kind ∧ Lexes text kind rest := by
  induction h with
  | finish => exact ⟨_, [], .finish, fun _ _ _ => ⟨rfl, rfl⟩⟩
  | blank _ ih =>
      obtain ⟨kind, rest, hkind, hlexes⟩ := ih
      exact ⟨kind, rest, hkind, lexes_blank hlexes⟩
  | @mark c rest hmark =>
      simp only [List.mem_cons, List.not_mem_nil, or_false] at hmark
      rcases hmark with rfl | rfl | rfl | rfl | rfl
      · exact ⟨_, rest, .semicolon, fun _ _ _ => ⟨rfl, rfl⟩⟩
      · exact ⟨_, rest, .comma, fun _ _ _ => ⟨rfl, rfl⟩⟩
      · exact ⟨_, rest, .parenClose, fun _ _ _ => ⟨rfl, rfl⟩⟩
      · exact ⟨_, rest, .bracketClose, fun _ _ _ => ⟨rfl, rfl⟩⟩
      · exact ⟨_, rest, .braceClose, fun _ _ _ => ⟨rfl, rfl⟩⟩

theorem endsName_cons {c : Char} (hcontinue : isContinue c = false) (hslash : c ≠ '\\')
    (rest : List Char) : EndsName (c :: rest) := by
  intro first hfirst
  cases hfirst
  exact ⟨hcontinue, hslash⟩

theorem Closed.endsName {text : List Char} (h : Closed text) : EndsName text := by
  cases h with
  | finish => exact fun _ hfirst => by cases hfirst
  | blank _ => exact endsName_cons (by decide) (by decide) _
  | mark hmark =>
      simp only [List.mem_cons, List.not_mem_nil, or_false] at hmark
      rcases hmark with rfl | rfl | rfl | rfl | rfl
      all_goals exact endsName_cons (by decide) (by decide) _

end WebBundle.Syntax

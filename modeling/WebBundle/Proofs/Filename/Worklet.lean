import WebBundle.Filename.Worklet
import WebBundle.Proofs.Filename.Depth

/-!
# Names of worklets

A placeholder is written between brackets and has none inside.  So two readers of placeholders
never disagree about where one begins and ends, and what is put in the place of one placeholder
forms no other one with the text around it.  A worklet therefore gets the name that the template
of its parent gives with the hash of the build for the hash of the file, with `.worklet` in front
of the extension.
-/

namespace WebBundle.Filename

/-! ## Placeholders as they are written -/

/-- A placeholder with at most two modifiers, each of which has digits. -/
structure Placeholder.IsWritten (placeholder : Placeholder) : Prop where
  length_le : placeholder.modifiers.length ≤ 2
  ne_nil : ∀ digits ∈ placeholder.modifiers, digits ≠ []
  isPlain : placeholder.IsPlain

theorem ne_nil_of_readModifiers {count : Nat} {text digits : List Char}
    (hdigits : digits ∈ (readModifiers count text).1) : digits ≠ [] := by
  induction count generalizing text with
  | zero => cases hdigits
  | succ count ih =>
      unfold readModifiers at hdigits
      split at hdigits
      · split at hdigits
        · cases hdigits
        · rename_i first hfirst
          rcases List.mem_cons.mp hdigits with rfl | hmore
          · exact hfirst
          · exact ih hmore
      · cases hdigits

theorem length_modifiers_le (count : Nat) (text : List Char) :
    (readModifiers count text).1.length ≤ count := by
  induction count generalizing text with
  | zero => exact Nat.le_refl 0
  | succ count ih =>
      unfold readModifiers
      split
      · split
        · exact Nat.zero_le _
        · exact Nat.succ_le_succ (ih _)
      · exact Nat.zero_le _

theorem isDecimal_ne {c delimiter : Char} (hc : Digit.isDecimal c = true)
    (hdelimiter : Digit.isDecimal delimiter = false) : c ≠ delimiter := by
  rintro rfl
  rw [hc] at hdelimiter
  cases hdelimiter

/-- Modifiers are read back up to the closing bracket. -/
theorem readModifiers_append {count : Nat} {modifiers : List (List Char)} (rest : List Char)
    (hlength : modifiers.length ≤ count) (hne : ∀ digits ∈ modifiers, digits ≠ [])
    (hplain : ∀ digits ∈ modifiers, ∀ c ∈ digits, Digit.isDecimal c = true) :
    readModifiers count (modifiers.flatMap (fun digits => ':' :: digits) ++ ']' :: rest) =
      (modifiers, ']' :: rest) := by
  induction modifiers generalizing count with
  | nil =>
      cases count with
      | zero => rfl
      | succ count => simp [readModifiers]
  | cons digits modifiers ih =>
      obtain ⟨count, rfl⟩ : ∃ fewer, count = fewer + 1 :=
        Nat.exists_eq_add_of_lt (Nat.lt_of_lt_of_le (Nat.zero_lt_succ _) hlength) |>.imp
          fun _ h => by omega
      have hrest := ih (Nat.le_of_succ_le_succ hlength)
        (fun other hother => hne other (List.mem_cons_of_mem _ hother))
        (fun other hother => hplain other (List.mem_cons_of_mem _ hother))
      -- What comes behind the digits is a colon or the closing bracket.
      have hstop : ∃ c after, Digit.isDecimal c = false ∧
          modifiers.flatMap (fun digits => ':' :: digits) ++ ']' :: rest = c :: after := by
        cases modifiers with
        | nil => exact ⟨']', rest, by decide +kernel, rfl⟩
        | cons other modifiers => exact ⟨':', _, by decide +kernel, rfl⟩
      obtain ⟨c, after, hc, hafter⟩ := hstop
      have hdigits := hplain digits List.mem_cons_self
      have htake : (digits ++ c :: after).takeWhile Digit.isDecimal = digits := by
        rw [List.takeWhile_append_of_pos hdigits, List.takeWhile_cons_of_neg (by simp [hc]),
          List.append_nil]
      have hdrop : (digits ++ c :: after).dropWhile Digit.isDecimal = c :: after := by
        rw [List.dropWhile_append_of_pos hdigits, List.dropWhile_cons_of_neg (by simp [hc])]
      rw [List.flatMap_cons, List.append_assoc, hafter, List.cons_append, readModifiers]
      dsimp only
      rw [htake, hdrop, ← hafter, hrest]
      split
      · exact absurd rfl (hne [] List.mem_cons_self)
      · rfl

theorem isWritten_of_readField {field : Field} {text rest : List Char} {placeholder : Placeholder}
    (hread : readField? field text = some (placeholder, rest)) :
    placeholder.field = field ∧ placeholder.IsWritten ∧ placeholder.text ++ rest = '[' :: text := by
  rw [readField?] at hread
  split at hread
  · cases hread
  · rename_i after hafter
    split at hread
    · rename_i modifiers tail hmodifiers
      cases hread
      have htext := flatMap_readModifiers 2 after
      rw [hmodifiers] at htext
      refine ⟨rfl, ⟨?_, ?_, ?_⟩, ?_⟩
      · simpa only [hmodifiers] using length_modifiers_le 2 after
      · intro digits hdigits
        apply @ne_nil_of_readModifiers 2 after
        rwa [hmodifiers]
      · intro digits hdigits
        apply @isDecimal_of_readModifiers 2 after
        rwa [hmodifiers]
      · rw [Placeholder.text, ← append_dropStart hafter, ← htext]
        simp
    · cases hread

theorem dropStart?_append (start rest : List Char) :
    dropStart? start (start ++ rest) = some rest := by
  induction start with
  | nil => rfl
  | cons c start ih => simpa only [List.cons_append, dropStart?, if_pos] using ih

/-- A reader of placeholders takes what is written of its field, and nothing else. -/
theorem readField?_eq_some_iff {field : Field} {text rest : List Char} {placeholder : Placeholder} :
    readField? field text = some (placeholder, rest) ↔
      placeholder.field = field ∧ placeholder.IsWritten ∧
        placeholder.text ++ rest = '[' :: text := by
  constructor
  · exact isWritten_of_readField
  · rintro ⟨rfl, hwritten, htext⟩
    have hbehind : text = placeholder.field.spelling ++
        (placeholder.modifiers.flatMap (fun digits => ':' :: digits) ++ ']' :: rest) := by
      simpa [Placeholder.text] using htext.symm
    have hmodifiers := readModifiers_append rest hwritten.length_le hwritten.ne_nil hwritten.isPlain
    simp only [readField?, hbehind, dropStart?_append, hmodifiers]

/-- Whether a character ends the name of a field. -/
def endsName (c : Char) : Bool := c = ':' || c = ']'

theorem endsName_of_mem_spelling (field : Field) :
    ∀ c ∈ field.spelling, (!endsName c) = true := by
  apply List.all_eq_true.mp
  cases field <;> decide

theorem spelling_injective : Function.Injective Field.spelling := by
  intro first second
  cases first <;> cases second <;> decide

theorem takeWhile_text (placeholder : Placeholder) (rest : List Char) :
    ((placeholder.text ++ rest).drop 1).takeWhile (fun c => !endsName c) =
      placeholder.field.spelling := by
  have hstop : ∃ c after, endsName c = true ∧
      placeholder.modifiers.flatMap (fun digits => ':' :: digits) ++ ([']'] ++ rest) =
        c :: after := by
    cases placeholder.modifiers with
    | nil => exact ⟨']', rest, rfl, rfl⟩
    | cons digits modifiers => exact ⟨':', _, rfl, rfl⟩
  obtain ⟨c, after, hc, hafter⟩ := hstop
  have hbehind : (placeholder.text ++ rest).drop 1 = placeholder.field.spelling ++ c :: after := by
    rw [← hafter]
    simp [Placeholder.text]
  rw [hbehind, List.takeWhile_append_of_pos (endsName_of_mem_spelling _),
    List.takeWhile_cons_of_neg (by simp [hc]), List.append_nil]

/-- A text begins with at most one placeholder. -/
theorem eq_of_text_append {first second : Placeholder} (hfirst : first.IsWritten)
    (hsecond : second.IsWritten) {rest other : List Char}
    (htext : first.text ++ rest = second.text ++ other) : first = second ∧ rest = other := by
  have hfield : first.field = second.field := by
    apply spelling_injective
    rw [← takeWhile_text first rest, htext, takeWhile_text second other]
  obtain ⟨text, hread⟩ : ∃ text, second.text ++ other = '[' :: text := ⟨_, rfl⟩
  have hone := readField?_eq_some_iff.mpr ⟨hfield, hfirst, htext.trans hread⟩
  have htwo := readField?_eq_some_iff.mpr ⟨rfl, hsecond, hread⟩
  rw [hone] at htwo
  simpa using htwo

/-- A reader of several kinds of placeholders takes what is written of one of them. -/
theorem findSome?_readField_eq_some_iff {fields : List Field} {text rest : List Char}
    {placeholder : Placeholder} :
    fields.findSome? (fun field => readField? field text) = some (placeholder, rest) ↔
      placeholder.field ∈ fields ∧ placeholder.IsWritten ∧
        placeholder.text ++ rest = '[' :: text := by
  constructor
  · intro hread
    obtain ⟨field, hmem, hfield⟩ := List.exists_of_findSome?_eq_some hread
    obtain ⟨rfl, hwritten, htext⟩ := readField?_eq_some_iff.mp hfield
    exact ⟨hmem, hwritten, htext⟩
  · rintro ⟨hmem, hwritten, htext⟩
    have hsome : (fields.findSome? fun field => readField? field text).isSome = true := by
      rw [List.findSome?_isSome_iff]
      exact ⟨_, hmem, by rw [readField?_eq_some_iff.mpr ⟨rfl, hwritten, htext⟩]; rfl⟩
    obtain ⟨⟨found, behind⟩, hfound⟩ := Option.isSome_iff_exists.mp hsome
    obtain ⟨field, -, hfield⟩ := List.exists_of_findSome?_eq_some hfound
    obtain ⟨-, hother, hsame⟩ := readField?_eq_some_iff.mp hfield
    obtain ⟨rfl, rfl⟩ := eq_of_text_append hother hwritten (hsame.trans htext.symm)
    exact hfound

theorem readPlaceholder?_eq_some_iff {text rest : List Char} {placeholder : Placeholder} :
    readPlaceholder? text = some (placeholder, rest) ↔
      placeholder.IsWritten ∧ placeholder.text ++ rest = '[' :: text := by
  have hall : placeholder.field ∈ Field.all := by cases placeholder.field <;> decide
  rw [readPlaceholder?, findSome?_readField_eq_some_iff, and_iff_right hall]

/-- The placeholders for the hash of the file are those among all placeholders that ask for it. -/
theorem readFileHash?_eq_some_iff {text rest : List Char} {placeholder : Placeholder} :
    readFileHash? text = some (placeholder, rest) ↔
      readPlaceholder? text = some (placeholder, rest) ∧
        placeholder.field.isContentHash = true := by
  have hfield : placeholder.field ∈ [Field.chunkHash, Field.contentHash] ↔
      placeholder.field.isContentHash = true := by cases placeholder.field <;> decide
  rw [readFileHash?, findSome?_readField_eq_some_iff, readPlaceholder?_eq_some_iff, hfield,
    and_comm]

/-! ## Pieces -/

theorem pieces_literal {c : Char} (hc : c ≠ '[') (rest : List Char) :
    pieces (c :: rest) = .literal c :: pieces rest := by
  rw [pieces, if_neg hc]

theorem pieces_of_readPlaceholder {rest after : List Char} {placeholder : Placeholder}
    (hread : readPlaceholder? rest = some (placeholder, after)) :
    pieces ('[' :: rest) = .placeholder placeholder :: pieces after := by
  rw [pieces, if_pos rfl]
  split
  · rename_i found behind hfound
    rw [hread] at hfound
    cases hfound
    rfl
  · rename_i hnone
    rw [hread] at hnone
    cases hnone

theorem pieces_of_readPlaceholder_eq_none {rest : List Char}
    (hread : readPlaceholder? rest = none) :
    pieces ('[' :: rest) = .literal '[' :: pieces rest := by
  rw [pieces, if_pos rfl]
  split
  · rename_i found behind hfound
    rw [hread] at hfound
    cases hfound
  · rfl

theorem pieces_placeholder {placeholder : Placeholder} (h : placeholder.IsWritten)
    (rest : List Char) :
    pieces (placeholder.text ++ rest) = .placeholder placeholder :: pieces rest :=
  pieces_of_readPlaceholder (readPlaceholder?_eq_some_iff.mpr ⟨h, rfl⟩)

/-- An induction over the pieces of a text. -/
theorem pieces_induction {motive : List Char → Prop} (nil : motive [])
    (placeholder : ∀ (placeholder : Placeholder) (rest : List Char), placeholder.IsWritten →
      motive rest → motive (placeholder.text ++ rest))
    (bracket : ∀ rest, readPlaceholder? rest = none → motive rest → motive ('[' :: rest))
    (literal : ∀ (c : Char) (rest : List Char), c ≠ '[' → motive rest → motive (c :: rest))
    (text : List Char) : motive text := by
  induction text using pieces.induct with
  | case1 => exact nil
  | case2 rest hole after hread ih =>
      obtain ⟨hwritten, htext⟩ := readPlaceholder?_eq_some_iff.mp hread
      rw [← htext]
      exact placeholder hole after hwritten ih
  | case3 rest hread ih => exact bracket rest hread ih
  | case4 c rest hc ih => exact literal c rest hc ih

theorem exists_text_eq (placeholder : Placeholder) (h : placeholder.IsWritten) :
    ∃ inside, placeholder.text = '[' :: inside ++ [']'] ∧ '[' ∉ inside ∧ ']' ∉ inside := by
  refine ⟨placeholder.field.spelling ++
    placeholder.modifiers.flatMap (fun digits => ':' :: digits), rfl, ?_, ?_⟩
  all_goals
    intro hmem
    rw [List.mem_append, List.mem_flatMap] at hmem
    rcases hmem with hmem | ⟨digits, hdigits, hmem⟩
    · revert hmem
      cases placeholder.field <;> decide
    · rcases List.mem_cons.mp hmem with hcolon | hdigit
      · cases hcolon
      · exact absurd (h.isPlain digits hdigits _ hdigit) (by decide +kernel)

/-- A text without brackets has no placeholders. -/
theorem pieces_of_notMem {text : List Char} (h : '[' ∉ text) :
    pieces text = text.map .literal := by
  induction text with
  | nil => rw [pieces]; rfl
  | cons c rest ih =>
      rw [List.mem_cons, not_or] at h
      rw [pieces_literal (Ne.symm h.1), ih h.2, List.map_cons]

/-- What a text ends in does not hide a character that it lacks. -/
theorem exists_eq_of_append {c : Char} {inside behind text tail : List Char} (hc : c ∉ tail)
    (h : inside ++ c :: behind = text ++ tail) : ∃ later, text = inside ++ c :: later := by
  induction inside generalizing text with
  | nil =>
      cases text with
      | nil =>
          cases h
          exact absurd List.mem_cons_self hc
      | cons first rest =>
          cases h
          exact ⟨rest, rfl⟩
  | cons other inside ih =>
      cases text with
      | nil =>
          cases h
          exact absurd (by simp) hc
      | cons first rest =>
          obtain ⟨rfl, hrest⟩ := List.cons.inj h
          obtain ⟨later, rfl⟩ := ih hrest
          exact ⟨later, rfl⟩

/-- A text without brackets takes no part in the placeholders in front of it. -/
theorem pieces_append {tail : List Char} (hopen : '[' ∉ tail) (hclose : ']' ∉ tail)
    (text : List Char) : pieces (text ++ tail) = pieces text ++ tail.map .literal := by
  induction text using pieces_induction with
  | nil => rw [List.nil_append, pieces_of_notMem hopen, pieces, List.nil_append]
  | placeholder hole rest hwritten ih =>
      rw [List.append_assoc, pieces_placeholder hwritten, pieces_placeholder hwritten, ih,
        List.cons_append]
  | bracket rest hread ih =>
      have hnone : readPlaceholder? (rest ++ tail) = none := by
        rw [Option.eq_none_iff_forall_ne_some]
        rintro ⟨hole, behind⟩ hsome
        obtain ⟨hwritten, htext⟩ := readPlaceholder?_eq_some_iff.mp hsome
        obtain ⟨inside, hinside, -, -⟩ := exists_text_eq hole hwritten
        rw [hinside] at htext
        have hsame : inside ++ ']' :: behind = rest ++ tail := by
          simpa using (List.cons.inj htext).2
        obtain ⟨later, rfl⟩ := exists_eq_of_append hclose hsame
        have hthere : readPlaceholder? (inside ++ ']' :: later) = some (hole, later) :=
          readPlaceholder?_eq_some_iff.mpr ⟨hwritten, by rw [hinside]; simp⟩
        rw [hread] at hthere
        cases hthere
      rw [List.cons_append, pieces_of_readPlaceholder_eq_none hnone,
        pieces_of_readPlaceholder_eq_none hread, ih, List.cons_append]
  | literal c rest hc ih =>
      rw [List.cons_append, pieces_literal hc, pieces_literal hc, ih, List.cons_append]

/-! ## The hash of the build -/

/-- A placeholder for the hash of the file becomes one for the hash of the build. -/
def Piece.withRunHash : Piece → Piece
  | .literal c => .literal c
  | .placeholder hole =>
    .placeholder (if hole.field.isContentHash then hole.withRunHash else hole)

theorem withRunHash_nil : withRunHash [] = [] := by rw [withRunHash]

theorem withRunHash_literal {c : Char} (hc : c ≠ '[') (rest : List Char) :
    withRunHash (c :: rest) = c :: withRunHash rest := by
  rw [withRunHash, if_neg hc]

theorem withRunHash_of_readFileHash_eq_none {rest : List Char}
    (hread : readFileHash? rest = none) :
    withRunHash ('[' :: rest) = '[' :: withRunHash rest := by
  rw [withRunHash, if_pos rfl]
  split
  · rename_i found behind hfound
    rw [hread] at hfound
    cases hfound
  · rfl

theorem withRunHash_of_readFileHash {rest after : List Char} {placeholder : Placeholder}
    (hread : readFileHash? rest = some (placeholder, after)) :
    withRunHash ('[' :: rest) = placeholder.withRunHash.text ++ withRunHash after := by
  rw [withRunHash, if_pos rfl]
  split
  · rename_i found behind hfound
    rw [hread] at hfound
    cases hfound
    rfl
  · rename_i hnone
    rw [hread] at hnone
    cases hnone

theorem withRunHash_append_of_notMem {front : List Char} (h : '[' ∉ front) (rest : List Char) :
    withRunHash (front ++ rest) = front ++ withRunHash rest := by
  induction front with
  | nil => rfl
  | cons c front ih =>
      rw [List.mem_cons, not_or] at h
      rw [List.cons_append, withRunHash_literal (Ne.symm h.1), ih h.2, List.cons_append]

theorem readFileHash?_eq_none {rest : List Char} (hread : readPlaceholder? rest = none) :
    readFileHash? rest = none := by
  rw [Option.eq_none_iff_forall_ne_some]
  rintro ⟨hole, behind⟩ hsome
  rw [(readFileHash?_eq_some_iff.mp hsome).1] at hread
  cases hread

/-- A placeholder is replaced as a whole or stays as it is. -/
theorem withRunHash_placeholder {placeholder : Placeholder} (h : placeholder.IsWritten)
    (rest : List Char) :
    withRunHash (placeholder.text ++ rest) =
      ((Piece.placeholder placeholder).withRunHash).text ++ withRunHash rest := by
  obtain ⟨inside, hinside, hopen, -⟩ := exists_text_eq placeholder h
  have hread : readPlaceholder? (inside ++ [']'] ++ rest) = some (placeholder, rest) :=
    readPlaceholder?_eq_some_iff.mpr ⟨h, by rw [hinside]; rfl⟩
  rw [Piece.withRunHash, Piece.text]
  by_cases hfield : placeholder.field.isContentHash = true
  · rw [if_pos hfield, hinside]
    exact withRunHash_of_readFileHash (readFileHash?_eq_some_iff.mpr ⟨hread, hfield⟩)
  · rw [if_neg hfield, hinside, List.cons_append, List.cons_append]
    have hnone : readFileHash? (inside ++ [']'] ++ rest) = none := by
      rw [Option.eq_none_iff_forall_ne_some]
      rintro ⟨hole, behind⟩ hsome
      obtain ⟨hother, hhash⟩ := readFileHash?_eq_some_iff.mp hsome
      rw [hread] at hother
      cases hother
      exact hfield hhash
    rw [withRunHash_of_readFileHash_eq_none hnone,
      withRunHash_append_of_notMem (by simpa using hopen), List.cons_append]

/-- What stands in front of the first bracket was there before. -/
theorem exists_eq_of_withRunHash {inside tail text : List Char} (hopen : '[' ∉ inside)
    (h : withRunHash text = inside ++ ']' :: tail) :
    ∃ behind, text = inside ++ ']' :: behind := by
  induction inside generalizing text with
  | nil =>
      cases text with
      | nil => rw [withRunHash_nil] at h; cases h
      | cons c rest =>
          by_cases hc : c = '['
          · subst hc
            cases hread : readFileHash? rest with
            | none => rw [withRunHash_of_readFileHash_eq_none hread] at h; cases h
            | some given => rw [withRunHash_of_readFileHash hread] at h; cases h
          · rw [withRunHash_literal hc] at h
            cases h
            exact ⟨rest, rfl⟩
  | cons first inside ih =>
      rw [List.mem_cons, not_or] at hopen
      cases text with
      | nil => rw [withRunHash_nil] at h; cases h
      | cons c rest =>
          by_cases hc : c = '['
          · subst hc
            cases hread : readFileHash? rest with
            | none =>
                rw [withRunHash_of_readFileHash_eq_none hread] at h
                exact absurd (List.cons.inj h).1 hopen.1
            | some given =>
                rw [withRunHash_of_readFileHash hread] at h
                exact absurd (List.cons.inj h).1 hopen.1
          · rw [withRunHash_literal hc] at h
            obtain ⟨rfl, hrest⟩ := List.cons.inj h
            obtain ⟨behind, rfl⟩ := ih hopen.2 hrest
            exact ⟨behind, rfl⟩

theorem Placeholder.IsWritten.withRunHash {placeholder : Placeholder} (h : placeholder.IsWritten) :
    placeholder.withRunHash.IsWritten :=
  ⟨h.length_le, h.ne_nil, h.isPlain⟩

/-- The pieces of a text with the hash of the build are those of the text, one by one. -/
theorem pieces_withRunHash (text : List Char) :
    pieces (withRunHash text) = (pieces text).map Piece.withRunHash := by
  induction text using pieces_induction with
  | nil => rw [withRunHash_nil, pieces, List.map_nil]
  | placeholder hole rest hwritten ih =>
      have hkept : (if hole.field.isContentHash then hole.withRunHash else hole).IsWritten := by
        split
        · exact hwritten.withRunHash
        · exact hwritten
      rw [withRunHash_placeholder hwritten, Piece.withRunHash, Piece.text,
        pieces_placeholder hkept, ih, pieces_placeholder hwritten, List.map_cons,
        Piece.withRunHash]
  | bracket rest hread ih =>
      have hnone : readPlaceholder? (withRunHash rest) = none := by
        rw [Option.eq_none_iff_forall_ne_some]
        rintro ⟨hole, behind⟩ hsome
        obtain ⟨hwritten, htext⟩ := readPlaceholder?_eq_some_iff.mp hsome
        obtain ⟨inside, hinside, hopen, -⟩ := exists_text_eq hole hwritten
        rw [hinside] at htext
        have hsame : withRunHash rest = inside ++ ']' :: behind := by
          simpa using (List.cons.inj htext).2.symm
        obtain ⟨later, rfl⟩ := exists_eq_of_withRunHash hopen hsame
        have hthere : readPlaceholder? (inside ++ ']' :: later) = some (hole, later) :=
          readPlaceholder?_eq_some_iff.mpr ⟨hwritten, by rw [hinside]; simp⟩
        rw [hread] at hthere
        cases hthere
      rw [withRunHash_of_readFileHash_eq_none (readFileHash?_eq_none hread),
        pieces_of_readPlaceholder_eq_none hnone, ih, pieces_of_readPlaceholder_eq_none hread,
        List.map_cons, Piece.withRunHash]
  | literal c rest hc ih =>
      rw [withRunHash_literal hc, pieces_literal hc, ih, pieces_literal hc, List.map_cons,
        Piece.withRunHash]

theorem not_isContentHash_withRunHash (piece : Piece) :
    piece.withRunHash.isContentHash = false := by
  cases piece with
  | literal c => rfl
  | placeholder hole =>
      rw [Piece.withRunHash, Piece.isContentHash]
      split
      · rfl
      · rename_i hfield
        simpa using hfield

/-- With the hash of the build a placeholder gives what it gave for a file of that hash. -/
theorem render_withRunHash {values : Values} {hash : String} (hhash : values.hash = some hash)
    (piece : Piece) :
    piece.withRunHash.render values = piece.render { values with contentHash := some hash } := by
  cases piece with
  | literal c => rfl
  | placeholder hole =>
      obtain ⟨field, modifiers⟩ := hole
      cases field <;> simp [Piece.withRunHash, Piece.render, Field.isContentHash,
        Placeholder.withRunHash, Placeholder.value?, Placeholder.hashLength, hhash]

/-! ## Extensions -/

/-- A text that ends in a dot and letters. -/
def EndsInExtension (text front letters : List Char) : Prop :=
  text = front ++ '.' :: letters ∧ letters ≠ [] ∧ ∀ c ∈ letters, isExtensionLetter c = true

theorem insertWorklet_of_endsInExtension {text front letters : List Char}
    (h : EndsInExtension text front letters) :
    insertWorklet text = front ++ ".worklet.".toList ++ letters := by
  obtain ⟨rfl, hne, hletters⟩ := h
  have hreversed : (front ++ '.' :: letters).reverse = letters.reverse ++ '.' :: front.reverse := by
    simp
  have hall : ∀ c ∈ letters.reverse, isExtensionLetter c = true :=
    fun c hc => hletters c (List.mem_reverse.mp hc)
  obtain ⟨letter, more, hmore⟩ :=
    List.exists_cons_of_ne_nil (mt List.reverse_eq_nil_iff.mp hne)
  have htake : (letters.reverse ++ '.' :: front.reverse).takeWhile isExtensionLetter =
      letter :: more := by
    rw [List.takeWhile_append_of_pos hall, List.takeWhile_cons_of_neg (by decide), List.append_nil,
      hmore]
  have hdrop : (letters.reverse ++ '.' :: front.reverse).dropWhile isExtensionLetter =
      '.' :: front.reverse := by
    rw [List.dropWhile_append_of_pos hall, List.dropWhile_cons_of_neg (by decide)]
  simp only [insertWorklet, hreversed, htake, hdrop]
  rw [← hmore, List.reverse_reverse, List.reverse_reverse]

theorem insertWorklet_of_not_endsInExtension {text : List Char}
    (h : ¬ ∃ front letters, EndsInExtension text front letters) : insertWorklet text = text := by
  simp only [insertWorklet]
  split
  · rename_i letter letters rest htake hdrop
    refine absurd ⟨rest.reverse, (letter :: letters).reverse, ?_, by simp, ?_⟩ h
    · have htext := List.takeWhile_append_dropWhile (p := isExtensionLetter) (l := text.reverse)
      rw [htake, hdrop] at htext
      simpa using (congrArg List.reverse htext).symm
    · intro c hc
      apply List.mem_takeWhile_imp (l := text.reverse)
      rw [htake]
      exact List.mem_reverse.mp hc
  · rfl

theorem EndsInExtension.notMem {text front letters : List Char}
    (h : EndsInExtension text front letters) {c : Char} (hc : isExtensionLetter c = false) :
    c ∉ letters := by
  intro hmem
  rw [h.2.2 c hmem] at hc
  cases hc

/-! ## Names -/

/-- The template by which a worklet is named, for the chunk template of its parent. -/
def workletTemplate (template : String) : String :=
  workletEntryTemplate (workletChunkTemplate template)

theorem toList_render (template : String) (values : Values) :
    (render template values).toList =
      (pieces template.toList).flatMap (Piece.render values) := by
  rw [render, String.toList_ofList]

theorem pieces_workletTemplate (template : String) :
    pieces (workletTemplate template).toList =
      (pieces (insertWorklet template.toList)).map Piece.withRunHash := by
  rw [workletTemplate, workletEntryTemplate, workletChunkTemplate, String.toList_ofList,
    String.toList_ofList, pieces_withRunHash]

/-- The name of a worklet does not wait for its file. -/
theorem not_hasContentHash_workletTemplate (template : String) :
    hasContentHash (workletTemplate template) = false := by
  rw [hasContentHash, pieces_workletTemplate, List.any_map, List.any_eq_false]
  intro piece _
  simp [not_isContentHash_withRunHash]

theorem flatMap_render_literal (values : Values) (text : List Char) :
    (text.map Piece.literal).flatMap (Piece.render values) = text := by
  induction text with
  | nil => rfl
  | cons c rest ih => rw [List.map_cons, List.flatMap_cons, ih]; rfl

/-- A worklet is named by the pieces of its template, with the hash of the build for that of the
file. -/
theorem toList_render_workletTemplate (template : String) {values : Values} {hash : String}
    (hhash : values.hash = some hash) :
    (render (workletTemplate template) values).toList =
      (pieces (insertWorklet template.toList)).flatMap
        (Piece.render { values with contentHash := some hash }) := by
  rw [toList_render, pieces_workletTemplate, List.flatMap_map]
  exact congrArg (fun give => List.flatMap give _) (funext (render_withRunHash hhash))

/-- The name of a worklet does not depend on its file.  With the hash of the build for the hash of
the file it is the name that the template of the parent gives, with `.worklet` in front of the
extension if that template ends in one.  All else in the template stays as it was. -/
theorem worklet_named_by_parent (template : String) :
    hasContentHash (workletTemplate template) = false ∧
    pieces (workletTemplate template).toList =
      (pieces (insertWorklet template.toList)).map Piece.withRunHash ∧
    ∀ values hash, values.hash = some hash →
      (∀ front letters, EndsInExtension template.toList front letters →
        ∃ named, (render template { values with contentHash := some hash }).toList =
            named ++ '.' :: letters ∧
          (render (workletTemplate template) values).toList =
            named ++ ".worklet".toList ++ '.' :: letters) ∧
      ((¬ ∃ front letters, EndsInExtension template.toList front letters) →
        render (workletTemplate template) values =
          render template { values with contentHash := some hash }) := by
  refine ⟨not_hasContentHash_workletTemplate template, pieces_workletTemplate template,
    fun values hash hhash => ⟨?_, ?_⟩⟩
  · intro front letters hends
    have hopen : '[' ∉ letters := hends.notMem rfl
    have hclose : ']' ∉ letters := hends.notMem rfl
    refine ⟨(pieces front).flatMap (Piece.render { values with contentHash := some hash }), ?_, ?_⟩
    · rw [toList_render, hends.1, pieces_append (by simp [hopen]) (by simp [hclose]),
        List.flatMap_append, flatMap_render_literal]
    · rw [toList_render_workletTemplate template hhash, insertWorklet_of_endsInExtension hends,
        List.append_assoc, pieces_append (by simp [hopen]) (by simp [hclose]),
        List.flatMap_append, flatMap_render_literal]
      simp
  · intro hplain
    apply String.toList_injective
    rw [toList_render_workletTemplate template hhash, insertWorklet_of_not_endsInExtension hplain,
      toList_render]

/-- A template with brackets within brackets, two modifiers and a digit that spells no number. -/
def nestedTemplate : String := "[[contenthash:12:4]-[name[chunkhash:٣]].JS"

/-- What is known when this template is rendered. -/
def nestedValues : Values := { name := some "a", hash := some "0123456789abcdef" }

theorem worklet_named_by_parent_nested :
    hasContentHash (workletTemplate nestedTemplate) = false ∧
      render nestedTemplate { nestedValues with contentHash := some "0123456789abcdef" } =
        "[0123456789ab-[name01234567].JS" ∧
      render (workletTemplate nestedTemplate) nestedValues =
        "[0123456789ab-[name01234567].worklet.JS" := by
  obtain ⟨hkept, _, hnames⟩ := worklet_named_by_parent nestedTemplate
  obtain ⟨named, hparent, hworklet⟩ := (hnames nestedValues "0123456789abcdef" rfl).1
    "[[contenthash:12:4]-[name[chunkhash:٣]]".toList ['J', 'S']
    ⟨by decide +kernel, by decide, List.all_eq_true.mp (by decide)⟩
  have hname : render nestedTemplate
      { nestedValues with contentHash := some "0123456789abcdef" } =
        "[0123456789ab-[name01234567].JS" := by decide +kernel
  refine ⟨hkept, hname, ?_⟩
  have hnamed : named = "[0123456789ab-[name01234567]".toList := by
    have htext : named ++ ['.', 'J', 'S'] =
        "[0123456789ab-[name01234567]".toList ++ ['.', 'J', 'S'] := by
      rw [← hparent, hname]
      decide +kernel
    exact List.append_cancel_right htext
  apply String.toList_injective
  rw [hworklet, hnamed]
  decide +kernel

end WebBundle.Filename

import Mathlib.Data.List.Basic
import WebBundle.Proofs.Syntax.Names

/-!
# Where tokens stand

The reader of tokens only ever moves forward over whole characters.  So the start and the
end of every token are boundaries of characters of the source, and every token but the last
one covers at least one character.
-/

namespace WebBundle.Syntax

/-! ## Cursors -/

/-- A cursor stands in a text if the characters in front of it fill its offset. -/
def Cursor.StandsIn (source : String) (cursor : Cursor) : Prop :=
  ∃ before, source = before ++ String.ofList cursor.chars ∧ cursor.offset = before.utf8ByteSize

namespace Cursor

variable {source : String} {cursor : Cursor}

theorem standsIn_ofText (source : String) : (ofText source).StandsIn source :=
  ⟨"", by simp [ofText], rfl⟩

/-- The offset of a cursor is a boundary of characters. -/
theorem StandsIn.isValid (h : cursor.StandsIn source) :
    (String.Pos.Raw.mk cursor.offset).IsValid source := by
  obtain ⟨before, hsource, hoffset⟩ := h
  refine String.Pos.Raw.isValid_iff_exists_append.mpr ⟨before, _, hsource, ?_⟩
  rw [hoffset]
  rfl

theorem StandsIn.next {c : Char} {rest : List Char} {offset : Nat}
    (h : StandsIn source ⟨c :: rest, offset⟩) : StandsIn source ⟨rest, offset + c.utf8Size⟩ := by
  obtain ⟨before, hsource, hoffset⟩ := h
  refine ⟨before ++ String.ofList [c], ?_, ?_⟩
  · rw [hsource, String.append_assoc, ← String.ofList_append]
    rfl
  · rw [String.utf8ByteSize_append, ← hoffset]
    simp

theorem StandsIn.advance (h : cursor.StandsIn source) (count : Nat) :
    (cursor.advance count).StandsIn source := by
  fun_induction Cursor.advance count cursor with
  | case1 => exact h
  | case2 => exact h
  | case3 count c rest offset ih => exact ih h.next

theorem offset_le_advance (cursor : Cursor) (count : Nat) :
    cursor.offset ≤ (cursor.advance count).offset := by
  fun_induction Cursor.advance count cursor with
  | case1 => exact Nat.le_refl _
  | case2 => exact Nat.le_refl _
  | case3 count c rest offset ih => exact Nat.le_trans (Nat.le_add_right _ _) ih

theorem offset_lt_advance {count : Nat} (hcount : 0 < count) (hchars : cursor.chars ≠ []) :
    cursor.offset < (cursor.advance count).offset := by
  obtain ⟨chars, offset⟩ := cursor
  cases chars with
  | nil => exact absurd rfl hchars
  | cons c rest =>
      obtain ⟨count, rfl⟩ : ∃ more, count = more + 1 := ⟨count - 1, by omega⟩
      have hsize : 0 < c.utf8Size := c.utf8Size_pos
      have hrest := offset_le_advance ⟨rest, offset + c.utf8Size⟩ count
      rw [Cursor.advance]
      dsimp only at hrest ⊢
      omega

end Cursor

/-! ## Blanks and comments -/

theorem skipGap_standsIn {source : String} (keep : Bool) (skip : Nat) (gap : Gap) (offset : Nat)
    (text : List Char) (h : Cursor.StandsIn source ⟨text, offset⟩) :
    (skipGap keep skip gap offset text).2.StandsIn source := by
  fun_induction skipGap keep skip gap offset text with
  | case1 => exact h
  | case2 gap offset skip c rest ih => exact ih h.next
  | case3 gap offset rest text ih => exact ih h.next
  | case4 gap offset rest text hend ih => exact ih h.next
  | case5 => exact h
  | case6 gap offset c rest _ _ hline ih => exact ih h.next
  | case7 gap offset c rest _ _ hline hblank ih => exact ih h.next
  | case8 => exact h

theorem offset_le_skipGap (keep : Bool) (skip : Nat) (gap : Gap) (offset : Nat)
    (text : List Char) : offset ≤ (skipGap keep skip gap offset text).2.offset := by
  fun_induction skipGap keep skip gap offset text with
  | case1 => exact Nat.le_refl _
  | case5 => exact Nat.le_refl _
  | case8 => exact Nat.le_refl _
  | case2 _ _ _ _ _ ih => exact Nat.le_trans (Nat.le_add_right _ _) ih
  | case3 _ _ _ _ ih => exact Nat.le_trans (Nat.le_add_right _ _) ih
  | case4 _ _ _ _ _ ih => exact Nat.le_trans (Nat.le_add_right _ _) ih
  | case6 _ _ _ _ _ _ _ ih => exact Nat.le_trans (Nat.le_add_right _ _) ih
  | case7 _ _ _ _ _ _ _ _ ih => exact Nat.le_trans (Nat.le_add_right _ _) ih

/-! ## The characters of a token -/

theorem countDigits?_pos {isDigit : Char → Bool} {text : List Char} {count : Nat}
    (hcount : countDigits? isDigit text = some count) : 0 < count := by
  rw [countDigits?] at hcount
  split at hcount
  · cases hcount
  · split at hcount
    · cases hcount
      rename_i hrun _
      rw [hrun]
      exact Nat.succ_pos _
    · cases hcount

theorem withBigint_pos (text : List Char) {used : Nat} (hused : 0 < used) :
    0 < (withBigint text used).1 := by
  rw [withBigint]
  split
  · exact Nat.succ_pos _
  · exact hused

theorem countFraction?_pos {rest : List Char} {count : Nat}
    (hcount : countFraction? ('.' :: rest) = some count) : 0 < count := by
  unfold countFraction? at hcount
  split at hcount
  · rename_i heq
    cases heq
    split at hcount
    · split at hcount
      · split at hcount
        · obtain ⟨more, _, rfl⟩ := Option.map_eq_some_iff.mp hcount
          exact Nat.succ_pos _
        · cases hcount
      · obtain ⟨more, _, rfl⟩ := Option.map_eq_some_iff.mp hcount
        exact Nat.succ_pos _
    · cases hcount
      exact Nat.one_pos
  · rename_i hpoint
    exact absurd rfl (hpoint rest)

theorem countNumber?_pos {text : List Char} {number : Nat × Bool}
    (hcount : countNumber? text = some number) : 0 < number.1 := by
  unfold countNumber? at hcount
  split at hcount
  · rename_i mark rest
    split at hcount
    · obtain ⟨digits, _, rfl⟩ := Option.map_eq_some_iff.mp hcount
      exact withBigint_pos _ (Nat.succ_pos _)
    · split at hcount
      · have hfirst : 0 < (('0' :: mark :: rest).takeWhile Char.isDigit).length := by
          rw [List.takeWhile_cons_of_pos (by decide)]
          exact Nat.succ_pos _
        dsimp only at hcount
        split at hcount
        · cases hcount
          exact hfirst
        · obtain ⟨more, _, rfl⟩ := Option.map_eq_some_iff.mp hcount
          exact Nat.add_pos_left hfirst more
      · split at hcount
        · cases hcount
        · split at hcount
          · cases hcount
            exact Nat.two_pos
          · obtain ⟨more, _, rfl⟩ := Option.map_eq_some_iff.mp hcount
            exact Nat.add_pos_left Nat.one_pos more
  · obtain ⟨count, hfraction, rfl⟩ := Option.map_eq_some_iff.mp hcount
    exact countFraction?_pos hfraction
  · split at hcount
    · cases hcount
    · rename_i digits hdigits
      have hfirst : 0 < digits := countDigits?_pos hdigits
      split at hcount
      · cases hcount
        exact Nat.succ_pos _
      · obtain ⟨more, _, rfl⟩ := Option.map_eq_some_iff.mp hcount
        exact Nat.add_pos_left hfirst more

theorem readNumber?_pos {text : List Char} {number : Nat × Bool}
    (hread : readNumber? text = some number) : 0 < number.1 := by
  rw [readNumber?] at hread
  split at hread
  · cases hread
  · rename_i used isBigint hcount
    have hpos : 0 < used := countNumber?_pos hcount
    split at hread
    · split at hread
      · cases hread
      · cases hread
        exact hpos
    · cases hread
      exact hpos

theorem readMark?_pos {text : List Char} {mark : Mark × Nat}
    (hread : readMark? text = some mark) : 0 < mark.2 := by
  rw [readMark?.eq_def] at hread
  split at hread
  · cases hread
  · split at hread
    · split at hread
      · cases hread
        exact Nat.one_pos
      · cases hread
        exact Nat.two_pos
    · cases hread
      exact Nat.two_pos
  · rename_i found spelling _ hfind
    have hspelling : ∀ entry ∈ Mark.spellings, 0 < entry.2.length := by decide +kernel
    cases hread
    exact hspelling _ (List.mem_of_find?_eq_some hfind)

/-- A name has no more characters than it is spelled with. -/
theorem length_le_readNameFrom? {isFirst : Bool} {skip : Nat} {text name : List Char}
    {used : Nat} {escaped : Bool}
    (hread : readNameFrom? isFirst skip text = some (name, used, escaped)) :
    name.length ≤ used := by
  fun_induction readNameFrom? isFirst skip text generalizing name used escaped with
  | case1 isFirst skip c rest ih =>
      obtain ⟨⟨inner, length, mark⟩, hinner, heq⟩ := Option.map_eq_some_iff.mp hread
      cases heq
      exact Nat.le_succ_of_le (ih hinner)
  | case3 isFirst after c units hpoint hplace inner length mark hinner ih =>
      rw [hinner] at hread
      cases hread
      exact Nat.succ_le_succ (ih hinner)
  | case4 isFirst after c units hpoint hplace hinner ih =>
      rw [hinner] at hread
      cases hread
  | case8 isFirst c rest hescape hplace inner length mark hinner ih =>
      cases hread
      exact Nat.succ_le_succ (ih hinner)
  | _ =>
      cases hread
      all_goals exact Nat.le_refl 0

theorem readName?_pos {text name : List Char} {used : Nat} {escaped : Bool}
    (hread : readName? text = some (name, used, escaped)) : 0 < used := by
  rw [readName?] at hread
  split at hread
  · cases hread
  · rename_i hname
    refine Nat.lt_of_lt_of_le (List.length_pos_iff.mpr ?_) (length_le_readNameFrom? hread)
    rintro rfl
    exact hname _ hread

/-- Every token but the end of the source and an invalid one has characters. -/
theorem readKind_used (text : List Char) :
    (readKind text).1 = .finish ∨ (readKind text).1 = .invalid ∨
      0 < (readKind text).2 ∧ text ≠ [] := by
  fun_cases readKind text with
  | case1 => exact .inl rfl
  | case9 _ _ _ _ _ _ isNumber _ used isBigint hnumber =>
      rw [hnumber]
      exact .inr (.inr ⟨readNumber?_pos hnumber, List.cons_ne_nil _ _⟩)
  | case10 _ _ _ _ _ _ isNumber _ hnumber =>
      rw [hnumber]
      exact .inr (.inl rfl)
  | case11 _ _ _ _ _ _ isNumber _ mark used hmark =>
      rw [hmark]
      exact .inr (.inr ⟨readMark?_pos hmark, List.cons_ne_nil _ _⟩)
  | case12 _ _ _ _ _ _ isNumber _ name used escaped hmark hname =>
      rw [hmark]
      simp only [hname]
      exact .inr (.inr ⟨readName?_pos hname, List.cons_ne_nil _ _⟩)
  | case13 _ _ _ _ _ _ isNumber _ hmark hname =>
      rw [hmark]
      simp only [hname]
      exact .inr (.inl trivial)
  | _ => first
    | exact .inr (.inl rfl)
    | exact .inr (.inr ⟨Nat.succ_pos _, List.cons_ne_nil _ _⟩)

/-! ## Tokens -/

namespace Token

/-- A token whose ends are boundaries of characters.  Only the end of the source and an
invalid token may have no characters. -/
structure Placed (source : String) (token : Token) : Prop where
  start : token.start.StandsIn source
  stop : token.stop.StandsIn source
  le : token.start.offset ≤ token.stop.offset
  lt : token.kind ≠ .finish → token.kind ≠ .invalid → token.start.offset < token.stop.offset

variable {source : String} {token : Token}

theorem placed_readToken (keep : Bool) (gap : Gap) {cursor : Cursor}
    (h : cursor.StandsIn source) : (readToken keep gap cursor).Placed source := by
  have hstart := skipGap_standsIn keep 0 gap cursor.offset cursor.chars h
  refine ⟨hstart, hstart.advance _, Cursor.offset_le_advance _ _, ?_⟩
  intro hfinish hinvalid
  obtain heq | heq | ⟨hused, hchars⟩ :=
    readKind_used (skipGap keep 0 gap cursor.offset cursor.chars).2.chars
  · exact absurd heq hfinish
  · exact absurd heq hinvalid
  · exact Cursor.offset_lt_advance hused hchars

theorem placed_firstToken (source : String) : (firstToken (.ofText source)).Placed source := by
  have hstart := Cursor.standsIn_ofText source
  rw [firstToken]
  split
  · exact placed_readToken _ _ (hstart.advance _)
  · exact placed_readToken _ _ hstart

theorem Placed.next (h : token.Placed source) : token.next.Placed source :=
  placed_readToken _ _ h.stop

theorem stop_le_next (token : Token) : token.stop.offset ≤ token.next.start.offset :=
  offset_le_skipGap _ _ _ _ _

/-- A token that is read again from where it begins, and that has characters then. -/
theorem Placed.reread (h : token.Placed source) (kind : TokenKind) {used : Nat}
    (hchars : token.start.chars ≠ []) :
    { token with kind, stop := token.start.advance (used + 1) }.Placed source where
  start := h.start
  stop := h.start.advance _
  le := Cursor.offset_le_advance _ _
  lt _ _ := Cursor.offset_lt_advance (Nat.succ_pos used) hchars

theorem Placed.asRegex? {regex : Token} (h : token.Placed source)
    (hregex : token.asRegex? = some regex) :
    regex.Placed source ∧ regex.start = token.start := by
  rw [Token.asRegex?] at hregex
  split at hregex
  · rename_i rest hchars
    obtain ⟨used, _, rfl⟩ := Option.map_eq_some_iff.mp hregex
    exact ⟨h.reread .regex (hchars ▸ List.cons_ne_nil _ _), rfl⟩
  · cases hregex

theorem Placed.asTemplate? {part : Token} (h : token.Placed source)
    (hpart : token.asTemplate? = some part) :
    part.Placed source ∧ part.start = token.start := by
  rw [Token.asTemplate?] at hpart
  split at hpart
  · rename_i rest hchars
    obtain ⟨quasi, _, rfl⟩ := Option.map_eq_some_iff.mp hpart
    exact ⟨h.reread _ (hchars ▸ List.cons_ne_nil _ _), rfl⟩
  · cases hpart

end Token

end WebBundle.Syntax

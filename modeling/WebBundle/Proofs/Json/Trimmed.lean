import WebBundle.Module.Source
import WebBundle.Proofs.Json.Parts

/-!
# Values without white space around them

No value ends with white space: the last character that the reader takes is a quote, a bracket, a
digit or a letter.  So a text that is one value is trimmed to what the reader takes, and nothing
that belongs to the value is lost.
-/

namespace WebBundle.Json

/-- The text in front of some rest ends with a character that is no white space. -/
def EndsSolid (text rest : List Char) : Prop :=
  ∃ front c, text = front ++ c :: rest ∧ isBlank c = false

section Ends

variable {text behind rest : List Char}

theorem EndsSolid.append (part : List Char) (h : EndsSolid text rest) :
    EndsSolid (part ++ text) rest := by
  obtain ⟨front, c, rfl, hsolid⟩ := h
  exact ⟨part ++ front, c, (List.append_assoc _ _ _).symm, hsolid⟩

theorem EndsSolid.cons (c : Char) (h : EndsSolid text rest) : EndsSolid (c :: text) rest :=
  h.append [c]

/-- What may follow ends as well, or there is nothing of it. -/
theorem EndsSolid.trans (h : EndsSolid text behind)
    (hmore : behind = rest ∨ EndsSolid behind rest) : EndsSolid text rest := by
  obtain ⟨front, c, rfl, hsolid⟩ := h
  rcases hmore with rfl | hmore
  · exact ⟨front, c, rfl, hsolid⟩
  · exact (hmore.cons c).append front

theorem EndsSolid.skip (h : EndsSolid (skipBlank text) rest) : EndsSolid text rest := by
  obtain ⟨blanks, htext, -⟩ := skipBlank_eq (rfl : skipBlank text = skipBlank text)
  rw [htext]
  exact h.append blanks

/-! ## Strings and numbers -/

theorem endsSolid_elements {elements : List Element}
    (hread : readElements? text = some (elements, rest)) : EndsSolid text rest := by
  fun_induction readElements? text generalizing elements with
  | case1 => cases hread
  | case2 text =>
      cases hread
      exact ⟨[], '"', rfl, rfl⟩
  | case3 a b c d text value unread later last hlater hunit ih =>
      cases hread
      exact (ih hlater).append ['\\', 'u', a, b, c, d]
  | case4 => cases hread
  | case5 letter text hplain c later last hlater hescape ih =>
      cases hread
      exact (ih hlater).append ['\\', letter]
  | case6 => cases hread
  | case7 => cases hread
  | case8 c text hquote hunit hescape hplain later last hlater ih =>
      cases hread
      exact (ih hlater).cons c
  | case9 => cases hread

theorem endsSolid_string {value : Option String}
    (hread : readString? text = some (value, rest)) : EndsSolid text rest := by
  obtain ⟨⟨elements, last⟩, helements, heq⟩ := Option.map_eq_some_iff.mp hread
  cases heq
  exact endsSolid_elements helements

theorem isBlank_of_isDigit {c : Char} (hdigit : c.isDigit = true) : isBlank c = false := by
  by_contra hblank
  simp only [Bool.not_eq_false, isBlank, Bool.or_eq_true, decide_eq_true_eq] at hblank
  rcases hblank with ((rfl | rfl) | rfl) | rfl <;> cases hdigit

theorem endsSolid_digits {digits : List Char}
    (hread : readDigits? text = some (digits, rest)) : EndsSolid text rest := by
  obtain ⟨rfl, hempty, hdigits⟩ := readDigits?_eq_some hread
  exact ⟨digits.dropLast, digits.getLast hempty,
    by rw [List.append_cons, List.dropLast_concat_getLast],
    isBlank_of_isDigit (hdigits _ (List.getLast_mem hempty))⟩

theorem endsSolid_whole {whole : List Char}
    (hread : readWhole? text = some (whole, rest)) : EndsSolid text rest := by
  rw [readWhole?.eq_def] at hread
  split at hread
  · rename_i behind
    have hbehind : behind = rest := by
      split at hread
      · split at hread <;> cases hread
        rfl
      · cases hread
        rfl
    exact ⟨[], '0', by rw [hbehind]; rfl, rfl⟩
  · exact endsSolid_digits hread

theorem endsSolid_fraction {fraction : List Char}
    (hread : readFraction? text = some (fraction, rest)) : text = rest ∨ EndsSolid text rest := by
  rw [readFraction?.eq_def] at hread
  split at hread
  · obtain ⟨⟨digits, last⟩, hdigits, heq⟩ := Option.map_eq_some_iff.mp hread
    cases heq
    exact .inr ((endsSolid_digits hdigits).cons '.')
  · cases hread
    exact .inl rfl

theorem endsSolid_exponent {exponent : List Char}
    (hread : readExponent? text = some (exponent, rest)) : text = rest ∨ EndsSolid text rest := by
  rw [readExponent?.eq_def] at hread
  split at hread
  · rename_i mark behind
    split at hread
    · split at hread
      · rename_i sign after
        split at hread
        all_goals
          obtain ⟨⟨digits, last⟩, hdigits, heq⟩ := Option.map_eq_some_iff.mp hread
          cases heq
        · exact .inr ((endsSolid_digits hdigits).append [mark, sign])
        · exact .inr ((endsSolid_digits hdigits).cons mark)
      · cases hread
    · cases hread
      exact .inl rfl
  · cases hread
    exact .inl rfl

theorem endsSolid_number {spelling : List Char}
    (hread : readNumber? text = some (spelling, rest)) : EndsSolid text rest := by
  rw [readNumber?.eq_def] at hread
  split at hread
  rename_i sign unsigned hsign
  simp only [Option.bind_eq_bind, Option.bind_eq_some_iff, Option.some.injEq, Prod.mk.injEq,
    Prod.exists] at hread
  obtain ⟨whole, behind, hwhole, fraction, later, hfraction, exponent, last, hexponent, rfl,
    rfl⟩ := hread
  have hunsigned : EndsSolid unsigned last :=
    ((endsSolid_whole hwhole).trans (endsSolid_fraction hfraction)).trans
      (endsSolid_exponent hexponent)
  split at hsign
  · cases hsign
    exact hunsigned.cons '-'
  · cases hsign
    exact hunsigned

/-! ## Arrays and objects -/

/-- A list ends with the bracket that closes it. -/
theorem endsSolid_list {α : Type} {close : Char} {one : Nat → List Char → Option (α × List Char)}
    {reader : Nat → List Char → Option (List α × List Char)} (hclose : isBlank close = false)
    (hzero : ∀ text, reader 0 text = none)
    (hsucc : ∀ fuel text, reader (fuel + 1) text =
      (one fuel text).bind fun (item, rest) => readMore close item (reader fuel) rest)
    (hone : ∀ {fuel text item rest}, one fuel text = some (item, rest) →
      ∃ part, text = part ++ rest)
    {fuel : Nat} {found : List α} (hread : reader fuel text = some (found, rest)) :
    EndsSolid text rest := by
  induction fuel generalizing text found with
  | zero =>
      rw [hzero] at hread
      cases hread
  | succ fuel ih =>
      rw [hsucc] at hread
      obtain ⟨⟨item, behind⟩, hitem, hmore⟩ := Option.bind_eq_some_iff.mp hread
      obtain ⟨part, rfl⟩ := hone hitem
      refine EndsSolid.append part (EndsSolid.skip ?_)
      dsimp only at hmore
      rw [readMore] at hmore
      split at hmore
      · rename_i hclosed
        obtain ⟨more, hskip⟩ := List.head?_eq_some_iff.mp hclosed
        rw [hskip] at hmore ⊢
        cases hmore
        exact ⟨[], close, rfl, hclose⟩
      · split at hmore
        · rename_i hcomma
          obtain ⟨more, hskip⟩ := List.head?_eq_some_iff.mp hcomma
          rw [hskip] at hmore ⊢
          obtain ⟨⟨items, last⟩, hitems, heq⟩ := Option.map_eq_some_iff.mp hmore
          cases heq
          exact (ih hitems).skip.cons ','
        · cases hmore

theorem endsSolid_between {α : Type} {close : Char} {wrap : List α → Json}
    {reader : Nat → List Char → Option (List α × List Char)} {fuel : Nat} {value : Json}
    (hclose : isBlank close = false)
    (hreader : ∀ {text found}, reader fuel text = some (found, rest) → EndsSolid text rest)
    (hread : readBetween close wrap reader fuel text = some (value, rest)) :
    EndsSolid text rest := by
  refine EndsSolid.skip ?_
  rw [readBetween] at hread
  split at hread
  · rename_i hclosed
    obtain ⟨more, hskip⟩ := List.head?_eq_some_iff.mp hclosed
    rw [hskip] at hread ⊢
    cases hread
    exact ⟨[], close, rfl, hclose⟩
  · obtain ⟨⟨found, last⟩, hfound, heq⟩ := Option.map_eq_some_iff.mp hread
    cases heq
    exact hreader hfound

theorem endsSolid_value {fuel : Nat} {value : Json}
    (hread : readValue? fuel text = some (value, rest)) : EndsSolid text rest := by
  cases fuel with
  | zero => cases hread
  | succ fuel =>
      have hread' := hread
      rw [readValue?.eq_def] at hread
      dsimp only at hread
      split at hread
      · cases hread
        exact ⟨['n', 'u', 'l'], 'l', rfl, rfl⟩
      · cases hread
        exact ⟨['t', 'r', 'u'], 'e', rfl, rfl⟩
      · cases hread
        exact ⟨['f', 'a', 'l', 's'], 'e', rfl, rfl⟩
      · obtain ⟨⟨found, last⟩, hstring, heq⟩ := Option.map_eq_some_iff.mp hread
        cases heq
        exact (endsSolid_string hstring).cons '"'
      · rw [readValue?_bracket] at hread'
        refine (endsSolid_between rfl (fun hitems => endsSolid_list rfl (fun _ => rfl)
          readItems?_succ (fun hitem => ?_) hitems) hread').cons '['
        obtain ⟨part, -, htext, -⟩ := (allTake _).value hitem
        exact ⟨part, htext⟩
      · rw [readValue?_brace] at hread'
        refine (endsSolid_between rfl (fun hmembers => endsSolid_list rfl (fun _ => rfl)
          readMembers?_succ (fun hmember => ?_) hmembers) hread').cons '\x7b'
        obtain ⟨part, -, htext, -⟩ := readMember?_takes (allTake _).value hmember
        exact ⟨part, htext⟩
      · obtain ⟨⟨spelling, last⟩, hnumber, heq⟩ := Option.map_eq_some_iff.mp hread
        cases heq
        exact endsSolid_number hnumber

end Ends

/-! ## Trimming -/

/-- White space around a text that neither begins nor ends with any is trimmed. -/
theorem trim_eq {text front rest : List Char} {c : Char}
    (hskip : skipBlank text = front ++ c :: rest) (hsolid : isBlank c = false)
    (hrest : skipBlank rest = []) : ModuleSource.trim text = front ++ [c] := by
  have hblanks : ∀ other ∈ rest.reverse, isBlank other = true := fun other hother =>
    List.dropWhile_eq_nil_iff.mp hrest other (List.mem_reverse.mp hother)
  have hreverse : (front ++ c :: rest).reverse = rest.reverse ++ c :: front.reverse := by simp
  rw [skipBlank] at hskip
  rw [ModuleSource.trim, hskip, hreverse, List.dropWhile_append_of_pos hblanks,
    List.dropWhile_cons_of_neg (by simp [hsolid])]
  simp

/-- A text that is one value is trimmed to a text that is read as this value in front of every
text that no number goes on with. -/
theorem readValue?_trim {text : String} {value : Json} (hread : read? text = some value) :
    ∃ fuel, ∀ behind, Stops behind →
      readValue? fuel (ModuleSource.trim text.toList ++ behind) = some (value, behind) := by
  rw [read?] at hread
  split at hread
  · rename_i found rest hpart
    split at hread
    · rename_i hempty
      cases hread
      obtain ⟨front, c, hskip, hsolid⟩ := endsSolid_value hpart
      have htrim := trim_eq hskip hsolid (List.isEmpty_iff.mp hempty)
      obtain ⟨part, -, hpart, htaken⟩ := (allTake _).value hpart
      have hfront : (front ++ [c]) ++ rest = part ++ rest := by
        rw [← hpart, hskip, List.append_assoc]
        rfl
      rw [htrim, List.append_cancel_right hfront]
      exact ⟨2 * part.length, fun behind hbehind => htaken _ behind (Nat.le_refl _) hbehind⟩
    · cases hread
  · cases hread

end WebBundle.Json

import WebBundle.Proofs.Syntax.Reading
import WebBundle.Syntax.Grammar.Name

/-!
# Names that are read

The characters of a name, written with escapes or without, are those that an
identifier may have.  So the name of a word token is the name of the variable that it
stands for, character for character.
-/

namespace WebBundle.Syntax

open Identifier Reading

theorem isContinue_of_place {isFirst : Bool} {c : Char}
    (hplace : (if isFirst then isStart c else isContinue c) = true) : isContinue c = true := by
  cases isFirst with
  | true => exact isContinue_of_isStart hplace
  | false => exact hplace

theorem isPlain_readNameFrom? {isFirst : Bool} {skip : Nat} {text name : List Char} {used : Nat}
    {escaped : Bool} (hread : readNameFrom? isFirst skip text = some (name, used, escaped)) :
    name.all isContinue = true := by
  fun_induction readNameFrom? isFirst skip text generalizing name used escaped with
  | case1 isFirst skip c rest ih =>
      -- a character of an escape that has been read
      rw [Option.map_eq_some_iff] at hread
      obtain ⟨⟨inner, length, mark⟩, hinner, heq⟩ := hread
      cases heq
      exact ih hinner
  | case2 => cases hread; rfl
  | case3 isFirst after c units hpoint hplace inner length mark hinner ih =>
      rw [hinner] at hread
      cases hread
      rw [List.all_cons, isContinue_of_place hplace, ih hinner]
      rfl
  | case4 isFirst after c units hpoint hplace hinner ih =>
      rw [hinner] at hread
      cases hread
  | case5 => cases hread
  | case6 => cases hread
  | case7 => cases hread
  | case8 isFirst c rest hescape hplace inner length mark hinner ih =>
      cases hread
      rw [List.all_cons, isContinue_of_place hplace, ih hinner]
      rfl
  | case9 => cases hread
  | case10 => cases hread; rfl

theorem isPlain_readName? {text name : List Char} {used : Nat} {escaped : Bool}
    (hread : readName? text = some (name, used, escaped)) : name.all isContinue = true := by
  rw [readName?] at hread
  split at hread
  · cases hread
  · exact isPlain_readNameFrom? hread

/-- The name of a word token has only characters that a name may have. -/
theorem isPlain_readKind {text : List Char} {word : Word} {name : String} {escaped : Bool} :
    (readKind text).1 = .word word name escaped → name.toList.all isContinue = true := by
  fun_cases readKind text with
  | case9 _ _ _ _ _ _ isNumber _ used isBigint hnumber =>
      rw [hnumber]
      cases isBigint <;> exact fun hkind => by cases hkind
  | case10 _ _ _ _ _ _ isNumber _ hnumber =>
      rw [hnumber]
      exact fun hkind => by cases hkind
  | case11 _ _ _ _ _ _ isNumber _ mark used hmark =>
      rw [hmark]
      exact fun hkind => by cases hkind
  | case12 _ _ _ _ _ _ isNumber _ read used mark hmark hread =>
      rw [hmark]
      simp only [hread]
      intro hkind
      cases hkind
      rw [String.toList_ofList]
      exact isPlain_readName? hread
  | case13 _ _ _ _ _ _ isNumber _ hmark hread =>
      rw [hmark]
      simp only [hread]
      exact fun hkind => by cases hkind
  | _ => exact fun hkind => by cases hkind

/-- A reference has the name of the word that it is read from. -/
theorem reference_text {context : Context} {progress after : Progress} {node : Node}
    (htoken : progress.token.kind = (readKind progress.token.start.chars).1)
    (hread : Grammar.reference context progress = some (node, after)) :
    ∃ word escaped variable_, progress.token.kind = .word word variable_.text escaped ∧
      node.kind = .reference variable_ := by
  cases hkind : progress.token.kind with
  | word word name escaped =>
      have hname : (Name.ofText name).text = name :=
        Name.text_ofText (isPlain_readKind (htoken.symm.trans hkind))
      refine ⟨word, escaped, .ofText name, by rw [hname], ?_⟩
      have hadvance : advance context progress = some (progress.token, pass progress) :=
        advance_apply (by simp [hkind]) (by simp [hkind])
      cases hword : Grammar.isIdentifier context word with
      | true =>
          simp [Grammar.reference, Grammar.identifier, Grammar.atIdentifier, Grammar.anyWord,
            hkind, hword, hadvance] at hread
          rw [← hread.1]
          rfl
      | false =>
          simp [Grammar.reference, Grammar.identifier, Grammar.atIdentifier, hkind, hword, check,
            refuse] at hread
  | _ =>
      simp [Grammar.reference, Grammar.identifier, Grammar.atIdentifier, hkind, check,
        refuse] at hread

end WebBundle.Syntax

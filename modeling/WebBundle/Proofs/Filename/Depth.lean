import Mathlib.Data.List.TakeWhile
import WebBundle.Output.Asset

/-!
# How deep a file lies

A placeholder is written without a slash, and so is a hash.  So the hashes that are put
into a template do not change the number of directories in the name.
-/

namespace WebBundle

theorem Digest.slash_notMem_toHex (digest : Digest) : '/' ∉ digest.toHex.toList := by
  rw [toHex, String.toList_ofList]
  intro hslash
  exact absurd (mem_hexDigits hslash) (by decide)

namespace Filename

/-! ## Placeholders -/

theorem isDecimal_of_readModifiers {count : Nat} {text : List Char} {digits : List Char}
    (hdigits : digits ∈ (readModifiers count text).1) : ∀ c ∈ digits, Digit.isDecimal c = true := by
  induction count generalizing text with
  | zero => cases hdigits
  | succ count ih =>
      unfold readModifiers at hdigits
      split at hdigits
      · rename_i after
        split at hdigits
        · cases hdigits
        · rename_i first hfirst
          rcases List.mem_cons.mp hdigits with rfl | hmore
          · exact fun c hc => List.mem_takeWhile_imp hc
          · exact ih hmore
      · cases hdigits

/-- A placeholder whose modifiers are digits. -/
def Placeholder.IsPlain (placeholder : Placeholder) : Prop :=
  ∀ digits ∈ placeholder.modifiers, ∀ c ∈ digits, Digit.isDecimal c = true

theorem isPlain_of_readPlaceholder {text rest : List Char} {placeholder : Placeholder}
    (hread : readPlaceholder? text = some (placeholder, rest)) : placeholder.IsPlain := by
  obtain ⟨field, -, hfield⟩ := List.exists_of_findSome?_eq_some hread
  rw [readField?] at hfield
  split at hfield
  · cases hfield
  · rename_i after hafter
    split at hfield
    · rename_i modifiers tail hmodifiers
      cases hfield
      intro digits hdigits
      apply @isDecimal_of_readModifiers 2 after
      rw [hmodifiers]
      exact hdigits
    · cases hfield

theorem isPlain_of_mem_pieces {text : List Char} {placeholder : Placeholder}
    (hmem : Piece.placeholder placeholder ∈ pieces text) : placeholder.IsPlain := by
  induction text using pieces.induct with
  | case1 =>
      rw [pieces] at hmem
      cases hmem
  | case2 rest hole after hread ih =>
      rw [pieces, if_pos rfl] at hmem
      split at hmem
      · rename_i found behind hfound
        obtain ⟨rfl, rfl⟩ : found = hole ∧ behind = after := by simpa [hread] using hfound.symm
        rcases List.mem_cons.mp hmem with hhole | hrest
        · cases hhole
          exact isPlain_of_readPlaceholder hread
        · exact ih hrest
      · rename_i hnone
        rw [hread] at hnone
        cases hnone
  | case3 rest hread ih =>
      rw [pieces, if_pos rfl] at hmem
      split at hmem
      · rename_i found behind hfound
        rw [hread] at hfound
        cases hfound
      · rcases List.mem_cons.mp hmem with hliteral | hrest
        · cases hliteral
        · exact ih hrest
  | case4 c rest hc ih =>
      rw [pieces, if_neg hc] at hmem
      rcases List.mem_cons.mp hmem with hliteral | hrest
      · cases hliteral
      · exact ih hrest

theorem append_dropStart {start text after : List Char}
    (hdrop : dropStart? start text = some after) : start ++ after = text := by
  induction start generalizing text with
  | nil =>
      cases hdrop
      rfl
  | cons expected start ih =>
      cases text with
      | nil => cases hdrop
      | cons c text =>
          rw [dropStart?] at hdrop
          split at hdrop
          · rename_i hc
            rw [hc, List.cons_append, ih hdrop]
          · cases hdrop

theorem flatMap_readModifiers (count : Nat) (text : List Char) :
    (readModifiers count text).1.flatMap (fun digits => ':' :: digits) ++
      (readModifiers count text).2 = text := by
  induction count generalizing text with
  | zero => rfl
  | succ count ih =>
      unfold readModifiers
      split
      · rename_i after
        split
        · rfl
        · rw [List.flatMap_cons, List.append_assoc, ih, List.cons_append,
            List.takeWhile_append_dropWhile]
      · rfl

theorem text_of_readPlaceholder {text rest : List Char} {placeholder : Placeholder}
    (hread : readPlaceholder? text = some (placeholder, rest)) :
    placeholder.text ++ rest = '[' :: text := by
  obtain ⟨field, -, hfield⟩ := List.exists_of_findSome?_eq_some hread
  rw [readField?] at hfield
  split at hfield
  · cases hfield
  · rename_i after hafter
    split at hfield
    · rename_i modifiers tail hmodifiers
      cases hfield
      have hread := flatMap_readModifiers 2 after
      rw [hmodifiers] at hread
      rw [Placeholder.text, ← append_dropStart hafter, ← hread]
      simp
    · cases hfield

/-- A template is made of its pieces. -/
theorem flatMap_pieces (text : List Char) : (pieces text).flatMap Piece.text = text := by
  induction text using pieces.induct with
  | case1 =>
      rw [pieces]
      rfl
  | case2 rest hole after hread ih =>
      rw [pieces, if_pos rfl]
      split
      · rename_i found behind hfound
        obtain ⟨rfl, rfl⟩ : found = hole ∧ behind = after := by simpa [hread] using hfound.symm
        rw [List.flatMap_cons, ih, Piece.text, text_of_readPlaceholder hread]
      · rename_i hnone
        rw [hread] at hnone
        cases hnone
  | case3 rest hread ih =>
      rw [pieces, if_pos rfl]
      split
      · rename_i found behind hfound
        rw [hread] at hfound
        cases hfound
      · rw [List.flatMap_cons, ih]
        rfl
  | case4 c rest hc ih =>
      rw [pieces, if_neg hc, List.flatMap_cons, ih]
      rfl

/-- A placeholder is written without a slash. -/
theorem Placeholder.IsPlain.slash_notMem_text {placeholder : Placeholder}
    (h : placeholder.IsPlain) : '/' ∉ placeholder.text := by
  intro hslash
  rw [text, List.mem_append, List.cons_append, List.mem_cons, List.mem_append,
    List.mem_flatMap] at hslash
  rcases hslash with (hopen | hspelling | ⟨digits, hdigits, hslash⟩) | hclose
  · cases hopen
  · revert hspelling
    cases placeholder.field <;> decide
  · rcases List.mem_cons.mp hslash with hcolon | hdigit
    · cases hcolon
    · exact absurd (h digits hdigits '/' hdigit) (by decide +kernel)
  · cases List.mem_singleton.mp hclose

/-! ## Rendering -/

/-- Values whose hashes are written without a slash. -/
structure Values.HashesPlain (values : Values) : Prop where
  hash : ∀ hash ∈ values.hash, '/' ∉ hash.toList
  contentHash : ∀ hash ∈ values.contentHash, '/' ∉ hash.toList

/-- Values that differ at most in their hashes. -/
structure Values.SameButHashes (first second : Values) : Prop where
  name : first.name = second.name
  id : first.id = second.id
  ext : first.ext = second.ext

theorem Placeholder.IsPlain.slash_notMem_truncated {placeholder : Placeholder}
    (h : placeholder.IsPlain) {hash : Option String}
    (hhash : ∀ given ∈ hash, '/' ∉ given.toList) :
    ((hash.map fun given => given.toList.take placeholder.hashLength).getD
      placeholder.text).count '/' = 0 := by
  apply List.count_eq_zero.mpr
  cases hash with
  | none => exact h.slash_notMem_text
  | some given => exact fun hslash => hhash given rfl (List.mem_of_mem_take hslash)

theorem count_render_piece {first second : Values} (hsame : first.SameButHashes second)
    (hfirst : first.HashesPlain) (hsecond : second.HashesPlain) {piece : Piece}
    (hpiece : ∀ placeholder, piece = .placeholder placeholder → placeholder.IsPlain) :
    (piece.render first).count '/' = (piece.render second).count '/' := by
  cases piece with
  | literal c => rfl
  | placeholder hole =>
      have hplain := hpiece hole rfl
      rw [Piece.render, Piece.render, Placeholder.value?, Placeholder.value?]
      cases hole.field with
      | name => rw [hsame.name]
      | id => rw [hsame.id]
      | hash =>
          exact (hplain.slash_notMem_truncated hfirst.hash).trans
            (hplain.slash_notMem_truncated hsecond.hash).symm
      | contentHash | chunkHash =>
          exact (hplain.slash_notMem_truncated hfirst.contentHash).trans
            (hplain.slash_notMem_truncated hsecond.contentHash).symm
      | ext => rw [hsame.ext]
      | extName => rw [hsame.ext]

/-- Hashes do not change how deep a file lies. -/
theorem directoryDepth_render (template : String) {first second : Values}
    (hsame : first.SameButHashes second) (hfirst : first.HashesPlain)
    (hsecond : second.HashesPlain) :
    Output.directoryDepth (render template first) =
      Output.directoryDepth (render template second) := by
  rw [Output.directoryDepth, Output.directoryDepth, render, render, String.toList_ofList,
    String.toList_ofList, List.count_flatMap, List.count_flatMap]
  congr 1
  apply List.map_congr_left
  intro piece hpiece
  apply count_render_piece hsame hfirst hsecond
  rintro placeholder rfl
  exact isPlain_of_mem_pieces hpiece

/-- Without values a template stays as it was written. -/
theorem render_empty (template : String) : render template {} = template := by
  have hpiece : ∀ piece : Piece, piece.render {} = piece.text := by
    intro piece
    cases piece with
    | literal c => rfl
    | placeholder hole =>
        rw [Piece.render, Placeholder.value?]
        cases hole.field <;> rfl
  rw [render, funext hpiece, flatMap_pieces, String.ofList_toList]

/-- The hash of a file does not change how deep it lies. -/
theorem directoryDepth_render_contentHash (template : String) {hash : String}
    (hhash : '/' ∉ hash.toList) :
    Output.directoryDepth (render template ⟨none, none, none, some hash, none⟩) =
      Output.directoryDepth template := by
  calc Output.directoryDepth (render template ⟨none, none, none, some hash, none⟩)
    _ = Output.directoryDepth (render template {}) := by
        apply directoryDepth_render
        · exact ⟨rfl, rfl, rfl⟩
        · exact ⟨fun _ hnone => (Option.not_mem_none _ hnone).elim,
            fun given hgiven => Option.mem_some.mp hgiven ▸ hhash⟩
        · exact ⟨fun _ hnone => (Option.not_mem_none _ hnone).elim,
            fun _ hnone => (Option.not_mem_none _ hnone).elim⟩
    _ = Output.directoryDepth template := by rw [render_empty]

end Filename

end WebBundle

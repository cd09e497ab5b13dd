import WebBundle.Proofs.Filename.Worklet
import WebBundle.Proofs.Output.Hashed

/-!
# Names of chunks

A chunk is named in two steps, because the hash of its content is known only when its code is
there: the first step keeps the placeholders for this hash, and the second one reads what the
first one gave as a template.  If a name has no bracket of one kind outside of placeholders, no
placeholder begins or ends there, so the second step finds the placeholders that the first one
has kept, and the two steps give the name that one step with all values gives.
-/

namespace WebBundle

theorem Digest.notMem_toHex (digest : Digest) {c : Char} (hc : c ∉ "0123456789abcdef".toList) :
    c ∉ digest.toHex.toList := by
  rw [toHex, String.toList_ofList]
  exact fun hmem => hc (mem_hexDigits hmem)

/-- Characters that are not safe in file names are no part of a sanitized name. -/
theorem Text.notMem_sanitizeFileName (text : String) {c : Char}
    (hc : (c.isAlphanum || c = '-' || c = '_' || c = '.') = false) :
    c ∉ (sanitizeFileName text).toList := by
  rw [sanitizeFileName, String.toList_ofList, List.mem_map]
  rintro ⟨other, -, hother⟩
  split at hother
  · rename_i hsafe
    rw [hother, hc] at hsafe
    cases hsafe
  · rw [← hother] at hc
    cases hc

namespace Filename

/-! ## Pieces that are read again -/

theorem isWritten_of_mem_pieces {text : List Char} {placeholder : Placeholder}
    (hmem : .placeholder placeholder ∈ pieces text) : placeholder.IsWritten := by
  induction text using pieces_induction with
  | nil =>
      rw [pieces] at hmem
      cases hmem
  | placeholder hole rest hwritten ih =>
      rw [pieces_placeholder hwritten] at hmem
      rcases List.mem_cons.mp hmem with hhole | hrest
      · cases hhole
        exact hwritten
      · exact ih hrest
  | bracket rest hread ih =>
      rw [pieces_of_readPlaceholder_eq_none hread] at hmem
      exact ih (List.mem_of_ne_of_mem Piece.noConfusion hmem)
  | literal c rest hc ih =>
      rw [pieces_literal hc] at hmem
      exact ih (List.mem_of_ne_of_mem Piece.noConfusion hmem)

/-- Before a closing bracket that ends a placeholder there is the opening one. -/
theorem mem_of_flatMap_text {items : List Piece} (hclose : .literal ']' ∉ items)
    {inside behind : List Char} (htext : items.flatMap Piece.text = inside ++ ']' :: behind) :
    '[' ∈ inside := by
  induction items generalizing inside with
  | nil => simp at htext
  | cons item rest ih =>
      rw [List.mem_cons, not_or] at hclose
      rw [List.flatMap_cons] at htext
      cases item with
      | literal c =>
          cases inside with
          | nil =>
              cases htext
              exact absurd rfl hclose.1
          | cons first inside =>
              exact List.mem_cons_of_mem _ (ih hclose.2 (List.cons.inj htext).2)
      | placeholder hole =>
          cases inside with
          | nil => cases (List.cons.inj htext).1
          | cons first inside =>
              rw [← (List.cons.inj htext).1]
              exact List.mem_cons_self

/-- Pieces that have no bracket of one kind between placeholders are read again as they are. -/
theorem pieces_flatMap_text {items : List Piece}
    (hwritten : ∀ placeholder, .placeholder placeholder ∈ items → placeholder.IsWritten)
    (hbracket : .literal '[' ∉ items ∨ .literal ']' ∉ items) :
    pieces (items.flatMap Piece.text) = items := by
  induction items with
  | nil => rw [List.flatMap_nil, pieces]
  | cons item rest ih =>
      have hrest := ih (fun hole hhole => hwritten hole (List.mem_cons_of_mem _ hhole))
        (hbracket.imp (mt (List.mem_cons_of_mem _)) (mt (List.mem_cons_of_mem _)))
      rw [List.flatMap_cons]
      cases item with
      | placeholder hole =>
          rw [Piece.text, pieces_placeholder (hwritten hole List.mem_cons_self), hrest]
      | literal c =>
          rw [Piece.text, List.singleton_append]
          by_cases hc : c = '['
          · subst hc
            have hclose : .literal ']' ∉ rest := by
              rcases hbracket with hopen | hclose
              · exact absurd List.mem_cons_self hopen
              · exact mt (List.mem_cons_of_mem _) hclose
            have hnone : readPlaceholder? (rest.flatMap Piece.text) = none := by
              rw [Option.eq_none_iff_forall_ne_some]
              rintro ⟨hole, behind⟩ hsome
              obtain ⟨hhole, htext⟩ := readPlaceholder?_eq_some_iff.mp hsome
              obtain ⟨inside, hinside, hopen, -⟩ := exists_text_eq hole hhole
              rw [hinside] at htext
              refine hopen (@mem_of_flatMap_text _ hclose inside behind ?_)
              simpa using (List.cons.inj htext).2.symm
            rw [pieces_of_readPlaceholder_eq_none hnone, hrest]
          · rw [pieces_literal hc, hrest]

/-! ## Two steps -/

/-- What the first step leaves of a piece: the characters of a value that is known, or the piece. -/
def Piece.filled (values : Values) : Piece → List Piece
  | .literal c => [.literal c]
  | .placeholder hole =>
    match hole.value? values with
    | some text => text.map .literal
    | none => [.placeholder hole]

theorem Piece.flatMap_text_filled (values : Values) (piece : Piece) :
    (piece.filled values).flatMap Piece.text = piece.render values := by
  cases piece with
  | literal c => rfl
  | placeholder hole =>
      rw [filled, render]
      cases hole.value? values with
      | none => exact List.append_nil _
      | some text =>
          change (text.map Piece.literal).flatMap _ = text
          rw [List.flatMap_map]
          exact List.flatMap_singleton' text

/-- The hash of the file fills what is left of a piece as it fills the piece itself. -/
theorem Piece.flatMap_render_filled {values : Values} (hvalues : values.contentHash = none)
    (hash : Option String) (piece : Piece) :
    (piece.filled values).flatMap (Piece.render { contentHash := hash }) =
      piece.render { values with contentHash := hash } := by
  cases piece with
  | literal c => rfl
  | placeholder hole =>
      have hlater : ∀ text, hole.value? values = some text →
          hole.value? { values with contentHash := hash } = some text := by
        intro text htext
        rw [Placeholder.value?] at htext ⊢
        cases hfield : hole.field <;> simp_all
      have hkept : hole.value? values = none →
          hole.value? { values with contentHash := hash } =
            hole.value? { contentHash := hash } := by
        intro hnone
        rw [Placeholder.value?] at hnone ⊢
        cases hfield : hole.field <;> simp_all [Placeholder.value?]
      rw [filled, render]
      cases hvalue : hole.value? values with
      | none =>
          rw [hkept hvalue]
          exact List.append_nil _
      | some text =>
          rw [hlater text hvalue]
          exact flatMap_render_literal _ text

theorem mem_filled {values : Values} {piece item : Piece} (hitem : item ∈ piece.filled values) :
    item = piece ∨ ∃ hole text c, piece = .placeholder hole ∧ hole.value? values = some text ∧
      c ∈ text ∧ item = .literal c := by
  cases piece with
  | literal c => exact .inl (List.mem_singleton.mp hitem)
  | placeholder hole =>
      rw [Piece.filled] at hitem
      cases hvalue : hole.value? values with
      | none =>
          rw [hvalue] at hitem
          exact .inl (List.mem_singleton.mp hitem)
      | some text =>
          rw [hvalue] at hitem
          obtain ⟨c, hc, rfl⟩ := List.mem_map.mp hitem
          exact .inr ⟨hole, text, c, rfl, hvalue, hc, rfl⟩

/-- A character that no value has. -/
def Values.Lacks (values : Values) (c : Char) : Prop :=
  ∀ placeholder text, Placeholder.value? placeholder values = some text → c ∉ text

/-- Two steps give the name that one step gives, if outside of placeholders there is no bracket
of one kind, neither in the template nor in the values of the first step. -/
theorem render_render {template : String} {values : Values} (hvalues : values.contentHash = none)
    {bracket : Char} (hbracket : bracket = '[' ∨ bracket = ']') (hlacks : values.Lacks bracket)
    (htemplate : .literal bracket ∉ pieces template.toList) (hash : Option String) :
    render (render template values) { contentHash := hash } =
      render template { values with contentHash := hash } := by
  generalize hitems : (pieces template.toList).flatMap (Piece.filled values) = items
  have htext : (render template values).toList = items.flatMap Piece.text := by
    rw [toList_render, ← hitems, List.flatMap_assoc]
    exact congrArg (fun give => List.flatMap give _)
      (funext fun piece => (piece.flatMap_text_filled values).symm)
  have hwritten : ∀ placeholder, .placeholder placeholder ∈ items → placeholder.IsWritten := by
    intro hole hhole
    rw [← hitems, List.mem_flatMap] at hhole
    obtain ⟨piece, hpiece, hhole⟩ := hhole
    rcases mem_filled hhole with rfl | ⟨_, _, _, _, _, _, hliteral⟩
    · exact isWritten_of_mem_pieces hpiece
    · cases hliteral
  have hnone : .literal bracket ∉ items := by
    intro hmem
    rw [← hitems, List.mem_flatMap] at hmem
    obtain ⟨piece, hpiece, hmem⟩ := hmem
    rcases mem_filled hmem with rfl | ⟨hole, text, c, _, hvalue, hc, hliteral⟩
    · exact htemplate hpiece
    · cases hliteral
      exact hlacks hole text hvalue hc
  have hpieces : pieces (render template values).toList = items := by
    rw [htext]
    refine pieces_flatMap_text hwritten ?_
    rcases hbracket with rfl | rfl
    · exact .inl hnone
    · exact .inr hnone
  apply String.toList_injective
  rw [toList_render, hpieces, toList_render, ← hitems, List.flatMap_assoc]
  exact congrArg (fun give => List.flatMap give _)
    (funext fun piece => piece.flatMap_render_filled hvalues hash)

/-- A template without a placeholder for the hash of the file does not use this hash. -/
theorem render_of_not_hasContentHash {template : String} (htemplate : hasContentHash template = false)
    (values : Values) (hash : Option String) :
    render template { values with contentHash := hash } = render template values := by
  rw [render, render, List.flatMap_def, List.flatMap_def]
  congr 2
  apply List.map_congr_left
  intro piece hpiece
  have hfield := List.any_eq_false.mp htemplate piece hpiece
  cases piece with
  | literal c => rfl
  | placeholder hole =>
      obtain ⟨field, modifiers⟩ := hole
      rw [Piece.isContentHash] at hfield
      cases field <;> first | rfl | exact absurd rfl hfield

end Filename

namespace Output

open Filename

variable {options : Options} {graph : Graph} {given : Option String} {number index : Nat}

/-! ## Chunks -/

/-- What is known of a chunk before it is rendered. -/
def preliminaryValues (hash name : String) (index : Nat) : Values :=
  ⟨some name, some (toString index), some hash, none, some "js"⟩

/-- The name that one step gives a chunk with some content. -/
def nameInOneStep (template hash name : String) (index : Nat) (content : ByteArray) : String :=
  render template { preliminaryValues hash name index with
    contentHash := some (Digest.ofBytes content).toHex }

theorem filename_of_chunk {hash : String} {asset : Asset}
    (hchunk : chunk options graph hash ((given, number), index) = some asset) :
    ∃ module, graph.modules[number]? = some module ∧ asset.filename =
      if hasContentHash options.entryFilenames then
        render (render options.entryFilenames
          (preliminaryValues hash (entryName given module) index))
          { contentHash := some (Digest.ofBytes asset.content).toHex }
      else render options.entryFilenames
        (preliminaryValues hash (entryName given module) index) := by
  obtain ⟨module, hmodule, rfl⟩ := Option.map_eq_some_iff.mp hchunk
  exact ⟨module, hmodule, rfl⟩

/-- One kind of bracket is neither in the name that an entry was given nor in the template of
its chunk outside of placeholders. -/
def SparesBrackets (template : String) (given : Option String) : Prop :=
  ∃ bracket, (bracket = '[' ∨ bracket = ']') ∧ .literal bracket ∉ pieces template.toList ∧
    ∀ name ∈ given, bracket ∉ name.toList

theorem notMem_entryName {bracket : Char} (hbracket : bracket = '[' ∨ bracket = ']')
    (hgiven : ∀ name ∈ given, bracket ∉ name.toList) (entry : Module) :
    bracket ∉ (entryName given entry).toList := by
  cases given with
  | some name => exact hgiven name rfl
  | none =>
      apply Text.notMem_sanitizeFileName
      rcases hbracket with rfl | rfl <;> decide

theorem lacks_preliminaryValues {bracket : Char} (hbracket : bracket = '[' ∨ bracket = ']')
    {name : String} (hname : bracket ∉ name.toList) (digest : Digest) (index : Nat) :
    (preliminaryValues digest.toHex name index).Lacks bracket := by
  have hdigits : bracket ∉ (toString index).toList := by
    intro hmem
    have hdigit : bracket.isDigit = true := by
      refine Nat.isDigit_of_mem_toDigits (b := 10) (n := index) (by decide) (by decide) ?_
      rwa [← Nat.toList_repr]
    rcases hbracket with rfl | rfl <;> cases hdigit
  have hhash : bracket ∉ digest.toHex.toList :=
    digest.notMem_toHex (by rcases hbracket with rfl | rfl <;> decide)
  have hext : bracket ∉ "js".toList ∧ bracket ∉ '.' :: "js".toList := by
    rcases hbracket with rfl | rfl <;> decide
  intro hole text htext
  rw [Placeholder.value?, preliminaryValues] at htext
  cases hfield : hole.field <;> simp only [hfield] at htext <;> cases htext
  · exact hname
  · exact hdigits
  · exact fun hmem => hhash (List.mem_of_mem_take hmem)
  · exact hext.1
  · exact hext.2

/-- A chunk has the name that one step with all values gives, if its template does not ask for
the hash of its content or brackets are spared: then substituted values are not read again. -/
theorem chunk_named_in_one_step {module : Module} (hmodule : graph.modules[number]? = some module)
    (hspares : hasContentHash options.entryFilenames = true →
      SparesBrackets options.entryFilenames given) (digest : Digest) (index : Nat) :
    ∃ asset, chunk options graph digest.toHex ((given, number), index) = some asset ∧
      asset.filename = nameInOneStep options.entryFilenames digest.toHex (entryName given module)
        index asset.content := by
  obtain ⟨asset, hasset⟩ := exists_chunk hmodule options digest.toHex given index
  refine ⟨asset, hasset, ?_⟩
  obtain ⟨other, hother, hfilename⟩ := filename_of_chunk hasset
  obtain rfl : module = other := Option.some.inj (hmodule.symm.trans hother)
  rw [hfilename]
  split
  · rename_i hhash
    obtain ⟨bracket, hbracket, htemplate, hgiven⟩ := hspares hhash
    have hlacks := lacks_preliminaryValues hbracket (notMem_entryName hbracket hgiven module)
      digest index
    exact render_render rfl hbracket hlacks htemplate _
  · rename_i hhash
    exact (render_of_not_hasContentHash (Bool.eq_false_iff.mpr hhash) _ _).symm

/-- A graph of one script. -/
def oneScript : Graph :=
  { modules := [⟨⟨"/p/a.js"⟩, "./a.js", .script, .script { source := "1" }, []⟩]
    entries := [(none, 0)] }

/-- Options under which chunks are named by their content. -/
def namedByContent : Options :=
  { workingDirectory := "/p", entryFilenames := "[name]-[contenthash].js" }

/-- A name that opens a placeholder and does not close it is kept. -/
theorem chunk_named_in_one_step_opened :
    hasContentHash namedByContent.entryFilenames = true ∧
    SparesBrackets namedByContent.entryFilenames (some "[contenthash") ∧
    ∃ asset, chunk namedByContent oneScript (buildHash namedByContent oneScript)
        ((some "[contenthash", 0), 0) = some asset ∧
      asset.filename = nameInOneStep namedByContent.entryFilenames
        (buildHash namedByContent oneScript) "[contenthash" 0 asset.content := by
  have hspares : SparesBrackets namedByContent.entryFilenames (some "[contenthash") := by
    refine ⟨']', .inr rfl, by decide +kernel, ?_⟩
    rintro name ⟨⟩
    decide
  exact ⟨by decide +kernel, hspares, chunk_named_in_one_step rfl (fun _ => hspares) _ 0⟩

/-- In two steps the placeholder that stands for the name is filled as well. -/
theorem render_render_ne (hash : String) {contentHash : String} (hhash : '[' ∉ contentHash.toList) :
    render (render namedByContent.entryFilenames (preliminaryValues hash "[contenthash]" 0))
        { contentHash := some contentHash } ≠
      render namedByContent.entryFilenames
        { preliminaryValues hash "[contenthash]" 0 with contentHash := some contentHash } := by
  have htemplate : pieces namedByContent.entryFilenames.toList =
      [.placeholder ⟨.name, []⟩, .literal '-', .placeholder ⟨.contentHash, []⟩, .literal '.',
        .literal 'j', .literal 's'] := by decide +kernel
  have hfirst : (render namedByContent.entryFilenames
      (preliminaryValues hash "[contenthash]" 0)).toList =
        "[contenthash]".toList ++ '-' :: (Placeholder.text ⟨.contentHash, []⟩ ++
          ['.', 'j', 's']) := by
    rw [toList_render, htemplate]
    rfl
  have hread : pieces ("[contenthash]".toList ++ '-' :: (Placeholder.text ⟨.contentHash, []⟩ ++
      ['.', 'j', 's'])) =
      [.placeholder ⟨.contentHash, []⟩, .literal '-', .placeholder ⟨.contentHash, []⟩,
        .literal '.', .literal 'j', .literal 's'] := by decide +kernel
  have hcut : Piece.render { contentHash := some contentHash }
      (.placeholder ⟨.contentHash, []⟩) = contentHash.toList.take 8 := rfl
  have hliteral : ∀ c, Piece.render { contentHash := some contentHash } (.literal c) = [c] :=
    fun _ => rfl
  have hopen : '[' ∈ "[contenthash]".toList := by decide
  rw [Ne, ← String.toList_inj, toList_render, hfirst, hread, toList_render, htemplate]
  intro hsame
  -- The name that one step gives begins with a bracket, and two steps leave no bracket.
  have hthere : '[' ∈ [.placeholder ⟨.contentHash, []⟩, .literal '-',
      .placeholder ⟨.contentHash, []⟩, .literal '.', .literal 'j', .literal 's'].flatMap
        (Piece.render { contentHash := some contentHash }) := by
    rw [hsame]
    exact List.mem_append_left _ hopen
  simp [hcut, hliteral, mt List.mem_of_mem_take hhash] at hthere

/-- A name that is a placeholder is read as one: it is replaced by the hash of the content. -/
theorem chunk_name_read_again :
    ∃ asset, chunk namedByContent oneScript (buildHash namedByContent oneScript)
        ((some "[contenthash]", 0), 0) = some asset ∧
      asset.filename ≠ nameInOneStep namedByContent.entryFilenames
        (buildHash namedByContent oneScript) "[contenthash]" 0 asset.content := by
  obtain ⟨asset, hasset⟩ := @exists_chunk oneScript 0 _ rfl namedByContent
    (buildHash namedByContent oneScript) (some "[contenthash]") 0
  refine ⟨asset, hasset, ?_⟩
  obtain ⟨module, -, hfilename⟩ := filename_of_chunk hasset
  rw [if_pos (by decide +kernel), entryName] at hfilename
  rw [hfilename]
  exact render_render_ne _ (Digest.notMem_toHex _ (by decide))

end Output

end WebBundle

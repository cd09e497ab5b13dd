import WebBundle.Proofs.Build.Views
import WebBundle.Proofs.Output.Rendering

/-!
# What modules require

The code of a script consists of texts that are the same under whatever ids its imports are
known, and of calls that require an import by its id.  The calls stand for edits and for the
variables of plugins, and all of these refer to import records that the view has.
-/

namespace WebBundle.Output

open Scan

/-! ## Pieces of code -/

/-- A piece of the code of a module: a text, or the call that requires an import. -/
inductive Piece where
  | verbatim (text : String)
  | call (record : Nat)

/-- The code of a piece, if `target` gives the stable ids behind the import records. -/
def Piece.code (target : Nat → String) : Piece → String
  | .verbatim text => text
  | .call record => requireCode (target record)

/-- The code of several pieces. -/
def assemble (target : Nat → String) (pieces : List Piece) : String :=
  String.join (pieces.map (Piece.code target))

/-- The pieces that an edit puts in place of its range. -/
def editPieces : Edit → List Piece
  | .replace _ text => [.verbatim text]
  | .importing _ record bindings =>
    [.verbatim ("var " ++ importVariable record ++ " = "), .call record,
      .verbatim (";" ++ String.join (bindings.map fun binding =>
        " var " ++ binding.localName ++ " = " ++
          importedValue (importVariable record) binding.imported ++ ";"))]
  | .requiring _ record => [.call record]

/-- The pieces of the variable that a plugin binds to an import. -/
def boundPieces (bound : String × Nat) : List Piece :=
  [.verbatim ("var " ++ bound.1 ++ " = "), .call bound.2, .verbatim ";\n"]

/-- The pieces that stand where an offset is. -/
def piecesAt (edits : List Edit) (offset : Nat) : List Piece :=
  match (edits.filter fun edit => edit.span.start = offset).getLast? with
  | some edit => editPieces edit
  | none => []

/-- Whether an edit takes the character at an offset away. -/
def isTaken (edits : List Edit) (offset : Nat) : Bool :=
  edits.any fun edit => edit.span.start ≤ offset && offset < edit.span.stop

/-- The pieces of a text, which begins at an offset, with its edits. -/
def sourcePieces (edits : List Edit) : (offset : Nat) → List Char → List Piece
  | _, [] => []
  | offset, c :: rest =>
    let kept := if isTaken edits offset then [] else [.verbatim (String.singleton c)]
    piecesAt edits offset ++ kept ++ sourcePieces edits (offset + c.utf8Size) rest

/-- What stands in front of the source behind the variables of plugins. -/
def exportsCode (view : View) : String :=
  (if view.hasDeclarations then runtimeNames.markNamespace ++ "(exports);\n" else "") ++
    (if view.exports.isEmpty then ""
      else runtimeNames.defineGetters ++ "(exports, \x7b " ++
        String.intercalate ", " (view.exports.map getterCode) ++ " \x7d);\n")

/-- The pieces of a script. -/
def scriptPieces (view : View) : List Piece :=
  .verbatim ("function (module, exports, " ++ runtimeNames.require ++ ") \x7b\n") ::
    (view.boundRecords.flatMap boundPieces ++ .verbatim (exportsCode view) ::
      (sourcePieces view.edits 0 view.source.toList ++ [.verbatim (epilogue view ++ "\n\x7d")]))

section Assembling

variable (target : Nat → String)

theorem assemble_nil : assemble target [] = "" := rfl

theorem assemble_cons (piece : Piece) (pieces : List Piece) :
    assemble target (piece :: pieces) = piece.code target ++ assemble target pieces := by
  rw [assemble, List.map_cons, String.join_cons]
  rfl

theorem assemble_singleton (piece : Piece) : assemble target [piece] = piece.code target := by
  rw [assemble_cons, assemble_nil, String.append_empty]

theorem assemble_append (pieces more : List Piece) :
    assemble target (pieces ++ more) = assemble target pieces ++ assemble target more := by
  induction pieces with
  | nil => rw [List.nil_append, assemble_nil, String.empty_append]
  | cons piece rest ih => rw [List.cons_append, assemble_cons, assemble_cons, ih, String.append_assoc]

theorem assemble_editPieces (edit : Edit) :
    assemble target (editPieces edit) = editText target edit := by
  cases edit with
  | replace span text =>
      rw [editPieces, assemble_singleton, Piece.code, editText]
  | importing span record bindings =>
      simp only [editPieces, assemble_cons, assemble_nil, Piece.code, editText, importCode,
        String.append_empty, String.append_assoc]
  | requiring span record =>
      rw [editPieces, assemble_singleton, Piece.code, editText]

theorem assemble_boundPieces (bound : List (String × Nat)) :
    assemble target (bound.flatMap boundPieces) = boundCode target bound := by
  induction bound with
  | nil => rfl
  | cons first rest ih =>
      rw [List.flatMap_cons, assemble_append, ih, boundCode, boundCode, List.map_cons,
        String.join_cons]
      simp only [boundPieces, assemble_cons, assemble_nil, Piece.code, String.append_empty,
        String.append_assoc]

theorem boundCode_append (before after : List (String × Nat)) :
    boundCode target (before ++ after) = boundCode target before ++ boundCode target after := by
  rw [boundCode, List.map_append, String.join_append]
  rfl

theorem assemble_piecesAt (edits : List Edit) (offset : Nat) :
    (assemble target (piecesAt edits offset)).toList =
      insertedAt (edits.map fun edit => ⟨edit.span, (editText target edit).toList⟩) offset := by
  have hlast : ((edits.map fun edit =>
        (⟨edit.span, (editText target edit).toList⟩ : Replacement)).filter
          fun replacement => replacement.span.start = offset).getLast? =
      (edits.filter fun edit => edit.span.start = offset).getLast?.map
        fun edit => ⟨edit.span, (editText target edit).toList⟩ := by
    rw [List.filter_map, List.getLast?_map]
    rfl
  rw [insertedAt, hlast, piecesAt]
  cases (edits.filter fun edit => edit.span.start = offset).getLast? with
  | none => rfl
  | some edit => exact congrArg String.toList (assemble_editPieces target edit)

/-- A text is assembled as it is spliced. -/
theorem assemble_sourcePieces (edits : List Edit) (offset : Nat) (text : List Char) :
    (assemble target (sourcePieces edits offset text)).toList =
      splice (edits.map fun edit => ⟨edit.span, (editText target edit).toList⟩) offset text := by
  induction text generalizing offset with
  | nil => rfl
  | cons c rest ih =>
      have htaken : isReplaced (edits.map fun edit =>
          (⟨edit.span, (editText target edit).toList⟩ : Replacement)) offset =
          isTaken edits offset := by
        rw [isReplaced, isTaken, List.any_map]
        rfl
      rw [sourcePieces, splice, assemble_append, assemble_append, String.toList_append,
        String.toList_append, assemble_piecesAt, ih, htaken]
      congr 2
      split
      · rfl
      · rw [assemble_singleton, Piece.code, String.toList_singleton]

theorem moduleFunction_append (bound exports source rest : String) :
    moduleFunction (bound ++ exports ++ source ++ rest) =
      "function (module, exports, " ++ runtimeNames.require ++ ") \x7b\n" ++
        (bound ++ (exports ++ (source ++ (rest ++ "\n\x7d")))) := by
  have hassoc (opening closing : String) :
      opening ++ (bound ++ exports ++ source ++ rest) ++ closing =
        opening ++ (bound ++ (exports ++ (source ++ (rest ++ closing)))) := by
    simp only [String.append_assoc]
  exact hassoc _ _

/-- The variables of plugins stand in front of everything else. -/
theorem prologue_eq_boundCode (view : View) :
    prologue target view = boundCode target view.boundRecords ++ exportsCode view := by
  rw [prologue, boundCode, exportsCode]
  dsimp only
  rw [String.append_assoc]

/-- The code of a script is assembled from its pieces. -/
theorem scriptCode_eq (view : View) : scriptCode target view = assemble target (scriptPieces view) := by
  have hsource : assemble target (sourcePieces view.edits 0 view.source.toList) =
      editedSource target view := by
    rw [← String.toList_inj, assemble_sourcePieces, editedSource, String.toList_ofList, replacements]
  rw [scriptCode, prologue_eq_boundCode, scriptPieces, assemble_cons, assemble_append, assemble_cons,
    assemble_append, assemble_boundPieces, hsource, assemble_singleton, moduleFunction_append]
  rfl

end Assembling

/-! ## Required records -/

/-- The import records that the code of a view requires. -/
def requiredRecords (view : View) : List Nat :=
  view.boundRecords.map Prod.snd ++ view.edits.filterMap Edit.record?

theorem mem_editPieces {edit : Edit} {record : Nat}
    (hpiece : .call record ∈ editPieces edit) : edit.record? = some record := by
  cases edit with
  | replace span text => simp [editPieces] at hpiece
  | importing span other bindings =>
      simp only [editPieces, List.mem_cons, reduceCtorEq, false_or, Piece.call.injEq,
        List.not_mem_nil, or_false] at hpiece
      rw [hpiece, Edit.record?]
  | requiring span other =>
      simp only [editPieces, List.mem_singleton, Piece.call.injEq] at hpiece
      rw [hpiece, Edit.record?]

theorem mem_sourcePieces {edits : List Edit} {offset : Nat} {text : List Char} {record : Nat}
    (hpiece : .call record ∈ sourcePieces edits offset text) :
    record ∈ edits.filterMap Edit.record? := by
  induction text generalizing offset with
  | nil => cases hpiece
  | cons c rest ih =>
      rw [sourcePieces, List.mem_append, List.mem_append] at hpiece
      rcases hpiece with (hpiece | hpiece) | hpiece
      · rw [piecesAt] at hpiece
        split at hpiece
        · rename_i edit hedit
          have hmem := List.mem_of_getLast? hedit
          exact List.mem_filterMap.mpr ⟨edit, (List.mem_filter.mp hmem).1, mem_editPieces hpiece⟩
        · cases hpiece
      · split at hpiece
        · cases hpiece
        · simp at hpiece
      · exact ih hpiece

/-- The code of a script requires nothing but the imports that its view refers to. -/
theorem mem_scriptPieces {view : View} {record : Nat}
    (hpiece : .call record ∈ scriptPieces view) : record ∈ requiredRecords view := by
  simp only [scriptPieces, List.mem_cons, List.mem_append, reduceCtorEq, false_or, or_false,
    List.mem_flatMap, List.not_mem_nil] at hpiece
  rw [requiredRecords, List.mem_append]
  rcases hpiece with ⟨bound, hbound, hpiece⟩ | hpiece
  · simp only [boundPieces, List.mem_cons, reduceCtorEq, false_or, Piece.call.injEq,
      List.not_mem_nil, or_false] at hpiece
    exact .inl (List.mem_map.mpr ⟨bound, hbound, hpiece.symm⟩)
  · exact .inr (mem_sourcePieces hpiece)

/-- The code of a view requires nothing but the imports that the view has. -/
def Intact (view : View) : Prop := ∀ record ∈ requiredRecords view, record < view.records.length

/-- Whatever plugins do, a scan gives an intact view. -/
theorem intact_of_scan : HoldsOfScans Intact := by
  intro hooks memory kind source program _ record hrecord
  rw [scan_eq] at hrecord ⊢
  generalize (Loader.forEach (react hooks) (shownCalls program) memory).1 = reactions at hrecord ⊢
  have hsound := declared_sound program
  generalize declared program = declared at hrecord hsound ⊢
  have hedits : (declared.addReactions reactions).edits = declared.edits := by
    rw [Findings.addReactions_eq]
  have hrecords : (declared.addReactions reactions).records = declared.records :=
    Findings.records_addReactions declared reactions
  simp only [requiredRecords, Findings.toView, hedits, List.filterMap_append, List.mem_append,
    hrecords, List.length_append, Findings.variableRecords, List.length_map] at hrecord ⊢
  rcases hrecord with hbound | hedit | hreplaced
  · obtain ⟨⟨name, other⟩, hmem, rfl⟩ := List.mem_map.mp hbound
    have hbounds := List.mem_zipIdx hmem
    simp only [Findings.nextRecord, hrecords, List.length_map] at hbounds ⊢
    omega
  · obtain ⟨edit, hmem, hedit⟩ := List.mem_filterMap.mp hedit
    have hless := hsound.edits edit hmem record hedit
    omega
  · obtain ⟨edit, hmem, hedit⟩ := List.mem_filterMap.mp hreplaced
    obtain ⟨replacement, _, rfl⟩ := List.mem_map.mp hmem
    cases hedit

end WebBundle.Output

import WebBundle.Proofs.Output.Chunks
import WebBundle.Proofs.Scan.Exports

/-!
# Every import is used once

Every import record of a view comes with the one thing that uses it: the edit of the
declaration or of the `require` call that it was made for, or the variable of a plugin.  If
nothing else replaces the ranges of these edits, the code of the module requires every import
in one place and nowhere else, so that no module is in a chunk for an import that the code
does not require.
-/

namespace WebBundle.Scan

open Syntax

/-! ## References -/

/-- The import record that an edit refers to, and the form of the import that it stands for. -/
def Edit.reference? : Edit → Option (Nat × ImportForm)
  | .replace _ _ => none
  | .importing _ record _ => some (record, .declaration)
  | .requiring _ record => some (record, .requireCall)

theorem Edit.record?_eq (edit : Edit) : edit.record? = edit.reference?.map Prod.fst := by
  cases edit <;> rfl

/-- The numbers of some import records with their forms, from a number on. -/
def numberedFrom (start : Nat) (records : List ImportRecord) : List (Nat × ImportForm) :=
  (records.zipIdx start).map fun entry => (entry.2, entry.1.form)

theorem numberedFrom_append (start : Nat) (first second : List ImportRecord) :
    numberedFrom start (first ++ second) =
      numberedFrom start first ++ numberedFrom (start + first.length) second := by
  rw [numberedFrom, List.zipIdx_append, List.map_append]
  rfl

theorem map_fst_numberedFrom (records : List ImportRecord) :
    (numberedFrom 0 records).map Prod.fst = List.range records.length := by
  rw [numberedFrom, List.map_map, List.range_eq_range', ← List.zipIdx_map_snd]
  rfl

/-- A declaration imports what a record asks for. -/
def View.Imports (view : View) (record : Nat) : Prop :=
  ∃ span bindings, .importing span record bindings ∈ view.edits

/-- A view in which every import record is used once. -/
structure View.Accounted (view : View) : Prop where
  /-- What the edits refer to and what the variables of plugins are bound to are all records,
  each of them once and in its own form: the first ones by the edits in their order, the
  others by the variables. -/
  references : view.edits.filterMap Edit.reference? ++
    view.boundRecords.map (fun bound => (bound.2, .generated)) = numberedFrom 0 view.records
  /-- What is exported as a whole is imported by a declaration. -/
  stars : ∀ record ∈ view.stars, view.Imports record
  /-- So is what is passed on by its name. -/
  passedOn : ∀ exported record imported, .passedOn exported record imported ∈ view.exports →
    view.Imports record
  /-- The ranges of edits that refer to records lie apart. -/
  apart : Scattered view.source 0 view.source.utf8ByteSize
    ((view.edits.filter fun edit => edit.record?.isSome).map Edit.span)

/-! ## Scans -/

namespace Findings

/-- The edits that were made refer to the records that were added, each once and in order. -/
def Counted (findings : Findings) : Prop :=
  findings.edits.filterMap Edit.reference? = numberedFrom 0 findings.records

namespace Counted

variable {findings : Findings}

theorem addReplacement (h : findings.Counted) (span : Span) (text : String) :
    (findings.addEdit (.replace span text)).Counted := by
  rw [Counted, addEdit, List.filterMap_append]
  exact (List.append_nil _).trans h

/-- A record is added with the edit that uses it. -/
theorem addRecord (h : findings.Counted) {record : ImportRecord} {edit : Edit}
    (hedit : edit.reference? = some (findings.nextRecord, record.form)) :
    ((findings.addRecord record).addEdit edit).Counted := by
  have hlast : [edit].filterMap Edit.reference? =
      numberedFrom (0 + findings.records.length) [record] := by
    rw [List.filterMap_cons_some hedit, Nat.zero_add]
    rfl
  change (findings.edits ++ [edit]).filterMap Edit.reference? =
    numberedFrom 0 (findings.records ++ [record])
  rw [List.filterMap_append, numberedFrom_append, hlast]
  exact congrArg (· ++ _) h

theorem addImport (h : findings.Counted) (span : Span) (source : Node)
    (bindings : List ImportedBinding) : (findings.addImport span source bindings).Counted := by
  rw [Findings.addImport.eq_def]
  split
  · exact h.addRecord rfl
  · exact h

theorem addDeclaration (h : findings.Counted) (node : Node) :
    (findings.addDeclaration node).Counted := by
  have hmarked : Counted { findings with hasDeclarations := true } := h
  have hexported : ∀ exports stars,
      Counted { findings with hasDeclarations := true, exports, stars } := fun _ _ => h
  rw [Findings.addDeclaration.eq_def]
  dsimp only
  split
  · exact hmarked.addImport _ _ _
  · split
    · exact (hexported _ _).addImport _ _ _
    · exact (hexported _ _).addReplacement _ _
  · exact (hexported _ _).addReplacement _ _
  · split <;> exact hmarked.addReplacement _ _
  · exact (hexported _ _).addImport _ _ _
  · exact (hexported _ _).addImport _ _ _
  · exact hmarked

theorem declare (h : findings.Counted) (site : Site) : (Scan.declare findings site).Counted := by
  rw [Scan.declare]
  split
  · rw [addRequire]
    split
    · exact h.addRecord rfl
    · exact h
  · exact h.addDeclaration site.node

end Counted

end Findings

/-- Every record that a program declares is used by one edit. -/
theorem declared_counted (program : Program) : (declared program).Counted := by
  have hsites : ∀ (sites : List Site) (findings : Findings), findings.Counted →
      (sites.foldl declare findings).Counted := by
    intro sites
    induction sites with
    | nil => exact fun _ h => h
    | cons site rest ih => exact fun findings h => ih _ (h.declare site)
  exact hsites _ {} rfl

variable {σ : Type} {program : Program}

/-- Hooks add no edits that refer to records. -/
theorem references_toView (hooks : List (Hook σ)) (program : Program) (state : σ) :
    (((scan hooks program state).1.toView program.source).edits.filterMap Edit.reference?) =
      (declared program).edits.filterMap Edit.reference? := by
  have hnone : ∀ replacements : List (Span × String),
      (replacements.map fun entry => Edit.replace entry.1 entry.2).filterMap Edit.reference? = [] :=
    fun _ => List.filterMap_eq_nil_iff.mpr fun _ hedit => by
      obtain ⟨_, _, rfl⟩ := List.mem_map.mp hedit
      rfl
  rw [Output.edits_toView, List.filterMap_append]
  exact (congrArg (_ ++ ·) (hnone _)).trans (List.append_nil _)

/-- The variables of plugins are bound to the records behind those that a program declares. -/
theorem numberedFrom_variableRecords (findings : Findings) (start : Nat) :
    ((findings.reaction.boundRequests.map Prod.fst).zipIdx start).map
        (fun bound => (bound.2, ImportForm.generated)) =
      numberedFrom start findings.variableRecords := by
  rw [numberedFrom, Findings.variableRecords, List.zipIdx_map, List.zipIdx_map, List.map_map,
    List.map_map]
  rfl

/-- What a view refers to is what it has records of. -/
theorem references_eq (hooks : List (Hook σ)) (program : Program) (state : σ) :
    let view := (scan hooks program state).1.toView program.source
    view.edits.filterMap Edit.reference? ++
      view.boundRecords.map (fun bound => (bound.2, .generated)) = numberedFrom 0 view.records := by
  have hrecords : (scan hooks program state).1.records = (declared program).records := by
    rw [scan_eq]
    exact Findings.records_addReactions _ _
  intro view
  change _ ++ (((scan hooks program state).1.reaction.boundRequests.map Prod.fst).zipIdx
      (scan hooks program state).1.records.length).map (fun bound => (bound.2, .generated)) =
    numberedFrom 0 ((scan hooks program state).1.records ++ (scan hooks program state).1.variableRecords)
  rw [numberedFrom_append, numberedFrom_variableRecords, references_toView, declared_counted,
    hrecords, Nat.zero_add]

/-- A record of a declaration is used by the edit of a declaration. -/
theorem imports_of_declaration {view : View} (h : view.edits.filterMap Edit.reference? ++
      view.boundRecords.map (fun bound => (bound.2, .generated)) = numberedFrom 0 view.records)
    {record : Nat} {found : ImportRecord} (hfound : view.records[record]? = some found)
    (hform : found.form = .declaration) : view.Imports record := by
  have hnumbered : (record, ImportForm.declaration) ∈ numberedFrom 0 view.records :=
    List.mem_map.mpr ⟨(found, record), List.mem_zipIdx_iff_getElem?.mpr hfound, by rw [hform]⟩
  rw [← h, List.mem_append, List.mem_filterMap, List.mem_map] at hnumbered
  rcases hnumbered with ⟨edit, hedit, hreference⟩ | ⟨bound, _, hbound⟩
  · cases edit with
    | replace span text => cases hreference
    | importing span other bindings =>
        cases hreference
        exact ⟨span, bindings, hedit⟩
    | requiring span other => cases hreference
  · cases hbound

/-- The edits that refer to records are those of declarations and of `require` calls. -/
theorem scattered_references {text : String} (hread : Program.read? false text = some program)
    (hooks : List (Hook σ)) (state : σ) :
    let view := (scan hooks program state).1.toView program.source
    Scattered view.source 0 view.source.utf8ByteSize
      ((view.edits.filter fun edit => edit.record?.isSome).map Edit.span) := by
  have hnone : ((scan hooks program state).1.reaction.replacements.map fun entry =>
      Edit.replace entry.1 entry.2).filter (fun edit => edit.record?.isSome) = [] :=
    List.filter_eq_nil_iff.mpr fun _ hedit => by
      obtain ⟨_, _, rfl⟩ := List.mem_map.mp hedit
      exact Bool.false_ne_true
  intro view
  have hedits : view.edits.filter (fun edit => edit.record?.isSome) =
      (declared program).edits.filter fun edit => edit.record?.isSome := by
    rw [Output.edits_toView, List.filter_append]
    exact (congrArg (_ ++ ·) hnone).trans (List.append_nil _)
  rw [hedits]
  exact (Output.scattered_declared hread).sublist (List.filter_sublist.map _)

/-- Whatever hooks do, a scan gives a view in which every import record is used once. -/
theorem accounted_of_scan {kind : ModuleKind} {source : String}
    (hread : ModuleSource.read kind source = .ok program) (hooks : List (Hook σ)) (state : σ) :
    ((scan hooks program state).1.toView program.source).Accounted := by
  obtain ⟨text, htext⟩ := ModuleSource.read?_of_read hread
  obtain ⟨entries, _, hexporting⟩ := exists_entries hread hooks state
  have hreferences := references_eq hooks program state
  refine ⟨hreferences, fun record hrecord => ?_, fun exported record imported hexport => ?_,
    scattered_references htext hooks state⟩
  · obtain ⟨request, _, hfound⟩ := Loader.exists_left_of_forall₂ hexporting.stars.flip hrecord
    exact imports_of_declaration hreferences hfound rfl
  · obtain ⟨entry, _, hstands⟩ := Loader.exists_left_of_forall₂ hexporting.exports.flip hexport
    cases entry with
    | own | star => exact hstands.elim
    | passedOn | whole => exact imports_of_declaration hreferences hstands.2.2 rfl

end WebBundle.Scan

namespace WebBundle.Output

open Scan Syntax

/-! ## Code that requires every import once -/

/-- The import record that a piece of code requires. -/
def Piece.record? : Piece → Option Nat
  | .verbatim _ => none
  | .call record => some record

/-- The import records that pieces of code require, in their order. -/
def callsOf (pieces : List Piece) : List Nat := pieces.filterMap Piece.record?

theorem callsOf_append (first second : List Piece) :
    callsOf (first ++ second) = callsOf first ++ callsOf second :=
  List.filterMap_append

theorem mem_callsOf {record : Nat} {pieces : List Piece} :
    record ∈ callsOf pieces ↔ .call record ∈ pieces := by
  rw [callsOf, List.mem_filterMap]
  constructor
  · rintro ⟨piece, hpiece, hrecord⟩
    cases piece with
    | verbatim text => cases hrecord
    | call other =>
        cases hrecord
        exact hpiece
  · exact fun hpiece => ⟨_, hpiece, rfl⟩

/-- An edit requires what it refers to. -/
theorem callsOf_editPieces (edit : Edit) : callsOf (editPieces edit) = edit.record?.toList := by
  cases edit <;> rfl

theorem callsOf_boundPieces (bound : List (String × Nat)) :
    callsOf (bound.flatMap boundPieces) = bound.map Prod.snd := by
  induction bound with
  | nil => rfl
  | cons first rest ih =>
      rw [List.flatMap_cons, callsOf_append, ih]
      rfl

/-- What stands around the source requires the variables of plugins. -/
theorem exists_around (view : View) : ∃ front last, scriptPieces view =
    front ++ (sourcePieces view.edits 0 view.source.toList ++ [.verbatim last]) ∧
      callsOf front = view.boundRecords.map Prod.snd := by
  refine ⟨.verbatim ("function (module, exports, " ++ runtimeNames.require ++ ") \x7b\n") ::
    (view.boundRecords.flatMap boundPieces ++ [.verbatim (exportsCode view)]),
    epilogue view ++ "\n\x7d", ?_, ?_⟩
  · rw [scriptPieces, List.cons_append, List.append_assoc]
    rfl
  · change callsOf (_ ++ [_]) = _
    rw [callsOf_append, callsOf_boundPieces]
    exact List.append_nil _

theorem callsOf_scriptPieces (view : View) :
    callsOf (scriptPieces view) = view.boundRecords.map Prod.snd ++
      callsOf (sourcePieces view.edits 0 view.source.toList) := by
  obtain ⟨front, last, hpieces, hfront⟩ := exists_around view
  rw [hpieces, callsOf_append, callsOf_append, hfront]
  exact congrArg (_ ++ ·) (List.append_nil _)

theorem sourcePieces_append (edits : List Edit) (offset : Nat) (text more : List Char) :
    sourcePieces edits offset (text ++ more) =
      sourcePieces edits offset text ++ sourcePieces edits (offset + byteLength text) more := by
  induction text generalizing offset with
  | nil => rfl
  | cons c rest ih =>
      simp only [List.cons_append, sourcePieces, ih, List.append_assoc, byteLength_cons, Nat.add_assoc]

/-- What a part of a source requires comes from an edit that begins there. -/
theorem exists_edit_of_mem {edits : List Edit} {offset record : Nat} {text : List Char}
    (hpiece : .call record ∈ sourcePieces edits offset text) :
    ∃ edit ∈ edits, edit.record? = some record ∧ offset ≤ edit.span.start ∧
      edit.span.start < offset + byteLength text := by
  induction text generalizing offset with
  | nil => cases hpiece
  | cons c rest ih =>
      have hsize : 0 < c.utf8Size := c.utf8Size_pos
      rw [sourcePieces, List.mem_append, List.mem_append] at hpiece
      rcases hpiece with (hpiece | hpiece) | hpiece
      · rw [piecesAt] at hpiece
        split at hpiece
        · rename_i edit hedit
          obtain ⟨hmem, hstart⟩ := List.mem_filter.mp (List.mem_of_getLast? hedit)
          rw [decide_eq_true_eq] at hstart
          refine ⟨edit, hmem, mem_editPieces hpiece, by omega, ?_⟩
          rw [byteLength_cons]
          omega
        · cases hpiece
      · split at hpiece
        · cases hpiece
        · simp at hpiece
      · obtain ⟨edit, hmem, hrecord, hle, hlt⟩ := ih hpiece
        refine ⟨edit, hmem, hrecord, by omega, ?_⟩
        rw [byteLength_cons]
        omega

variable {view : View} {edit other : Edit} {record : Nat}

/-- The records that edits and the variables of plugins refer to are all records in order. -/
theorem records_eq (h : view.Accounted) :
    view.edits.filterMap Edit.record? ++ view.boundRecords.map Prod.snd =
      List.range view.records.length := by
  have hedits : view.edits.filterMap Edit.record? =
      (view.edits.filterMap Edit.reference?).map Prod.fst := by
    rw [List.map_filterMap]
    exact List.filterMap_congr fun edit _ => edit.record?_eq
  rw [← map_fst_numberedFrom, ← h.references, List.map_append, hedits, List.map_map]
  rfl

/-- No two edits refer to the same record. -/
theorem eq_of_record (h : view.Accounted) (hedit : edit ∈ view.edits)
    (hother : other ∈ view.edits) (hrecord : edit.record? = some record)
    (hsame : other.record? = some record) : other = edit := by
  have hnodup : (view.edits.filterMap Edit.record?).Nodup := by
    have hall : (List.range view.records.length).Nodup := List.nodup_range
    rw [← records_eq h] at hall
    exact (List.nodup_append.mp hall).1
  rw [List.Nodup, List.pairwise_filterMap] at hnodup
  by_contra hne
  have hsymm : Std.Symm fun first second : Edit => ∀ record, first.record? = some record →
      ∀ other, second.record? = some other → record ≠ other :=
    ⟨fun _ _ hdistinct _ hfirst _ hsecond heq => hdistinct _ hsecond _ hfirst heq.symm⟩
  exact hnodup.forall hother hedit hne _ hsame _ hrecord rfl

/-- Nothing else replaces a range that an edit with a record replaces. -/
def Untouched (view : View) : Prop :=
  ∀ edit ∈ view.edits, edit.record?.isSome → ∀ other ∈ view.edits, other.record? = none →
    other.span.start < other.span.stop ∧ other.span.Apart edit.span

instance : DecidablePred Untouched := fun _ => inferInstanceAs (Decidable (∀ _ ∈ _, _))

/-- Where an edit with a record begins, no other edit does. -/
theorem eq_of_start (h : view.Accounted) (huntouched : Untouched view) (hedit : edit ∈ view.edits)
    (hrecord : edit.record?.isSome) (hother : other ∈ view.edits)
    (hstart : other.span.start = edit.span.start) : other = edit := by
  have hcovers : ∀ edit ∈ view.edits, edit.record?.isSome → edit.span.start < edit.span.stop :=
    fun edit hedit hrecord =>
      (h.apart.covers _ (List.mem_map_of_mem (List.mem_filter.mpr ⟨hedit, hrecord⟩))).lt
  by_contra hne
  have hapart : other.span.start < other.span.stop ∧ other.span.Apart edit.span := by
    cases hnone : other.record? with
    | none => exact huntouched edit hedit hrecord other hother hnone
    | some found =>
        have hsome : other.record?.isSome := hnone ▸ rfl
        have hsymm : Std.Symm fun first second : Edit => first.span.Apart second.span :=
          ⟨fun _ _ => Span.Apart.symm⟩
        exact ⟨hcovers other hother hsome, (List.pairwise_map.mp h.apart.apart).forall
          (List.mem_filter.mpr ⟨hother, hsome⟩) (List.mem_filter.mpr ⟨hedit, hrecord⟩) hne⟩
  have hsize := hcovers edit hedit hrecord
  obtain ⟨hlt, hapart⟩ := hapart
  rw [Span.Apart] at hapart
  omega

theorem piecesAt_start (h : view.Accounted) (huntouched : Untouched view) (hedit : edit ∈ view.edits)
    (hrecord : edit.record?.isSome) : piecesAt view.edits edit.span.start = editPieces edit := by
  have hmem : edit ∈ view.edits.filter fun other => other.span.start = edit.span.start :=
    List.mem_filter.mpr ⟨hedit, decide_eq_true rfl⟩
  rw [piecesAt]
  split
  · rename_i other hother
    obtain ⟨hother, hstart⟩ := List.mem_filter.mp (List.mem_of_getLast? hother)
    rw [eq_of_start h huntouched hedit hrecord hother (of_decide_eq_true hstart)]
  · rename_i hnone
    rw [List.getLast?_eq_none_iff.mp hnone] at hmem
    cases hmem

/-- An edit with a record has one place in the code, and nothing else requires the record. -/
theorem exists_place (h : view.Accounted) (huntouched : Untouched view)
    (hedit : edit ∈ view.edits) (hrecord : edit.record? = some record) :
    ∃ before after, sourcePieces view.edits 0 view.source.toList =
        before ++ (editPieces edit ++ after) ∧
      record ∉ callsOf before ∧ record ∉ callsOf after := by
  have hsome : edit.record?.isSome := hrecord ▸ rfl
  have hcovers := h.apart.covers _ (List.mem_map_of_mem (List.mem_filter.mpr ⟨hedit, hsome⟩))
  obtain ⟨front, back, hsource, hstart, hback⟩ :=
    exists_cut (Cursor.standsIn_ofText view.source) hcovers.start (Nat.zero_le _)
  obtain ⟨own, rest, rfl, hstop, _⟩ := exists_cut hback hcovers.stop (Nat.le_of_lt hcovers.lt)
  -- the place of the edit is where its range begins
  cases own with
  | nil => exact absurd (hstop ▸ hcovers.lt) (Nat.lt_irrefl _)
  | cons c own =>
      have hsize : 0 < c.utf8Size := c.utf8Size_pos
      have helsewhere : ∀ {offset : Nat} {text : List Char},
          edit.span.start < offset ∨ offset + byteLength text ≤ edit.span.start →
            record ∉ callsOf (sourcePieces view.edits offset text) := by
        intro offset text haway hmem
        obtain ⟨other, hother, hsame, hle, hlt⟩ := exists_edit_of_mem (mem_callsOf.mp hmem)
        rw [eq_of_record h hedit hother hrecord hsame] at hle hlt
        omega
      rw [hsource, sourcePieces_append, ← hstart, List.cons_append, sourcePieces,
        piecesAt_start h huntouched hedit hsome, List.append_assoc]
      refine ⟨_, _, rfl, helsewhere (.inr (Nat.le_of_eq hstart.symm)), ?_⟩
      rw [callsOf_append, List.mem_append, not_or]
      refine ⟨?_, helsewhere (.inl (by omega))⟩
      split <;> exact List.not_mem_nil

/-- The code of a view requires every import once. -/
theorem callsOf_perm (h : view.Accounted) (huntouched : Untouched view) :
    (callsOf (scriptPieces view)).Perm (List.range view.records.length) := by
  have hnodup : (List.range view.records.length).Nodup := List.nodup_range
  rw [← records_eq h] at hnodup
  rw [callsOf_scriptPieces, ← records_eq h]
  refine List.perm_append_comm.trans (List.Perm.append_right _ (List.perm_iff_count.mpr ?_))
  intro record
  by_cases hmem : record ∈ view.edits.filterMap Edit.record?
  · rw [List.count_eq_one_of_mem (List.nodup_append.mp hnodup).1 hmem]
    obtain ⟨edit, hedit, hrecord⟩ := List.mem_filterMap.mp hmem
    obtain ⟨before, after, hpieces, hbefore, hafter⟩ := exists_place h huntouched hedit hrecord
    rw [hpieces, callsOf_append, callsOf_append, callsOf_editPieces, hrecord, List.count_append,
      List.count_append, List.count_eq_zero_of_not_mem hbefore, List.count_eq_zero_of_not_mem hafter]
    simp
  · rw [List.count_eq_zero_of_not_mem hmem, List.count_eq_zero_of_not_mem]
    intro hcall
    obtain ⟨edit, hedit, hrecord, _⟩ := exists_edit_of_mem (mem_callsOf.mp hcall)
    exact hmem (List.mem_filterMap.mpr ⟨edit, hedit, hrecord⟩)

/-- Hooks that replace at most an argument that is a text touch nothing else. -/
theorem untouched_of_modest {σ : Type} {hooks : List (Hook σ)} {kind : ModuleKind}
    {source : String} {program : Program} (hread : ModuleSource.read kind source = .ok program)
    (hmodest : ∀ hook ∈ hooks, hook.Modest) (state : σ) :
    Untouched ((scan hooks program state).1.toView program.source) := by
  obtain ⟨text, htext⟩ := ModuleSource.read?_of_read hread
  have hfits := Program.fits_of_read? htext
  obtain ⟨spans, hperm, hmarks⟩ := scan_spans hmodest hfits.regular state
  have hscattered := (hfits.marks.sublist hmarks).perm hperm.symm
  rw [← Findings.toView_spans _ program.source] at hscattered
  intro edit hedit hrecord other hother hnone
  have hne : other ≠ edit := fun heq => by
    rw [← heq, hnone] at hrecord
    cases hrecord
  have hsymm : Std.Symm fun first second : Edit => first.span.Apart second.span :=
    ⟨fun _ _ => Span.Apart.symm⟩
  exact ⟨(hscattered.covers _ (List.mem_map_of_mem hother)).lt,
    (List.pairwise_map.mp hscattered.apart).forall hother hedit hne⟩

/-! ## Modules and chunks -/

/-- The variable of an import is declared by one edit, in one place of the code. -/
def DeclaredOnce (view : View) (record : Nat) : Prop :=
  ∃ span bindings before after, .importing span record bindings ∈ view.edits ∧
    scriptPieces view = before ++ (editPieces (.importing span record bindings) ++ after) ∧
    record ∉ callsOf before ∧ record ∉ callsOf after

/-- A module that uses each of its imports once. -/
structure UsesOnce (options : Options) (graph : Graph) (module : Module) (view : View) : Prop where
  accounted : view.Accounted
  /-- Every import leads to a module of the graph. -/
  targets : ∀ record < view.records.length, ∃ number target,
    module.dependencies[record]? = some number ∧ graph.modules[number]? = some target ∧
      targets graph module record = target.stableId
  /-- The code requires nothing but imports that there are. -/
  code : moduleCode options graph module =
      assemble (Output.targets graph module) (scriptPieces view) ∧
    ∀ record ∈ callsOf (scriptPieces view), record < view.records.length
  /-- It requires each of them once. -/
  once : Untouched view → (callsOf (scriptPieces view)).Perm (List.range view.records.length)
  /-- The variables that its exports are read from are declared. -/
  declared : Untouched view → ∀ record, record ∈ view.stars ∨
    (∃ exported imported, .passedOn exported record imported ∈ view.exports) →
      DeclaredOnce view record

/-- A module of a chunk is required by the code of one. -/
def RequiredIn (graph : Graph) (entry number : Nat) : Prop :=
  ∃ other ∈ graph.reachable entry, ∃ module view record, graph.modules[other]? = some module ∧
    module.content = .script view ∧ record ∈ callsOf (scriptPieces view) ∧
    module.dependencies[record]? = some number

theorem declaredOnce (h : view.Accounted) (huntouched : Untouched view)
    (himports : view.Imports record) : DeclaredOnce view record := by
  obtain ⟨span, bindings, hedit⟩ := himports
  obtain ⟨before, after, hpieces, hbefore, hafter⟩ := exists_place h huntouched hedit rfl
  have hbound : record ∉ view.boundRecords.map Prod.snd := by
    have hall : (List.range view.records.length).Nodup := List.nodup_range
    rw [← records_eq h] at hall
    intro hmem
    exact (List.nodup_append.mp hall).2.2 record
      (List.mem_filterMap.mpr ⟨_, hedit, rfl⟩) record hmem rfl
  obtain ⟨front, last, hscript, hfront⟩ := exists_around view
  refine ⟨span, bindings, front ++ before, after ++ [.verbatim last], hedit, ?_, ?_, ?_⟩
  · rw [hscript, hpieces]
    simp only [List.append_assoc]
  · rw [callsOf_append, List.mem_append, not_or, hfront]
    exact ⟨hbound, hbefore⟩
  · rw [callsOf_append, List.mem_append, not_or]
    exact ⟨hafter, List.not_mem_nil⟩

end WebBundle.Output

namespace WebBundle.World

open Scan Output

/-- Whatever was done with a bundler before, and whatever the hooks of its plugins do, every
script in a graph that one of its builds finds, nested builds included, uses each of its
imports once.  If hooks touch nothing of this, every module of a chunk but its entry is
required by the code of a module of the chunk. -/
theorem imports_used_once {options : Options} {registry : List Plugin} {plugins : List Nat}
    {known : List (ModuleId × String)} {bundler : Bundler}
    (hreached : Bundler.Reached (.fresh options registry plugins) known bundler)
    {files : FileTree} {limit : Nat} {build : BuildStart}
    (hbuild : build ∈ (bundler.world files).buildsIn limit bundler.start) {depth : Nat}
    {graph : Graph} {last : Running}
    (hstage : (bundler.world files).scanStage depth build = some (.ok (graph, last))) :
    (∀ module ∈ graph.modules, ∀ view, module.content = .script view →
      UsesOnce build.plan.options graph module view) ∧
    ∀ given entry, (given, entry) ∈ graph.entries →
      (∀ number ∈ graph.reachable entry, ∀ module, graph.modules[number]? = some module →
        module.content.Holds Untouched) →
      ∀ number ∈ graph.reachable entry, number ≠ entry → RequiredIn graph entry number := by
  have hscans : HoldsOfScans View.Accounted := fun hooks memory _ _ _ hread =>
    accounted_of_scan hread hooks memory
  have hviews := holds_of_scanStage hscans
    (obeys_buildsIn hscans (hreached.obeys hscans rfl) build hbuild) hstage
  obtain ⟨_, _, _, hload⟩ := scanStage_eq_ok.mp hstage
  have hcomplete := Loader.complete_of_load hload
  constructor
  · intro module hmodule view hview
    have haccounted : view.Accounted := by
      have hholds := hviews module hmodule
      rwa [hview] at hholds
    have hless : ∀ record ∈ callsOf (scriptPieces view), record < view.records.length := by
      intro record hcall
      have hrequired := mem_scriptPieces (mem_callsOf.mp hcall)
      rw [requiredRecords, List.mem_append, or_comm, ← List.mem_append, records_eq haccounted] at hrequired
      exact List.mem_range.mp hrequired
    refine ⟨haccounted, fun record hrecord => ?_, ⟨?_, hless⟩, callsOf_perm haccounted, ?_⟩
    · exact exists_target hcomplete hmodule (by rw [hview]; exact hrecord)
    · simp only [moduleCode, hview]
      exact scriptCode_eq _ view
    · intro huntouched record hexported
      refine declaredOnce haccounted huntouched ?_
      rcases hexported with hstar | ⟨exported, imported, hpassed⟩
      · exact haccounted.stars record hstar
      · exact haccounted.passedOn exported record imported hpassed
  · intro given entry _ huntouched number hnumber hne
    have hleads := Graph.mem_reachable.mp hnumber
    cases hleads with
    | refl => exact absurd rfl hne
    | @tail other _ hother hdependency =>
        obtain ⟨module, hmodule, hmem⟩ := Graph.dependsOn_iff.mp hdependency
        obtain ⟨record, hrecord, hfound⟩ := List.getElem_of_mem hmem
        have hreachable := Graph.mem_reachable.mpr hother
        have hlength := hcomplete.dependencies module (List.mem_of_getElem? hmodule)
        have hholds := hviews module (List.mem_of_getElem? hmodule)
        have hkept := huntouched other hreachable module hmodule
        cases hcontent : module.content with
        | asset bytes =>
            rw [hcontent] at hlength
            exact absurd (hlength ▸ hrecord) (Nat.not_lt_zero _)
        | script view =>
            rw [hcontent] at hlength hholds hkept
            refine ⟨other, hreachable, module, view, record, hmodule, hcontent, ?_, ?_⟩
            · rw [(callsOf_perm hholds hkept).mem_iff, List.mem_range]
              exact hlength ▸ hrecord
            · rw [List.getElem?_eq_getElem hrecord, hfound]

/-- A module that passes on another one in two ways, requires a second one in a call, and
gets a third one from a plugin that sees the call. -/
def usedTree : FileTree :=
  ⟨[(["p"], .directory),
    (["p", "m.js"], .file
      "export * from './n.js';foo.bar(require('./k.js'));export {a} from './n.js'".toUTF8),
    (["p", "n.js"], .file "import './k.js'".toUTF8), (["p", "k.js"], .file "1".toUTF8),
    (["p", "w.js"], .file "2".toUTF8)]⟩

/-- A bundler for these modules with such a plugin. -/
def forUsed : Bundler :=
  .fresh { input := [⟨none, "./m.js"⟩], workingDirectory := "/p" }
    [.ruled { calls := [{ selector := "foo", boundRequests := [("v", "./w.js")] }] }] [0]

/-- The code of the first module requires all four imports, each once, and every other module
of the chunk is required. -/
theorem imports_used_once_passedOn :
    ∃ graph last module view,
      (forUsed.world usedTree).scanStage 3 forUsed.start = some (.ok (graph, last)) ∧
      graph.modules.map Module.dependencies = [[1, 2, 1, 3], [2], [], []] ∧
      graph.modules[0]? = some module ∧ module.content = .script view ∧ view.stars = [0] ∧
      view.exports = [.passedOn "a" 2 (.named "a")] ∧ view.boundRecords = [("v", 3)] ∧
      (callsOf (scriptPieces view)).Perm [0, 1, 2, 3] ∧
      DeclaredOnce view 0 ∧ DeclaredOnce view 2 ∧ RequiredIn graph 0 3 := by
  have hstage : (((forUsed.world usedTree).scanStage 3 forUsed.start).any fun stage =>
      stage.toOption.any fun found =>
        decide (found.1.entries = [(none, 0)]) &&
        decide (found.1.modules.map Module.dependencies = [[1, 2, 1, 3], [2], [], []]) &&
        (found.1.modules.all fun module => module.content.view?.all fun view =>
          decide (Untouched view)) &&
        (found.1.modules[0]?.any fun module => module.content.view?.any fun view =>
          decide (view.stars = [0]) && decide (view.exports = [.passedOn "a" 2 (.named "a")]) &&
            decide (view.boundRecords = [("v", 3)]) && decide (view.records.length = 4))) = true := by
    decide +kernel
  obtain ⟨stage, hstage, hfound⟩ := (Option.any_eq_true _ _).mp hstage
  cases stage with
  | error ended => cases hfound
  | ok found =>
      obtain ⟨graph, last⟩ := found
      simp only [Except.toOption, Option.any_some, Bool.and_eq_true, decide_eq_true_eq,
        Option.any_eq_true] at hfound
      obtain ⟨⟨⟨hentries, hgraph⟩, hkept⟩, module, hmodule, view, hview, ⟨⟨hstars, hexports⟩, hbound⟩,
        hrecords⟩ := hfound
      have hholds : ∀ module ∈ graph.modules, module.content.Holds Untouched := by
        intro module hmem
        have hall := List.all_eq_true.mp hkept module hmem
        cases hcontent : module.content with
        | asset bytes => trivial
        | script view =>
            rw [hcontent] at hall
            change Untouched view
            exact of_decide_eq_true hall
      have hcontent : module.content = .script view := by
        cases hgiven : module.content with
        | asset bytes =>
            rw [hgiven] at hview
            cases hview
        | script other =>
            rw [hgiven] at hview
            cases hview
            rfl
      have hbuild : forUsed.start ∈ (forUsed.world usedTree).buildsIn 0 forUsed.start :=
        List.mem_cons_self
      obtain ⟨hmodules, hchunks⟩ := imports_used_once .first hbuild hstage
      have hmem := List.mem_of_getElem? hmodule
      have huntouched : Untouched view := by
        have hkept := hholds module hmem
        rwa [hcontent] at hkept
      have huses := hmodules module hmem view hcontent
      have hperm := huses.once huntouched
      rw [hrecords] at hperm
      have hreachable : 3 ∈ graph.reachable 0 := Graph.mem_reachable.mpr
        (.single (graph.dependsOn_of_map hgraph rfl (by decide)))
      refine ⟨graph, last, module, view, hstage, hgraph, hmodule, hcontent, hstars, hexports,
        hbound, hperm, ?_, ?_, ?_⟩
      · exact huses.declared huntouched 0 (.inl (by rw [hstars]; decide))
      · exact huses.declared huntouched 2 (.inr ⟨"a", .named "a", by rw [hexports]; decide⟩)
      · refine hchunks none 0 (by rw [hentries]; decide) (fun number _ module hfound => ?_) 3
          hreachable (by decide)
        exact hholds module (List.mem_of_getElem? hfound)

/-- A module in which a plugin replaces the argument of a call, which is a `require` call, and
which declares the variable of its only declaration itself. -/
def coveredTree : FileTree :=
  ⟨[(["p"], .directory),
    (["p", "m.js"], .file
      "export * from './b.js';var __houdini_import_0__;foo.bar(require('./a.js'))".toUTF8),
    (["p", "a.js"], .file "1".toUTF8), (["p", "b.js"], .file "2".toUTF8)]⟩

/-- A bundler for these modules with such a plugin. -/
def forCovered : Bundler :=
  .fresh { input := [⟨none, "./m.js"⟩], workingDirectory := "/p" }
    [.ruled { calls := [{ selector := "foo", argument := some "1" }] }] [0]

/-- No code requires the module `./a.js`, which is in the chunk for the call that is replaced,
and the variable that everything is exported from is declared a second time. -/
theorem not_required_covered :
    ∃ graph last module,
      (forCovered.world coveredTree).scanStage 3 forCovered.start = some (.ok (graph, last)) ∧
      graph.entries = [(none, 0)] ∧ 2 ∈ graph.reachable 0 ∧
      graph.modules.map Module.stableId = ["./m.js", "./b.js", "./a.js"] ∧
      (∀ module ∈ graph.modules, ¬ (requireCode "./a.js").toList <:+:
        (moduleCode forCovered.options graph module).toList) ∧
      graph.modules[0]? = some module ∧
      moduleCode forCovered.options graph module =
        moduleFunction ("__houdini_require__.r(exports);\n" ++
          "var __houdini_import_0__ = __houdini_require__(\"./b.js\");" ++
          "var __houdini_import_0__;" ++ "foo.bar(1)" ++
          "\n__houdini_require__.s(exports, __houdini_import_0__);") := by
  have hstage : (((forCovered.world coveredTree).scanStage 3 forCovered.start).any fun stage =>
      stage.toOption.any fun found =>
        decide (found.1.entries = [(none, 0)]) &&
        decide (found.1.modules.map Module.dependencies = [[1, 2], [], []]) &&
        decide (found.1.modules.map Module.stableId = ["./m.js", "./b.js", "./a.js"]) &&
        decide (∀ module ∈ found.1.modules, ¬ (requireCode "./a.js").toList <:+:
          (moduleCode forCovered.options found.1 module).toList) &&
        found.1.modules[0]?.any fun module =>
          decide (moduleCode forCovered.options found.1 module =
            moduleFunction ("__houdini_require__.r(exports);\n" ++
              "var __houdini_import_0__ = __houdini_require__(\"./b.js\");" ++
              "var __houdini_import_0__;" ++ "foo.bar(1)" ++
              "\n__houdini_require__.s(exports, __houdini_import_0__);"))) = true := by
    decide +kernel
  obtain ⟨stage, hstage, hfound⟩ := (Option.any_eq_true _ _).mp hstage
  cases stage with
  | error ended => cases hfound
  | ok found =>
      obtain ⟨graph, last⟩ := found
      simp only [Except.toOption, Option.any_some, Bool.and_eq_true, decide_eq_true_eq,
        Option.any_eq_true] at hfound
      obtain ⟨⟨⟨⟨hentries, hgraph⟩, hnames⟩, hnone⟩, module, hmodule, hcode⟩ := hfound
      have hreachable : 2 ∈ graph.reachable 0 := Graph.mem_reachable.mpr
        (.single (graph.dependsOn_of_map hgraph rfl (by decide)))
      exact ⟨graph, last, module, hstage, hentries, hreachable, hnames, hnone, hmodule, hcode⟩

end WebBundle.World

import WebBundle.Proofs.Edits.Apart
import WebBundle.Proofs.Edits.Ranges
import WebBundle.Proofs.Output.Rendering
import WebBundle.Proofs.Scan.Hooks

/-!
# Imports stay where they are declared

The code of a module runs its statements in the order of the source.  A declaration that
imports something becomes the call that requires it, in the place of the declaration: so the
dependencies that are named by declarations are required in the order of the declarations,
each of them before the statements behind its declaration and after those in front of it.
-/

namespace WebBundle.Scan

open Syntax

/-! ## What declarations import -/

/-- The specifier of the module that a declaration imports, and the names that it binds. -/
def imported? : Node → Option (String × List ImportedBinding)
  | ⟨.importDeclaration _ _, _, specifiers :: ⟨.stringLiteral specifier _, _, _⟩ :: _⟩ =>
    some (specifier, specifiers.children.flatMap Findings.specifierBindings)
  | ⟨.exportNamed _, _, _ :: ⟨.stringLiteral specifier _, _, _⟩ :: _⟩ => some (specifier, [])
  | ⟨.exportAll _ _, _, ⟨.stringLiteral specifier _, _, _⟩ :: _⟩ => some (specifier, [])
  | _ => none

variable {node : Node} {specifier : String} {bindings : List ImportedBinding}

theorem isScanned_of_imported? (h : imported? node = some (specifier, bindings)) :
    isScanned node.kind = true ∧ isCall node.kind = false := by
  rw [imported?.eq_def] at h
  split at h <;> first | exact ⟨rfl, rfl⟩ | cases h

namespace Findings

/-- What has been found is still there. -/
def Grows (first second : Findings) : Prop :=
  first.records <+: second.records ∧ first.edits <+: second.edits

variable {first second third : Findings}

theorem Grows.trans (h : first.Grows second) (hrest : second.Grows third) : first.Grows third :=
  ⟨h.1.trans hrest.1, h.2.trans hrest.2⟩

theorem grows_addEdit (findings : Findings) (edit : Edit) : findings.Grows (findings.addEdit edit) :=
  ⟨List.prefix_rfl, List.prefix_append _ _⟩

theorem grows_addImport (findings : Findings) (span : Span) (source : Node)
    (bindings : List ImportedBinding) : findings.Grows (findings.addImport span source bindings) := by
  rw [addImport.eq_def]
  split
  · exact ⟨List.prefix_append _ _, List.prefix_append _ _⟩
  · exact ⟨List.prefix_rfl, List.prefix_rfl⟩

theorem grows_addDeclaration (findings : Findings) (node : Node) :
    findings.Grows (findings.addDeclaration node) := by
  rw [addDeclaration.eq_def]
  dsimp only
  split
  · exact grows_addImport { findings with hasDeclarations := true } _ _ _
  · split
    · exact grows_addImport (addExports { findings with hasDeclarations := true } _) _ _ _
    · exact grows_addEdit findings _
  · exact grows_addEdit findings _
  · split <;> exact grows_addEdit findings _
  · exact grows_addImport (addExports { findings with hasDeclarations := true } _) _ _ _
  · exact grows_addImport { findings with
      hasDeclarations := true
      stars := findings.stars ++ [findings.nextRecord] } _ _ _
  · exact ⟨List.prefix_rfl, List.prefix_rfl⟩

theorem grows_declare (findings : Findings) (site : Site) :
    findings.Grows (declare findings site) := by
  rw [declare]
  split
  · rw [addRequire]
    split
    · exact ⟨List.prefix_append _ _, List.prefix_append _ _⟩
    · exact ⟨List.prefix_rfl, List.prefix_rfl⟩
  · exact findings.grows_addDeclaration site.node

theorem grows_foldl_declare (sites : List Site) (findings : Findings) :
    findings.Grows (sites.foldl declare findings) := by
  induction sites generalizing findings with
  | nil => exact ⟨List.prefix_rfl, List.prefix_rfl⟩
  | cons site rest ih => exact (findings.grows_declare site).trans (ih _)

/-- There is a record for the specifier, and an edit of the range that refers to it. -/
def Imports (findings : Findings) (span : Span) (specifier : String)
    (bindings : List ImportedBinding) : Prop :=
  ∃ record place, findings.records[record]? = some ⟨specifier, .declaration, place⟩ ∧
    .importing span record bindings ∈ findings.edits

theorem Imports.grow {span : Span} (h : first.Imports span specifier bindings)
    (hgrows : first.Grows second) : second.Imports span specifier bindings := by
  obtain ⟨record, place, hrecord, hedit⟩ := h
  obtain ⟨⟨more, hrecords⟩, hedits⟩ := hgrows
  refine ⟨record, place, ?_, hedits.subset hedit⟩
  rw [← hrecords, List.getElem?_append_left (List.getElem?_eq_some_iff.mp hrecord).1, hrecord]

theorem imports_addImport (findings : Findings) (span : Span) (specifier : String) (lone : Bool)
    (place : Span) (parts : List Node) (bindings : List ImportedBinding) :
    (findings.addImport span ⟨.stringLiteral specifier lone, place, parts⟩ bindings).Imports span
      specifier bindings :=
  ⟨findings.records.length, place, List.getElem?_concat_length, List.mem_concat_self⟩

theorem imports_addDeclaration (findings : Findings) (h : imported? node = some (specifier, bindings)) :
    (findings.addDeclaration node).Imports node.span specifier bindings := by
  rw [imported?.eq_def] at h
  split at h
  · cases h
    rw [addDeclaration]
    exact imports_addImport _ _ _ _ _ _ _
  · rename_i lone place parts rest
    cases h
    have hpresent : Node.isPresent ⟨.stringLiteral specifier lone, place, parts⟩ = true := rfl
    rw [addDeclaration, if_pos hpresent]
    exact imports_addImport _ _ _ _ _ _ _
  · rename_i exported _ _ _ _ _ _ _
    cases h
    cases exported <;> rw [addDeclaration] <;> exact imports_addImport _ _ _ _ _ _ _
  · cases h

end Findings

/-- Every declaration among the statements of a program that imports something is found. -/
theorem declared_imports {program : Program} (hnode : node ∈ program.root.children)
    (h : imported? node = some (specifier, bindings)) :
    (declared program).Imports node.span specifier bindings := by
  obtain ⟨hscanned, hcall⟩ := isScanned_of_imported? h
  have hinside : node ∈ program.root.nodes := Node.mem_nodes_of_mem_children program.root hnode
  have hsite : node ∈ (program.sites isScanned).map Site.node := by
    rw [program.sites_nodes]
    exact List.mem_filter.mpr ⟨hinside, hscanned⟩
  obtain ⟨site, hmem, rfl⟩ := List.mem_map.mp hsite
  obtain ⟨before, after, hsites⟩ := List.append_of_mem hmem
  rw [declared, hsites, List.foldl_append, List.foldl_cons]
  refine .grow ?_ (Findings.grows_foldl_declare after _)
  rw [declare, hcall]
  exact Findings.imports_addDeclaration _ h

end WebBundle.Scan

namespace WebBundle.Output

open Scan Syntax

/-! ## Cutting a source -/

theorem byteLength_append (first second : List Char) :
    byteLength (first ++ second) = byteLength first + byteLength second := by
  induction first with
  | nil => exact (Nat.zero_add _).symm
  | cons c rest ih => rw [List.cons_append, byteLength_cons, byteLength_cons, ih, Nat.add_assoc]

theorem byteLength_toList (text : String) : byteLength text.toList = text.utf8ByteSize := by
  have hchars : ∀ chars : List Char, byteLength chars = (String.ofList chars).utf8ByteSize := by
    intro chars
    induction chars with
    | nil => rfl
    | cons c rest ih =>
        rw [byteLength_cons, ih, ← List.singleton_append, String.ofList_append,
          String.utf8ByteSize_append]
        simp
  rw [hchars, String.ofList_toList]

theorem eq_nil_of_byteLength {text : List Char} (h : byteLength text = 0) : text = [] := by
  cases text with
  | nil => rfl
  | cons c rest =>
      have hsize : 0 < c.utf8Size := c.utf8Size_pos
      rw [byteLength_cons] at h
      omega

/-- What stands in a source at an offset can be cut at every later boundary of characters. -/
theorem exists_cut {source : String} {text : List Char} {offset position : Nat}
    (h : Cursor.StandsIn source ⟨text, offset⟩)
    (hvalid : (String.Pos.Raw.mk position).IsValid source) (hle : offset ≤ position) :
    ∃ front back, text = front ++ back ∧ position = offset + byteLength front ∧
      Cursor.StandsIn source ⟨back, position⟩ := by
  obtain ⟨before, hsource, hoffset⟩ := h
  obtain ⟨first, second, hcut, hposition⟩ := String.Pos.Raw.isValid_iff_exists_append.mp hvalid
  have hfirst : position = byteLength first.toList :=
    (congrArg String.Pos.Raw.byteIdx hposition).trans (byteLength_toList first).symm
  have hbefore : offset = byteLength before.toList := hoffset.trans (byteLength_toList before).symm
  have hback : Cursor.StandsIn source ⟨second.toList, position⟩ :=
    ⟨first, by rw [String.ofList_toList, hcut], congrArg String.Pos.Raw.byteIdx hposition⟩
  have hchars : before.toList ++ text = first.toList ++ second.toList := by
    rw [← String.toList_append, ← hcut, hsource, String.toList_append, String.toList_ofList]
  rcases List.append_eq_append_iff.mp hchars with ⟨front, hfront, htext⟩ | ⟨more, hmore, hsecond⟩
  · refine ⟨front, second.toList, htext, ?_, hback⟩
    rw [hfirst, hfront, byteLength_append, ← hbefore]
  · -- the position is not in front of the text, so there is nothing in between
    rw [hfirst, hbefore, hmore, byteLength_append] at hle
    have hnone : more = [] := eq_nil_of_byteLength (by omega)
    subst hnone
    refine ⟨[], second.toList, hsecond.symm, ?_, hback⟩
    rw [hfirst, hbefore, hmore, List.append_nil]
    rfl

/-! ## What stands in place of a range -/

section Splicing

variable {replacements : List Replacement} {replacement : Replacement}

/-- All other replacements lie apart from one of them, and none of them begins there. -/
def Alone (replacements : List Replacement) (replacement : Replacement) : Prop :=
  ∀ other ∈ replacements, other = replacement ∨
    (other.span.start < replacement.span.start ∧ other.span.stop ≤ replacement.span.start) ∨
      replacement.span.stop ≤ other.span.start

theorem insertedAt_of_alone (hmem : replacement ∈ replacements)
    (halone : Alone replacements replacement)
    (hlt : replacement.span.start < replacement.span.stop) :
    insertedAt replacements replacement.span.start = replacement.text := by
  have hsame : ∀ other ∈ replacements.filter fun other =>
      other.span.start = replacement.span.start, other = replacement := by
    intro other hother
    obtain ⟨hother, hstart⟩ := List.mem_filter.mp hother
    rw [decide_eq_true_eq] at hstart
    rcases halone other hother with rfl | hother | hother
    · rfl
    · omega
    · omega
  rw [insertedAt]
  split
  · rename_i other hother
    rw [hsame other (List.mem_of_getLast? hother)]
  · rename_i hnone
    have hin : replacement ∈ replacements.filter fun other =>
        other.span.start = replacement.span.start :=
      List.mem_filter.mpr ⟨hmem, decide_eq_true rfl⟩
    rw [List.getLast?_eq_none_iff.mp hnone] at hin
    cases hin

/-- Behind its first character nothing is left of a range that is replaced. -/
theorem splice_inside (hmem : replacement ∈ replacements) (halone : Alone replacements replacement)
    {offset : Nat} {text : List Char} (hstart : replacement.span.start < offset)
    (hstop : offset + byteLength text = replacement.span.stop) :
    splice replacements offset text = [] := by
  induction text generalizing offset with
  | nil => rfl
  | cons c rest ih =>
      have hsize : 0 < c.utf8Size := c.utf8Size_pos
      rw [byteLength_cons] at hstop
      have hnone : insertedAt replacements offset = [] := by
        have hempty : replacements.filter (fun other => other.span.start = offset) = [] :=
          List.filter_eq_nil_iff.mpr fun other hother hoffset => by
            have hoffset := of_decide_eq_true hoffset
            rcases halone other hother with rfl | hother | hother <;> omega
        rw [insertedAt, hempty]
        rfl
      have hreplaced : isReplaced replacements offset = true := by
        refine List.any_eq_true.mpr ⟨replacement, hmem, ?_⟩
        simp only [Bool.and_eq_true, decide_eq_true_eq]
        omega
      rw [splice, hnone, hreplaced, ih (by omega) (by omega)]
      rfl

/-- A range with a replacement of its own is spliced to the text of the replacement. -/
theorem splice_own (hmem : replacement ∈ replacements) (halone : Alone replacements replacement)
    {text : List Char} (hlt : replacement.span.start < replacement.span.stop)
    (hstop : replacement.span.stop = replacement.span.start + byteLength text) :
    splice replacements replacement.span.start text = replacement.text := by
  cases text with
  | nil => exact absurd (hstop ▸ hlt) (Nat.lt_irrefl _)
  | cons c rest =>
      have hsize : 0 < c.utf8Size := c.utf8Size_pos
      rw [byteLength_cons] at hstop
      have hreplaced : isReplaced replacements replacement.span.start = true := by
        refine List.any_eq_true.mpr ⟨replacement, hmem, ?_⟩
        simp only [Bool.and_eq_true, decide_eq_true_eq]
        omega
      rw [splice, insertedAt_of_alone hmem halone hlt, hreplaced,
        splice_inside hmem halone (by omega) (by omega)]
      simp

end Splicing

/-- Of edits whose ranges do not overlap, each lies apart from all others. -/
theorem alone_of_scattered {source : String} {lo hi : Nat} {edits : List Edit} {edit : Edit}
    (hscattered : Scattered source lo hi (edits.map Edit.span)) (hedit : edit ∈ edits)
    (target : Nat → String) :
    Alone (edits.map fun edit => ⟨edit.span, (editText target edit).toList⟩)
      ⟨edit.span, (editText target edit).toList⟩ := by
  have hlt : ∀ other ∈ edits, other.span.start < other.span.stop :=
    fun other hother => (hscattered.covers _ (List.mem_map_of_mem hother)).lt
  intro replacement hreplacement
  obtain ⟨other, hother, rfl⟩ := List.mem_map.mp hreplacement
  by_cases hsame : other = edit
  · exact .inl (by rw [hsame])
  · have hsymm : Std.Symm fun first second : Edit => first.span.Apart second.span :=
      ⟨fun _ _ => Span.Apart.symm⟩
    have hapart := (List.pairwise_map.mp hscattered.apart).forall hother hedit hsame
    have hsize := hlt other hother
    have hedges := hlt edit hedit
    change _ ∨ (other.span.start < edit.span.start ∧ other.span.stop ≤ edit.span.start) ∨
      edit.span.stop ≤ other.span.start
    rw [Span.Apart] at hapart
    exact .inr (by omega)

/-! ## What hooks may replace -/

/-- What hooks replace is not empty, and it lies apart from the declarations that import
something. -/
def Spares {σ : Type} (hooks : List (Hook σ)) (program : Program) (state : σ) : Prop :=
  ∀ entry ∈ (scan hooks program state).1.reaction.replacements, ∀ statement ∈ program.root.children,
    (imported? statement).isSome = true →
      entry.1.start < entry.1.stop ∧ entry.1.Apart statement.span

variable {σ : Type} {hooks : List (Hook σ)} {program : Program} {state : σ} {text : String}
variable {statement : Node} {specifier : String} {bindings : List ImportedBinding}

theorem edits_toView (hooks : List (Hook σ)) (program : Program) (state : σ) :
    ((scan hooks program state).1.toView program.source).edits =
      (declared program).edits ++ (scan hooks program state).1.reaction.replacements.map
        fun (span, text) => .replace span text := by
  rw [scan_eq, Findings.toView, Findings.addReactions_eq]

theorem records_toView (hooks : List (Hook σ)) (program : Program) (state : σ) :
    (declared program).records <+:
      ((scan hooks program state).1.toView program.source).records := by
  rw [scan_eq, Findings.toView, Findings.addReactions_eq]
  exact List.prefix_append _ _

/-- What a program declares replaces ranges that lie apart. -/
theorem scattered_declared (hread : Program.read? false text = some program) :
    Scattered program.source 0 program.source.utf8ByteSize
      ((declared program).edits.map Edit.span) := by
  have hfits := Program.fits_of_read? hread
  have hnone : ∀ hook ∈ ([] : List (Hook Unit)), hook.Modest := List.forall_mem_nil _
  obtain ⟨spans, hperm, hmarks⟩ := scan_spans hnone hfits.regular ()
  rw [scan_nil, Findings.spans, (declared_reaction program).1, List.map_nil, List.append_nil] at hperm
  exact (hfits.marks.sublist hmarks).perm hperm.symm

/-- The edit of a declaration that imports something lies apart from all others. -/
theorem alone_of_spares (hread : Program.read? false text = some program)
    (hspares : Spares hooks program state) (hstatement : statement ∈ program.root.children)
    (himported : (imported? statement).isSome = true) {edit : Edit}
    (hedit : edit ∈ (declared program).edits) (hspan : edit.span = statement.span)
    (target : Nat → String) :
    Alone (replacements target ((scan hooks program state).1.toView program.source))
      ⟨edit.span, (editText target edit).toList⟩ := by
  have hscattered := scattered_declared hread
  have hedges := (hscattered.covers _ (List.mem_map_of_mem hedit)).lt
  rw [Alone, replacements, edits_toView, List.map_append, List.forall_mem_append]
  constructor
  · exact alone_of_scattered hscattered hedit target
  · intro replacement hreplacement
    obtain ⟨other, hother, rfl⟩ := List.mem_map.mp hreplacement
    obtain ⟨entry, hentry, rfl⟩ := List.mem_map.mp hother
    obtain ⟨hsize, hapart⟩ := hspares entry hentry statement hstatement himported
    rw [Span.Apart, ← hspan] at hapart
    change _ ∨ (entry.1.start < edit.span.start ∧ entry.1.stop ≤ edit.span.start) ∨
      edit.span.stop ≤ entry.1.start
    exact .inr (by omega)

/-- Hooks that replace at most an argument that is a text spare all declarations. -/
theorem spares_of_modest (hread : Program.read? false text = some program)
    (hmodest : ∀ hook ∈ hooks, hook.Modest) (state : σ) : Spares hooks program state := by
  have hfits := Program.fits_of_read? hread
  obtain ⟨spans, hperm, hmarks⟩ := scan_spans hmodest hfits.regular state
  have hscattered := (hfits.marks.sublist hmarks).perm hperm.symm
  have hedits : (scan hooks program state).1.edits = (declared program).edits := by
    rw [scan_eq, Findings.addReactions_eq]
  rw [Findings.spans, hedits] at hscattered
  intro entry hentry statement hstatement himported
  obtain ⟨⟨specifier, bindings⟩, hfound⟩ := Option.isSome_iff_exists.mp himported
  obtain ⟨_, _, _, hedit⟩ := declared_imports hstatement hfound
  have hspan : entry.1 ∈ (scan hooks program state).1.reaction.replacements.map Prod.fst :=
    List.mem_map_of_mem hentry
  refine ⟨(hscattered.covers _ (List.mem_append_right _ hspan)).lt, Span.Apart.symm ?_⟩
  exact (List.pairwise_append.mp hscattered.apart).2.2 _ (List.mem_map_of_mem hedit) _ hspan

/-! ## Statement by statement -/

/-- The code of what a source has from an offset on, statement by statement: a declaration
that imports something becomes the call that requires it, every other statement stays what it
is with its edits, and so does what stands between statements. -/
inductive LaidOut (target : Nat → String) (view : View) :
    Nat → List Char → List Node → List Char → Prop
  | done (offset : Nat) (text : List Char) :
    LaidOut target view offset text [] (splice (replacements target view) offset text)
  | required {offset : Nat} {gap own rest code : List Char} {statement : Node}
    {statements : List Node} {specifier : String} {bindings : List ImportedBinding}
    {record : Nat} {place : Span}
    (start : statement.span.start = offset + byteLength gap)
    (stop : statement.span.stop = statement.span.start + byteLength own)
    (imported : imported? statement = some (specifier, bindings))
    (known : view.records[record]? = some ⟨specifier, .declaration, place⟩)
    (others : LaidOut target view statement.span.stop rest statements code) :
    LaidOut target view offset (gap ++ (own ++ rest)) (statement :: statements)
      (splice (replacements target view) offset gap ++
        ((importCode target record bindings).toList ++ code))
  | kept {offset : Nat} {gap own rest code : List Char} {statement : Node}
    {statements : List Node}
    (start : statement.span.start = offset + byteLength gap)
    (stop : statement.span.stop = statement.span.start + byteLength own)
    (other : imported? statement = none)
    (others : LaidOut target view statement.span.stop rest statements code) :
    LaidOut target view offset (gap ++ (own ++ rest)) (statement :: statements)
      (splice (replacements target view) offset gap ++
        (splice (replacements target view) statement.span.start own ++ code))

/-- If every declaration that imports something is spliced to the call that requires it, the
code is laid out statement by statement. -/
theorem laidOut_of_ordered {target : Nat → String} {view : View} {source : String} {size : Nat}
    {statements : List Node}
    (hdeclared : ∀ statement ∈ statements, ∀ specifier bindings,
      imported? statement = some (specifier, bindings) → ∃ record place,
        view.records[record]? = some ⟨specifier, .declaration, place⟩ ∧
          ∀ own, statement.span.stop = statement.span.start + byteLength own →
            splice (replacements target view) statement.span.start own =
              (importCode target record bindings).toList)
    {offset : Nat} {text : List Char} (htext : Cursor.StandsIn source ⟨text, offset⟩)
    (hordered : Ordered source offset size (statements.map Node.span)) :
    LaidOut target view offset text statements (splice (replacements target view) offset text) := by
  induction statements generalizing offset text with
  | nil => exact .done offset text
  | cons statement statements ih =>
      obtain ⟨hstatement, hstatements⟩ := List.forall_mem_cons.mp hdeclared
      have hcovers := hordered.covers statement.span List.mem_cons_self
      obtain ⟨gap, back, rfl, hstart, hback⟩ := exists_cut htext hcovers.start hcovers.lo_le
      obtain ⟨own, rest, rfl, hstop, hrest⟩ :=
        exists_cut hback hcovers.stop (Nat.le_of_lt hcovers.lt)
      have hothers := ih hstatements hrest hordered.tail
      rw [splice_append_text, splice_append_text, ← hstart, ← hstop]
      cases himported : imported? statement with
      | none => exact .kept hstart hstop himported hothers
      | some found =>
          obtain ⟨specifier, bindings⟩ := found
          obtain ⟨record, place, hrecord, hown⟩ := hstatement specifier bindings himported
          rw [hown own hstop]
          exact .required hstart hstop himported hrecord hothers

/-- The body of a module runs the statements of its source in their order, and each import,
export list with a source and export of a whole module requires the dependency that it names
in its own place. -/
theorem imports_in_place {kind : ModuleKind} {source : String}
    (hread : ModuleSource.read kind source = .ok program) (hspares : Spares hooks program state)
    (target : Nat → String) :
    let view := (scan hooks program state).1.toView program.source
    ∃ code, LaidOut target view 0 program.source.toList program.root.children code ∧
      scriptCode target view =
        moduleFunction (prologue target view ++ String.ofList code ++ epilogue view) := by
  obtain ⟨text, htext⟩ := ModuleSource.read?_of_read hread
  intro view
  refine ⟨_, laidOut_of_ordered ?_ (Cursor.standsIn_ofText program.source)
    (Program.ordered_of_read? htext), rfl⟩
  intro statement hstatement specifier bindings himported
  obtain ⟨record, place, hrecord, hedit⟩ := declared_imports hstatement himported
  refine ⟨record, place, ?_, fun own hstop => ?_⟩
  · obtain ⟨more, hrecords⟩ := records_toView hooks program state
    rw [← hrecords, List.getElem?_append_left (List.getElem?_eq_some_iff.mp hrecord).1, hrecord]
  · have halone := alone_of_spares htext hspares hstatement (himported ▸ rfl) hedit rfl target
    refine splice_own (List.mem_map_of_mem ?_) halone ?_ hstop
    · rw [edits_toView]
      exact List.mem_append_left _ hedit
    · exact ((scattered_declared htext).covers _ (List.mem_map_of_mem hedit)).lt

/-- What holds of the program that a source is read as, found by reading it. -/
theorem exists_read {kind : ModuleKind} {source : String} (holds : Program → Bool)
    (h : (ModuleSource.read kind source).toOption.any holds = true) :
    ∃ program, ModuleSource.read kind source = .ok program ∧ holds program = true := by
  cases hread : ModuleSource.read kind source with
  | error fault =>
      rw [hread] at h
      cases h
  | ok program =>
      rw [hread] at h
      exact ⟨program, rfl, h⟩

/-- Imports in front of other statements and behind them, and a worklet. -/
def scatteredSource : String :=
  "import a from './a.js';CSS.paintWorklet.addModule('./w.js');export * from './b.js';f(a)"

set_option maxRecDepth 10000 in
/-- With plugins that compile worklets, the code of four statements is laid out in their order. -/
theorem imports_in_place_scattered :
    ∃ program, ModuleSource.read .script scatteredSource = .ok program ∧
      let view := (scan (Numbered.hooks .script twoWorkletPlugins) program {}).1.toView program.source
      program.root.children.map (fun statement => (imported? statement).map Prod.fst) =
        [some "./a.js", none, some "./b.js", none] ∧ view.edits.length = 3 ∧
      ∃ code, LaidOut toString view 0 program.source.toList program.root.children code ∧
        scriptCode toString view =
          moduleFunction (prologue toString view ++ String.ofList code ++ epilogue view) := by
  obtain ⟨program, hread, hholds⟩ := @exists_read .script scatteredSource (fun program =>
    program.root.children.map (fun statement => (imported? statement).map Prod.fst) =
      [some "./a.js", none, some "./b.js", none] &&
    ((scan (Numbered.hooks .script twoWorkletPlugins) program {}).1.toView
      program.source).edits.length = 3) (by decide +kernel)
  rw [Bool.and_eq_true, decide_eq_true_eq, decide_eq_true_eq] at hholds
  have hplugins : ∀ numbered ∈ twoWorkletPlugins, ∀ rules,
      numbered.plugin = .ruled rules → rules.calls = [] := by
    simp [twoWorkletPlugins]
  obtain ⟨text, htext⟩ := ModuleSource.read?_of_read hread
  have hspares := spares_of_modest htext (Numbered.modest_hooks .script hplugins) {}
  exact ⟨program, hread, hholds.1, hholds.2, imports_in_place hread hspares toString⟩

/-- A script that calls a function in front of its only import. -/
def lateSource : String := "f();\nimport './a.js';"

/-- The function is called before the import is required. -/
theorem not_hoisted_late :
    ∃ program, ModuleSource.read .script lateSource = .ok program ∧
      program.root.children.map (fun statement => (imported? statement).map Prod.fst) =
        [none, some "./a.js"] ∧
      scriptCode (fun _ => "./a.js") ((scan ([] : List (Hook Unit)) program ()).1.toView program.source) =
        moduleFunction ("__houdini_require__.r(exports);\n" ++ "f();\n" ++
          "var __houdini_import_0__ = __houdini_require__(\"./a.js\");") := by
  obtain ⟨program, hread, hholds⟩ := @exists_read .script lateSource (fun program =>
    program.root.children.map (fun statement => (imported? statement).map Prod.fst) =
      [none, some "./a.js"] &&
    scriptCode (fun _ => "./a.js")
      ((scan ([] : List (Hook Unit)) program ()).1.toView program.source) =
    moduleFunction ("__houdini_require__.r(exports);\n" ++ "f();\n" ++
      "var __houdini_import_0__ = __houdini_require__(\"./a.js\");")) (by decide +kernel)
  rw [Bool.and_eq_true, decide_eq_true_eq, decide_eq_true_eq] at hholds
  exact ⟨program, hread, hholds⟩

end WebBundle.Output

import WebBundle.Output.Asset
import WebBundle.Proofs.Scan.References
import WebBundle.Proofs.Search.Omission

/-!
# Code with and without variables of plugins

What plugins add to a module shows in its code in two places only: the variables that they
bind stand in front of everything else, and their replacements are spliced in behind all
others.  Apart from the replaced ranges the source is spliced as it would be without them.
-/

namespace WebBundle.Output

open Scan

/-! ## Splicing -/

/-- How many bytes a text has. -/
def byteLength : (text : List Char) → Nat
  | [] => 0
  | c :: rest => c.utf8Size + byteLength rest

theorem byteLength_cons (c : Char) (rest : List Char) :
    byteLength (c :: rest) = c.utf8Size + byteLength rest := rfl

/-- No replacement touches the bytes from one offset to another one. -/
def Apart (replacements : List Replacement) (first last : Nat) : Prop :=
  ∀ replacement ∈ replacements,
    last ≤ replacement.span.start ∨ replacement.span.start < first ∧ replacement.span.stop ≤ first

/-- A text without replacements is copied. -/
theorem splice_nil (offset : Nat) (text : List Char) : splice [] offset text = text := by
  induction text generalizing offset with
  | nil => rfl
  | cons c rest ih =>
      rw [splice, ih]
      rfl

/-- A script of which nothing but the source is known is rendered as this source. -/
theorem scriptCode_of_source (target : Nat → String) (source : String) :
    scriptCode target { source } = moduleFunction source := by
  have hsource : editedSource target { source } = source := by
    rw [editedSource]
    exact (congrArg String.ofList (splice_nil 0 _)).trans String.ofList_toList
  have hfront : prologue target { source } = "" := rfl
  have hback : epilogue { source } = "" := rfl
  rw [scriptCode, hsource, hfront, hback, String.empty_append, String.append_empty]

theorem splice_append_text (replacements : List Replacement) (offset : Nat)
    (text more : List Char) :
    splice replacements offset (text ++ more) =
      splice replacements offset text ++
        splice replacements (offset + byteLength text) more := by
  induction text generalizing offset with
  | nil => rfl
  | cons c rest ih =>
      simp only [List.cons_append, splice, ih, List.append_assoc, byteLength_cons, Nat.add_assoc]

theorem insertedAt_append {replacements more : List Replacement} {offset : Nat}
    (hmore : ∀ replacement ∈ more, replacement.span.start ≠ offset) :
    insertedAt (replacements ++ more) offset = insertedAt replacements offset := by
  have hnone : more.filter (fun replacement => replacement.span.start = offset) = [] :=
    List.filter_eq_nil_iff.mpr fun replacement hreplacement => by
      simpa using hmore replacement hreplacement
  rw [insertedAt, insertedAt, List.filter_append, hnone, List.append_nil]

theorem isReplaced_append {replacements more : List Replacement} {offset : Nat}
    (hmore : ∀ replacement ∈ more,
      ¬ (replacement.span.start ≤ offset ∧ offset < replacement.span.stop)) :
    isReplaced (replacements ++ more) offset = isReplaced replacements offset := by
  have hnone : isReplaced more offset = false :=
    List.any_eq_false.mpr fun replacement hreplacement => by
      simpa using hmore replacement hreplacement
  rw [isReplaced, List.any_append]
  change (_ || isReplaced more offset) = _
  rw [hnone, Bool.or_false]
  rfl

/-- More replacements change nothing where they do not touch the text. -/
theorem splice_append_of_apart (replacements : List Replacement) {more : List Replacement}
    {offset : Nat} {text : List Char} (hapart : Apart more offset (offset + byteLength text)) :
    splice (replacements ++ more) offset text = splice replacements offset text := by
  induction text generalizing offset with
  | nil => rfl
  | cons c rest ih =>
      have hsize : 0 < c.utf8Size := c.utf8Size_pos
      rw [byteLength_cons] at hapart
      have hinserted : insertedAt (replacements ++ more) offset = insertedAt replacements offset :=
        insertedAt_append fun replacement hreplacement => by
          have := hapart replacement hreplacement
          omega
      have hreplaced : isReplaced (replacements ++ more) offset = isReplaced replacements offset :=
        isReplaced_append fun replacement hreplacement => by
          have := hapart replacement hreplacement
          omega
      have hrest : splice (replacements ++ more) (offset + c.utf8Size) rest =
          splice replacements (offset + c.utf8Size) rest :=
        ih fun replacement hreplacement => by
          have := hapart replacement hreplacement
          omega
      rw [splice, splice, hinserted, hreplaced, hrest]

/-- A stretch of a text that more replacements do not touch is spliced without them. -/
theorem splice_stretch (replacements : List Replacement) {more : List Replacement}
    {before text : List Char} (after : List Char)
    (hapart : Apart more (byteLength before) (byteLength before + byteLength text)) :
    splice (replacements ++ more) 0 (before ++ (text ++ after)) =
      splice (replacements ++ more) 0 before ++
        (splice replacements (byteLength before) text ++
          splice (replacements ++ more) (byteLength before + byteLength text) after) := by
  rw [splice_append_text, splice_append_text, Nat.zero_add, splice_append_of_apart _ hapart]

/-! ## Modules -/

/-- The variables that hold the imports of plugins. -/
def boundCode (target : Nat → String) (bound : List (String × Nat)) : String :=
  String.join (bound.map fun variable_ =>
    "var " ++ variable_.1 ++ " = " ++ requireCode (target variable_.2) ++ ";\n")

/-- The variables of plugins stand in front of everything else. -/
theorem prologue_eq (target other : Nat → String) {view plain : View}
    (hdeclarations : view.hasDeclarations = plain.hasDeclarations)
    (hexports : view.exports = plain.exports) (hplain : plain.boundRecords = []) :
    prologue target view = boundCode target view.boundRecords ++ prologue other plain := by
  have hempty : String.join ([] : List String) = "" := rfl
  rw [prologue, prologue, hdeclarations, hexports, hplain, List.map_nil, hempty]
  simp only [String.empty_append, String.append_assoc, boundCode]

theorem editText_congr {target other : Nat → String} {edit : Edit}
    (hsame : ∀ record, edit.record? = some record → target record = other record) :
    editText target edit = editText other edit := by
  cases edit with
  | replace span text => rfl
  | importing span record bindings => rw [editText, editText, importCode, hsame record rfl]; rfl
  | requiring span record => rw [editText, editText, hsame record rfl]

/-- A view and the same view with what plugins add, in which every import of the first one
has the same stable id. -/
theorem replacements_append {target other : Nat → String} {view plain : View}
    {more : List Edit} (hedits : view.edits = plain.edits ++ more)
    (hsound : ∀ edit ∈ plain.edits, ∀ record, edit.record? = some record →
      record < plain.records.length)
    (hsame : ∀ record < plain.records.length, target record = other record) :
    replacements target view = replacements other plain ++
      more.map fun edit => ⟨edit.span, (editText target edit).toList⟩ := by
  rw [replacements, replacements, hedits, List.map_append]
  refine congrArg (· ++ _) (List.map_congr_left fun edit hedit => ?_)
  rw [@editText_congr target other edit fun record hrecord =>
    hsame record (hsound edit hedit record hrecord)]

/-! ## Modules of graphs -/

open Loader in
/-- The imports that are not left out of a graph lead to modules with the same stable ids. -/
theorem targets_eq {kept : ModuleId → Bool} {alike : Likeness} {first second : Graph}
    (h : ThinGraph kept alike first second) {module other : Module}
    (hmodule : ThinModule kept alike (first.modules.map Module.id) module other) {record : Nat}
    (hrecord : record < other.dependencies.length) :
    targets first module record = targets second other record := by
  obtain ⟨numbers, dropped, hfirst, hsecond, hkept, _⟩ := hmodule.dependencies
  rw [hsecond, List.length_map] at hrecord
  have hnumber : numbers[record]? = some numbers[record] := List.getElem?_eq_getElem hrecord
  have hid := hkept _ (List.getElem_mem hrecord)
  generalize numbers[record] = number at hnumber hid
  rw [keptAt?, List.getElem?_map, Option.map_map, Option.map_eq_some_iff] at hid
  obtain ⟨target, htarget, hfile⟩ := hid
  obtain ⟨twin, htwin, hsame⟩ := h.exists_getElem? htarget hfile
  rw [targets, targets, hfirst, hsecond, List.getElem?_append_left hrecord, List.getElem?_map,
    hnumber, Option.bind_some, Option.map_some, Option.bind_some, htarget, htwin]
  exact hsame.stableId_eq.symm

end WebBundle.Output

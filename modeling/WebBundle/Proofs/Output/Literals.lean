import WebBundle.Output.Module
import WebBundle.Proofs.Worklet.ModuleCode
import WebBundle.Scan.Evaluation

/-!
# What names in generated code stand for

Ids of modules, names of files and names of exports get into generated code as quoted texts,
names of imports as properties that are accessed.  A quoted text is read as an expression
that evaluates to the text, whatever characters it has.  A property is read as a name of an
access or as a key between brackets, and it is the same property in both cases.
-/

namespace WebBundle.Output

open Syntax Scan

/-! ## Expressions and what they stand for -/

/-- An expression whose value is a text, whatever names are declared. -/
def Denotes (text : String) (node : Node) : Prop :=
  ∀ bound, evaluate bound node = .text text

theorem denotes_stringLiteral (text : String) (lone : Bool) (span : Span) (children : List Node) :
    Denotes text ⟨.stringLiteral text lone, span, children⟩ := by
  intro bound
  rw [evaluate]

/-- A variable of a name. -/
def IsVariable (name : String) (node : Node) : Prop :=
  ∃ variable_ span, variable_.text = name ∧ node = ⟨.reference variable_, span, []⟩

/-- An access to a property of a variable. -/
inductive Accesses (object property : String) : Node → Prop where
  | named {holder : Node} (span : Span) : IsVariable object holder →
      Accesses object property ⟨.staticMember property false, span, [holder]⟩
  | computed {holder key : Node} (span : Span) : IsVariable object holder → Denotes property key →
      Accesses object property ⟨.computedMember false, span, [holder, key]⟩

/-- A call of the runtime that requires the module with an id. -/
inductive Requires (id : String) : Node → Prop where
  | call {function key : Node} (span list : Span) : IsVariable runtimeNames.require function →
      Denotes id key → Requires id ⟨.call false, span, [function, ⟨.list, list, [key]⟩]⟩

/-- The url of a file: its name behind the public path. -/
inductive IsUrl (filename : String) : Node → Prop where
  | sum {path name : Node} (span : Span) : Accesses runtimeNames.require "p" path →
      Denotes filename name → IsUrl filename ⟨.binary "+", span, [path, name]⟩

/-- A code that is an expression with some meaning. -/
def IsExpression (code : String) (Means : Node → Prop) : Prop :=
  ∃ node, readExpression? code = some node ∧ Means node

/-- A code that begins with an expression with some meaning, up to what closes it. -/
def BeginsExpression (code : String) (Means : Node → Prop) : Prop :=
  ∃ kind node, Closes kind ∧ ReadsExpression code kind node ∧ Means node

/-- A code that begins with a property of an object literal: its key and the colon are read,
and what comes behind them is its value. -/
def BeginsProperty (code name : String) : Prop :=
  ∃ key start, Denotes name key ∧ ∀ grammar context,
    Grammar.objectMember grammar context (.atStart code) =
      (do
        let value ← grammar .assignment
        Reading.node (.property false false) start [key, value]) context
        (Reading.pass (Reading.pass (.atStart code)))

/-- A piece stands in a code, with something that is seen from its start. -/
def Holds (code piece : String) (Begins : String → Prop) : Prop :=
  ∃ before after, code = before ++ (piece ++ after) ∧ Begins (piece ++ after)

/-! ## Pieces in front of what closes them -/

/-- What stands behind an expression ends it. -/
structure EndsIn (rest : List Char) (kind : TokenKind) : Prop where
  closes : Closes kind
  name : EndsName rest
  spells : Spells rest [kind]

theorem endsIn_finish : EndsIn "".toList .finish where
  closes := .finish
  name := Closed.finish.endsName
  spells := ⟨[], fun _ _ _ => ⟨rfl, rfl⟩, trivial⟩

theorem endsIn_of_closed {rest : List Char} (h : Closed rest) : ∃ kind, EndsIn rest kind := by
  obtain ⟨kind, more, hkind, hlexes⟩ := h.lexes
  exact ⟨kind, hkind, h.endsName, more, hlexes, trivial⟩

/-- A piece that is an expression in front of whatever closes it. -/
def Piecewise (piece : String) (Means : Node → Prop) : Prop :=
  ∀ rest kind, EndsIn rest.toList kind → ∃ node, ReadsExpression (piece ++ rest) kind node ∧
    hasOnlyPatternDefaults node = true ∧ Means node

theorem Piecewise.isExpression {piece : String} {Means : Node → Prop} (h : Piecewise piece Means) :
    IsExpression piece Means := by
  obtain ⟨node, hread, hdefaults, hmeans⟩ := h "" .finish endsIn_finish
  rw [String.append_empty] at hread
  exact ⟨node, hread.readExpression? hdefaults, hmeans⟩

theorem Piecewise.begins {piece rest : String} {Means : Node → Prop} (h : Piecewise piece Means)
    (hrest : Closed rest.toList) : BeginsExpression (piece ++ rest) Means := by
  obtain ⟨kind, hkind⟩ := endsIn_of_closed hrest
  obtain ⟨node, hread, -, hmeans⟩ := h rest kind hkind
  exact ⟨kind, node, hkind.closes, hread, hmeans⟩

theorem toList_literal (text : String) :
    (Quoted.literal text).toList = Quoted.encode text.toList :=
  String.toList_ofList

theorem yields_atStart {source : String} {text : List Char} {kinds : List TokenKind}
    (htext : source.toList = text) (h : Spells text kinds) (hhash : text.head? ≠ some '#') :
    Yields (Progress.atStart source).token kinds := by
  rw [Progress.atStart, Cursor.ofText, htext]
  exact h.yields_firstToken hhash

theorem literal_denotes (text : String) : Piecewise (Quoted.literal text) (Denotes text) := by
  intro rest kind hrest
  have htext : (Quoted.literal text ++ rest).toList = Quoted.encode text.toList ++ rest.toList := by
    rw [String.toList_append, toList_literal]
  have hyields := yields_atStart htext ((lexes_encode _ _).spells hrest.spells) (by
    rw [Quoted.encode, List.cons_append, List.cons_append, List.head?_cons]
    decide)
  rw [String.ofList_toList] at hyields
  obtain ⟨span, hread⟩ := readsExpression_string hrest.closes hyields
  exact ⟨_, hread, rfl, denotes_stringLiteral _ _ _ _⟩

/-- A name for a variable that is no special word. -/
structure IsHolder (name : String) : Prop where
  isName : Identifier.isName name.toList = true
  other : Word.ofSpelling name.toList = .other

theorem IsHolder.isVariable {name : String} (h : IsHolder name) (span : Span) :
    IsVariable name ⟨.reference (.ofText name), span, []⟩ := by
  refine ⟨_, span, Identifier.Name.text_ofText ?_, rfl⟩
  have hname := h.isName
  cases htext : name.toList with
  | nil => rfl
  | cons c more =>
      rw [htext, Identifier.isName, Bool.and_eq_true] at hname
      rw [List.all_cons, Identifier.isContinue_of_isStart hname.1, hname.2]
      rfl

theorem IsHolder.lexes {name : String} (h : IsHolder name) {rest : List Char}
    (hrest : EndsName rest) : Lexes (name.toList ++ rest) (.word .other name false) rest := by
  have hlexes := lexes_name h.isName hrest
  rwa [h.other, String.ofList_toList] at hlexes

theorem IsHolder.head?_ne {name : String} (h : IsHolder name) (rest : List Char) :
    (name.toList ++ rest).head? ≠ some '#' := by
  have hname := h.isName
  cases htext : name.toList with
  | nil =>
      rw [htext] at hname
      cases hname
  | cons c more =>
      rw [htext, Identifier.isName, Bool.and_eq_true] at hname
      rw [List.cons_append, List.head?_cons]
      exact fun hhash => (beginsName_of_isStart hname.1).hash (Option.some.inj hhash)

theorem isHolder_underscore {name : String} {more : List Char} (htext : name.toList = '_' :: more)
    (hmore : more.all Identifier.isContinue = true) : IsHolder name where
  isName := by
    rw [htext, Identifier.isName, hmore]
    rfl
  other := by rw [htext, ofSpelling_underscore]

/-- Properties of a variable are accessed by their names or by quoted texts. -/
theorem access_accesses {object : String} (hobject : IsHolder object) (property : String) :
    Piecewise (Quoted.access object property) (Accesses object property) := by
  intro rest kind hrest
  rw [Quoted.access]
  split
  · rename_i hname
    have htext : (object ++ "." ++ property ++ rest).toList =
        object.toList ++ '.' :: (property.toList ++ rest.toList) := by
      simp only [String.toList_append, List.append_assoc]
      rfl
    have hproperty := lexes_name hname hrest.name
    rw [String.ofList_toList] at hproperty
    have hobjectLexes := hobject.lexes
      (@endsName_cons '.' (by decide) (by decide) (property.toList ++ rest.toList))
    have hyields := yields_atStart htext
      (hobjectLexes.spells ((lexes_point hname _).spells (hproperty.spells hrest.spells)))
      (hobject.head?_ne _)
    obtain ⟨span, inner, hread⟩ := readsExpression_member hrest.closes hyields
    exact ⟨_, hread, rfl, .named span (hobject.isVariable inner)⟩
  · have htext : (object ++ "[" ++ Quoted.literal property ++ "]" ++ rest).toList =
        object.toList ++ '[' :: (Quoted.encode property.toList ++ ']' :: rest.toList) := by
      simp only [String.toList_append, toList_literal, List.append_assoc]
      rfl
    have hkey := lexes_encode property.toList (']' :: rest.toList)
    rw [String.ofList_toList] at hkey
    have hopen : Lexes ('[' :: (Quoted.encode property.toList ++ ']' :: rest.toList))
        (.mark .bracketOpen) (Quoted.encode property.toList ++ ']' :: rest.toList) :=
      fun _ _ _ => ⟨rfl, rfl⟩
    have hclose : Lexes (']' :: rest.toList) (.mark .bracketClose) rest.toList :=
      fun _ _ _ => ⟨rfl, rfl⟩
    have hobjectLexes := hobject.lexes (@endsName_cons '[' (by decide) (by decide)
      (Quoted.encode property.toList ++ ']' :: rest.toList))
    have hyields := yields_atStart htext
      (hobjectLexes.spells (hopen.spells (hkey.spells (hclose.spells hrest.spells))))
      (hobject.head?_ne _)
    obtain ⟨span, inner, key, hread⟩ := readsExpression_element hrest.closes hyields
    exact ⟨_, hread, rfl,
      .computed span (hobject.isVariable inner) (denotes_stringLiteral _ _ _ _)⟩

theorem isHolder_require : IsHolder runtimeNames.require :=
  @isHolder_underscore _ "_houdini_require__".toList rfl (by decide)

theorem isHolder_importVariable (record : Nat) : IsHolder (importVariable record) := by
  have hjoined (front back : String) : (front ++ toString record ++ back).toList =
      front.toList ++ ((toString record).toList ++ back.toList) := by
    rw [String.toList_append, String.toList_append, List.append_assoc]
  have hfront : "__houdini_import_".toList = '_' :: "_houdini_import_".toList := by decide
  have htext : (importVariable record).toList =
      '_' :: ("_houdini_import_".toList ++ ((toString record).toList ++ "__".toList)) :=
    (hjoined _ _).trans (congrArg (· ++ _) hfront)
  refine isHolder_underscore htext ?_
  rw [List.all_append, List.all_append, Bool.and_eq_true, Bool.and_eq_true]
  refine ⟨by decide, List.all_eq_true.mpr fun c hc => ?_, by decide⟩
  have hdigit : c.isDigit = true := by
    refine @Nat.isDigit_of_mem_toDigits 10 record c (by decide) (by decide) ?_
    rwa [← Nat.toList_repr]
  exact isContinue_of_isDigit hdigit

/-- The runtime is asked for the module with an id. -/
theorem requireCode_requires (id : String) : Piecewise (requireCode id) (Requires id) := by
  intro rest kind hrest
  have htext : (requireCode id ++ rest).toList =
      runtimeNames.require.toList ++ '(' :: (Quoted.encode id.toList ++ ')' :: rest.toList) := by
    simp only [requireCode, String.toList_append, toList_literal, List.append_assoc]
    rfl
  have hkey := lexes_encode id.toList (')' :: rest.toList)
  rw [String.ofList_toList] at hkey
  have hopen : Lexes ('(' :: (Quoted.encode id.toList ++ ')' :: rest.toList))
      (.mark .parenOpen) (Quoted.encode id.toList ++ ')' :: rest.toList) :=
    fun _ _ _ => ⟨rfl, rfl⟩
  have hclose : Lexes (')' :: rest.toList) (.mark .parenClose) rest.toList :=
    fun _ _ _ => ⟨rfl, rfl⟩
  have hrequire := isHolder_require.lexes (@endsName_cons '(' (by decide) (by decide)
    (Quoted.encode id.toList ++ ')' :: rest.toList))
  have hyields := yields_atStart htext
    (hrequire.spells (hopen.spells (hkey.spells (hclose.spells hrest.spells))))
    (isHolder_require.head?_ne _)
  obtain ⟨span, inner, list, key, hread⟩ := readsExpression_call hrest.closes hyields
  exact ⟨_, hread, rfl,
    .call span list (isHolder_require.isVariable inner) (denotes_stringLiteral _ _ _ _)⟩

/-- The expression for the url of a file. -/
def urlCode (filename : String) : String :=
  runtimeNames.publicPath ++ " + " ++ Quoted.literal filename

theorem urlCode_isUrl (filename : String) : Piecewise (urlCode filename) (IsUrl filename) := by
  intro rest kind hrest
  have hfront : (runtimeNames.publicPath ++ " + ").toList = "__houdini_require__.p + ".toList := by
    decide
  have htext : (urlCode filename ++ rest).toList =
      "__houdini_require__.p + ".toList ++ (Quoted.encode filename.toList ++ rest.toList) := by
    rw [urlCode, String.toList_append, String.toList_append, hfront, toList_literal,
      List.append_assoc]
  have hyields := yields_atStart htext (Worklet.spells_url filename.toList rest.toList hrest.spells)
    (fun hhash => by cases hhash)
  rw [String.ofList_toList] at hyields
  obtain ⟨span, left, inner, right, hread⟩ := readsExpression_sum hrest.closes hyields
  exact ⟨_, hread, rfl, .sum span (.named left (isHolder_require.isVariable inner))
    (denotes_stringLiteral _ _ _ _)⟩

/-- A quoted text in front of a colon is a key. -/
theorem begins_property (name rest : String) :
    BeginsProperty (Quoted.literal name ++ ": " ++ rest) name := by
  have htext : (Quoted.literal name ++ ": " ++ rest).toList =
      Quoted.encode name.toList ++ ':' :: ' ' :: rest.toList := by
    simp only [String.toList_append, toList_literal, List.append_assoc]
    rfl
  have hkey := lexes_encode name.toList (':' :: ' ' :: rest.toList)
  rw [String.ofList_toList] at hkey
  have hcolon : Lexes (':' :: ' ' :: rest.toList) (.mark .colon) (' ' :: rest.toList) :=
    fun _ _ _ => ⟨rfl, rfl⟩
  obtain ⟨hstring, hmark, -⟩ := yields_atStart htext
    (hkey.spells ⟨_, hcolon, trivial⟩ : Spells _ [.string name false, .mark .colon])
    (by
      rw [Quoted.encode, List.cons_append, List.cons_append, List.head?_cons]
      decide)
  exact ⟨_, _, denotes_stringLiteral _ _ _ _, fun grammar context =>
    Grammar.objectMember_string hstring hmark⟩

/-! ## Generated code -/

/-- A chunk finds modules under their ids, and it requires its entry. -/
structure ChunkMeans (parts : ChunkParts) : Prop where
  keys : ∀ entry ∈ parts.modules,
    Holds (chunkCode parts) (Quoted.literal entry.1 ++ ": " ++ entry.2)
      fun code => BeginsProperty code entry.1
  entry : Holds (chunkCode parts) (requireCode parts.entry)
    fun code => BeginsExpression code (Requires parts.entry)

/-- What stands in front of the table of modules. -/
def tableStart : String :=
  "(function (__houdini_global__) \x7b\n  var __houdini_modules__ = \x7b\n"

/-- What stands between the table of modules and the call that requires the entry. -/
def runtimeCode (parts : ChunkParts) : String :=
  "  \x7d;\n  var __houdini_module_cache__ = \x7b\x7d;\n" ++
    codeLines requireFunction ++
    "  " ++ runtimeNames.publicPath ++ " = " ++ publicPathCode parts ++ ";\n" ++
    "  " ++ runtimeNames.globalObject ++ " = __houdini_global__;\n" ++
    codeLines helpers ++ "  "

theorem chunkCode_eq (parts : ChunkParts) :
    chunkCode parts = tableStart ++ (String.join (parts.modules.map moduleEntry) ++
      (runtimeCode parts ++ (requireCode parts.entry ++
        (";\n" ++ ("\x7d)(" ++ parts.globalObject ++ ");\n"))))) := by
  have hend (rest : String) : ");\n" ++ rest = ")" ++ (";\n" ++ rest) := by
    rw [← String.append_assoc]
    rfl
  unfold chunkCode runtimeCode requireCode tableStart
  simp only [String.append_assoc]
  rw [hend]

theorem chunkCode_means (parts : ChunkParts) : ChunkMeans parts where
  keys entry hentry := by
    obtain ⟨first, later, hmodules⟩ := List.append_of_mem hentry
    have htable : String.join (parts.modules.map moduleEntry) =
        String.join (first.map moduleEntry) ++ ("    " ++
          ((Quoted.literal entry.1 ++ ": " ++ entry.2) ++
            (",\n" ++ String.join (later.map moduleEntry)))) := by
      rw [hmodules, List.map_append, List.map_cons, String.join_append, String.join_cons, moduleEntry]
      simp only [String.append_assoc]
    generalize hrest : runtimeCode parts ++ (requireCode parts.entry ++
      (";\n" ++ ("\x7d)(" ++ parts.globalObject ++ ");\n"))) = rest
    refine ⟨tableStart ++ (String.join (first.map moduleEntry) ++ "    "),
      ",\n" ++ (String.join (later.map moduleEntry) ++ rest), ?_, ?_⟩
    · rw [chunkCode_eq, htable, hrest]
      simp only [String.append_assoc]
    · rw [String.append_assoc]
      exact begins_property _ _
  entry := by
    refine ⟨tableStart ++ (String.join (parts.modules.map moduleEntry) ++ runtimeCode parts),
      ";\n" ++ ("\x7d)(" ++ parts.globalObject ++ ");\n"), ?_, ?_⟩
    · rw [chunkCode_eq]
      simp only [String.append_assoc]
    · refine (requireCode_requires parts.entry).begins ?_
      rw [String.toList_append]
      exact .mark (by decide)

/-- What an import declaration binds. -/
def bindingCode (record : Nat) (binding : ImportedBinding) : String :=
  " var " ++ binding.localName ++ " = " ++
    importedValue (importVariable record) binding.imported ++ ";"

theorem importCode_eq (target : Nat → String) (record : Nat) (bindings : List ImportedBinding) :
    importCode target record bindings = "var " ++ (importVariable record ++ (" = " ++
      (requireCode (target record) ++ (";" ++ String.join (bindings.map (bindingCode record)))))) := by
  unfold importCode bindingCode
  simp only [String.append_assoc]

/-- The declaration for an import requires its module and reads what it binds from there. -/
structure ImportMeans (target : Nat → String) (record : Nat) (bindings : List ImportedBinding) :
    Prop where
  required : Holds (importCode target record bindings) (requireCode (target record))
    fun code => BeginsExpression code (Requires (target record))
  names : ∀ binding ∈ bindings, ∀ name, binding.imported = .named name →
    Holds (importCode target record bindings) (importedValue (importVariable record) (.named name))
      fun code => BeginsExpression code (Accesses (importVariable record) name)

theorem closed_append {c : Char} {text : String} {more : List Char}
    (htext : text.toList = c :: more) (hmark : c ∈ [';', ',', ')', ']', '\x7d']) (rest : String) :
    Closed (text ++ rest).toList := by
  rw [String.toList_append, htext]
  exact .mark hmark

theorem importCode_means (target : Nat → String) (record : Nat) (bindings : List ImportedBinding) :
    ImportMeans target record bindings where
  required := by
    refine ⟨"var " ++ (importVariable record ++ " = "),
      ";" ++ String.join (bindings.map (bindingCode record)), ?_,
      (requireCode_requires (target record)).begins (closed_append rfl (by decide) _)⟩
    rw [importCode_eq]
    simp only [String.append_assoc]
  names binding hbinding name hname := by
    obtain ⟨first, later, rfl⟩ := List.append_of_mem hbinding
    refine ⟨"var " ++ (importVariable record ++ (" = " ++ (requireCode (target record) ++ (";" ++
        (String.join (first.map (bindingCode record)) ++
          (" var " ++ (binding.localName ++ " = "))))))),
      ";" ++ String.join (later.map (bindingCode record)), ?_,
      (access_accesses (isHolder_importVariable record) name).begins
        (closed_append rfl (by decide) _)⟩
    rw [importCode_eq, List.map_append, List.map_cons, String.join_append, String.join_cons,
      bindingCode, hname]
    simp only [String.append_assoc]

/-- The name under which something is exported. -/
def exportedName : Export → String
  | .ofLocal exported _ => exported
  | .passedOn exported _ _ => exported

/-- The code of a script exports names and passes on names of other modules. -/
structure ExportsMean (target : Nat → String) (view : View) : Prop where
  keys : ∀ given ∈ view.exports, Holds (scriptCode target view) (getterCode given)
    fun code => BeginsProperty code (exportedName given)
  names : ∀ exported record name, .passedOn exported record (.named name) ∈ view.exports →
    Holds (scriptCode target view) (importedValue (importVariable record) (.named name))
      fun code => BeginsExpression code (Accesses (importVariable record) name)

theorem exists_around_intercalate {text : String} {texts : List String} (h : text ∈ texts) :
    ∃ before after, String.intercalate ", " texts = before ++ (text ++ after) ∧
      (after = "" ∨ ∃ more, after = ", " ++ more) := by
  induction texts with
  | nil => cases h
  | cons first rest ih =>
      cases rest with
      | nil =>
          cases List.mem_singleton.mp h
          refine ⟨"", "", ?_, .inl rfl⟩
          rw [String.append_empty, String.empty_append]
          rfl
      | cons second later =>
          rw [String.intercalate_cons_cons]
          rcases List.mem_cons.mp h with rfl | hlater
          · refine ⟨"", ", " ++ String.intercalate ", " (second :: later), ?_, .inr ⟨_, rfl⟩⟩
            rw [String.empty_append, String.append_assoc]
          · obtain ⟨before, after, htexts, hafter⟩ := ih hlater
            refine ⟨first ++ (", " ++ before), after, ?_, hafter⟩
            rw [htexts]
            simp only [String.append_assoc]

/-- What stands in front of the getters of a script. -/
def gettersStart (target : Nat → String) (view : View) : String :=
  "function (module, exports, " ++ runtimeNames.require ++ ") \x7b\n" ++
    String.join (view.boundRecords.map fun (name, record) =>
      "var " ++ name ++ " = " ++ requireCode (target record) ++ ";\n") ++
    (if view.hasDeclarations then runtimeNames.markNamespace ++ "(exports);\n" else "") ++
    runtimeNames.defineGetters ++ "(exports, \x7b "

theorem scriptCode_eq_getters (target : Nat → String) {view : View}
    (hexports : view.exports.isEmpty = false) :
    scriptCode target view = gettersStart target view ++
      (String.intercalate ", " (view.exports.map getterCode) ++ (" \x7d);\n" ++
        (editedSource target view ++ (epilogue view ++ "\n\x7d")))) := by
  unfold scriptCode moduleFunction prologue gettersStart
  rw [hexports]
  simp only [String.append_assoc, Bool.false_eq_true, if_false]

/-- Behind a getter stand the next one or the end of all getters. -/
theorem exists_around_getter (target : Nat → String) {view : View} {given : Export}
    (h : given ∈ view.exports) : ∃ before after,
      scriptCode target view = before ++ (getterCode given ++ after) ∧ Closed after.toList := by
  obtain ⟨front, back, hgetters, hback⟩ :=
    exists_around_intercalate (List.mem_map_of_mem (f := getterCode) h)
  have hexports : view.exports.isEmpty = false := List.isEmpty_eq_false_iff_exists_mem.mpr ⟨_, h⟩
  generalize hrest : editedSource target view ++ (epilogue view ++ "\n\x7d") = rest
  refine ⟨gettersStart target view ++ front, back ++ (" \x7d);\n" ++ rest), ?_, ?_⟩
  · rw [scriptCode_eq_getters target hexports, hgetters, hrest]
    simp only [String.append_assoc]
  · rcases hback with rfl | ⟨more, rfl⟩
    · rw [String.empty_append, String.toList_append]
      exact .blank (.mark (by decide))
    · rw [String.append_assoc]
      exact closed_append rfl (by decide) _

/-- A getter is a property with the exported name. -/
theorem exists_getter (given : Export) :
    ∃ value, getterCode given = Quoted.literal (exportedName given) ++ ": " ++ value := by
  have harrow (value : String) : ": () => " ++ value = ": " ++ ("() => " ++ value) := by
    rw [← String.append_assoc]
    rfl
  cases given with
  | ofLocal exported localName =>
      refine ⟨"() => " ++ localName, ?_⟩
      rw [getterCode, exportedName, String.append_assoc, harrow, String.append_assoc]
  | passedOn exported record imported =>
      refine ⟨"() => " ++ importedValue (importVariable record) imported, ?_⟩
      rw [getterCode, exportedName, String.append_assoc, harrow, String.append_assoc]

theorem scriptCode_exports (target : Nat → String) (view : View) : ExportsMean target view where
  keys given hgiven := by
    obtain ⟨before, after, hcode, -⟩ := exists_around_getter target hgiven
    obtain ⟨value, hvalue⟩ := exists_getter given
    refine ⟨before, after, hcode, ?_⟩
    rw [hvalue, String.append_assoc]
    exact begins_property _ _
  names exported record name hgiven := by
    obtain ⟨before, after, hcode, hafter⟩ := exists_around_getter target hgiven
    refine ⟨before ++ (Quoted.literal exported ++ ": () => "), after, ?_,
      (access_accesses (isHolder_importVariable record) name).begins hafter⟩
    rw [hcode, getterCode]
    simp only [String.append_assoc]

/-- The code for an emitted file gives its url. -/
theorem assetCode_url (filename : String) (loading : WasmLoading) :
    Holds (assetCode filename loading) (urlCode filename)
      fun code => BeginsExpression code (IsUrl filename) := by
  cases loading with
  | fetch =>
      refine ⟨"function (module, exports, " ++ (runtimeNames.require ++ (") \x7b\n" ++
        ("module.exports = " ++ (runtimeNames.compileWasm ++ "(")))), ")" ++ (";" ++ "\n\x7d"), ?_,
        (urlCode_isUrl filename).begins (closed_append rfl (by decide) _)⟩
      unfold assetCode moduleFunction urlCode
      simp only [String.append_assoc]
  | none =>
      refine ⟨"function (module, exports, " ++ (runtimeNames.require ++ (") \x7b\n" ++
        "module.exports = ")), ";" ++ "\n\x7d", ?_,
        (urlCode_isUrl filename).begins (closed_append rfl (by decide) _)⟩
      unfold assetCode moduleFunction urlCode
      simp only [String.append_assoc]

/-- The code for a worklet gives the url of its file. -/
theorem workletCode_url (file : String) :
    Holds (Worklet.moduleCode file) (urlCode file)
      fun code => BeginsExpression code (IsUrl file) := by
  have hfront : "module.exports = __houdini_require__.p + " =
      "module.exports = " ++ (runtimeNames.publicPath ++ " + ") := by decide
  have hjoined (front path name : String) :
      front ++ path ++ name ++ ";" = front ++ (path ++ name ++ ";") := by
    simp only [String.append_assoc]
  have hcode : Worklet.moduleCode file = "module.exports = " ++ (urlCode file ++ ";") :=
    (congrArg (· ++ Quoted.literal file ++ ";") hfront).trans (hjoined _ _ _)
  exact ⟨"module.exports = ", ";", hcode, (urlCode_isUrl file).begins (.mark (by decide))⟩

/-- Quoted texts are expressions for these texts, accesses are accesses to the properties that
are meant, and so is everything in generated code that is named in this way: the keys of
modules, the ids that modules are required by, the names of files, and the names of exports
and imports. -/
theorem names_denote :
    (∀ text, IsExpression (Quoted.literal text) (Denotes text)) ∧
    (∀ property, IsExpression (Quoted.access "m" property) (Accesses "m" property)) ∧
    (∀ parts, ChunkMeans parts) ∧ (∀ target record bindings, ImportMeans target record bindings) ∧
    (∀ target view, ExportsMean target view) ∧
    (∀ id, IsExpression (requireCode id) (Requires id)) ∧
    (∀ filename loading, Holds (assetCode filename loading) (urlCode filename)
      fun code => BeginsExpression code (IsUrl filename)) ∧
    (∀ file, Holds (Worklet.moduleCode file) (urlCode file)
      fun code => BeginsExpression code (IsUrl file)) := by
  have hholder : IsHolder "m" := ⟨by decide, by decide⟩
  refine ⟨fun text => (literal_denotes text).isExpression,
    fun property => (access_accesses hholder property).isExpression, chunkCode_means,
    importCode_means, scriptCode_exports, fun id => (requireCode_requires id).isExpression,
    assetCode_url, workletCode_url⟩

end WebBundle.Output

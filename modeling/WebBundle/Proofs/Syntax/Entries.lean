import Mathlib.Data.List.Forall2
import WebBundle.Syntax.Program

/-!
# What a module exports

The language gives every module a list of export entries: one for each name that an exported
declaration binds, for each name in an export list, for a default export, and for each
declaration that passes on another module.  They are read off the declarations here, whatever
a scan makes of them.  What is not built as the grammar builds it has no entries at all, not
an empty list of them.
-/

namespace WebBundle.Syntax

/-! ## Bound names -/

/-- A name that a pattern binds. -/
structure BoundName where
  name : String
  /-- Whether it stands in a rest of the pattern. -/
  inRest : Bool := false
  deriving DecidableEq, Repr

/-- The same name in a rest. -/
def BoundName.rest (bound : BoundName) : BoundName := { bound with inRest := true }

mutual

/-- The names that a pattern or a part of one binds, in their order. -/
def Node.bindings? : Node → Option (List BoundName)
  | ⟨.binding name, _, _⟩ => some [{ name }]
  | ⟨.objectPattern, _, properties⟩ => Node.bindingsIn? properties
  | ⟨.arrayPattern, _, elements⟩ => Node.bindingsIn? elements
  | ⟨.patternProperty _ _, _, [_, value]⟩ => value.bindings?
  | ⟨.defaulted, _, [pattern, _]⟩ => pattern.bindings?
  | ⟨.rest, _, [pattern]⟩ => pattern.bindings?.map (List.map BoundName.rest)
  | ⟨.hole, _, _⟩ => some []
  | _ => none

/-- The names that several parts of a pattern bind. -/
def Node.bindingsIn? : List Node → Option (List BoundName)
  | [] => some []
  | part :: rest => do return (← part.bindings?) ++ (← Node.bindingsIn? rest)

end

/-- The names that a declarator binds. -/
def Node.declaratorBindings? : Node → Option (List BoundName)
  | ⟨.declarator, _, [pattern, _]⟩ => pattern.bindings?
  | _ => none

/-- The part of a declared function or class that names it. -/
def Node.nameOf? : Node → Option Node
  | ⟨.function .declaration _ _, _, name :: _⟩ => some name
  | ⟨.classDefinition .declaration _, _, _ :: name :: _⟩ => some name
  | _ => none

/-- The name in the place of a name, which may be missing. -/
def Node.optionalName? : Node → Option (Option String)
  | ⟨.binding name, _, _⟩ => some (some name)
  | ⟨.absent, _, _⟩ => some none
  | _ => none

/-- The names that a declaration binds where it stands. -/
def Node.declares? : Node → Option (List BoundName)
  | ⟨.variableDeclaration _ _, _, declarators⟩ =>
    (declarators.mapM Node.declaratorBindings?).map List.flatten
  | declaration => do
    let name ← (← declaration.nameOf?).optionalName?
    return name.toList.map fun name => { name }

/-! ## Export entries -/

/-- A request for another module, and where its specifier stands. -/
structure ModuleRequest where
  specifier : String
  place : Span
  deriving DecidableEq, Repr

/-- The request that a module specifier is. -/
def Node.request? : Node → Option ModuleRequest
  | ⟨.stringLiteral specifier false, place, _⟩ => some ⟨specifier, place⟩
  | _ => none

/-- An export of a module. -/
inductive ExportEntry where
  /-- A binding of the module; the value of a nameless default export has no name. -/
  | own (exported : String) (localName : Option String) (inRest : Bool)
  /-- An export of another module. -/
  | passedOn (exported : String) (request : ModuleRequest) (imported : String)
  /-- The namespace of another module. -/
  | whole (exported : String) (request : ModuleRequest)
  /-- All exports of another module. -/
  | star (request : ModuleRequest)
  deriving DecidableEq, Repr

/-- The export of a name that a declaration binds. -/
def ExportEntry.ofBound (bound : BoundName) : ExportEntry :=
  .own bound.name (some bound.name) bound.inRest

/-- The export of a name in a list without a source. -/
def Node.ownEntry? : Node → Option ExportEntry
  | ⟨.exportSpecifier localName exported _, _, _⟩ =>
    some (.own exported.text (some localName.text) false)
  | _ => none

/-- The export of a name in a list with a source. -/
def Node.passedOnEntry? (request : ModuleRequest) : Node → Option ExportEntry
  | ⟨.exportSpecifier imported exported _, _, _⟩ =>
    some (.passedOn exported.text request imported.text)
  | _ => none

/-- The name of an exported value, if it is a function or class that is declared by its name. -/
def Node.defaultName? (value : Node) : Option String :=
  (value.nameOf?.bind Node.optionalName?).join

/-- The export of all of another module, under one name or under all of its names. -/
def ExportEntry.ofAll (request : ModuleRequest) : Option ModuleName → ExportEntry
  | some exported => .whole exported.text request
  | none => .star request

/-- The export entries of a node; only declarations of exports have any. -/
def Node.exportEntries? : Node → Option (List ExportEntry)
  | ⟨.exportNamed _, _, [specifiers, source, _]⟩ =>
    if source.isPresent then do
      specifiers.children.mapM (Node.passedOnEntry? (← source.request?))
    else specifiers.children.mapM Node.ownEntry?
  | ⟨.exportDeclaration, _, [declaration]⟩ =>
    declaration.declares?.map (List.map ExportEntry.ofBound)
  | ⟨.exportDefault, _, [value]⟩ => some [.own "default" value.defaultName? false]
  | ⟨.exportAll exported _, _, [source, _]⟩ =>
    source.request?.map fun request => [.ofAll request exported]
  | ⟨.exportNamed _, _, _⟩ | ⟨.exportDeclaration, _, _⟩ | ⟨.exportDefault, _, _⟩
  | ⟨.exportAll _ _, _, _⟩ => none
  | _ => some []

/-! ## Lists -/

/-- A partial function has values on a whole list if it has one on each item. -/
theorem mapM_eq_some_iff {α β : Type} {give : α → Option β} {items : List α} {values : List β} :
    items.mapM give = some values ↔
      List.Forall₂ (fun item value => give item = some value) items values := by
  induction items generalizing values with
  | nil =>
      rw [List.mapM_nil, List.forall₂_nil_left_iff]
      exact Option.some_inj.trans eq_comm
  | cons item rest ih =>
      rw [List.mapM_cons, List.forall₂_cons_left_iff]
      change (Option.bind _ fun value => Option.bind _ fun values => some (value :: values)) = _ ↔ _
      simp only [Option.bind_eq_some_iff, ih, Option.some_inj]
      exact ⟨fun ⟨value, hvalue, rest, hrest, heq⟩ => ⟨value, rest, hvalue, hrest, heq.symm⟩,
        fun ⟨value, rest, hvalue, hrest, heq⟩ => ⟨value, hvalue, rest, hrest, heq.symm⟩⟩

theorem isSome_mapM {α β : Type} {give : α → Option β} {items : List α}
    (hgiven : ∀ item ∈ items, (give item).isSome) : (items.mapM give).isSome := by
  induction items with
  | nil => rfl
  | cons item rest ih =>
      obtain ⟨hitem, hrest⟩ := List.forall_mem_cons.mp hgiven
      obtain ⟨value, hvalue⟩ := Option.isSome_iff_exists.mp hitem
      obtain ⟨values, hvalues⟩ := Option.isSome_iff_exists.mp (ih hrest)
      rw [List.mapM_cons, hvalue, hvalues]
      rfl

end WebBundle.Syntax

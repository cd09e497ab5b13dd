import WebBundle.Diagnostics
import WebBundle.Graph.Basic

/-!
# Loading module graphs

A graph is found in waves.  All modules of a wave are loaded, then all of them
are scanned, then all of their imports are resolved; imported modules that are
new are numbered in the order of the imports and form the next wave.  A wave in
which something fails ends the search with all failures of that kind.
-/

namespace WebBundle

/-- Where a request leads, with the kind that the file is said to have. -/
structure Resolved where
  id : ModuleId
  kind : Option ModuleKind := none
  deriving DecidableEq, Repr

/-- The loaded content of a module. -/
inductive Loaded where
  | text (kind : ModuleKind) (source : String)
  | bytes (kind : ModuleKind) (content : ByteArray)

namespace Loaded

/-- The kind of a loaded module. -/
def kind : Loaded → ModuleKind
  | text kind _ => kind
  | bytes kind _ => kind

end Loaded

/-- Why no graph was found. -/
inductive LoadFailure where
  | reports (reports : List Report)
  | cancelled

/-- The parts of a search that a build provides, over a state of its own.  Loading
gives nothing if it would have to go deeper than it may. -/
structure Steps (σ : Type) where
  resolve : Option ModuleId → String → Scan.ImportForm → σ → Except Report Resolved × σ
  load : Resolved → σ → Option (Except Report Loaded × σ)
  scan : ModuleId → Loaded → σ → Except (List Report) ModuleContent × σ
  stableId : ModuleId → String
  isCancelled : σ → Bool

namespace Loader

/-- Does something for each item of a list in order. -/
def forEach {α β σ : Type} (action : α → σ → β × σ) : List α → σ → List β × σ
  | [], state => ([], state)
  | item :: rest, state =>
    let (result, state) := action item state
    let (results, state) := forEach action rest state
    (result :: results, state)

/-- Does something that may give nothing for each item of a list in order. -/
def forEach? {α β σ : Type} (action : α → σ → Option (β × σ)) : List α → σ → Option (List β × σ)
  | [], state => some ([], state)
  | item :: rest, state =>
    match action item state with
    | none => none
    | some (result, state) =>
      match forEach? action rest state with
      | none => none
      | some (results, state) => some (result :: results, state)

/-- All results, or all failures if there are any. -/
def collect {ε α : Type} : List (Except ε α) → Except (List ε) (List α)
  | [] => .ok []
  | .ok value :: rest => (collect rest).map (value :: ·)
  | .error failure :: rest =>
    match collect rest with
    | .ok _ => .error [failure]
    | .error failures => .error (failure :: failures)

/-- The modules that have a number.  The slot of a module is empty until its imports
are numbered, and a module that is still to be loaded is in the wave. -/
structure Slots where
  visited : List (ModuleId × Nat) := []
  /-- The modules with their numbers. -/
  modules : List (Option (Nat × Module)) := []
  wave : List (Nat × Resolved) := []

/-- The number of a resolved module; a new module gets the next slot. -/
def Slots.allocate (slots : Slots) (resolved : Resolved) : Nat × Slots :=
  match slots.visited.lookup resolved.id with
  | some number => (number, slots)
  | none =>
    let number := slots.modules.length
    (number,
      { visited := slots.visited ++ [(resolved.id, number)]
        modules := slots.modules ++ [none]
        wave := slots.wave ++ [(number, resolved)] })

/-- The numbers of several resolved modules. -/
def allocateAll : List Resolved → Slots → List Nat × Slots :=
  forEach fun resolved slots => slots.allocate resolved

variable {σ : Type}

/-- Loads one module of a wave. -/
def loadOne (steps : Steps σ) (resolved : Resolved) (state : σ) :
    Option (Except Report (ModuleId × Loaded) × σ) :=
  (steps.load resolved state).map fun (result, state) => (result.map (resolved.id, ·), state)

/-- What a wave of loaded modules comes to. -/
def concludeWave {α : Type} (steps : Steps σ) (results : List (Except Report α)) (state : σ) :
    Except LoadFailure (List α) :=
  if steps.isCancelled state then .error .cancelled
  else
    match collect results with
    | .ok values => .ok values
    | .error reports => .error (.reports reports)

/-- Loads the modules of a wave. -/
def loadWave (steps : Steps σ) (wave : List Resolved) (state : σ) :
    Option (Except LoadFailure (List (ModuleId × Loaded)) × σ) :=
  (forEach? (loadOne steps) wave state).map fun (results, state) =>
    (concludeWave steps results state, state)

/-- Scans one loaded module. -/
def scanOne (steps : Steps σ) (item : ModuleId × Loaded) (state : σ) :
    Except (List Report) Module × σ :=
  let (id, loaded) := item
  let (result, state) := steps.scan id loaded state
  (result.map fun content => { id, stableId := steps.stableId id, kind := loaded.kind, content },
    state)

/-- Scans the modules of a wave. -/
def scanWave (steps : Steps σ) (loaded : List (ModuleId × Loaded)) (state : σ) :
    Except LoadFailure (List Module) × σ :=
  let (results, state) := forEach (scanOne steps) loaded state
  match collect results with
  | .ok modules => (.ok modules, state)
  | .error reports => (.error (.reports reports.flatten), state)

/-- Resolves one import of a module. -/
def resolveRecord (steps : Steps σ) (importer : ModuleId) (record : Scan.ImportRecord)
    (state : σ) : Except Report Resolved × σ :=
  steps.resolve (some importer) record.specifier record.form state

/-- Resolves the imports of one module. -/
def resolveOne (steps : Steps σ) (module : Module) (state : σ) :
    Except (List Report) (Module × List Resolved) × σ :=
  let (results, state) := forEach (resolveRecord steps module.id) module.content.records state
  ((collect results).map (module, ·), state)

/-- Resolves the imports of a wave. -/
def resolveWave (steps : Steps σ) (modules : List Module) (state : σ) :
    Except LoadFailure (List (Module × List Resolved)) × σ :=
  let (results, state) := forEach (resolveOne steps) modules state
  if steps.isCancelled state then (.error .cancelled, state)
  else
    match collect results with
    | .ok resolved => (.ok resolved, state)
    | .error reports => (.error (.reports reports.flatten), state)

/-- Loads the modules of a wave, scans them and resolves their imports. -/
def examineWave (steps : Steps σ) (wave : List Resolved) (state : σ) :
    Option (Except LoadFailure (List (Module × List Resolved)) × σ) :=
  match loadWave steps wave state with
  | none => none
  | some (.error failure, state) => some (.error failure, state)
  | some (.ok loaded, state) =>
    match scanWave steps loaded state with
    | (.error failure, state) => some (.error failure, state)
    | (.ok modules, state) => some (resolveWave steps modules state)

/-- Numbers the imports of a module, which fills its slot. -/
def Slots.fill (slots : Slots) (item : Nat × Module × List Resolved) : Slots :=
  let (number, module, targets) := item
  let (dependencies, slots) := allocateAll targets slots
  { slots with modules := slots.modules.set number (some (number, { module with dependencies })) }

/-- One wave: it fills the slots of its modules and leaves the next wave. -/
def fillWave (steps : Steps σ) (slots : Slots) (state : σ) :
    Option (Except LoadFailure Slots × σ) :=
  match examineWave steps (slots.wave.map Prod.snd) state with
  | none => none
  | some (.error failure, state) => some (.error failure, state)
  | some (.ok resolved, state) =>
    let items := (slots.wave.map Prod.fst).zip resolved
    some (.ok (items.foldl Slots.fill { slots with wave := [] }), state)

/-- All waves; nothing if there are more of them than the limit or a module cannot be
loaded within the depth that is left. -/
def fillWaves (steps : Steps σ) : (limit : Nat) → Slots → σ → Option (Except LoadFailure Slots × σ)
  | limit, slots, state =>
    if slots.wave.isEmpty then some (.ok slots, state)
    else
      match limit with
      | 0 => none
      | limit + 1 =>
        match fillWave steps slots state with
        | none => none
        | some (.error failure, state) => some (.error failure, state)
        | some (.ok slots, state) => fillWaves steps limit slots state

/-- The report for a module that was never filled in. -/
def incompleteReport : Report := { message := "Module graph is incomplete" }

/-- The modules of a search with their numbers, and the names and numbers of its
entries. -/
structure Fetched where
  modules : List (Nat × Module)
  entries : List (Option String × Nat)

/-- All modules that some entries need. -/
def fetch (steps : Steps σ) (limit : Nat) (entries : List (Option String × Resolved)) (state : σ) :
    Option (Except LoadFailure Fetched × σ) :=
  let (numbers, slots) := allocateAll (entries.map Prod.snd) {}
  match fillWaves steps limit slots state with
  | none => none
  | some (.error failure, state) => some (.error failure, state)
  | some (.ok slots, state) =>
    match slots.modules.mapM id with
    | none => some (.error (.reports [incompleteReport]), state)
    | some modules =>
      some (.ok { modules, entries := (entries.map Prod.fst).zip numbers }, state)

/-- The graph of some entries. -/
def load (steps : Steps σ) (limit : Nat) (entries : List (Option String × Resolved)) (state : σ) :
    Option (Except LoadFailure Graph × σ) :=
  (fetch steps limit entries state).map fun (result, state) =>
    (result.map fun fetched =>
      { modules := fetched.modules.map Prod.snd, entries := fetched.entries }, state)

end Loader

end WebBundle

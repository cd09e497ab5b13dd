import Mathlib.Data.List.Forall2
import WebBundle.Graph.Loader

/-!
# Traces of a search

A search keeps a map from modules to numbers, a table of slots and a wave of numbered
modules.  All of this is known from the list of the modules in the order in which they
were numbered, since the number of a module is its place there.  So a search can be told
with lists alone: a wave gives its modules, and those of all waves are joined.

A search passes its state from one part to the next and gives only what it has
found at the end.  A trace lists the states on the way: where each wave begins,
and where each module is loaded and scanned.  Two traces correspond if they name
the same items and their states are related.
-/

namespace WebBundle.Loader

/-! ## Searches by lists of modules -/

/-- The modules that have a number, in the order of their numbers, and those among them
that are still to be loaded. -/
structure Numbering where
  known : List ModuleId := []
  wave : List Resolved := []

/-- The number of a resolved module; a new module gets the next number. -/
def Numbering.number (numbering : Numbering) (resolved : Resolved) : Nat × Numbering :=
  if numbering.known.contains resolved.id then (numbering.known.idxOf resolved.id, numbering)
  else
    (numbering.known.length,
      { known := numbering.known ++ [resolved.id], wave := numbering.wave ++ [resolved] })

/-- The numbers of several resolved modules. -/
def numberAll : List Resolved → Numbering → List Nat × Numbering :=
  forEach fun resolved numbering => numbering.number resolved

section Numbering

variable {σ : Type} {steps : Steps σ}

/-- Numbers the imports of one module. -/
def numberOne (item : Module × List Resolved) (numbering : Numbering) : Module × Numbering :=
  let (module, targets) := item
  let (dependencies, numbering) := numberAll targets numbering
  ({ module with dependencies }, numbering)

/-- Numbers the imports of the modules of a wave. -/
def numberWave : List (Module × List Resolved) → Numbering → List Module × Numbering :=
  forEach numberOne

/-- One wave: its modules, and the numbering with the next wave. -/
def runWave (steps : Steps σ) (numbering : Numbering) (state : σ) :
    Option (Except LoadFailure (List Module × Numbering) × σ) :=
  (examineWave steps numbering.wave state).map fun (result, state) =>
    (result.map fun resolved => numberWave resolved { numbering with wave := [] }, state)

/-- All modules from a wave on; nothing if there are more waves than the limit or a
module cannot be loaded within the depth that is left. -/
def runWaves (steps : Steps σ) : (limit : Nat) → Numbering → σ →
    Option (Except LoadFailure (List Module) × σ)
  | limit, numbering, state =>
    if numbering.wave.isEmpty then some (.ok [], state)
    else
      match limit with
      | 0 => none
      | limit + 1 =>
        match runWave steps numbering state with
        | none => none
        | some (.error failure, state) => some (.error failure, state)
        | some (.ok (modules, numbering), state) =>
          match runWaves steps limit numbering state with
          | none => none
          | some (.error failure, state) => some (.error failure, state)
          | some (.ok later, state) => some (.ok (modules ++ later), state)

/-- The graph of some entries, from the modules of the waves. -/
def search (steps : Steps σ) (limit : Nat) (entries : List (Option String × Resolved))
    (state : σ) : Option (Except LoadFailure Graph × σ) :=
  let (numbers, numbering) := numberAll (entries.map Prod.snd) {}
  match runWaves steps limit numbering state with
  | none => none
  | some (.error failure, state) => some (.error failure, state)
  | some (.ok modules, state) =>
    some (.ok { modules, entries := (entries.map Prod.fst).zip numbers }, state)

/-- The parts of a wave, one after the other. -/
theorem runWave_eq (steps : Steps σ) (numbering : Numbering) (state : σ) :
    runWave steps numbering state =
      match loadWave steps numbering.wave state with
      | none => none
      | some (.error failure, state) => some (.error failure, state)
      | some (.ok loaded, state) =>
        match scanWave steps loaded state with
        | (.error failure, state) => some (.error failure, state)
        | (.ok modules, state) =>
          match resolveWave steps modules state with
          | (.error failure, state) => some (.error failure, state)
          | (.ok resolved, state) =>
            some (.ok (numberWave resolved { numbering with wave := [] }), state) := by
  rw [runWave, examineWave]
  cases loadWave steps numbering.wave state with
  | none => rfl
  | some given =>
      obtain ⟨result, loadedAt⟩ := given
      cases result with
      | error failure => rfl
      | ok loaded =>
          dsimp only
          generalize scanWave steps loaded loadedAt = scanned
          obtain ⟨result, scannedAt⟩ := scanned
          cases result with
          | error failure => rfl
          | ok modules =>
              dsimp only
              generalize resolveWave steps modules scannedAt = resolved
              obtain ⟨result, resolvedAt⟩ := resolved
              cases result <;> rfl

end Numbering

/-! ## Visits -/

section Visits

variable {α β σ τ : Type}

/-- The items of a list with the states in which `forEach` comes to them. -/
def visits (action : α → σ → β × σ) : List α → σ → List (α × σ)
  | [], _ => []
  | item :: rest, state => (item, state) :: visits action rest (action item state).2

/-- The items of a list with the states in which `forEach?` comes to them; the last
one may be an item that gives nothing. -/
def visits? (action : α → σ → Option (β × σ)) : List α → σ → List (α × σ)
  | [], _ => []
  | item :: rest, state => (item, state) ::
    match action item state with
    | none => []
    | some (_, state) => visits? action rest state

/-- The same item, in states that are related. -/
def SameVisit (related : σ → τ → Prop) (first : α × σ) (second : α × τ) : Prop :=
  first.1 = second.1 ∧ related first.2 second.2

/-- One list corresponds to the beginning of another one. -/
def MatchesPrefix {γ δ : Type} (matching : γ → δ → Prop) (first : List γ) (second : List δ) :
    Prop :=
  ∃ covered, covered <+: second ∧ List.Forall₂ matching first covered

end Visits

variable {σ : Type}

/-- The waves of a search, as they begin. -/
def waves (steps : Steps σ) : (limit : Nat) → Numbering → σ → List (Numbering × σ)
  | limit, numbering, state =>
    if numbering.wave.isEmpty then []
    else
      match limit with
      | 0 => []
      | limit + 1 => (numbering, state) ::
        match runWave steps numbering state with
        | some (.ok (_, numbering), state) => waves steps limit numbering state
        | _ => []

theorem waves_of_isEmpty {steps : Steps σ} {numbering : Numbering} (limit : Nat) (state : σ)
    (hempty : numbering.wave.isEmpty = true) : waves steps limit numbering state = [] := by
  cases limit <;> rw [waves, if_pos hempty]

theorem waves_zero {steps : Steps σ} {numbering : Numbering} (state : σ)
    (hempty : ¬ numbering.wave.isEmpty = true) : waves steps 0 numbering state = [] := by
  rw [waves, if_neg hempty]

theorem waves_succ {steps : Steps σ} {numbering : Numbering} (limit : Nat) (state : σ)
    (hempty : ¬ numbering.wave.isEmpty = true) :
    waves steps (limit + 1) numbering state = (numbering, state) ::
      match runWave steps numbering state with
      | some (.ok (_, numbering), state) => waves steps limit numbering state
      | _ => [] := by
  rw [waves, if_neg hempty]

theorem runWaves_of_isEmpty {steps : Steps σ} {numbering : Numbering} (limit : Nat) (state : σ)
    (hempty : numbering.wave.isEmpty = true) :
    runWaves steps limit numbering state = some (.ok [], state) := by
  cases limit <;> rw [runWaves, if_pos hempty]

theorem runWaves_zero {steps : Steps σ} {numbering : Numbering} (state : σ)
    (hempty : ¬ numbering.wave.isEmpty = true) : runWaves steps 0 numbering state = none := by
  rw [runWaves, if_neg hempty]

theorem runWaves_succ {steps : Steps σ} {numbering : Numbering} (limit : Nat) (state : σ)
    (hempty : ¬ numbering.wave.isEmpty = true) :
    runWaves steps (limit + 1) numbering state =
      match runWave steps numbering state with
      | none => none
      | some (.error failure, state) => some (.error failure, state)
      | some (.ok (modules, numbering), state) =>
        match runWaves steps limit numbering state with
        | none => none
        | some (.error failure, state) => some (.error failure, state)
        | some (.ok later, state) => some (.ok (modules ++ later), state) := by
  have hunfold := runWaves.eq_def steps (limit + 1) numbering state
  exact hunfold.trans (if_neg hempty)

/-- The modules of a wave, as they are loaded. -/
def waveLoads (steps : Steps σ) (wave : Numbering × σ) : List (Resolved × σ) :=
  visits? (loadOne steps) wave.1.wave wave.2

/-- The modules of a wave, as they are scanned. -/
def waveScans (steps : Steps σ) (wave : Numbering × σ) : List ((ModuleId × Loaded) × σ) :=
  match loadWave steps wave.1.wave wave.2 with
  | some (.ok loaded, state) => visits (scanOne steps) loaded state
  | _ => []

theorem loadWave_of_runWave_eq_none {steps : Steps σ} {numbering : Numbering} {state : σ}
    (hnone : runWave steps numbering state = none) :
    loadWave steps numbering.wave state = none := by
  rw [runWave_eq] at hnone
  cases hload : loadWave steps numbering.wave state with
  | none => rfl
  | some given =>
      obtain ⟨result, loadedAt⟩ := given
      cases result with
      | error failure => simp [hload] at hnone
      | ok loaded =>
          simp only [hload] at hnone
          split at hnone
          · cases hnone
          · split at hnone <;> cases hnone

/-- A wave that gives nothing is left while it loads. -/
theorem waveScans_of_runWave_eq_none {steps : Steps σ} {numbering : Numbering} {state : σ}
    (hnone : runWave steps numbering state = none) :
    waveScans steps (numbering, state) = [] := by
  simp only [waveScans, loadWave_of_runWave_eq_none hnone]

/-- The waves of the search for the graph of some entries. -/
def wavesOf (steps : Steps σ) (limit : Nat) (entries : List (Option String × Resolved))
    (state : σ) : List (Numbering × σ) :=
  waves steps limit (numberAll (entries.map Prod.snd) {}).2 state

/-- The modules that a search loads. -/
def loads (steps : Steps σ) (limit : Nat) (entries : List (Option String × Resolved))
    (state : σ) : List (Resolved × σ) :=
  (wavesOf steps limit entries state).flatMap (waveLoads steps)

/-- The modules that a search scans. -/
def scans (steps : Steps σ) (limit : Nat) (entries : List (Option String × Resolved))
    (state : σ) : List ((ModuleId × Loaded) × σ) :=
  (wavesOf steps limit entries state).flatMap (waveScans steps)

end WebBundle.Loader

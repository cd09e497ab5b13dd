import WebBundle.Proofs.Search.Simulation

/-!
# Invariants of searches

What every part of a search keeps true of its state is true wherever the search
comes.  This is simulation of a search by itself, with equal states that have the
property as related ones.  A search whose limit is larger finds the same, which is
simulation with equal states.
-/

namespace WebBundle.Loader

variable {σ : Type} {steps : Steps σ} {invariant : σ → Prop}
variable {loadable : Resolved × σ → Prop} {scannable : (ModuleId × Loaded) × σ → Prop}

/-- Every part of a search keeps a property of the state; loading and scanning need
to do so only where `loadable` and `scannable` hold. -/
structure Keeps (steps : Steps σ) (invariant : σ → Prop) (loadable : Resolved × σ → Prop)
    (scannable : (ModuleId × Loaded) × σ → Prop) : Prop where
  resolve : ∀ importer specifier form {state}, invariant state →
    invariant (steps.resolve importer specifier form state).2
  load : ∀ resolved state result next, loadable (resolved, state) → invariant state →
    steps.load resolved state = some (result, next) → invariant next
  scan : ∀ id loaded {state}, scannable ((id, loaded), state) → invariant state →
    invariant (steps.scan id loaded state).2

namespace Keeps

theorem simulates (hkeeps : Keeps steps invariant loadable scannable) :
    Simulates steps steps (fun state other => state = other ∧ invariant state) loadable
      scannable where
  resolve importer specifier form _ _ hrelated := by
    obtain ⟨rfl, hinvariant⟩ := hrelated
    exact ⟨rfl, rfl, hkeeps.resolve importer specifier form hinvariant⟩
  load resolved state other result next hallowed hrelated hload := by
    obtain ⟨rfl, hinvariant⟩ := hrelated
    exact ⟨next, hload, rfl, hkeeps.load resolved state result next hallowed hinvariant hload⟩
  scan id loaded _ _ hallowed hrelated := by
    obtain ⟨rfl, hinvariant⟩ := hrelated
    exact ⟨rfl, rfl, hkeeps.scan id loaded hallowed hinvariant⟩
  stableId _ := rfl
  isCancelled hrelated := by rw [hrelated.1]

theorem of_matchesPrefix {α : Type} {before after : List (α × σ)}
    (hmatch : MatchesPrefix (SameVisit fun state other => state = other ∧ invariant state)
      before after) : ∀ visit ∈ before, invariant visit.2 := by
  obtain ⟨covered, -, hcovered⟩ := hmatch
  induction hcovered with
  | nil => exact fun _ hvisit => nomatch hvisit
  | cons hhead _ ih =>
      intro visit hvisit
      cases hvisit with
      | head => exact hhead.2.2
      | tail _ hvisit => exact ih visit hvisit

variable {limit : Nat} {entries : List (Option String × Resolved)} {state : σ}

theorem begins (hkeeps : Keeps steps invariant loadable scannable)
    (hallows : Allows steps loadable scannable (wavesOf steps limit entries state))
    (hstart : invariant state) :
    Begins steps steps (fun state other => state = other ∧ invariant state)
      (wavesOf steps limit entries state) (wavesOf steps limit entries state) :=
  hkeeps.simulates.waves_begin (Nat.le_refl _) _ state state hallows ⟨rfl, hstart⟩

theorem at_waves (hkeeps : Keeps steps invariant loadable scannable)
    (hallows : Allows steps loadable scannable (wavesOf steps limit entries state))
    (hstart : invariant state) :
    ∀ wave ∈ wavesOf steps limit entries state, invariant wave.2 :=
  of_matchesPrefix (hkeeps.begins hallows hstart).waves

theorem at_loads (hkeeps : Keeps steps invariant loadable scannable)
    (hallows : Allows steps loadable scannable (wavesOf steps limit entries state))
    (hstart : invariant state) :
    ∀ visit ∈ loads steps limit entries state, invariant visit.2 :=
  of_matchesPrefix (hkeeps.begins hallows hstart).loads

theorem at_scans (hkeeps : Keeps steps invariant loadable scannable)
    (hallows : Allows steps loadable scannable (wavesOf steps limit entries state))
    (hstart : invariant state) :
    ∀ visit ∈ scans steps limit entries state, invariant visit.2 :=
  of_matchesPrefix (hkeeps.begins hallows hstart).scans

/-- A search that keeps a property ends with it. -/
theorem at_end (hkeeps : Keeps steps invariant loadable scannable)
    (hallows : Allows steps loadable scannable (wavesOf steps limit entries state))
    (hstart : invariant state) {result : Except LoadFailure Graph} {next : σ}
    (hload : Loader.load steps limit entries state = some (result, next)) : invariant next := by
  obtain ⟨last, hagain, hnext, _⟩ := hkeeps.simulates.load_corresponds (Nat.le_refl _) entries state state
    hallows ⟨rfl, hstart⟩ hload
  exact hnext.2

end Keeps

/-- The parts of one search do what those of the other do, where they do anything. -/
structure Extends (first second : Steps σ) : Prop where
  resolve : first.resolve = second.resolve
  load : ∀ resolved state given, first.load resolved state = some given →
    second.load resolved state = some given
  scan : first.scan = second.scan
  stableId : first.stableId = second.stableId
  isCancelled : first.isCancelled = second.isCancelled

namespace Extends

variable {first second : Steps σ}

theorem simulates (hextends : Extends first second) :
    Simulates first second Eq (fun _ => True) (fun _ => True) where
  resolve importer specifier form _ _ hrelated := by
    cases hrelated
    rw [hextends.resolve]
    exact ⟨rfl, rfl⟩
  load resolved state other result next _ hrelated hload := by
    cases hrelated
    exact ⟨next, hextends.load resolved state _ hload, rfl⟩
  scan id loaded _ _ _ hrelated := by
    cases hrelated
    rw [hextends.scan]
    exact ⟨rfl, rfl⟩
  stableId id := by rw [hextends.stableId]
  isCancelled hrelated := by
    cases hrelated
    rw [hextends.isCancelled]

theorem sameVisit_eq {α : Type} : (SameVisit (@Eq σ) : α × σ → α × σ → Prop) = Eq := by
  funext left right
  rw [SameVisit, Prod.ext_iff]

variable {limit more : Nat} {entries : List (Option String × Resolved)} {state : σ}

/-- With more to go on, a search finds what it found. -/
theorem load_eq (hextends : Extends first second) (hlimit : limit ≤ more)
    {given : Except LoadFailure Graph × σ}
    (hload : Loader.load first limit entries state = some given) :
    Loader.load second more entries state = some given := by
  obtain ⟨result, next⟩ := given
  obtain ⟨last, hagain, rfl, _⟩ := hextends.simulates.load_corresponds hlimit entries state
    state (.always _) rfl hload
  exact hagain

/-- With more to go on, a search that ends loads the same modules. -/
theorem loads_eq (hextends : Extends first second) (hlimit : limit ≤ more)
    {given : Except LoadFailure Graph × σ}
    (hload : Loader.load first limit entries state = some given) :
    loads first limit entries state = loads second more entries state := by
  obtain ⟨result, next⟩ := given
  obtain ⟨last, _, _, htrace⟩ := hextends.simulates.load_corresponds hlimit entries state
    state (.always _) rfl hload
  have hloads := htrace.loads
  rw [sameVisit_eq, List.forall₂_eq_eq_eq] at hloads
  exact hloads

/-- With more to go on, a search loads at least the modules that it loaded. -/
theorem loads_prefix (hextends : Extends first second) (hlimit : limit ≤ more) :
    loads first limit entries state <+: loads second more entries state := by
  obtain ⟨covered, hbegins, hmatch⟩ := (hextends.simulates.waves_begin hlimit
    (numberAll (entries.map Prod.snd) {}).2 state state (.always _) rfl).loads
  rw [sameVisit_eq, List.forall₂_eq_eq_eq] at hmatch
  rw [loads, loads, wavesOf, wavesOf, hmatch]
  exact hbegins

end Extends

end WebBundle.Loader

import WebBundle.Proofs.Search.Failure
import WebBundle.Proofs.Search.Termination
import WebBundle.Proofs.Search.Unloaded

/-!
# Failures of a wave

A wave asks its questions in three rounds: it loads all modules, scans all of them and then
resolves all of their imports.  A round in which something fails is the last one, and the
search ends with the reports of all its questions, in the order in which they were asked.
-/

namespace WebBundle

namespace Asked

/-- Whether the answer is a failure. -/
def isFailed : Asked → Bool
  | load _ answer => (Loader.errorOf answer).isSome
  | scan _ _ answer => (Loader.errorOf answer).isSome
  | resolve _ _ _ answer => (Loader.errorOf answer).isSome

end Asked

namespace Loader

/-! ## Notes that change nothing -/

section Lists

variable {α β σ : Type}

/-- Notes made on the way are put behind those that were there, and nothing else changes. -/
theorem forEach_noted {action : α → σ → β × σ}
    {noted : α → σ × List Asked → β × (σ × List Asked)} (asks : α × σ → List Asked)
    (hnoted : ∀ item state log, noted item (state, log) =
      ((action item state).1, (action item state).2, log ++ asks (item, state)))
    (items : List α) (state : σ) (log : List Asked) :
    forEach noted items (state, log) =
      ((forEach action items state).1, (forEach action items state).2,
        log ++ (visits action items state).flatMap asks) := by
  induction items generalizing state log with
  | nil => simp [forEach, visits]
  | cons item rest ih =>
      rw [forEach, hnoted]
      dsimp only
      rw [ih, visits, List.flatMap_cons, List.append_assoc]
      rfl

theorem forEach?_noted {action : α → σ → Option (β × σ)}
    {noted : α → σ × List Asked → Option (β × (σ × List Asked))} (asks : α × σ → List Asked)
    (hnoted : ∀ item state log, noted item (state, log) =
      (action item state).map fun given => (given.1, given.2, log ++ asks (item, state)))
    (items : List α) (state : σ) (log : List Asked) :
    forEach? noted items (state, log) =
      (forEach? action items state).map fun given =>
        (given.1, given.2, log ++ (visits? action items state).flatMap asks) := by
  induction items generalizing state log with
  | nil => simp [forEach?, visits?]
  | cons item rest ih =>
      rw [forEach?, forEach?, hnoted, visits?, List.flatMap_cons]
      cases action item state with
      | none => rfl
      | some given =>
          obtain ⟨result, next⟩ := given
          simp only [Option.map_some]
          rw [ih]
          cases forEach? action rest next with
          | none => rfl
          | some later => simp

end Lists

variable {σ : Type} (steps : Steps σ)

/-! ## The questions of a wave -/

/-- The question for the load of a module, if the load ends. -/
def loadAsked (visit : Resolved × σ) : List Asked :=
  match steps.load visit.1 visit.2 with
  | some (answer, _) => [.load visit.1 answer]
  | none => []

/-- The question for the scan of a module. -/
def scanAsked (visit : (ModuleId × Loaded) × σ) : List Asked :=
  [.scan visit.1.1 visit.1.2 (steps.scan visit.1.1 visit.1.2 visit.2).1]

/-- The questions for the imports of a module, in the order of its import records. -/
def importsAsked (visit : Module × σ) : List Asked :=
  (visits (resolveRecord steps visit.1.id) visit.1.content.records visit.2).map fun asked =>
    recordAsked visit.1.id asked.1 (resolveRecord steps visit.1.id asked.1 asked.2).1

/-- The modules of a wave whose imports are resolved. -/
def waveResolves (wave : Numbering × σ) : List (Module × σ) :=
  match loadWave steps wave.1.wave wave.2 with
  | some (.ok loaded, state) =>
    match scanWave steps loaded state with
    | (.ok modules, state) => visits (resolveOne steps) modules state
    | _ => []
  | _ => []

/-- The loads of a wave, in the order in which its modules were discovered. -/
def waveLoaded (wave : Numbering × σ) : List Asked :=
  (waveLoads steps wave).flatMap (loadAsked steps)

/-- The scans of a wave. -/
def waveScanned (wave : Numbering × σ) : List Asked :=
  (waveScans steps wave).flatMap (scanAsked steps)

/-- The resolved imports of a wave, module by module. -/
def waveImports (wave : Numbering × σ) : List Asked :=
  (waveResolves steps wave).flatMap (importsAsked steps)

/-- Everything that a wave asks, as it notes it. -/
def askedIn (wave : Numbering × σ) : List Asked :=
  match runWave steps.logged wave.1 (wave.2, []) with
  | some (_, _, log) => log
  | none => []

variable {steps}

theorem waveScanned_eq {wave : Numbering × σ} {loaded : List (ModuleId × Loaded)} {loadedAt : σ}
    (hload : loadWave steps wave.1.wave wave.2 = some (.ok loaded, loadedAt)) :
    waveScanned steps wave =
      (visits (scanOne steps) loaded loadedAt).flatMap (scanAsked steps) := by
  rw [waveScanned, waveScans, hload]

theorem waveImports_eq {wave : Numbering × σ} {loaded : List (ModuleId × Loaded)}
    {modules : List Module} {loadedAt scannedAt : σ}
    (hload : loadWave steps wave.1.wave wave.2 = some (.ok loaded, loadedAt))
    (hscan : scanWave steps loaded loadedAt = (.ok modules, scannedAt)) :
    waveImports steps wave =
      (visits (resolveOne steps) modules scannedAt).flatMap (importsAsked steps) := by
  simp only [waveImports, waveResolves, hload, hscan]

theorem loadOne_noted (resolved : Resolved) (state : σ) (log : List Asked) :
    loadOne steps.logged resolved (state, log) =
      (loadOne steps resolved state).map fun given =>
        (given.1, given.2, log ++ loadAsked steps (resolved, state)) := by
  simp only [loadOne, loadAsked, Steps.logged, Option.map_map]
  cases steps.load resolved state <;> rfl

theorem loadWave_noted (wave : List Resolved) (state : σ) (log : List Asked) :
    loadWave steps.logged wave (state, log) =
      (loadWave steps wave state).map fun given => (given.1, given.2,
        log ++ (visits? (loadOne steps) wave state).flatMap (loadAsked steps)) := by
  rw [loadWave, loadWave, forEach?_noted (loadAsked steps) loadOne_noted, Option.map_map,
    Option.map_map]
  rfl

theorem scanWave_noted (loaded : List (ModuleId × Loaded)) (state : σ) (log : List Asked) :
    scanWave steps.logged loaded (state, log) =
      ((scanWave steps loaded state).1, (scanWave steps loaded state).2,
        log ++ (visits (scanOne steps) loaded state).flatMap (scanAsked steps)) := by
  have hnoted : ∀ item state log, scanOne steps.logged item (state, log) =
      ((scanOne steps item state).1, (scanOne steps item state).2,
        log ++ scanAsked steps (item, state)) := fun _ _ _ => rfl
  rw [scanWave, scanWave, forEach_noted (scanAsked steps) hnoted]
  dsimp only
  split <;> rfl

theorem resolveOne_noted (module : Module) (state : σ) (log : List Asked) :
    resolveOne steps.logged module (state, log) =
      ((resolveOne steps module state).1, (resolveOne steps module state).2,
        log ++ importsAsked steps (module, state)) := by
  have hnoted : ∀ record state log, resolveRecord steps.logged module.id record (state, log) =
      ((resolveRecord steps module.id record state).1,
        (resolveRecord steps module.id record state).2,
        log ++ [recordAsked module.id record (resolveRecord steps module.id record state).1]) :=
    fun _ _ _ => rfl
  rw [resolveOne, resolveOne, forEach_noted (fun asked =>
    [recordAsked module.id asked.1 (resolveRecord steps module.id asked.1 asked.2).1]) hnoted,
    importsAsked, List.map_eq_flatMap]

theorem resolveWave_noted (modules : List Module) (state : σ) (log : List Asked) :
    resolveWave steps.logged modules (state, log) =
      ((resolveWave steps modules state).1, (resolveWave steps modules state).2,
        log ++ (visits (resolveOne steps) modules state).flatMap (importsAsked steps)) := by
  rw [resolveWave, resolveWave, forEach_noted (importsAsked steps) resolveOne_noted]
  dsimp only
  change (if steps.isCancelled _ then _ else _) = _
  split
  · rfl
  · split <;> rfl

/-- A wave that ends asks for its loads, then for its scans and then for its imports. -/
theorem runWave_noted (wave : Numbering × σ) (log : List Asked) :
    runWave steps.logged wave.1 (wave.2, log) =
      (runWave steps wave.1 wave.2).map fun given => (given.1, given.2,
        log ++ (waveLoaded steps wave ++ waveScanned steps wave ++ waveImports steps wave)) := by
  rw [runWave_eq, runWave_eq, loadWave_noted, waveScanned, waveScans, waveImports, waveResolves,
    waveLoaded, waveLoads]
  cases loadWave steps wave.1.wave wave.2 with
  | none => rfl
  | some given =>
      obtain ⟨_ | loaded, loadedAt⟩ := given
      · simp
      · simp only [Option.map_some]
        rw [scanWave_noted]
        generalize scanWave steps loaded loadedAt = scanned
        obtain ⟨_ | modules, scannedAt⟩ := scanned
        · simp
        · dsimp only
          rw [resolveWave_noted]
          generalize resolveWave steps modules scannedAt = resolved
          obtain ⟨_ | items, resolvedAt⟩ := resolved <;> simp

theorem askedIn_of_runWave {wave : Numbering × σ}
    {result : Except LoadFailure (List Module × Numbering)} {last : σ}
    (hrun : runWave steps wave.1 wave.2 = some (result, last)) :
    askedIn steps wave =
      waveLoaded steps wave ++ waveScanned steps wave ++ waveImports steps wave := by
  rw [askedIn, runWave_noted, hrun]
  rfl

/-! ## Failures of a round -/

/-- Questions fail as a result does, with the reports that its failure gives. -/
structure FailsLike {ε α : Type} (give : ε → List Report) (asked : List Asked)
    (result : Except ε α) : Prop where
  isFailed : asked.any Asked.isFailed = (errorOf result).isSome
  reports : asked.flatMap Asked.reports = ((errorOf result).map give).getD []

section Rounds

variable {α β ε : Type} {give : ε → List Report}

/-- If each question fails as its result does, all of them fail as the collected results. -/
theorem FailsLike.collect {asks : α → List Asked} {items : List α} {results : List (Except ε β)}
    (hround : List.Forall₂ (fun item result => FailsLike give (asks item) result) items results) :
    FailsLike (fun failures => failures.flatMap give) (items.flatMap asks) (collect results) := by
  induction hround with
  | nil => exact ⟨rfl, rfl⟩
  | @cons item result items results hhead _ ih =>
      obtain ⟨hfailed, hreports⟩ := hhead
      obtain ⟨hfails, hlater⟩ := ih
      constructor
      · rw [List.flatMap_cons, List.any_append, hfailed, hfails]
        cases result <;> cases hrest : Loader.collect results <;>
          simp [Loader.collect, hrest, errorOf, Except.map]
      · rw [List.flatMap_cons, List.flatMap_append, hreports, hlater]
        cases result <;> cases hrest : Loader.collect results <;>
          simp [Loader.collect, hrest, errorOf, Except.map]

theorem errorOf_map {γ : Type} (convert : α → γ) (result : Except ε α) :
    errorOf (result.map convert) = errorOf result := by
  cases result <;> rfl

theorem FailsLike.map {γ : Type} {asked : List Asked} {result : Except ε α}
    (hfails : FailsLike give asked result) (convert : α → γ) :
    FailsLike give asked (result.map convert) := by
  constructor <;> rw [errorOf_map]
  · exact hfails.isFailed
  · exact hfails.reports

theorem FailsLike.of_forEach {σ : Type} {asks : α × σ → List Asked}
    (action : α → σ → Except ε β × σ)
    (hfails : ∀ item state, FailsLike give (asks (item, state)) (action item state).1)
    (items : List α) (state : σ) :
    FailsLike (fun failures => failures.flatMap give) ((visits action items state).flatMap asks)
      (Loader.collect (forEach action items state).1) := by
  apply FailsLike.collect
  rw [forEach_eq_visits, List.forall₂_map_right_iff, List.forall₂_same]
  exact fun visit _ => hfails visit.1 visit.2

end Rounds

/-- What comes of a round of questions: their reports if one of them fails, and otherwise
something to go on with. -/
def Gives {α : Type} (asked : List Asked) (result : Except LoadFailure α) : Prop :=
  if asked.any Asked.isFailed then result = .error (.reports (asked.flatMap Asked.reports))
  else ∃ value, result = .ok value

theorem FailsLike.gives {ε α β : Type} {give : ε → List Report} {asked : List Asked}
    {collected : Except ε α} {result : Except LoadFailure β}
    (hfails : FailsLike give asked collected)
    (hok : ∀ value, collected = .ok value → ∃ value, result = .ok value)
    (herror : ∀ failure, collected = .error failure → result = .error (.reports (give failure))) :
    Gives asked result := by
  rw [Gives, hfails.isFailed, hfails.reports]
  cases collected with
  | ok value => exact hok value rfl
  | error failure => exact herror failure rfl

theorem gives_loadWave {wave : Numbering × σ}
    {result : Except LoadFailure (List (ModuleId × Loaded))} {last : σ}
    (hload : loadWave steps wave.1.wave wave.2 = some (result, last))
    (hkept : result ≠ .error .cancelled) : Gives (waveLoaded steps wave) result := by
  obtain ⟨results, hresults, hconclude⟩ := loadWave_eq hload
  have hfails : FailsLike (fun failures => failures.flatMap fun report => [report])
      (waveLoaded steps wave) (collect results) := by
    apply FailsLike.collect
    apply (forEach?_visits hresults).imp
    rintro visit result ⟨next, hresult⟩
    rw [loadOne, Option.map_eq_some_iff] at hresult
    obtain ⟨⟨answer, reached⟩, hanswer, heq⟩ := hresult
    cases heq
    rw [loadAsked, hanswer]
    cases answer <;> exact ⟨rfl, rfl⟩
  rw [concludeWave] at hconclude
  split at hconclude
  · exact absurd hconclude hkept
  · apply hfails.gives
    · intro loaded hloaded
      rw [hconclude, hloaded]
      exact ⟨loaded, rfl⟩
    · intro reports hreports
      rw [hconclude, hreports, List.flatMap_singleton']

theorem gives_scanWave {wave : Numbering × σ} {loaded : List (ModuleId × Loaded)} {loadedAt : σ}
    (hload : loadWave steps wave.1.wave wave.2 = some (.ok loaded, loadedAt)) :
    Gives (waveScanned steps wave) (scanWave steps loaded loadedAt).1 := by
  have hone : ∀ item state, FailsLike id (scanAsked steps (item, state))
      (scanOne steps item state).1 := by
    intro item state
    have hscan : FailsLike id (scanAsked steps (item, state))
        (steps.scan item.1 item.2 state).1 := by
      rw [scanAsked]
      cases (steps.scan item.1 item.2 state).1 <;> constructor <;>
        simp [Asked.isFailed, Asked.reports, errorOf]
    exact hscan.map _
  rw [waveScanned_eq hload, scanWave]
  dsimp only
  apply (FailsLike.of_forEach (scanOne steps) hone loaded loadedAt).gives
  · intro modules hmodules
    rw [hmodules]
    exact ⟨modules, rfl⟩
  · intro reports hreports
    rw [hreports, List.flatMap_id]

theorem failsLike_resolveOne (module : Module) (state : σ) :
    FailsLike id (importsAsked steps (module, state)) (resolveOne steps module state).1 := by
  have hone : ∀ record state, FailsLike (fun report => [report])
      [recordAsked module.id record (resolveRecord steps module.id record state).1]
      (resolveRecord steps module.id record state).1 := by
    intro record state
    cases (resolveRecord steps module.id record state).1 <;> exact ⟨rfl, rfl⟩
  have hrecords : FailsLike (fun failures => failures.flatMap fun report => [report])
      ((visits (resolveRecord steps module.id) module.content.records state).flatMap fun asked =>
        [recordAsked module.id asked.1 (resolveRecord steps module.id asked.1 asked.2).1])
      (collect (forEach (resolveRecord steps module.id) module.content.records state).1) :=
    FailsLike.of_forEach (resolveRecord steps module.id) hone module.content.records state
  simp only [List.flatMap_singleton'] at hrecords
  rw [importsAsked, List.map_eq_flatMap]
  exact hrecords.map _

theorem gives_resolveWave {wave : Numbering × σ} {loaded : List (ModuleId × Loaded)}
    {modules : List Module} {loadedAt scannedAt : σ}
    (hload : loadWave steps wave.1.wave wave.2 = some (.ok loaded, loadedAt))
    (hscan : scanWave steps loaded loadedAt = (.ok modules, scannedAt))
    (hkept : (resolveWave steps modules scannedAt).1 ≠ .error .cancelled) :
    Gives (waveImports steps wave) (resolveWave steps modules scannedAt).1 := by
  rw [waveImports_eq hload hscan]
  rw [resolveWave] at hkept ⊢
  dsimp only at hkept ⊢
  split at hkept
  · exact absurd rfl hkept
  · rename_i hcancelled
    rw [if_neg hcancelled]
    apply (FailsLike.of_forEach (resolveOne steps) failsLike_resolveOne modules scannedAt).gives
    · intro resolved hresolved
      rw [hresolved]
      exact ⟨resolved, rfl⟩
    · intro reports hreports
      rw [hreports, List.flatMap_id]

theorem Gives.of_error {α : Type} {asked : List Asked} {failure : LoadFailure}
    (hgives : Gives asked (.error failure : Except LoadFailure α)) :
    asked.any Asked.isFailed = true ∧ failure = .reports (asked.flatMap Asked.reports) := by
  rw [Gives] at hgives
  split at hgives
  · rename_i hfailed
    exact ⟨hfailed, Except.error.inj hgives⟩
  · obtain ⟨value, hvalue⟩ := hgives
    cases hvalue

theorem Gives.of_ok {α : Type} {asked : List Asked} {value : α}
    (hgives : Gives asked (.ok value : Except LoadFailure α)) :
    asked.any Asked.isFailed = false := by
  rw [Gives] at hgives
  split at hgives
  · cases hgives
  · rename_i hfailed
    exact Bool.eq_false_iff.mpr hfailed

/-- Questions of which one fails have reports, unless a module is scanned that fails without
one. -/
theorem reports_ne_nil {asked : List Asked}
    (hscan : ∀ id loaded, .scan id loaded (.error []) ∉ asked)
    (hfailed : asked.any Asked.isFailed = true) : asked.flatMap Asked.reports ≠ [] := by
  obtain ⟨failing, hmember, hfails⟩ := List.any_eq_true.mp hfailed
  intro hnone
  have hreports : failing.reports = [] := List.flatMap_eq_nil_iff.mp hnone failing hmember
  match failing with
  | .load _ (.error report) => cases hreports
  | .resolve _ _ _ (.error report) => cases hreports
  | .scan id loaded (.error reports) =>
      cases hreports
      exact hscan id loaded hmember

/-! ## Rounds of a wave -/

/-- How far a wave gets that ends. -/
inductive WaveEnds (steps : Steps σ) (wave : Numbering × σ) :
    Except LoadFailure (List Module × Numbering) → Prop
  | loading {failure last}
      (hload : loadWave steps wave.1.wave wave.2 = some (.error failure, last)) :
      WaveEnds steps wave (.error failure)
  | scanning {loaded loadedAt failure last}
      (hload : loadWave steps wave.1.wave wave.2 = some (.ok loaded, loadedAt))
      (hscan : scanWave steps loaded loadedAt = (.error failure, last)) :
      WaveEnds steps wave (.error failure)
  | resolving {loaded loadedAt modules scannedAt}
      (hload : loadWave steps wave.1.wave wave.2 = some (.ok loaded, loadedAt))
      (hscan : scanWave steps loaded loadedAt = (.ok modules, scannedAt)) :
      WaveEnds steps wave ((resolveWave steps modules scannedAt).1.map fun resolved =>
        numberWave resolved { wave.1 with wave := [] })

theorem waveEnds_of_runWave {wave : Numbering × σ}
    {result : Except LoadFailure (List Module × Numbering)} {last : σ}
    (hrun : runWave steps wave.1 wave.2 = some (result, last)) : WaveEnds steps wave result := by
  rw [runWave_eq] at hrun
  cases hload : loadWave steps wave.1.wave wave.2 with
  | none => simp [hload] at hrun
  | some given =>
      obtain ⟨_ | loaded, loadedAt⟩ := given
      · simp only [hload] at hrun
        cases hrun
        exact .loading hload
      · simp only [hload] at hrun
        cases hscan : scanWave steps loaded loadedAt with
        | mk scanned scannedAt =>
            rw [hscan] at hrun
            cases scanned with
            | error failure =>
                cases hrun
                exact .scanning hload hscan
            | ok modules =>
                have hends := WaveEnds.resolving hload hscan
                dsimp only at hrun
                generalize resolveWave steps modules scannedAt = resolved at hrun hends
                obtain ⟨_ | items, resolvedAt⟩ := resolved <;> cases hrun <;> exact hends

end Loader

/-- What a part of a search is asked. -/
inductive Question where
  | load (resolved : Resolved)
  | scan (id : ModuleId) (loaded : Loaded)
  | resolve (importer : Option ModuleId) (specifier : String) (form : Scan.ImportForm)

/-- The questions for the imports of a module, in the order of its import records. -/
def ModuleContent.questions (id : ModuleId) (content : ModuleContent) : List Question :=
  content.records.map fun record => .resolve (some id) record.specifier record.form

namespace Asked

/-- What was asked. -/
def question : Asked → Question
  | load resolved _ => .load resolved
  | scan id loaded _ => .scan id loaded
  | resolve importer specifier form _ => .resolve importer specifier form

/-- The questions of the next round that an answer leads to: a loaded module is scanned, and the
imports of a scanned module are resolved. -/
def leadsTo : Asked → List Question
  | load resolved (.ok loaded) => [.scan resolved.id loaded]
  | scan id _ (.ok content) => content.questions id
  | _ => []

end Asked

namespace Loader

variable {σ : Type} {steps : Steps σ}

theorem flatMap_eq_of_forall₂ {α β γ : Type} {related : α → β → Prop} {first : α → List γ}
    {second : β → List γ} {items : List α} {others : List β}
    (h : List.Forall₂ related items others)
    (hsame : ∀ item other, related item other → first item = second other) :
    items.flatMap first = others.flatMap second := by
  induction h with
  | nil => rfl
  | cons hhead _ ih => rw [List.flatMap_cons, List.flatMap_cons, hsame _ _ hhead, ih]

/-- A round of a wave asks what the answers of the round before it lead to. -/
structure AsksInTurn (steps : Steps σ) (wave : Numbering × σ) : Prop where
  loads : (waveLoaded steps wave).map Asked.question = wave.1.wave.map .load
  scans : (waveLoaded steps wave).any Asked.isFailed = false →
    (waveScanned steps wave).map Asked.question = (waveLoaded steps wave).flatMap Asked.leadsTo
  imports : (waveLoaded steps wave).any Asked.isFailed = false →
    (waveScanned steps wave).any Asked.isFailed = false →
    (waveImports steps wave).map Asked.question = (waveScanned steps wave).flatMap Asked.leadsTo

/-- A wave ends with the first round in which something fails.  What is said of the end is said of
the questions before this round and of those of the round. -/
structure EndsInRound (steps : Steps σ) (wave : Numbering × σ)
    (ends : (before round : List Asked) → Prop) : Prop where
  unloaded : (waveLoaded steps wave).any Asked.isFailed = true → ends [] (waveLoaded steps wave)
  unscanned : (waveLoaded steps wave).any Asked.isFailed = false →
    (waveScanned steps wave).any Asked.isFailed = true →
    ends (waveLoaded steps wave) (waveScanned steps wave)
  unresolved : (waveLoaded steps wave).any Asked.isFailed = false →
    (waveScanned steps wave).any Asked.isFailed = false →
    (waveImports steps wave).any Asked.isFailed = true →
    ends (waveLoaded steps wave ++ waveScanned steps wave) (waveImports steps wave)


theorem EndsInRound.imp {wave : Numbering × σ} {ends others : (before round : List Asked) → Prop}
    (h : EndsInRound steps wave ends)
    (himp : ∀ before round, ends before round → others before round) :
    EndsInRound steps wave others where
  unloaded hloads := himp _ _ (h.unloaded hloads)
  unscanned hloads hscans := himp _ _ (h.unscanned hloads hscans)
  unresolved hloads hscans himports := himp _ _ (h.unresolved hloads hscans himports)

theorem questions_loads {wave : Numbering × σ}
    {result : Except LoadFailure (List (ModuleId × Loaded))} {last : σ}
    (hload : loadWave steps wave.1.wave wave.2 = some (result, last)) :
    (waveLoaded steps wave).map Asked.question = wave.1.wave.map .load := by
  obtain ⟨results, hresults, _⟩ := loadWave_eq hload
  have hends : ∀ visit ∈ waveLoads steps wave,
      (loadAsked steps visit).map Asked.question = [.load visit.1] := by
    intro visit hvisit
    obtain ⟨result, _, next, hresult⟩ :=
      exists_left_of_forall₂ (forEach?_visits hresults).flip hvisit
    rw [loadOne, Option.map_eq_some_iff] at hresult
    obtain ⟨given, hgiven, _⟩ := hresult
    rw [loadAsked, hgiven]
    rfl
  rw [waveLoaded, List.map_flatMap, List.flatMap_congr hends, ← visits?_fst hresults, List.map_map,
    List.map_eq_flatMap]
  rfl

theorem loads_leadTo {wave : Numbering × σ} {loaded : List (ModuleId × Loaded)} {last : σ}
    (hload : loadWave steps wave.1.wave wave.2 = some (.ok loaded, last)) :
    (waveLoaded steps wave).flatMap Asked.leadsTo =
      loaded.map fun item => .scan item.1 item.2 := by
  obtain ⟨results, hresults, hconclude⟩ := loadWave_eq hload
  have hvisits := forEach?_visits hresults
  rw [(concludeWave_eq_ok hconclude.symm).2, List.forall₂_map_right_iff] at hvisits
  rw [waveLoaded, List.flatMap_assoc, List.map_eq_flatMap]
  apply flatMap_eq_of_forall₂ hvisits
  rintro visit item ⟨next, hitem⟩
  obtain ⟨hid, hloaded⟩ := loadOne_eq_ok hitem
  rw [loadAsked, hloaded, hid]
  rfl

theorem questions_scans (loaded : List (ModuleId × Loaded)) (state : σ) :
    ((visits (scanOne steps) loaded state).flatMap (scanAsked steps)).map Asked.question =
      loaded.map fun item => .scan item.1 item.2 := by
  rw [List.map_flatMap]
  conv_rhs => rw [← visits_fst (scanOne steps) loaded state, List.map_map, List.map_eq_flatMap]
  rfl

theorem scans_leadTo {loaded : List (ModuleId × Loaded)} {state last : σ} {modules : List Module}
    (hscan : scanWave steps loaded state = (.ok modules, last)) :
    ((visits (scanOne steps) loaded state).flatMap (scanAsked steps)).flatMap Asked.leadsTo =
      modules.flatMap fun module => module.content.questions module.id := by
  have hscanned : (scanWave steps loaded state).1 = .ok modules := by rw [hscan]
  have hmodules := scanWave_eq_ok hscanned
  rw [forEach_eq_visits, ← List.forall₂_eq_eq_eq, List.forall₂_map_left_iff,
    List.forall₂_map_right_iff] at hmodules
  rw [List.flatMap_assoc]
  apply flatMap_eq_of_forall₂ hmodules
  intro visit module hmodule
  obtain ⟨hid, _, _, hcontent⟩ := scanOne_eq_ok hmodule
  rw [scanAsked, hcontent, hid]
  exact List.append_nil _

theorem questions_imports (modules : List Module) (state : σ) :
    ((visits (resolveOne steps) modules state).flatMap (importsAsked steps)).map Asked.question =
      modules.flatMap fun module => module.content.questions module.id := by
  have hone : ∀ visit : Module × σ, (importsAsked steps visit).map Asked.question =
      visit.1.content.questions visit.1.id := by
    intro visit
    rw [importsAsked, ModuleContent.questions, List.map_map]
    conv_rhs => rw [← visits_fst (resolveRecord steps visit.1.id) visit.1.content.records visit.2,
      List.map_map]
    rfl
  rw [List.map_flatMap]
  conv_rhs => rw [← visits_fst (resolveOne steps) modules state, List.flatMap_map]
  simp only [hone]

/-- A round that is not the last one has no failure, and it is followed by the questions that its
answers lead to. -/
theorem asksInTurn_of_runWave {wave : Numbering × σ}
    {result : Except LoadFailure (List Module × Numbering)} {last : σ}
    (hrun : runWave steps wave.1 wave.2 = some (result, last))
    (hkept : result ≠ .error .cancelled) : AsksInTurn steps wave := by
  cases waveEnds_of_runWave hrun with
  | loading hload =>
      have hfailed := (gives_loadWave hload (by simpa using hkept)).of_error.1
      refine ⟨questions_loads hload, ?_, ?_⟩ <;> simp [hfailed]
  | scanning hload hscan =>
      have hscanned := gives_scanWave hload
      rw [hscan] at hscanned
      refine ⟨questions_loads hload, fun _ => ?_, ?_⟩
      · rw [waveScanned_eq hload, questions_scans, loads_leadTo hload]
      · simp [hscanned.of_error.1]
  | resolving hload hscan =>
      refine ⟨questions_loads hload, fun _ => ?_, fun _ _ => ?_⟩
      · rw [waveScanned_eq hload, questions_scans, loads_leadTo hload]
      · rw [waveImports_eq hload hscan, questions_imports, waveScanned_eq hload,
          scans_leadTo hscan]

/-- The first round in which something fails is the last one, and the wave fails with all reports
of this round. -/
theorem endsInRound_of_runWave {wave : Numbering × σ}
    {result : Except LoadFailure (List Module × Numbering)} {last : σ}
    (hrun : runWave steps wave.1 wave.2 = some (result, last))
    (hkept : result ≠ .error .cancelled) :
    EndsInRound steps wave fun before round =>
      result = .error (.reports (round.flatMap Asked.reports)) ∧
        askedIn steps wave = before ++ round := by
  have hasked := askedIn_of_runWave hrun
  cases waveEnds_of_runWave hrun with
  | loading hload =>
      obtain ⟨hfailed, rfl⟩ := (gives_loadWave hload (by simpa using hkept)).of_error
      have hscans : waveScanned steps wave = [] := by simp [waveScanned, waveScans, hload]
      have himports : waveImports steps wave = [] := by simp [waveImports, waveResolves, hload]
      rw [hscans, himports, List.append_nil, List.append_nil] at hasked
      refine ⟨fun _ => ⟨rfl, hasked⟩, ?_, ?_⟩ <;> simp [hfailed]
  | scanning hload hscan =>
      have hloads := (gives_loadWave hload (by simp)).of_ok
      have hscanned := gives_scanWave hload
      rw [hscan] at hscanned
      obtain ⟨hfailed, rfl⟩ := hscanned.of_error
      have himports : waveImports steps wave = [] := by
        simp [waveImports, waveResolves, hload, hscan]
      rw [himports, List.append_nil] at hasked
      refine ⟨?_, fun _ _ => ⟨rfl, hasked⟩, ?_⟩ <;> simp [hloads, hfailed]
  | @resolving loaded loadedAt modules scannedAt hload hscan =>
      have hloads := (gives_loadWave hload (by simp)).of_ok
      have hscanned := gives_scanWave hload
      rw [hscan] at hscanned
      have hresolve : Gives (waveImports steps wave) (resolveWave steps modules scannedAt).1 := by
        apply gives_resolveWave hload hscan
        intro hcancelled
        exact hkept (by rw [hcancelled]; rfl)
      refine ⟨by simp [hloads], by simp [hscanned.of_ok], fun _ _ hfailed => ⟨?_, hasked⟩⟩
      rw [Gives, if_pos hfailed] at hresolve
      rw [hresolve]
      rfl

/-! ## Rounds of a search -/

theorem runWave_ne_none_of_wave {limit : Nat} {numbering : Numbering} {state : σ}
    {wave : Numbering × σ} (hwave : wave ∈ waves steps limit numbering state)
    (hrun : runWaves steps limit numbering state ≠ none) : runWave steps wave.1 wave.2 ≠ none := by
  induction limit generalizing numbering state with
  | zero =>
      rw [waves] at hwave
      split at hwave <;> cases hwave
  | succ limit ih =>
      by_cases hempty : numbering.wave.isEmpty = true
      · rw [waves_of_isEmpty _ _ hempty] at hwave
        cases hwave
      · rw [waves_succ _ _ hempty, List.mem_cons] at hwave
        rw [runWaves_succ _ _ hempty] at hrun
        rcases hwave with rfl | hlater
        · intro hnone
          simp only [hnone] at hrun
          exact hrun rfl
        · split at hlater
          · rename_i modules next reached hfollowed
            rw [hfollowed] at hrun
            apply ih hlater
            intro hnone
            simp only [hnone] at hrun
            exact hrun rfl
          · cases hlater

/-- A wave that fails is the last one. -/
theorem waves_eq_concat {limit : Nat} {numbering : Numbering} {state last : σ}
    {wave : Numbering × σ} {failure : LoadFailure}
    (hwave : wave ∈ waves steps limit numbering state)
    (hrun : runWave steps wave.1 wave.2 = some (.error failure, last)) :
    ∃ earlier, waves steps limit numbering state = earlier ++ [wave] := by
  induction limit generalizing numbering state with
  | zero =>
      rw [waves] at hwave
      split at hwave <;> cases hwave
  | succ limit ih =>
      by_cases hempty : numbering.wave.isEmpty = true
      · rw [waves_of_isEmpty _ _ hempty] at hwave
        cases hwave
      · rw [waves_succ _ _ hempty, List.mem_cons] at hwave
        rw [waves_succ _ _ hempty]
        rcases hwave with rfl | hlater
        · refine ⟨[], ?_⟩
          rw [hrun]
          rfl
        · split at hlater
          · rename_i modules next reached hfollowed
            obtain ⟨earlier, hearlier⟩ := ih hlater
            refine ⟨(numbering, state) :: earlier, ?_⟩
            rw [hearlier]
            rfl
          · cases hlater

/-- The waves of a search ask one after the other. -/
theorem runWaves_noted (limit : Nat) (numbering : Numbering) (state : σ) (log : List Asked) :
    runWaves steps.logged limit numbering (state, log) =
      (runWaves steps limit numbering state).map fun given => (given.1, given.2,
        log ++ (waves steps limit numbering state).flatMap (askedIn steps)) := by
  induction limit generalizing numbering state log with
  | zero =>
      by_cases hempty : numbering.wave.isEmpty = true
      · simp [runWaves_of_isEmpty _ _ hempty, waves_of_isEmpty _ _ hempty]
      · rw [runWaves_zero _ hempty, runWaves_zero _ hempty]
        rfl
  | succ limit ih =>
      by_cases hempty : numbering.wave.isEmpty = true
      · simp [runWaves_of_isEmpty _ _ hempty, waves_of_isEmpty _ _ hempty]
      · rw [runWaves_succ _ _ hempty, runWaves_succ _ _ hempty, waves_succ _ _ hempty,
          List.flatMap_cons, runWave_noted (numbering, state) log]
        cases hrun : runWave steps numbering state with
        | none => rfl
        | some given =>
            rw [← askedIn_of_runWave hrun]
            obtain ⟨_ | ⟨modules, next⟩, reached⟩ := given
            · simp
            · simp only [Option.map_some]
              rw [ih]
              generalize runWaves steps limit next reached = later
              rcases later with _ | ⟨_ | found, final⟩ <;> simp

/-- Everything that a search asks, in order. -/
def askedBy (steps : Steps σ) (limit : Nat) (entries : List (Option String × Resolved))
    (state : σ) : List Asked :=
  match load steps.logged limit entries (state, []) with
  | some (_, _, log) => log
  | none => []

section Searches

variable {limit : Nat} {entries : List (Option String × Resolved)} {state last : σ}
  {result : Except LoadFailure Graph}

theorem askedBy_eq (hload : load steps limit entries state = some (result, last)) :
    askedBy steps limit entries state =
      (wavesOf steps limit entries state).flatMap (askedIn steps) := by
  rw [load_eq_search, search] at hload
  dsimp only at hload
  rw [askedBy, load_eq_search, search, wavesOf]
  dsimp only
  rw [runWaves_noted]
  generalize runWaves steps limit (numberAll (entries.map Prod.snd) {}).2 state = run at hload ⊢
  rcases run with _ | ⟨_ | modules, reached⟩
  · cases hload
  · rfl
  · rfl

/-- A wave of a search that is not cancelled comes to its end, and the search fails if the wave
does. -/
theorem runWave_of_load (hload : load steps limit entries state = some (result, last))
    (hkept : result ≠ .error .cancelled) {wave : Numbering × σ}
    (hwave : wave ∈ wavesOf steps limit entries state) :
    ∃ found reached, runWave steps wave.1 wave.2 = some (found, reached) ∧
      ∀ failure, found = .error failure → result = .error failure := by
  rw [load_eq_search, search] at hload
  dsimp only at hload
  have hrun : runWaves steps limit (numberAll (entries.map Prod.snd) {}).2 state ≠ none := by
    intro hnone
    simp [hnone] at hload
  obtain ⟨⟨found, reached⟩, hfound⟩ :=
    Option.ne_none_iff_exists'.mp (runWave_ne_none_of_wave hwave hrun)
  refine ⟨found, reached, hfound, ?_⟩
  rintro failure rfl
  rw [runWaves_of_wave hwave hfound] at hload
  cases hload
  rfl

/-- A search that is not cancelled fails with the first round in which something fails, and asks
nothing after it. -/
theorem endsInRound_of_load (hload : load steps limit entries state = some (result, last))
    (hkept : result ≠ .error .cancelled) {wave : Numbering × σ}
    (hwave : wave ∈ wavesOf steps limit entries state) :
    AsksInTurn steps wave ∧
      EndsInRound steps wave fun before round =>
        result = .error (.reports (round.flatMap Asked.reports)) ∧
          ∃ earlier, wavesOf steps limit entries state = earlier ++ [wave] ∧
            askedBy steps limit entries state =
              earlier.flatMap (askedIn steps) ++ before ++ round := by
  obtain ⟨found, reached, hfound, hfails⟩ := runWave_of_load hload hkept hwave
  have hnotCancelled : found ≠ .error .cancelled := fun hcancelled =>
    hkept (hfails .cancelled hcancelled)
  refine ⟨asksInTurn_of_runWave hfound hnotCancelled, ?_⟩
  apply (endsInRound_of_runWave hfound hnotCancelled).imp
  rintro before round ⟨rfl, hasked⟩
  obtain ⟨earlier, hearlier⟩ := waves_eq_concat hwave hfound
  refine ⟨hfails _ rfl, earlier, hearlier, ?_⟩
  rw [askedBy_eq hload, wavesOf, hearlier, List.flatMap_append, List.flatMap_singleton, hasked,
    List.append_assoc]

end Searches

/-! ## Failures have reports -/

/-- The scans of a search do not fail without a report. -/
def ScansSay (steps : Steps σ) : Prop :=
  ∀ id loaded state, (steps.scan id loaded state).1 ≠ .error []

theorem scan_not_mem_askedIn (hsay : ScansSay steps) {wave : Numbering × σ}
    {result : Except LoadFailure (List Module × Numbering)} {last : σ}
    (hrun : runWave steps wave.1 wave.2 = some (result, last)) (id : ModuleId) (loaded : Loaded) :
    .scan id loaded (.error []) ∉ askedIn steps wave := by
  intro hmember
  rw [askedIn_of_runWave hrun, List.mem_append, List.mem_append] at hmember
  rcases hmember with (hload | hscan) | himport
  · obtain ⟨visit, _, hvisit⟩ := List.mem_flatMap.mp hload
    rw [loadAsked] at hvisit
    split at hvisit <;> simp at hvisit
  · obtain ⟨visit, _, hvisit⟩ := List.mem_flatMap.mp hscan
    rw [scanAsked, List.mem_singleton, Asked.scan.injEq] at hvisit
    exact hsay _ _ _ hvisit.2.2.symm
  · obtain ⟨visit, _, hvisit⟩ := List.mem_flatMap.mp himport
    obtain ⟨asked, _, heq⟩ := List.mem_map.mp hvisit
    cases heq

/-- The reports of a wave that fails are those of a round in which something fails. -/
theorem exists_round_of_error {wave : Numbering × σ} {reports : List Report} {last : σ}
    (hrun : runWave steps wave.1 wave.2 = some (.error (.reports reports), last)) :
    ∃ round, round ⊆ askedIn steps wave ∧ round.any Asked.isFailed = true ∧
      reports = round.flatMap Asked.reports := by
  rw [askedIn_of_runWave hrun]
  generalize hresult : (Except.error (.reports reports) :
    Except LoadFailure (List Module × Numbering)) = result at hrun
  cases waveEnds_of_runWave hrun with
  | loading hload =>
      cases hresult
      obtain ⟨hfailed, hreports⟩ := (gives_loadWave hload (by simp)).of_error
      refine ⟨waveLoaded steps wave, ?_, hfailed, LoadFailure.reports.inj hreports⟩
      exact List.subset_append_of_subset_left _ (List.subset_append_left _ _)
  | scanning hload hscan =>
      cases hresult
      have hscanned := gives_scanWave hload
      rw [hscan] at hscanned
      obtain ⟨hfailed, hreports⟩ := hscanned.of_error
      refine ⟨waveScanned steps wave, ?_, hfailed, LoadFailure.reports.inj hreports⟩
      exact List.subset_append_of_subset_left _ (List.subset_append_right _ _)
  | @resolving loaded loadedAt modules scannedAt hload hscan =>
      have hresolve := @gives_resolveWave σ steps wave loaded modules loadedAt scannedAt hload hscan
      generalize (resolveWave steps modules scannedAt).1 = resolved at hresult hresolve
      cases resolved with
      | ok items => cases hresult
      | error failure =>
          cases hresult
          obtain ⟨hfailed, hreports⟩ := (hresolve (by simp)).of_error
          exact ⟨waveImports steps wave, List.subset_append_right _ _, hfailed,
            LoadFailure.reports.inj hreports⟩

theorem runWave_error_ne_nil (hsay : ScansSay steps) {wave : Numbering × σ}
    {reports : List Report} {last : σ}
    (hrun : runWave steps wave.1 wave.2 = some (.error (.reports reports), last)) :
    reports ≠ [] := by
  obtain ⟨round, hsubset, hfailed, rfl⟩ := exists_round_of_error hrun
  exact reports_ne_nil
    (fun id loaded hmember => scan_not_mem_askedIn hsay hrun id loaded (hsubset hmember)) hfailed

theorem Runs.error_ne_nil (hsay : ScansSay steps) {limit : Nat} {numbering : Numbering}
    {state last : σ} {result : Except LoadFailure (List Module)} {reports : List Report}
    (hruns : Runs steps limit numbering state result last)
    (hresult : result = .error (.reports reports)) : reports ≠ [] := by
  induction hruns with
  | finished => cases hresult
  | @failed _ numbering state _ _ _ hwave =>
      cases hresult
      exact @runWave_error_ne_nil _ _ hsay (numbering, state) _ _ hwave
  | @followed _ _ _ _ _ _ result _ _ _ _ ih =>
      cases result with
      | ok later => cases hresult
      | error failure =>
          cases hresult
          exact ih rfl

/-- A search that fails without being cancelled has something to report. -/
theorem load_error_ne_nil (hsay : ScansSay steps) {limit : Nat}
    {entries : List (Option String × Resolved)} {state last : σ} {reports : List Report}
    (hload : load steps limit entries state = some (.error (.reports reports), last)) :
    reports ≠ [] := by
  rw [load_eq_search, search] at hload
  dsimp only at hload
  cases hrun : runWaves steps limit (numberAll (entries.map Prod.snd) {}).2 state with
  | none => simp [hrun] at hload
  | some given =>
      obtain ⟨_ | modules, reached⟩ := given
      · simp only [hrun, Option.some.injEq, Prod.mk.injEq, Except.error.injEq] at hload
        obtain ⟨rfl, rfl⟩ := hload
        exact (runs_of_runWaves hrun).error_ne_nil hsay rfl
      · simp [hrun] at hload

end Loader

end WebBundle

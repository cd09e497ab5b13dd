import Mathlib.Data.List.Chain
import WebBundle.Proofs.Search.Trace

/-!
# Inside a wave

A wave that is followed by another one has loaded, scanned and resolved all of its
modules.  The state goes through these three parts in turn, so what is known of
each part gives what is known of the wave.
-/

namespace WebBundle.Loader

section Lists

variable {α β σ : Type}

theorem forEach_keeps (action : α → σ → β × σ) (invariant : σ → Prop)
    (haction : ∀ item state, invariant state → invariant (action item state).2)
    (items : List α) {state : σ} (hstart : invariant state) :
    invariant (forEach action items state).2 := by
  induction items generalizing state with
  | nil => exact hstart
  | cons item rest ih => exact ih (haction item state hstart)

theorem forEach?_keeps {action : α → σ → Option (β × σ)} (invariant : σ → Prop)
    {items : List α} {state : σ}
    (haction : ∀ visit ∈ visits? action items state, ∀ result next, invariant visit.2 →
      action visit.1 visit.2 = some (result, next) → invariant next)
    (hstart : invariant state) {results : List β} {last : σ}
    (hresults : forEach? action items state = some (results, last)) : invariant last := by
  induction items generalizing state results last with
  | nil =>
      cases hresults
      exact hstart
  | cons item rest ih =>
      rw [forEach?] at hresults
      rw [visits?, List.forall_mem_cons] at haction
      cases hitem : action item state with
      | none => simp [hitem] at hresults
      | some given =>
          obtain ⟨result, next⟩ := given
          simp only [hitem] at hresults haction
          cases hrest : forEach? action rest next with
          | none => simp [hrest] at hresults
          | some later =>
              obtain ⟨found, final⟩ := later
              simp only [hrest, Option.some.injEq, Prod.mk.injEq] at hresults
              obtain ⟨_, rfl⟩ := hresults
              exact ih haction.2 (haction.1 result next hstart rfl) hrest

theorem collect_eq_ok {ε : Type} {results : List (Except ε α)} {values : List α}
    (hcollect : collect results = .ok values) : results = values.map .ok := by
  induction results generalizing values with
  | nil =>
      cases hcollect
      rfl
  | cons result rest ih =>
      cases result with
      | error failure =>
          rw [collect] at hcollect
          split at hcollect <;> cases hcollect
      | ok value =>
          rw [collect] at hcollect
          cases hrest : collect rest with
          | error failures =>
              rw [hrest] at hcollect
              cases hcollect
          | ok later =>
              rw [hrest] at hcollect
              cases hcollect
              rw [List.map_cons, ih hrest]

theorem forEach_length (action : α → σ → β × σ) (items : List α) (state : σ) :
    (forEach action items state).1.length = items.length := by
  induction items generalizing state with
  | nil => rfl
  | cons item rest ih =>
      change (_ :: _).length = _
      rw [List.length_cons, List.length_cons, ih]

/-- What `forEach` gives is what the action does at each visit. -/
theorem forEach_eq_visits (action : α → σ → β × σ) (items : List α) (state : σ) :
    (forEach action items state).1 =
      (visits action items state).map fun visit => (action visit.1 visit.2).1 := by
  induction items generalizing state with
  | nil => rfl
  | cons item rest ih =>
      change _ :: _ = _
      rw [ih]
      rfl

theorem visits_fst (action : α → σ → β × σ) (items : List α) (state : σ) :
    (visits action items state).map Prod.fst = items := by
  induction items generalizing state with
  | nil => rfl
  | cons item rest ih =>
      rw [visits, List.map_cons, ih]

end Lists

variable {σ : Type} {steps : Steps σ}

theorem loadWave_eq {wave : List Resolved} {state last : σ}
    {result : Except LoadFailure (List (ModuleId × Loaded))}
    (hload : loadWave steps wave state = some (result, last)) :
    ∃ results, forEach? (loadOne steps) wave state = some (results, last) ∧
      result = concludeWave steps results last := by
  rw [loadWave, Option.map_eq_some_iff] at hload
  obtain ⟨⟨results, reached⟩, hresults, heq⟩ := hload
  cases heq
  exact ⟨results, hresults, rfl⟩

theorem concludeWave_eq_ok {α : Type} {results : List (Except Report α)} {state : σ}
    {values : List α} (hconclude : concludeWave steps results state = .ok values) :
    steps.isCancelled state = false ∧ results = values.map .ok := by
  rw [concludeWave] at hconclude
  split at hconclude
  · cases hconclude
  · rename_i hcancelled
    refine ⟨by simpa using hcancelled, ?_⟩
    cases hcollect : collect results with
    | error reports =>
        rw [hcollect] at hconclude
        cases hconclude
    | ok found =>
        rw [hcollect] at hconclude
        cases hconclude
        exact collect_eq_ok hcollect

theorem scanWave_snd (steps : Steps σ) (loaded : List (ModuleId × Loaded)) (state : σ) :
    (scanWave steps loaded state).2 = (forEach (scanOne steps) loaded state).2 := by
  rw [scanWave]
  generalize forEach (scanOne steps) loaded state = done
  obtain ⟨results, last⟩ := done
  dsimp only
  split <;> rfl

theorem scanWave_eq_ok {loaded : List (ModuleId × Loaded)} {state : σ} {modules : List Module}
    (hscan : (scanWave steps loaded state).1 = .ok modules) :
    (forEach (scanOne steps) loaded state).1 = modules.map .ok := by
  rw [scanWave] at hscan
  generalize forEach (scanOne steps) loaded state = done at hscan ⊢
  obtain ⟨results, last⟩ := done
  dsimp only at hscan ⊢
  cases hcollect : collect results with
  | error reports =>
      rw [hcollect] at hscan
      cases hscan
  | ok found =>
      rw [hcollect] at hscan
      cases hscan
      exact collect_eq_ok hcollect

theorem resolveWave_snd (steps : Steps σ) (modules : List Module) (state : σ) :
    (resolveWave steps modules state).2 = (forEach (resolveOne steps) modules state).2 := by
  rw [resolveWave]
  generalize forEach (resolveOne steps) modules state = done
  obtain ⟨results, last⟩ := done
  dsimp only
  split
  · rfl
  · split <;> rfl

theorem resolveWave_eq_ok {modules : List Module} {state : σ}
    {resolved : List (Module × List Resolved)}
    (hresolve : (resolveWave steps modules state).1 = .ok resolved) :
    (forEach (resolveOne steps) modules state).1 = resolved.map .ok := by
  rw [resolveWave] at hresolve
  generalize forEach (resolveOne steps) modules state = done at hresolve ⊢
  obtain ⟨results, last⟩ := done
  dsimp only at hresolve ⊢
  split at hresolve
  · cases hresolve
  · cases hcollect : collect results with
    | error reports =>
        rw [hcollect] at hresolve
        cases hresolve
    | ok found =>
        rw [hcollect] at hresolve
        cases hresolve
        exact collect_eq_ok hcollect

/-- What a wave that is followed by another one has done. -/
structure WaveDone (steps : Steps σ) (numbering : Numbering) (state : σ) (modules : List Module)
    (next : Numbering) (last : σ) where
  loaded : List (ModuleId × Loaded)
  loadedAt : σ
  scanned : List Module
  resolved : List (Module × List Resolved)
  load_eq : loadWave steps numbering.wave state = some (.ok loaded, loadedAt)
  scan_eq : (forEach (scanOne steps) loaded loadedAt).1 = scanned.map .ok
  resolve_eq : (forEach (resolveOne steps) scanned
    (forEach (scanOne steps) loaded loadedAt).2).1 = resolved.map .ok
  last_eq : last = (forEach (resolveOne steps) scanned
    (forEach (scanOne steps) loaded loadedAt).2).2
  number_eq : numberWave resolved { numbering with wave := [] } = (modules, next)

theorem runWave_eq_ok {numbering next : Numbering} {state last : σ} {modules : List Module}
    (hrun : runWave steps numbering state = some (.ok (modules, next), last)) :
    Nonempty (WaveDone steps numbering state modules next last) := by
  rw [runWave_eq] at hrun
  cases hload : loadWave steps numbering.wave state with
  | none => simp [hload] at hrun
  | some given =>
      obtain ⟨answer, loadedAt⟩ := given
      cases answer with
      | error failure => simp [hload] at hrun
      | ok loaded =>
          simp only [hload] at hrun
          cases hscan : scanWave steps loaded loadedAt with
          | mk scanned scannedAt =>
              rw [hscan] at hrun
              have hstate := scanWave_snd steps loaded loadedAt
              rw [hscan] at hstate
              cases scanned with
              | error failure => cases hrun
              | ok scanned =>
                  cases hresolve : resolveWave steps scanned scannedAt with
                  | mk resolved resolvedAt =>
                      have hend := resolveWave_snd steps scanned scannedAt
                      simp only [hresolve] at hrun hend
                      cases resolved with
                      | error failure => cases hrun
                      | ok resolved =>
                          simp only [Option.some.injEq, Prod.mk.injEq, Except.ok.injEq] at hrun
                          obtain ⟨hnumber, rfl⟩ := hrun
                          simp only at hstate
                          subst hstate
                          exact ⟨⟨loaded, loadedAt, scanned, resolved, hload,
                            scanWave_eq_ok (congrArg Prod.fst hscan),
                            resolveWave_eq_ok (congrArg Prod.fst hresolve), hend, hnumber⟩⟩

/-- How a search ends: it has nothing to do, or its first wave fails, or its first wave is
followed by a search that ends. -/
inductive Runs (steps : Steps σ) :
    Nat → Numbering → σ → Except LoadFailure (List Module) → σ → Prop
  | finished {limit numbering state} (hempty : numbering.wave.isEmpty = true) :
      Runs steps limit numbering state (.ok []) state
  | failed {limit numbering state failure last} (hempty : ¬ numbering.wave.isEmpty = true)
      (hwave : runWave steps numbering state = some (.error failure, last)) :
      Runs steps (limit + 1) numbering state (.error failure) last
  | followed {limit numbering state modules next reached result last}
      (hempty : ¬ numbering.wave.isEmpty = true)
      (hwave : runWave steps numbering state = some (.ok (modules, next), reached))
      (hrest : Runs steps limit next reached result last) :
      Runs steps (limit + 1) numbering state (result.map (modules ++ ·)) last

theorem runs_of_runWaves {limit : Nat} {numbering : Numbering} {state last : σ}
    {result : Except LoadFailure (List Module)}
    (hrun : runWaves steps limit numbering state = some (result, last)) :
    Runs steps limit numbering state result last := by
  induction limit generalizing numbering state result with
  | zero =>
      by_cases hempty : numbering.wave.isEmpty = true
      · rw [runWaves_of_isEmpty _ _ hempty] at hrun
        cases hrun
        exact .finished hempty
      · rw [runWaves_zero _ hempty] at hrun
        cases hrun
  | succ limit ih =>
      by_cases hempty : numbering.wave.isEmpty = true
      · rw [runWaves_of_isEmpty _ _ hempty] at hrun
        cases hrun
        exact .finished hempty
      · rw [runWaves_succ _ _ hempty] at hrun
        cases hwave : runWave steps numbering state with
        | none => simp [hwave] at hrun
        | some given =>
            obtain ⟨answer, reached⟩ := given
            cases answer with
            | error failure =>
                simp only [hwave, Option.some.injEq, Prod.mk.injEq] at hrun
                obtain ⟨rfl, rfl⟩ := hrun
                exact .failed hempty hwave
            | ok answer =>
                obtain ⟨modules, next⟩ := answer
                simp only [hwave] at hrun
                cases hrest : runWaves steps limit next reached with
                | none => simp [hrest] at hrun
                | some given =>
                    obtain ⟨later, final⟩ := given
                    have hjoined : some (later.map (modules ++ ·), final) = some (result, last) := by
                      rw [← hrun, hrest]
                      cases later <;> rfl
                    cases hjoined
                    exact .followed hempty hwave (ih hrest)

/-- One wave follows another one. -/
def Next (steps : Steps σ) (wave next : Numbering × σ) : Prop :=
  ∃ modules, runWave steps wave.1 wave.2 = some (.ok (modules, next.1), next.2)

/-- The waves of a search follow each other. -/
theorem isChain_waves (limit : Nat) (numbering : Numbering) (state : σ) :
    (waves steps limit numbering state).IsChain (Next steps) := by
  induction limit generalizing numbering state with
  | zero =>
      rw [waves]
      split <;> exact .nil
  | succ limit ih =>
      by_cases hempty : numbering.wave.isEmpty = true
      · rw [waves_of_isEmpty _ state hempty]
        exact .nil
      · rw [waves_succ limit state hempty]
        split
        · rename_i modules next last hrun
          have htail := ih next last
          by_cases hend : next.wave.isEmpty = true
          · rw [waves_of_isEmpty limit last hend]
            exact .singleton _
          · cases limit with
            | zero =>
                rw [waves_zero last hend]
                exact .singleton _
            | succ limit =>
                rw [waves_succ limit last hend] at htail ⊢
                exact .cons_cons ⟨modules, hrun⟩ htail
        · exact .singleton _

end WebBundle.Loader

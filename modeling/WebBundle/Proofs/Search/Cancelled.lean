import WebBundle.Proofs.Search.Reached

/-!
# Searches that are cancelled

A search is cancelled only in a state that says so.  If scanning leaves what the state says, a
search that ends otherwise ends in a state that is not cancelled, and modules are scanned in such
states alone.
-/

namespace WebBundle.Loader

variable {σ : Type} {steps : Steps σ}

/-- A search that is cancelled ends in a cancelled state. -/
theorem isCancelled_of_load {limit : Nat} {entries : List (Option String × Resolved)}
    {state last : σ} (hload : load steps limit entries state = some (.error .cancelled, last)) :
    steps.isCancelled last = true := by
  obtain ⟨noted, hnoted, rfl, _⟩ := (simulates_logged steps).load_corresponds (Nat.le_refl limit)
    entries state (state, []) (.always _) rfl hload
  rw [load_eq_search] at hnoted
  exact search_excused hnoted

section Scans

variable (hscan : ∀ id loaded state,
  steps.isCancelled (steps.scan id loaded state).2 = steps.isCancelled state)
include hscan

theorem isCancelled_scanOne (item : ModuleId × Loaded) (state : σ) :
    steps.isCancelled (scanOne steps item state).2 = steps.isCancelled state :=
  hscan item.1 item.2 state

theorem isCancelled_scanWave (loaded : List (ModuleId × Loaded)) {state : σ}
    (hstate : steps.isCancelled state = false) :
    steps.isCancelled (scanWave steps loaded state).2 = false := by
  rw [scanWave_snd]
  exact forEach_keeps (scanOne steps) (fun state => steps.isCancelled state = false)
    (fun item state hstate => (isCancelled_scanOne hscan item state).trans hstate) loaded hstate

/-- A wave that is not cancelled ends in a state that is not. -/
theorem not_isCancelled_of_runWave {numbering : Numbering} {state last : σ}
    {result : Except LoadFailure (List Module × Numbering)}
    (hrun : runWave steps numbering state = some (result, last))
    (hresult : result ≠ .error .cancelled) : steps.isCancelled last = false := by
  rw [runWave_eq] at hrun
  cases hload : loadWave steps numbering.wave state with
  | none => simp [hload] at hrun
  | some given =>
      obtain ⟨answer, loadedAt⟩ := given
      obtain ⟨results, _, hconclude⟩ := loadWave_eq hload
      cases answer with
      | error failure =>
          simp only [hload] at hrun
          cases hrun
          rw [concludeWave] at hconclude
          split at hconclude
          · cases hconclude
            exact absurd rfl hresult
          · rename_i hcancelled
            exact Bool.eq_false_iff.mpr hcancelled
      | ok loaded =>
          have hscanned := isCancelled_scanWave hscan loaded (concludeWave_eq_ok hconclude.symm).1
          simp only [hload] at hrun
          generalize scanWave steps loaded loadedAt = scanned at hrun hscanned
          obtain ⟨scanned, scannedAt⟩ := scanned
          cases scanned with
          | error failure =>
              cases hrun
              exact hscanned
          | ok modules =>
              dsimp only at hrun
              rw [resolveWave] at hrun
              generalize forEach (resolveOne steps) modules scannedAt = done at hrun
              obtain ⟨results, resolvedAt⟩ := done
              dsimp only at hrun
              by_cases hcancelled : steps.isCancelled resolvedAt = true
              · rw [if_pos hcancelled] at hrun
                cases hrun
                exact absurd rfl hresult
              · rw [if_neg hcancelled] at hrun
                cases hcollect : collect results with
                | error reports =>
                    rw [hcollect] at hrun
                    cases hrun
                    exact Bool.eq_false_iff.mpr hcancelled
                | ok resolved =>
                    rw [hcollect] at hrun
                    cases hrun
                    exact Bool.eq_false_iff.mpr hcancelled

/-- A search that begins in a state that is not cancelled, and is not cancelled, ends in one. -/
theorem Runs.not_isCancelled {limit : Nat} {numbering : Numbering} {state last : σ}
    {result : Except LoadFailure (List Module)}
    (hruns : Runs steps limit numbering state result last)
    (hstate : steps.isCancelled state = false) (hresult : result ≠ .error .cancelled) :
    steps.isCancelled last = false := by
  induction hruns with
  | finished => exact hstate
  | failed _ hwave =>
      refine not_isCancelled_of_runWave hscan hwave fun hfailure => hresult ?_
      cases hfailure
      rfl
  | followed _ hwave _ ih =>
      refine ih (not_isCancelled_of_runWave hscan hwave (by simp)) fun hfailure => hresult ?_
      rw [hfailure]
      rfl

theorem not_isCancelled_of_load {limit : Nat} {entries : List (Option String × Resolved)}
    {state last : σ} {result : Except LoadFailure Graph}
    (hload : load steps limit entries state = some (result, last))
    (hstate : steps.isCancelled state = false) (hresult : result ≠ .error .cancelled) :
    steps.isCancelled last = false := by
  rw [load_eq_search, search] at hload
  dsimp only at hload
  cases hrun : runWaves steps limit (numberAll (entries.map Prod.snd) {}).2 state with
  | none => simp [hrun] at hload
  | some given =>
      obtain ⟨answer, reached⟩ := given
      cases answer with
      | error failure =>
          simp only [hrun, Option.some.injEq, Prod.mk.injEq] at hload
          obtain ⟨rfl, rfl⟩ := hload
          refine (runs_of_runWaves hrun).not_isCancelled hscan hstate fun hfailure => hresult ?_
          cases hfailure
          rfl
      | ok modules =>
          simp only [hrun, Option.some.injEq, Prod.mk.injEq] at hload
          obtain ⟨rfl, rfl⟩ := hload
          exact (runs_of_runWaves hrun).not_isCancelled hscan hstate (by simp)

/-- Modules are scanned in states that are not cancelled. -/
theorem not_isCancelled_of_mem_scans {limit : Nat} {entries : List (Option String × Resolved)}
    {state : σ} : ∀ visit ∈ scans steps limit entries state, steps.isCancelled visit.2 = false := by
  intro visit hvisit
  obtain ⟨wave, _, hvisit⟩ := List.mem_flatMap.mp hvisit
  rw [waveScans] at hvisit
  split at hvisit
  · rename_i loaded loadedAt hload
    obtain ⟨results, _, hconclude⟩ := loadWave_eq hload
    exact visits_keep (fun item state hstate => (isCancelled_scanOne hscan item state).trans hstate)
      loaded (concludeWave_eq_ok hconclude.symm).1 visit hvisit
  · exact absurd hvisit List.not_mem_nil

end Scans

end WebBundle.Loader

import WebBundle.Proofs.Search.Log

/-!
# Searches that fail

A search has no reports of its own.  Each report that it fails with was the answer to a
question in its log; if there is none, the search was cancelled.
-/

namespace WebBundle.Loader

variable {σ : Type} {steps : Steps σ}

/-- Every report comes from a question in the log. -/
def Blamed (log : List Asked) (reports : List Report) : Prop :=
  ∀ report ∈ reports, ∃ asked ∈ log, report ∈ asked.reports

/-- What is known of a search that fails: its parts gave the reports, or it was
cancelled. -/
def Excused (steps : Steps σ) (log : List Asked) (last : σ) : LoadFailure → Prop
  | .reports reports => Blamed log reports
  | .cancelled => steps.isCancelled last = true

theorem exists_asked_of_zip {α β : Type} {items : List α} {results : List β}
    (hlength : results.length = items.length) {result : β} (hresult : result ∈ results) :
    ∃ item, (item, result) ∈ items.zip results := by
  have hsecond : (items.zip results).map Prod.snd = results :=
    List.map_snd_zip (Nat.le_of_eq hlength)
  rw [← hsecond, List.mem_map] at hresult
  obtain ⟨⟨item, result⟩, hpair, rfl⟩ := hresult
  exact ⟨item, hpair⟩

theorem excused_loadWave {wave : List Resolved} {state last : σ × List Asked}
    {failure : LoadFailure}
    (hload : loadWave steps.logged wave state = some (.error failure, last)) :
    Excused steps last.2 last.1 failure := by
  obtain ⟨results, hresults, hconclude⟩ := loadWave_eq hload
  have hlog := forEach?_log
    (fun (resolved : Resolved) (result : Except Report (ModuleId × Loaded)) =>
      .load resolved (result.map Prod.snd)) loadOne_log hresults
  rw [concludeWave] at hconclude
  split at hconclude
  · rename_i hcancelled
    cases hconclude
    exact hcancelled
  · split at hconclude
    · cases hconclude
    · rename_i reports hcollect
      cases hconclude
      intro report hreport
      obtain ⟨resolved, hpair⟩ := exists_asked_of_zip (forEach?_length hresults)
        (collect_eq_error hcollect report hreport)
      refine ⟨.load resolved (.error report), ?_, List.mem_singleton_self report⟩
      rw [hlog]
      exact List.mem_append_right _ (List.mem_map_of_mem hpair)

theorem excused_scanWave {loaded : List (ModuleId × Loaded)} {state last : σ × List Asked}
    {failure : LoadFailure}
    (hscan : scanWave steps.logged loaded state = (.error failure, last)) :
    Excused steps last.2 last.1 failure := by
  have hlog := forEach_log_zip (scanOne steps.logged)
    (fun (item : ModuleId × Loaded) (result : Except (List Report) Module) =>
      .scan item.1 item.2 (result.map Module.content)) scanOne_log loaded state
  have hlength := forEach_length (scanOne steps.logged) loaded state
  rw [scanWave] at hscan
  generalize forEach (scanOne steps.logged) loaded state = done at hscan hlog hlength
  obtain ⟨results, reached⟩ := done
  dsimp only at hscan hlog hlength
  cases hcollect : collect results with
  | ok modules =>
      rw [hcollect] at hscan
      cases hscan
  | error failures =>
      rw [hcollect] at hscan
      cases hscan
      intro report hreport
      obtain ⟨reports, hreports, hreport⟩ := List.mem_flatten.mp hreport
      obtain ⟨item, hpair⟩ := exists_asked_of_zip hlength
        (collect_eq_error hcollect reports hreports)
      refine ⟨.scan item.1 item.2 (.error reports), ?_, hreport⟩
      rw [hlog]
      exact List.mem_append_right _ (List.mem_map_of_mem hpair)

theorem blamed_moduleAsked {module : Module} {state : σ × List Asked} {reports : List Report}
    (hresolve : (resolveOne steps.logged module state).1 = .error reports) :
    Blamed (moduleAsked steps.logged module state) reports := by
  rw [resolveOne] at hresolve
  cases hcollect : collect
      (forEach (resolveRecord steps.logged module.id) module.content.records state).1 with
  | ok targets =>
      simp only [hcollect, Except.map] at hresolve
      cases hresolve
  | error failures =>
      simp only [hcollect, Except.map] at hresolve
      cases hresolve
      intro report hreport
      obtain ⟨record, hpair⟩ := exists_asked_of_zip (forEach_length _ _ _)
        (collect_eq_error hcollect report hreport)
      exact ⟨recordAsked module.id record (.error report), List.mem_map_of_mem hpair,
        List.mem_singleton_self report⟩

theorem excused_resolveWave {modules : List Module} {state last : σ × List Asked}
    {failure : LoadFailure}
    (hresolve : resolveWave steps.logged modules state = (.error failure, last)) :
    Excused steps last.2 last.1 failure := by
  have hlog := forEach_log (resolveOne steps.logged) (moduleAsked steps.logged) resolveOne_log
    modules state
  have hresults := forEach_eq_visits (resolveOne steps.logged) modules state
  rw [resolveWave] at hresolve
  generalize forEach (resolveOne steps.logged) modules state = done at hresolve hlog hresults
  obtain ⟨results, reached⟩ := done
  dsimp only at hresolve hlog hresults
  split at hresolve
  · rename_i hcancelled
    cases hresolve
    exact hcancelled
  · cases hcollect : collect results with
    | ok resolved =>
        rw [hcollect] at hresolve
        cases hresolve
    | error failures =>
        rw [hcollect] at hresolve
        cases hresolve
        intro report hreport
        obtain ⟨reports, hreports, hreport⟩ := List.mem_flatten.mp hreport
        have hresult := collect_eq_error hcollect reports hreports
        rw [hresults, List.mem_map] at hresult
        obtain ⟨visit, hvisit, hfailed⟩ := hresult
        obtain ⟨asked, hasked, hgiven⟩ := blamed_moduleAsked hfailed report hreport
        refine ⟨asked, ?_, hgiven⟩
        rw [hlog]
        exact List.mem_append_right _ (List.mem_flatMap.mpr ⟨visit, hvisit, hasked⟩)

theorem excused_runWave {numbering : Numbering} {state last : σ × List Asked}
    {failure : LoadFailure}
    (hrun : runWave steps.logged numbering state = some (.error failure, last)) :
    Excused steps last.2 last.1 failure := by
  rw [runWave_eq] at hrun
  cases hload : loadWave steps.logged numbering.wave state with
  | none => simp [hload] at hrun
  | some given =>
      obtain ⟨answer, loadedAt⟩ := given
      cases answer with
      | error reason =>
          simp only [hload] at hrun
          cases hrun
          exact excused_loadWave hload
      | ok loaded =>
          simp only [hload] at hrun
          cases hscan : scanWave steps.logged loaded loadedAt with
          | mk scanned scannedAt =>
              rw [hscan] at hrun
              cases scanned with
              | error reason =>
                  cases hrun
                  exact excused_scanWave hscan
              | ok modules =>
                  cases hresolve : resolveWave steps.logged modules scannedAt with
                  | mk resolved resolvedAt =>
                      simp only [hresolve] at hrun
                      cases resolved with
                      | error reason =>
                          cases hrun
                          exact excused_resolveWave hresolve
                      | ok resolved => cases hrun

theorem Runs.excused {limit : Nat} {numbering : Numbering} {state last : σ × List Asked}
    {result : Except LoadFailure (List Module)} {failure : LoadFailure}
    (hruns : Runs steps.logged limit numbering state result last)
    (hresult : result = .error failure) : Excused steps last.2 last.1 failure := by
  induction hruns with
  | finished => cases hresult
  | failed _ hwave =>
      cases hresult
      exact excused_runWave hwave
  | @followed limit numbering state first next reached result last _ _ _ ih =>
      cases result with
      | ok later => cases hresult
      | error reason =>
          cases hresult
          exact ih rfl

/-- A search that fails is excused by its log. -/
theorem search_excused {limit : Nat} {entries : List (Option String × Resolved)}
    {state last : σ × List Asked} {failure : LoadFailure}
    (hsearch : search steps.logged limit entries state = some (.error failure, last)) :
    Excused steps last.2 last.1 failure := by
  rw [search] at hsearch
  dsimp only at hsearch
  cases hrun : runWaves steps.logged limit (numberAll (entries.map Prod.snd) {}).2 state with
  | none => simp [hrun] at hsearch
  | some given =>
      obtain ⟨result, final⟩ := given
      cases result with
      | ok modules => simp [hrun] at hsearch
      | error reason =>
          simp only [hrun, Option.some.injEq, Prod.mk.injEq, Except.error.injEq] at hsearch
          obtain ⟨rfl, rfl⟩ := hsearch
          exact (runs_of_runWaves hrun).excused rfl

end WebBundle.Loader

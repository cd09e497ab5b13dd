import WebBundle.Proofs.Search.Graph

/-!
# Modules that cannot be loaded

All modules of a wave are loaded, whether or not one of them fails, and only then does the search
look at the failures.  So a wave whose loads end, and that is not cancelled, fails with the reports
of all its modules that cannot be loaded, in the order of the modules.
-/

namespace WebBundle.Loader

/-- The failure among the results of an action. -/
def errorOf {ε α : Type} : Except ε α → Option ε
  | .ok _ => none
  | .error failure => some failure

section Lists

variable {ε α β σ : Type}

theorem collect_eq_errors (results : List (Except ε α)) :
    (∃ values, collect results = .ok values ∧ results.filterMap errorOf = []) ∨
      collect results = .error (results.filterMap errorOf) := by
  induction results with
  | nil => exact .inl ⟨[], rfl, rfl⟩
  | cons result rest ih =>
      cases result with
      | ok value =>
          rw [collect, List.filterMap_cons_none rfl]
          rcases ih with ⟨values, hvalues, hnone⟩ | hfailures
          · exact .inl ⟨value :: values, by rw [hvalues]; rfl, hnone⟩
          · exact .inr (by rw [hfailures]; rfl)
      | error failure =>
          have hfirst : errorOf (Except.error failure : Except ε α) = some failure := rfl
          rw [collect, List.filterMap_cons_some hfirst]
          rcases ih with ⟨values, hvalues, hnone⟩ | hfailures
          · exact .inr (by rw [hvalues, hnone])
          · exact .inr (by rw [hfailures])

/-- Results with a failure among them are collected to their failures, in order. -/
theorem collect_of_errors {results : List (Except ε α)}
    (hfailed : results.filterMap errorOf ≠ []) :
    collect results = .error (results.filterMap errorOf) :=
  (collect_eq_errors results).resolve_left fun ⟨_, _, hnone⟩ => hfailed hnone

theorem filterMap_eq_of_forall₂ {γ : Type} {related : α → β → Prop} {first : α → Option γ}
    {second : β → Option γ} {items : List α} {others : List β}
    (h : List.Forall₂ related items others)
    (hsame : ∀ item other, related item other → first item = second other) :
    items.filterMap first = others.filterMap second := by
  induction h with
  | nil => rfl
  | cons hhead _ ih => rw [List.filterMap_cons, List.filterMap_cons, hsame _ _ hhead, ih]

/-- If the action ends on every visit, then so does the whole list, in the state that the last
visit leaves. -/
theorem forEach?_of_visits {action : α → σ → Option (β × σ)} (left : σ → Prop) {items : List α}
    {state : σ} (hvisits : ∀ visit ∈ visits? action items state,
      ∃ result next, action visit.1 visit.2 = some (result, next) ∧ left next)
    (hnonempty : items ≠ []) :
    ∃ results last, forEach? action items state = some (results, last) ∧ left last := by
  induction items generalizing state with
  | nil => exact absurd rfl hnonempty
  | cons item rest ih =>
      rw [visits?, List.forall_mem_cons] at hvisits
      obtain ⟨⟨result, next, hitem, hnext⟩, hrest⟩ := hvisits
      dsimp only at hitem
      simp only [hitem] at hrest
      rw [forEach?, hitem]
      cases rest with
      | nil => exact ⟨[result], next, rfl, hnext⟩
      | cons other rest =>
          obtain ⟨results, last, hresults, hlast⟩ := ih hrest (List.cons_ne_nil other rest)
          exact ⟨result :: results, last, by dsimp only; rw [hresults], hlast⟩

end Lists

variable {σ : Type} {steps : Steps σ}

/-- The report of a module that cannot be loaded. -/
def loadError? (steps : Steps σ) (visit : Resolved × σ) : Option Report :=
  (steps.load visit.1 visit.2).bind fun given => errorOf given.1

/-- Whether the load of a module ends and leaves its search as one that is not cancelled. -/
def loadEnds (steps : Steps σ) (visit : Resolved × σ) : Bool :=
  (steps.load visit.1 visit.2).any fun given => !steps.isCancelled given.2

/-- The reports of the modules of a wave that cannot be loaded. -/
def loadErrors (steps : Steps σ) (wave : Numbering × σ) : List Report :=
  (waveLoads steps wave).filterMap (loadError? steps)

/-- The first module of a wave that cannot be loaded, if all loads of the wave end and leave the
search as one that is not cancelled. -/
def firstUnloaded? (steps : Steps σ) (wave : Numbering × σ) : Option (Resolved × σ) :=
  if (waveLoads steps wave).all (loadEnds steps) then
    (waveLoads steps wave).find? fun visit => (loadError? steps visit).isSome
  else none

theorem loadWave_of_errors {wave : Numbering × σ}
    (hends : ∀ visit ∈ waveLoads steps wave, loadEnds steps visit = true)
    (hfailed : loadErrors steps wave ≠ []) :
    ∃ last, loadWave steps wave.1.wave wave.2 =
      some (.error (.reports (loadErrors steps wave)), last) := by
  have hnonempty : wave.1.wave ≠ [] := by
    intro hnil
    rw [loadErrors, waveLoads, hnil] at hfailed
    exact hfailed rfl
  have hvisits : ∀ visit ∈ visits? (loadOne steps) wave.1.wave wave.2, ∃ result next,
      loadOne steps visit.1 visit.2 = some (result, next) ∧ steps.isCancelled next = false := by
    intro visit hvisit
    obtain ⟨given, hload, hkept⟩ := (Option.any_eq_true _ _).mp (hends visit hvisit)
    exact ⟨_, given.2, by rw [loadOne, hload]; rfl, by simpa using hkept⟩
  obtain ⟨results, last, hresults, hlast⟩ :=
    forEach?_of_visits (fun state => steps.isCancelled state = false) hvisits hnonempty
  have herrors : loadErrors steps wave = results.filterMap errorOf := by
    refine filterMap_eq_of_forall₂ (forEach?_visits hresults) ?_
    rintro visit result ⟨next, hresult⟩
    rw [loadOne, Option.map_eq_some_iff] at hresult
    obtain ⟨⟨answer, reached⟩, hload, heq⟩ := hresult
    cases heq
    rw [loadError?, hload]
    cases answer <;> rfl
  refine ⟨last, ?_⟩
  rw [loadWave, hresults, Option.map_some]
  dsimp only
  rw [concludeWave, hlast, collect_of_errors (herrors ▸ hfailed), herrors]
  rfl

/-- A search fails as a wave does that it comes to. -/
theorem runWaves_of_wave {limit : Nat} {numbering : Numbering} {state last : σ}
    {wave : Numbering × σ} {failure : LoadFailure} (hwave : wave ∈ waves steps limit numbering state)
    (hrun : runWave steps wave.1 wave.2 = some (.error failure, last)) :
    runWaves steps limit numbering state = some (.error failure, last) := by
  induction limit generalizing numbering state with
  | zero =>
      rw [waves] at hwave
      split at hwave <;> cases hwave
  | succ limit ih =>
      by_cases hempty : numbering.wave.isEmpty = true
      · rw [waves_of_isEmpty _ _ hempty] at hwave
        cases hwave
      · rw [waves_succ _ _ hempty, List.mem_cons] at hwave
        rw [runWaves_succ _ _ hempty]
        rcases hwave with rfl | hlater
        · rw [hrun]
        · split at hlater
          · rename_i modules next reached hfollowed
            rw [hfollowed]
            dsimp only
            rw [ih hlater]
          · cases hlater

/-- If the loads of a wave end, the search is not cancelled and a module cannot be loaded, then the
search fails with the reports of all modules of the wave that cannot be loaded. -/
theorem load_of_errors {limit : Nat} {entries : List (Option String × Resolved)} {state : σ}
    {wave : Numbering × σ} (hwave : wave ∈ wavesOf steps limit entries state)
    (hends : ∀ visit ∈ waveLoads steps wave, loadEnds steps visit = true)
    (hfailed : loadErrors steps wave ≠ []) :
    ∃ last, load steps limit entries state =
      some (.error (.reports (loadErrors steps wave)), last) := by
  obtain ⟨last, hload⟩ := loadWave_of_errors hends hfailed
  have hrun : runWave steps wave.1 wave.2 =
      some (.error (.reports (loadErrors steps wave)), last) := by
    rw [runWave_eq, hload]
  refine ⟨last, ?_⟩
  rw [load_eq_search, search]
  dsimp only
  rw [runWaves_of_wave hwave hrun]

/-- The first module that cannot be loaded gives the first report. -/
theorem loadErrors_of_first {wave : Numbering × σ} {visit : Resolved × σ}
    (hfirst : firstUnloaded? steps wave = some visit) :
    (∀ visit ∈ waveLoads steps wave, loadEnds steps visit = true) ∧
      ∃ report rest, loadError? steps visit = some report ∧
        loadErrors steps wave = report :: rest := by
  rw [firstUnloaded?] at hfirst
  split at hfirst
  · rename_i hends
    refine ⟨List.all_eq_true.mp hends, ?_⟩
    obtain ⟨hfails, before, after, hsplit, hbefore⟩ := List.find?_eq_some_iff_append.mp hfirst
    obtain ⟨report, hreport⟩ := Option.isSome_iff_exists.mp hfails
    refine ⟨report, after.filterMap (loadError? steps), hreport, ?_⟩
    have hnone : before.filterMap (loadError? steps) = [] := by
      rw [List.filterMap_eq_nil_iff]
      exact fun other hother => by simpa using hbefore other hother
    rw [loadErrors, hsplit, List.filterMap_append, hnone, List.nil_append,
      List.filterMap_cons_some hreport]
  · cases hfirst

end WebBundle.Loader

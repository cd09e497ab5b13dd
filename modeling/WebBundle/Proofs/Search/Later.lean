import WebBundle.Proofs.Search.Termination

/-!
# What a search leaves behind

Something that every part of a search keeps true of its state stays true from where it was
brought about: what a load of the search leaves is there at the end.  And what every answer to
a request is like, all modules are like that a search finds from such entries.
-/

namespace WebBundle.Loader

section Lists

variable {α β σ : Type} {invariant : σ → Prop}

/-- What one visit brings about holds when all items are done. -/
theorem forEach?_after {action : α → σ → Option (β × σ)}
    (haction : ∀ item state result next, invariant state →
      action item state = some (result, next) → invariant next)
    {items : List α} {state last : σ} {results : List β}
    (hresults : forEach? action items state = some (results, last)) {visit : α × σ}
    (hvisit : visit ∈ visits? action items state)
    (hbrought : ∀ result next, action visit.1 visit.2 = some (result, next) → invariant next) :
    invariant last := by
  induction items generalizing state results with
  | nil => cases hvisit
  | cons item rest ih =>
      rw [forEach?] at hresults
      rw [visits?] at hvisit
      cases hitem : action item state with
      | none => simp [hitem] at hresults
      | some given =>
          obtain ⟨result, next⟩ := given
          simp only [hitem] at hresults hvisit
          cases hrest : forEach? action rest next with
          | none => simp [hrest] at hresults
          | some later =>
              obtain ⟨found, final⟩ := later
              simp only [hrest, Option.some.injEq, Prod.mk.injEq] at hresults
              obtain ⟨_, rfl⟩ := hresults
              rcases List.mem_cons.mp hvisit with rfl | hvisit
              · exact forEach?_keeps invariant
                  (fun visit _ result next h => haction visit.1 visit.2 result next h)
                  (hbrought result next hitem) hrest
              · exact ih hrest hvisit

end Lists

variable {σ : Type} {steps : Steps σ} {invariant : σ → Prop}

namespace Keeps

/-- What a load of a wave brings about holds when the wave is over. -/
theorem after_wave (hkeeps : Keeps steps invariant (fun _ => True) (fun _ => True))
    {numbering next : Numbering} {state last : σ} {modules : List Module}
    (done : WaveDone steps numbering state modules next last)
    {visit : Resolved × σ} (hvisit : visit ∈ waveLoads steps (numbering, state))
    (hbrought : ∀ result next, steps.load visit.1 visit.2 = some (result, next) →
      invariant next) : invariant last := by
  obtain ⟨results, hresults, _⟩ := loadWave_eq done.load_eq
  have hloaded : invariant done.loadedAt := by
    refine forEach?_after (fun item state result next h => hkeeps.loadOne item state result next h)
      hresults hvisit ?_
    intro result next hload
    rw [Loader.loadOne, Option.map_eq_some_iff] at hload
    obtain ⟨⟨given, reached⟩, hgiven, heq⟩ := hload
    cases heq
    exact hbrought given _ hgiven
  rw [done.last_eq]
  exact forEach_keeps (Loader.resolveOne steps) invariant hkeeps.resolveOne done.scanned
    (forEach_keeps (Loader.scanOne steps) invariant hkeeps.scanOne done.loaded hloaded)

theorem runs (hkeeps : Keeps steps invariant (fun _ => True) (fun _ => True)) {limit : Nat}
    {numbering : Numbering} {state last : σ} {result : Except LoadFailure (List Module)}
    (hruns : Runs steps limit numbering state result last) (hstart : invariant state) :
    invariant last := by
  induction hruns with
  | finished => exact hstart
  | failed _ hwave =>
      obtain ⟨_, _, ⟨rfl, hnext⟩, _⟩ := hkeeps.simulates.runWave (fun _ _ => trivial)
        (fun _ _ => trivial) ⟨rfl, hstart⟩ hwave
      exact hnext
  | followed _ hwave _ ih =>
      obtain ⟨_, _, ⟨rfl, hnext⟩, _⟩ := hkeeps.simulates.runWave (fun _ _ => trivial)
        (fun _ _ => trivial) ⟨rfl, hstart⟩ hwave
      exact ih hnext

theorem after_runs (hkeeps : Keeps steps invariant (fun _ => True) (fun _ => True)) {limit : Nat}
    {numbering : Numbering} {state last : σ} {result : Except LoadFailure (List Module)}
    {modules : List Module} (hruns : Runs steps limit numbering state result last)
    (hresult : result = .ok modules) {visit : Resolved × σ}
    (hvisit : visit ∈ (waves steps limit numbering state).flatMap (waveLoads steps))
    (hbrought : ∀ result next, steps.load visit.1 visit.2 = some (result, next) →
      invariant next) : invariant last := by
  induction hruns generalizing modules with
  | finished hempty =>
      rw [waves_of_isEmpty _ _ hempty] at hvisit
      cases hvisit
  | failed => cases hresult
  | @followed limit numbering state first next reached result last hempty hwave hrest ih =>
      cases result with
      | error failure => cases hresult
      | ok later =>
          rw [waves_succ _ _ hempty, hwave, List.flatMap_cons, List.mem_append] at hvisit
          rcases hvisit with hvisit | hvisit
          · obtain ⟨done⟩ := runWave_eq_ok hwave
            exact hkeeps.runs hrest (hkeeps.after_wave done hvisit hbrought)
          · exact ih rfl hvisit

/-- What a load of a search brings about holds when the graph is found. -/
theorem after_load (hkeeps : Keeps steps invariant (fun _ => True) (fun _ => True)) {limit : Nat}
    {entries : List (Option String × Resolved)} {state last : σ} {graph : Graph}
    (hload : Loader.load steps limit entries state = some (.ok graph, last))
    {visit : Resolved × σ} (hvisit : visit ∈ loads steps limit entries state)
    (hbrought : ∀ result next, steps.load visit.1 visit.2 = some (result, next) →
      invariant next) : invariant last := by
  rw [load_eq_search, search] at hload
  rw [loads, wavesOf] at hvisit
  generalize numberAll (entries.map Prod.snd) {} = numbered at hload hvisit
  obtain ⟨numbers, numbering⟩ := numbered
  dsimp only at hload hvisit
  cases hrun : runWaves steps limit numbering state with
  | none => simp [hrun] at hload
  | some given =>
      obtain ⟨result, final⟩ := given
      cases result with
      | error failure => simp [hrun] at hload
      | ok modules =>
          simp only [hrun, Option.some.injEq, Prod.mk.injEq] at hload
          obtain ⟨_, rfl⟩ := hload
          exact hkeeps.after_runs (runs_of_runWaves hrun) rfl hvisit hbrought

end Keeps

/-! ## Ids -/

variable {holds : ModuleId → Prop}

/-- Where the imports of a wave lead. -/
theorem WaveDone.holds_next {numbering next : Numbering} {state last : σ} {modules : List Module}
    (done : WaveDone steps numbering state modules next last)
    (hresolve : ∀ importer specifier form state target,
      (steps.resolve (some importer) specifier form state).1 = .ok target → holds target.id) :
    ∀ resolved ∈ next.wave, holds resolved.id := by
  intro target htarget
  obtain ⟨item, hitem, htarget⟩ := done.exists_importer htarget
  obtain ⟨load, _, ⟨examined⟩⟩ := exists_left_of_forall₂ done.examined hitem
  obtain ⟨record, _, reached, hanswer⟩ := exists_left_of_forall₂ examined.resolved htarget
  exact hresolve _ _ _ _ _ hanswer

theorem Runs.holds_ids {limit : Nat} {numbering : Numbering} {state last : σ}
    {result : Except LoadFailure (List Module)} {modules : List Module}
    (hruns : Runs steps limit numbering state result last) (hresult : result = .ok modules)
    (hresolve : ∀ importer specifier form state target,
      (steps.resolve (some importer) specifier form state).1 = .ok target → holds target.id)
    (hwave : ∀ resolved ∈ numbering.wave, holds resolved.id) :
    ∀ module ∈ modules, holds module.id := by
  induction hruns generalizing modules with
  | finished =>
      cases hresult
      exact List.forall_mem_nil _
  | failed => cases hresult
  | @followed limit numbering state first next reached result last _ hrun _ ih =>
      cases result with
      | error failure => cases hresult
      | ok later =>
          cases hresult
          obtain ⟨done⟩ := runWave_eq_ok hrun
          refine List.forall_mem_append.mpr ⟨fun module hmodule => ?_,
            ih rfl (done.holds_next hresolve)⟩
          have hid := List.mem_map_of_mem (f := Module.id) hmodule
          rw [done.ids_eq, List.mem_map] at hid
          obtain ⟨resolved, hresolved, heq⟩ := hid
          exact heq ▸ hwave resolved hresolved

/-- What the entries are like and every answer is, all modules of a graph are like. -/
theorem holds_ids {limit : Nat} {entries : List (Option String × Resolved)} {state last : σ}
    {graph : Graph} (hload : Loader.load steps limit entries state = some (.ok graph, last))
    (hentries : ∀ entry ∈ entries, holds entry.2.id)
    (hresolve : ∀ importer specifier form state target,
      (steps.resolve (some importer) specifier form state).1 = .ok target → holds target.id) :
    ∀ module ∈ graph.modules, holds module.id := by
  rw [load_eq_search, search] at hload
  have hwave : ∀ resolved ∈ (numberAll (entries.map Prod.snd) {}).2.wave, holds resolved.id := by
    intro resolved hresolved
    rcases mem_wave_numberAll hresolved with hnone | hresolved
    · cases hnone
    · obtain ⟨entry, hentry, rfl⟩ := List.mem_map.mp hresolved
      exact hentries entry hentry
  generalize numberAll (entries.map Prod.snd) {} = numbered at hload hwave
  obtain ⟨numbers, numbering⟩ := numbered
  dsimp only at hload hwave
  cases hrun : runWaves steps limit numbering state with
  | none => simp [hrun] at hload
  | some given =>
      obtain ⟨result, final⟩ := given
      cases result with
      | error failure => simp [hrun] at hload
      | ok modules =>
          simp only [hrun, Option.some.injEq, Prod.mk.injEq, Except.ok.injEq] at hload
          obtain ⟨rfl, rfl⟩ := hload
          exact (runs_of_runWaves hrun).holds_ids rfl hresolve hwave

end WebBundle.Loader

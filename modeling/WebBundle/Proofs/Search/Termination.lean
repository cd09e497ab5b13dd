import Mathlib.Data.Finset.Card
import WebBundle.Proofs.Search.Graph
import WebBundle.Proofs.Search.Invariant

/-!
# Searches that end

A wave numbers only modules that are new, and no module twice.  So a search that stays
within finitely many modules runs out of new ones: it gives nothing only if one of its
loads does, or if the limit is smaller than the number of the modules.
-/

namespace WebBundle.Loader

section Lists

variable {α β σ : Type} {invariant : σ → Prop}

theorem visits?_keep {action : α → σ → Option (β × σ)}
    (haction : ∀ item state result next, invariant state →
      action item state = some (result, next) → invariant next)
    (items : List α) {state : σ} (hstart : invariant state) :
    ∀ visit ∈ visits? action items state, invariant visit.2 := by
  induction items generalizing state with
  | nil => exact List.forall_mem_nil _
  | cons item rest ih =>
      rw [visits?, List.forall_mem_cons]
      refine ⟨hstart, ?_⟩
      cases hitem : action item state with
      | none => exact List.forall_mem_nil _
      | some given => exact ih (haction item state given.1 given.2 hstart hitem)

theorem visits_keep {action : α → σ → β × σ}
    (haction : ∀ item state, invariant state → invariant (action item state).2)
    (items : List α) {state : σ} (hstart : invariant state) :
    ∀ visit ∈ visits action items state, invariant visit.2 := by
  induction items generalizing state with
  | nil => exact fun _ hvisit => nomatch hvisit
  | cons item rest ih =>
      rw [visits, List.forall_mem_cons]
      exact ⟨hstart, ih (haction item state hstart)⟩

/-- Something is not done for all items only if it gives nothing for one that is
visited. -/
theorem exists_visit_of_forEach?_eq_none {action : α → σ → Option (β × σ)} {items : List α}
    {state : σ} (hnone : forEach? action items state = none) :
    ∃ visit ∈ visits? action items state, action visit.1 visit.2 = none := by
  induction items generalizing state with
  | nil => cases hnone
  | cons item rest ih =>
      rw [forEach?] at hnone
      rw [visits?]
      cases hitem : action item state with
      | none => exact ⟨(item, state), List.mem_cons_self, hitem⟩
      | some given =>
          obtain ⟨result, next⟩ := given
          simp only [hitem] at hnone ⊢
          cases hrest : forEach? action rest next with
          | none =>
              obtain ⟨visit, hvisit, hgiven⟩ := ih hrest
              exact ⟨visit, List.mem_cons_of_mem _ hvisit, hgiven⟩
          | some later => simp [hrest] at hnone

theorem exists_left_of_forall₂ {related : α → β → Prop} {left : List α} {right : List β}
    (h : List.Forall₂ related left right) {value : β} (hvalue : value ∈ right) :
    ∃ other ∈ left, related other value := by
  induction h with
  | nil => cases hvalue
  | cons hhead _ ih =>
      cases hvalue with
      | head => exact ⟨_, List.mem_cons_self, hhead⟩
      | tail _ hvalue =>
          obtain ⟨other, hother, hrelated⟩ := ih hvalue
          exact ⟨other, List.mem_cons_of_mem _ hother, hrelated⟩

end Lists

namespace Numbering

variable {before : List ModuleId} {numbering : Numbering} {ids : Finset ModuleId}

theorem Consistent.mem_of_known (h : numbering.Consistent before)
    (hbefore : ∀ id ∈ before, id ∈ ids) (hwave : ∀ resolved ∈ numbering.wave, resolved.id ∈ ids) :
    ∀ id ∈ numbering.known, id ∈ ids := by
  intro id hid
  rw [h.known_eq, List.mem_append, List.mem_map] at hid
  rcases hid with hid | ⟨resolved, hresolved, rfl⟩
  · exact hbefore id hid
  · exact hwave resolved hresolved

/-- There are no more known modules than there are modules. -/
theorem Consistent.length_le (h : numbering.Consistent before)
    (hknown : ∀ id ∈ numbering.known, id ∈ ids) :
    before.length + numbering.wave.length ≤ ids.card := by
  calc
    before.length + numbering.wave.length = numbering.known.length := by
      rw [h.known_eq, List.length_append, List.length_map]
    _ = numbering.known.toFinset.card := (List.toFinset_card_of_nodup h.nodup).symm
    _ ≤ ids.card := Finset.card_le_card fun id hid => hknown id (List.mem_toFinset.mp hid)

end Numbering

variable {σ : Type} {steps : Steps σ} {invariant : σ → Prop} {targets : Set Resolved}

/-- A search that finds a graph has loaded every module that it came to. -/
theorem exists_loaded {limit : Nat}
    {entries : List (Option String × Resolved)} {state last : σ} {graph : Graph}
    (hload : load steps limit entries state = some (.ok graph, last)) :
    ∀ visit ∈ loads steps limit entries state,
      ∃ module ∈ graph.modules, module.id = visit.1.id ∧
        ∃ loaded next, steps.load visit.1 visit.2 = some (.ok loaded, next) := by
  obtain ⟨_, hfound, _⟩ := load_found hload
  intro visit hvisit
  obtain ⟨module, hmodule, ⟨found⟩⟩ := exists_left_of_forall₂ hfound.flip hvisit
  exact ⟨module, hmodule, found.numbered.id_eq.trans found.examined.id_eq, _, _,
    found.examined.load_eq⟩

/-- A search stays within some targets: what is imported by one of them is one of them. -/
structure Confined (steps : Steps σ) (invariant : σ → Prop) (targets : Set Resolved) : Prop where
  keeps : Keeps steps invariant (fun _ => True) (fun _ => True)
  closed : ∀ {resolved state loaded loadedAt scannedAt content record resolvedAt target},
    resolved ∈ targets → invariant state →
      steps.load resolved state = some (.ok loaded, loadedAt) → invariant scannedAt →
      (steps.scan resolved.id loaded scannedAt).1 = .ok content → record ∈ content.records →
      invariant resolvedAt →
      (steps.resolve (some resolved.id) record.specifier record.form resolvedAt).1 = .ok target →
      target ∈ targets

namespace Keeps

theorem loadOne (hkeeps : Keeps steps invariant (fun _ => True) (fun _ => True))
    (resolved : Resolved) (state : σ) (result : Except Report (ModuleId × Loaded)) (next : σ)
    (hstart : invariant state) (hload : Loader.loadOne steps resolved state = some (result, next)) :
    invariant next := by
  rw [Loader.loadOne, Option.map_eq_some_iff] at hload
  obtain ⟨⟨given, reached⟩, hgiven, heq⟩ := hload
  cases heq
  exact hkeeps.load resolved state given _ trivial hstart hgiven

theorem scanOne (hkeeps : Keeps steps invariant (fun _ => True) (fun _ => True))
    (item : ModuleId × Loaded) (state : σ) (hstart : invariant state) :
    invariant (Loader.scanOne steps item state).2 :=
  hkeeps.scan item.1 item.2 trivial hstart

theorem resolveRecord (hkeeps : Keeps steps invariant (fun _ => True) (fun _ => True))
    (importer : ModuleId) (record : Scan.ImportRecord) (state : σ) (hstart : invariant state) :
    invariant (Loader.resolveRecord steps importer record state).2 :=
  hkeeps.resolve (some importer) record.specifier record.form hstart

theorem resolveOne (hkeeps : Keeps steps invariant (fun _ => True) (fun _ => True))
    (module : Module) (state : σ) (hstart : invariant state) :
    invariant (Loader.resolveOne steps module state).2 :=
  forEach_keeps (Loader.resolveRecord steps module.id) invariant (hkeeps.resolveRecord module.id)
    module.content.records hstart

end Keeps

namespace Confined

/-- The wave behind a wave stays within the targets. -/
theorem next (hconfined : Confined steps invariant targets) {numbering next : Numbering}
    {state last : σ} {modules : List Module}
    (done : WaveDone steps numbering state modules next last)
    (hwave : ∀ resolved ∈ numbering.wave, resolved ∈ targets) (hstart : invariant state) :
    (∀ resolved ∈ next.wave, resolved ∈ targets) ∧ invariant last := by
  obtain ⟨results, hresults, _⟩ := loadWave_eq done.load_eq
  have hloaded : invariant done.loadedAt := forEach?_keeps invariant
    (fun visit _ result next h => hconfined.keeps.loadOne visit.1 visit.2 result next h)
    hstart hresults
  have hscanned := forEach_keeps (scanOne steps) invariant hconfined.keeps.scanOne done.loaded
    hloaded
  refine ⟨?_, ?_⟩
  · intro target htarget
    obtain ⟨item, hitem, htarget⟩ := done.exists_importer htarget
    obtain ⟨load, hload, ⟨examined⟩⟩ := exists_left_of_forall₂ done.examined hitem
    have hmem : load.1 ∈ targets := by
      apply hwave
      rw [← done.loads_fst]
      exact List.mem_map_of_mem hload
    have hloadAt := visits?_keep (fun item state result next h =>
      hconfined.keeps.loadOne item state result next h) numbering.wave hstart load hload
    have hscanAt : invariant examined.scannedAt := by
      have hscan := examined.scan_mem
      simp only [waveScans, done.load_eq] at hscan
      exact visits_keep hconfined.keeps.scanOne done.loaded hloaded _ hscan
    obtain ⟨module, _, moduleAt, hmodule, hresolve⟩ :=
      exists_left_of_forall₂ (forEach_ok done.resolve_eq) hitem
    obtain ⟨rfl, htargets⟩ := resolveOne_eq_ok hresolve
    obtain ⟨record, hrecord, resolvedAt, hresolved, htarget⟩ :=
      exists_left_of_forall₂ htargets htarget
    have hmoduleAt : invariant moduleAt :=
      visits_keep hconfined.keeps.resolveOne done.scanned hscanned _ hmodule
    have hresolvedAt : invariant resolvedAt := visits_keep (hconfined.keeps.resolveRecord item.1.id)
      item.1.content.records hmoduleAt _ hresolved
    have hscan := examined.scan_eq
    rw [resolveRecord, examined.id_eq] at htarget
    rw [examined.id_eq] at hscan
    exact hconfined.closed hmem hloadAt examined.load_eq hscanAt hscan hrecord hresolvedAt
      htarget
  · rw [done.last_eq]
    exact forEach_keeps (resolveOne steps) invariant hconfined.keeps.resolveOne done.scanned
      hscanned

/-- A wave gives something if all of its loads do. -/
theorem runWave_ne_none (hconfined : Confined steps invariant targets)
    (hload : ∀ resolved ∈ targets, ∀ state, invariant state → steps.load resolved state ≠ none)
    {numbering : Numbering} {state : σ}
    (hwave : ∀ resolved ∈ numbering.wave, resolved ∈ targets) (hstart : invariant state) :
    runWave steps numbering state ≠ none := by
  intro hnone
  have hempty := loadWave_of_runWave_eq_none hnone
  rw [loadWave, Option.map_eq_none_iff] at hempty
  obtain ⟨visit, hvisit, hgiven⟩ := exists_visit_of_forEach?_eq_none hempty
  rw [loadOne, Option.map_eq_none_iff] at hgiven
  have hmem : visit.1 ∈ numbering.wave :=
    (visits?_fst_begins (loadOne steps) numbering.wave state).subset
      (List.mem_map_of_mem hvisit)
  refine hload visit.1 (hwave _ hmem) visit.2 ?_ hgiven
  exact visits?_keep (fun item state result next h =>
    hconfined.keeps.loadOne item state result next h) numbering.wave hstart visit hvisit

/-- A search within finitely many modules ends under a limit that is at least their
number; `before` are the modules of the waves that are over. -/
theorem runWaves_ne_none (hconfined : Confined steps invariant targets)
    (hload : ∀ resolved ∈ targets, ∀ state, invariant state → steps.load resolved state ≠ none)
    {ids : Finset ModuleId} (hids : ∀ resolved ∈ targets, resolved.id ∈ ids) {limit : Nat}
    {numbering : Numbering} {state : σ} {before : List ModuleId}
    (h : numbering.Consistent before) (hbefore : ∀ id ∈ before, id ∈ ids)
    (hwave : ∀ resolved ∈ numbering.wave, resolved ∈ targets) (hstart : invariant state)
    (hlimit : ids.card ≤ limit + before.length) :
    runWaves steps limit numbering state ≠ none := by
  induction limit generalizing numbering state before with
  | zero =>
      have hlength := h.length_le (h.mem_of_known hbefore fun resolved hresolved =>
        hids resolved (hwave resolved hresolved))
      have hempty : numbering.wave.isEmpty = true := by
        rw [List.isEmpty_iff, ← List.length_eq_zero_iff]
        omega
      rw [runWaves_of_isEmpty _ _ hempty]
      exact Option.some_ne_none _
  | succ limit ih =>
      by_cases hempty : numbering.wave.isEmpty = true
      · rw [runWaves_of_isEmpty _ _ hempty]
        exact Option.some_ne_none _
      · rw [runWaves_succ _ _ hempty]
        cases hrun : runWave steps numbering state with
        | none => exact absurd hrun (hconfined.runWave_ne_none hload hwave hstart)
        | some given =>
            obtain ⟨result, reached⟩ := given
            cases result with
            | error failure => exact Option.some_ne_none _
            | ok answer =>
                obtain ⟨modules, next⟩ := answer
                obtain ⟨done⟩ := runWave_eq_ok hrun
                obtain ⟨hnext, hreached⟩ := hconfined.next done hwave hstart
                -- The modules of this wave are over when the next one begins.
                have hover : before.length < numbering.known.length := by
                  rw [h.known_eq, List.length_append, List.length_map, Nat.lt_add_right_iff_pos,
                    List.length_pos_iff, Ne, ← List.isEmpty_iff]
                  exact hempty
                have hlater := ih (done.consistent h)
                  (h.mem_of_known hbefore fun resolved hresolved =>
                    hids resolved (hwave resolved hresolved))
                  hnext hreached (by omega)
                dsimp only
                split
                · rename_i hnone
                  exact absurd hnone hlater
                · exact Option.some_ne_none _
                · exact Option.some_ne_none _

/-- A search within finitely many modules ends. -/
theorem load_ne_none (hconfined : Confined steps invariant targets)
    (hload : ∀ resolved ∈ targets, ∀ state, invariant state → steps.load resolved state ≠ none)
    {ids : Finset ModuleId} (hids : ∀ resolved ∈ targets, resolved.id ∈ ids) {limit : Nat}
    {entries : List (Option String × Resolved)} {state : σ}
    (hentries : ∀ entry ∈ entries, entry.2 ∈ targets) (hstart : invariant state)
    (hlimit : ids.card ≤ limit) : Loader.load steps limit entries state ≠ none := by
  have hwave : ∀ resolved ∈ (numberAll (entries.map Prod.snd) {}).2.wave, resolved ∈ targets := by
    intro resolved hresolved
    rcases mem_wave_numberAll hresolved with hresolved | hresolved
    · cases hresolved
    · obtain ⟨entry, hentry, rfl⟩ := List.mem_map.mp hresolved
      exact hentries entry hentry
  have hrun := hconfined.runWaves_ne_none hload hids
    (consistent_numberAll .empty (entries.map Prod.snd)) (fun _ hid => nomatch hid) hwave hstart
    (show ids.card ≤ limit + ([] : List ModuleId).length from hlimit)
  rw [load_eq_search, search]
  dsimp only
  split
  · rename_i hnone
    exact absurd hnone hrun
  · exact Option.some_ne_none _
  · exact Option.some_ne_none _

end Confined

end WebBundle.Loader

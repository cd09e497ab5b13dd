import WebBundle.Proofs.Cancellation.Spared
import WebBundle.Proofs.Search.Termination

/-!
# Cancelled builds end

A build may go on for ever, as it may find new modules or start new builds in every one that it
starts.  But each wave and each nested build lets a moment go by, and once a token is cancelled that
covers a build no wave begins.  So a build ends if its token is cancelled at any time.
-/

namespace WebBundle

namespace World

open Exposed

variable {start : Timeline} {token above : CancelToken} {world : World} {plan : BuildPlan}
  {nested : BuildPlan → CancelToken → Session → Timeline → Option (Ended × Session × Timeline)}

/-- Builds end if a token that covers theirs is to be cancelled within so many moments. -/
def EndsWithin
    (nested : BuildPlan → CancelToken → Session → Timeline → Option (Ended × Session × Timeline))
    (above : CancelToken) (count : Nat) : Prop :=
  ∀ plan token session line, above.Covers token → line.Due above count →
    nested plan token session line ≠ none

/-- A build that is about to begin a wave, before a token that covers its own is cancelled. -/
structure Ready (above token : CancelToken) (count : Nat) (state : Exposed) : Prop where
  knows : Knows state.line token state
  covers : above.Covers token
  due : state.line.Due above count
  stage : state.stage ≠ .loading

/-! ## Loads -/

theorem loadBegun_ne_none {count : Nat} (hends : EndsWithin nested above count)
    (hcovers : above.Covers token) (hdue : start.Due above count) {resolved : Resolved}
    {state : Exposed} (h : Knows start token state) :
    world.loadBegun plan nested resolved state ≠ none := by
  rw [loadBegun]
  split
  · exact Option.some_ne_none _
  · split
    · exact Option.some_ne_none _
    · rename_i job running _
      have hticked := (h.toStands.withRunning running).tick
      rw [Ne, Option.map_eq_none_iff, nestExposed]
      dsimp only
      rw [Option.map_eq_none_iff]
      have hleads := hticked.leads.trans (Timeline.leads_issued _
        (rfl : (token.derive (Exposed.tick { state with running }).line.next).number = _))
      rw [hticked.token_eq]
      exact hends _ _ _ _ (hcovers.trans (token.covers_derive _)) (hleads.due _ _ hdue)

theorem knows_forEach (hadvances : Advances nested) {wave : List Resolved} {state last : Exposed}
    {results : List (Except Report (ModuleId × Loaded))} (h : Knows start token state)
    (hloads : Loader.forEach? (Loader.loadOne (world.exposedSteps plan nested)) wave state =
      some (results, last)) : Knows start token last :=
  Loader.forEach?_keeps (Knows start token)
    (fun visit _ result next h => (keeps_knows hadvances).loadOne visit.1 visit.2 result next h)
    h hloads

/-- A wave gives something if its nested builds do. -/
theorem runWave_ne_none {count : Nat} (hadvances : Advances nested)
    (hends : EndsWithin nested above count) {numbering : Loader.Numbering} {state : Exposed}
    (h : Ready above token count state) :
    Loader.runWave (world.exposedSteps plan nested) numbering state ≠ none := by
  intro hnone
  have hempty := Loader.loadWave_of_runWave_eq_none hnone
  rw [Loader.loadWave, Option.map_eq_none_iff] at hempty
  obtain ⟨visit, hvisit, hgiven⟩ := Loader.exists_visit_of_forEach?_eq_none hempty
  rw [Loader.loadOne, Option.map_eq_none_iff] at hgiven
  have hknows := Loader.visits?_keep (fun item state result next h =>
    (keeps_knows hadvances).loadOne item state result next h) numbering.wave h.knows visit hvisit
  exact loadBegun_ne_none hends h.covers h.due
    (hknows.toStands.begin .loading (visit.2.stage ≠ .loading)) hgiven

/-! ## Waves -/

/-- A wave whose token is cancelled does not begin. -/
theorem isDropped_begin {state : Exposed} (h : Knows start token state)
    (hcancelled : state.line.tick.isCancelled token = true) (stage : Stage) :
    (state.begin stage true).isDropped = true := by
  have hpass := h.toStands.pass
  rw [Exposed.begin, if_pos rfl]
  change (state.pass.isDropped || state.pass.running.isCancelled) = true
  rw [hpass.isCancelled_eq, line_pass, hcancelled, Bool.or_true]

/-- The first load of a wave succeeds only if the token is not cancelled yet. -/
theorem not_isCancelled_of_loadExposed {resolved : Resolved} {state next : Exposed}
    {loaded : Loaded} (h : Knows start token state) (hstage : state.stage ≠ .loading)
    (hload : world.loadExposed plan nested resolved state = some (.ok loaded, next)) :
    state.line.tick.isCancelled token = false := by
  rw [Bool.eq_false_iff]
  intro hcancelled
  rw [loadExposed, decide_eq_true hstage, loadBegun, if_pos (isDropped_begin h hcancelled _)] at hload
  cases hload

/-- Behind the scans of a wave a build is not loading. -/
theorem stage_scans {items : List (ModuleId × Loaded)} (hitems : items ≠ []) (state : Exposed) :
    (Loader.forEach (Loader.scanOne (world.exposedSteps plan nested)) items state).2.stage ≠
      .loading := by
  have hscan : ∀ item state,
      (Loader.scanOne (world.exposedSteps plan nested) item state).2.stage ≠ .loading :=
    fun _ _ => Stage.noConfusion
  cases items with
  | nil => exact absurd rfl hitems
  | cons item rest =>
      exact Loader.forEach_keeps _ (fun state : Exposed => state.stage ≠ .loading)
        (fun item state _ => hscan item state) rest (hscan item state)

theorem stage_begin {state : Exposed} (h : state.stage ≠ .loading) {stage : Stage}
    (hstage : stage ≠ .loading) (isFirst : Bool) : (state.begin stage isFirst).stage ≠ .loading := by
  cases isFirst with
  | true => exact hstage
  | false =>
      rw [Exposed.begin, if_neg Bool.false_ne_true, Exposed.pass]
      split <;> exact h

theorem stage_resolves {modules : List Module} {state : Exposed} (h : state.stage ≠ .loading) :
    (Loader.forEach (Loader.resolveOne (world.exposedSteps plan nested)) modules state).2.stage ≠
      .loading := by
  refine Loader.forEach_keeps _ (fun state : Exposed => state.stage ≠ .loading) (fun module state h => ?_)
    modules h
  refine Loader.forEach_keeps _ (fun state : Exposed => state.stage ≠ .loading) (fun record state h => ?_)
    module.content.records h
  change (world.resolveExposed plan (some module.id) record.specifier record.form state).2.stage ≠ _
  rw [resolveExposed]
  dsimp only
  have hbegun := stage_begin h (fun heq => Stage.noConfusion heq : Stage.resolving ≠ .loading)
    (decide (state.stage = .scanning))
  split
  · exact hbegun
  · rw [Exposed.pass]
    split <;> exact hbegun

theorem knows_last (hadvances : Advances nested) {numbering next : Loader.Numbering}
    {state last : Exposed} {modules : List Module}
    (done : Loader.WaveDone (world.exposedSteps plan nested) numbering state modules next last)
    (h : Knows start token done.loadedAt) : Knows start token last := by
  have hkeeps := @keeps_knows start token world plan nested hadvances
  have hscanned := Loader.forEach_keeps _ (Knows start token) hkeeps.scanOne done.loaded h
  rw [done.last_eq]
  exact Loader.forEach_keeps _ (Knows start token) hkeeps.resolveOne done.scanned hscanned

/-- A wave that is followed by another one lets a moment go by. -/
theorem ready_next (hadvances : Advances nested) {count : Nat} {numbering next : Loader.Numbering}
    (hempty : ¬ numbering.wave.isEmpty = true) {state last : Exposed} {modules : List Module}
    (h : Ready above token count state)
    (hrun : Loader.runWave (world.exposedSteps plan nested) numbering state =
      some (.ok (modules, next), last)) :
    ∃ fewer, count = fewer + 1 ∧ Ready above token fewer last := by
  obtain ⟨done⟩ := Loader.runWave_eq_ok hrun
  obtain ⟨results, hloads, hconclude⟩ := Loader.loadWave_eq done.load_eq
  obtain ⟨_, hresults⟩ := Loader.concludeWave_eq_ok hconclude.symm
  cases hwave : numbering.wave with
  | nil => exact absurd (by rw [hwave]; rfl) hempty
  | cons first rest =>
      rw [hwave, Loader.forEach?] at hloads
      cases hfirst : Loader.loadOne (world.exposedSteps plan nested) first state with
      | none => simp [hfirst] at hloads
      | some given =>
          obtain ⟨result, middle⟩ := given
          cases hrest : Loader.forEach? (Loader.loadOne (world.exposedSteps plan nested)) rest
              middle with
          | none => simp [hfirst, hrest] at hloads
          | some later =>
              obtain ⟨found, loadedAt⟩ := later
              simp only [hfirst, hrest, Option.some.injEq, Prod.mk.injEq] at hloads
              obtain ⟨rfl, hlast⟩ := hloads
              rw [Loader.loadOne, Option.map_eq_some_iff] at hfirst
              obtain ⟨⟨answer, reached⟩, hload, heq⟩ := hfirst
              cases heq
              cases hloaded : done.loaded with
              | nil => simp [hloaded] at hresults
              | cons item items =>
                  rw [hloaded, List.map_cons, List.cons.injEq] at hresults
                  cases answer with
                  | error report => cases hresults.1
                  | ok loaded =>
                      -- The first load has seen that the token is not cancelled yet.
                      have hnot := not_isCancelled_of_loadExposed h.knows h.stage hload
                      cases count with
                      | zero =>
                          rw [(state.line.leads_tick).isCancelled
                            (CancelToken.isCancelled_of_covers h.covers h.due.isCancelled)] at hnot
                          cases hnot
                      | succ fewer =>
                          have hbegun := (h.knows.toStands.begin .loading
                            (state.stage ≠ .loading)).now
                          rw [line_begin] at hbegun
                          have hloads := knows_forEach hadvances
                            (knows_loadBegun hadvances hbegun hload) hrest
                          rw [hlast] at hloads
                          have hlater := knows_last hadvances done hloads
                          refine ⟨fewer, rfl, hlater.now, h.covers,
                            hlater.leads.due _ _ h.due.tick, ?_⟩
                          rw [done.last_eq]
                          refine stage_resolves (stage_scans ?_ _)
                          rw [hloaded]
                          exact List.cons_ne_nil _ _

/-- A search ends once its token is cancelled. -/
theorem runWaves_ne_none (hadvances : Advances nested) {count limit : Nat}
    (hends : ∀ fewer ≤ count, EndsWithin nested above fewer) (hlimit : count < limit)
    {numbering : Loader.Numbering} {state : Exposed} (h : Ready above token count state) :
    Loader.runWaves (world.exposedSteps plan nested) limit numbering state ≠ none := by
  induction limit generalizing count numbering state with
  | zero => omega
  | succ limit ih =>
      by_cases hempty : numbering.wave.isEmpty = true
      · rw [Loader.runWaves_of_isEmpty _ _ hempty]
        exact Option.some_ne_none _
      · rw [Loader.runWaves_succ _ _ hempty]
        cases hrun : Loader.runWave (world.exposedSteps plan nested) numbering state with
        | none => exact absurd hrun (runWave_ne_none hadvances (hends count (Nat.le_refl _)) h)
        | some given =>
            obtain ⟨result, reached⟩ := given
            cases result with
            | error failure => exact Option.some_ne_none _
            | ok answer =>
                obtain ⟨modules, next⟩ := answer
                obtain ⟨fewer, rfl, hnext⟩ := ready_next hadvances hempty h hrun
                have hlater := @ih fewer (fun less hless => hends less (by omega)) (by omega)
                  next reached hnext
                dsimp only
                split
                · rename_i hnone
                  exact absurd hnone hlater
                · exact Option.some_ne_none _
                · exact Option.some_ne_none _

/-! ## Builds -/

/-- A build ends if a token that covers its own is cancelled within fewer moments than its limit. -/
theorem ends_runExposed (world : World) (limit count : Nat) (hlimit : count < limit)
    (above : CancelToken) : EndsWithin (world.runExposed limit) above count := by
  induction limit generalizing count with
  | zero => omega
  | succ limit ih =>
      intro plan token session line hcovers hdue
      rw [runExposed]
      dsimp only
      split
      · exact Option.some_ne_none _
      · rename_i entries running hopening
        cases count with
        | zero =>
            have hnot : line.tick.isCancelled token = false := (opening_eq_ok hopening).1
            rw [line.leads_tick.isCancelled
              (CancelToken.isCancelled_of_covers hcovers hdue.isCancelled)] at hnot
            cases hnot
        | succ count =>
            have hready : Ready above token count
                ({ running, token, line := line.tick } : Exposed).tick :=
              ⟨(knows_start running line.tick token).now, hcovers,
                line.tick.leads_tick.due _ _ hdue.tick, Stage.noConfusion⟩
            have hwaves := @runWaves_ne_none token above world plan (world.runExposed limit)
              (world.advances_runExposed limit) count limit
              (fun fewer hfewer => ih fewer (by omega)) (by omega)
              (Loader.numberAll (entries.map Prod.snd) {}).2 _ hready
            rw [Ne, Option.map_eq_none_iff, Loader.load_eq_search, Loader.search]
            dsimp only
            split
            · rename_i hnone
              exact absurd hnone hwaves
            · exact Option.some_ne_none _
            · exact Option.some_ne_none _

end World

end WebBundle

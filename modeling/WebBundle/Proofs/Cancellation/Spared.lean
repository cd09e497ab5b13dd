import WebBundle.Proofs.Build.Stages
import WebBundle.Proofs.Cancellation.Exposed
import WebBundle.Proofs.Search.Cancelled
import WebBundle.Proofs.Worklet.Virtual

/-!
# Builds that succeed were not cancelled in time

If an exposed build gives files, then neither its token nor that of any build nested in it was
cancelled before the modules of that build were all scanned.  If it ends as a cancelled build, its
token is cancelled.
-/

namespace WebBundle

/-- All tokens that were issued since a start belong to builds whose modules were scanned before
they were cancelled. -/
def AllSpared (start past : List TokenEvent) : Prop :=
  ∀ token ∈ issuedIn past, token ∉ issuedIn start → Spared start past token

theorem allSpared_refl (start : List TokenEvent) : AllSpared start start :=
  fun _ htoken hnew => absurd htoken hnew

/-- Events that issue nothing change nothing. -/
theorem AllSpared.mono {start past later : List TokenEvent} (h : AllSpared start past)
    (hpast : past <+: later) (hissued : issuedIn later = issuedIn past) :
    AllSpared start later :=
  fun token htoken hnew => (h token (hissued ▸ htoken) hnew).mono (List.prefix_refl _) hpast

/-- What was issued in the meantime may be judged by the time it was issued at. -/
theorem AllSpared.trans {start past later : List TokenEvent} (h : AllSpared start past)
    (hstart : start <+: past) (hnext : AllSpared past later) (hpast : past <+: later) :
    AllSpared start later := by
  intro token htoken hnew
  by_cases hknown : token ∈ issuedIn past
  · exact (h token hknown hnew).mono (List.prefix_refl _) hpast
  · exact (hnext token htoken hknown).mono hstart (List.prefix_refl _)

/-- A new token is spared together with those that are issued after it. -/
theorem AllSpared.issued {past later : List TokenEvent} {token : CancelToken}
    (hspared : Spared (past ++ [.issued token]) later token)
    (h : AllSpared (past ++ [.issued token]) later) : AllSpared past later := by
  intro other hother hnew
  by_cases hsame : other = token
  · rw [hsame]
    exact hspared.mono (List.prefix_append _ _) (List.prefix_refl _)
  · refine (h other hother fun hissued => ?_).mono (List.prefix_append _ _) (List.prefix_refl _)
    rw [issuedIn_append] at hissued
    rcases List.mem_append.mp hissued with hissued | hissued
    · exact hnew hissued
    · exact hsame (List.mem_singleton.mp hissued)

namespace Timeline

theorem issuedIn_cancel (line : Timeline) (token : CancelToken) :
    issuedIn (line.cancel token).past = issuedIn line.past := by
  rw [cancel]
  split
  · rw [note, issuedIn_append]
    exact List.append_nil _
  · rfl

theorem issuedIn_tick (line : Timeline) : issuedIn line.tick.past = issuedIn line.past := by
  have hfold : ∀ (tokens : List CancelToken) (line : Timeline),
      issuedIn (tokens.foldl cancel line).past = issuedIn line.past := by
    intro tokens
    induction tokens with
    | nil => exact fun _ => rfl
    | cons token rest ih => exact fun line => (ih _).trans (line.issuedIn_cancel token)
  rw [tick]
  split
  · rfl
  · exact hfold _ _

theorem issuedIn_scanned (line : Timeline) (token : CancelToken) :
    issuedIn (line.note (.scanned token)).past = issuedIn line.past := by
  rw [note, issuedIn_append]
  exact List.append_nil _

end Timeline

namespace Exposed

variable {start : Timeline} {token : CancelToken} {state : Exposed}

/-! ## States of a build -/

/-- A build stands with its token some time after a start. -/
structure Stands (start : Timeline) (token : CancelToken) (state : Exposed) : Prop where
  token_eq : state.token = token
  leads : start.Leads state.line
  dropped : state.isDropped = true → state.line.isCancelled token = true

/-- The build also knows whether its token is cancelled. -/
structure Knows (start : Timeline) (token : CancelToken) (state : Exposed) : Prop
    extends Stands start token state where
  isCancelled_eq : state.running.isCancelled = state.line.isCancelled token

theorem Stands.withRunning (h : Stands start token state) (running : Running) :
    Stands start token { state with running } :=
  ⟨h.token_eq, h.leads, h.dropped⟩

theorem Stands.withStage (h : Stands start token state) (stage : Stage) :
    Stands start token { state with stage } :=
  ⟨h.token_eq, h.leads, h.dropped⟩

theorem leads_absorb (state : Exposed) (running : Running) :
    state.line.Leads (state.absorb running).line := by
  rw [absorb]
  dsimp only
  split
  · exact state.line.leads_cancel state.token
  · exact .refl _

theorem Stands.absorb (h : Stands start token state) (running : Running) :
    Stands start token (state.absorb running) :=
  have hline := state.leads_absorb running
  ⟨h.token_eq, h.leads.trans hline, fun hdropped => hline.isCancelled (h.dropped hdropped)⟩

theorem Stands.tick (h : Stands start token state) : Knows start token state.tick :=
  { token_eq := h.token_eq
    leads := h.leads.trans state.line.leads_tick
    dropped := fun hdropped => state.line.leads_tick.isCancelled (h.dropped hdropped)
    isCancelled_eq := by rw [← h.token_eq]; rfl }

theorem Knows.look (h : Knows start token state) : Knows start token state.look :=
  { token_eq := h.token_eq
    leads := h.leads
    dropped := fun hdropped => by
      rcases Bool.or_eq_true_iff.mp hdropped with hdropped | hcancelled
      · exact h.dropped hdropped
      · exact h.isCancelled_eq ▸ hcancelled
    isCancelled_eq := h.isCancelled_eq }

theorem Stands.pass (h : Stands start token state) : Knows start token state.pass := by
  rw [Exposed.pass]
  split
  · exact h.tick.look
  · exact h.tick

theorem Stands.begin (h : Stands start token state) (stage : Stage) (isFirst : Bool) :
    Knows start token (state.begin stage isFirst) := by
  rw [Exposed.begin]
  split
  · have hpass : Knows start token { state.pass with stage } :=
      ⟨h.pass.toStands.withStage stage, h.pass.isCancelled_eq⟩
    exact hpass.look
  · exact h.pass

/-- Where a build stands it may start anew. -/
theorem Knows.now (h : Knows start token state) : Knows state.line token state :=
  { h with leads := .refl state.line }

theorem line_look (state : Exposed) : state.look.line = state.line := rfl

theorem line_pass (state : Exposed) : state.pass.line = state.line.tick := by
  rw [pass]
  split <;> rfl

theorem line_begin (state : Exposed) (stage : Stage) (isFirst : Bool) :
    (state.begin stage isFirst).line = state.line.tick := by
  rw [begin]
  split
  · rw [line_look]
    exact state.line_pass
  · exact state.line_pass

theorem issuedIn_absorb (state : Exposed) (running : Running) :
    issuedIn (state.absorb running).line.past = issuedIn state.line.past := by
  rw [absorb]
  dsimp only
  split
  · exact state.line.issuedIn_cancel state.token
  · rfl

end Exposed

namespace AllSpared

variable {start : List TokenEvent} {state : Exposed}

theorem tick {line : Timeline} (h : AllSpared start line.past) :
    AllSpared start line.tick.past :=
  h.mono line.leads_tick.past line.issuedIn_tick

theorem pass (h : AllSpared start state.line.past) : AllSpared start state.pass.line.past := by
  rw [state.line_pass]
  exact h.tick

theorem begin (h : AllSpared start state.line.past) (stage : Stage) (isFirst : Bool) :
    AllSpared start (state.begin stage isFirst).line.past := by
  rw [state.line_begin]
  exact h.tick

theorem absorb (h : AllSpared start state.line.past) (running : Running) :
    AllSpared start (state.absorb running).line.past :=
  h.mono (state.leads_absorb running).past (state.issuedIn_absorb running)

end AllSpared

namespace World

open Exposed

variable {start : Timeline} {token : CancelToken} {world : World} {plan : BuildPlan}
  {nested : BuildPlan → CancelToken → Session → Timeline → Option (Ended × Session × Timeline)}

/-! ## Time goes on -/

/-- Builds that end do so some time later. -/
def Advances
    (nested : BuildPlan → CancelToken → Session → Timeline → Option (Ended × Session × Timeline)) :
    Prop :=
  ∀ plan token session line ended after later,
    nested plan token session line = some (ended, after, later) → line.Leads later

theorem knows_resolveExposed {state : Exposed} (h : Knows start token state)
    (importer : Option ModuleId) (specifier : String) (form : Scan.ImportForm) :
    Knows start token (world.resolveExposed plan importer specifier form state).2 := by
  have hbegun := h.toStands.begin .resolving (state.stage = .scanning)
  rw [resolveExposed]
  dsimp only
  split
  · exact hbegun
  · exact (hbegun.toStands.withRunning _).pass

theorem knows_scanExposed {state : Exposed} (h : Knows start token state) (id : ModuleId)
    (loaded : Loaded) : Knows start token (world.scanExposed plan id loaded state).2 :=
  ((h.toStands.withStage .scanning).tick.toStands.withRunning _).tick

theorem stands_nestExposed (hnested : Advances nested) {resolved : Resolved}
    {job : Worklet.Job Nat} {state next : Exposed} {result : Except Report Loaded}
    (h : Stands start token state)
    (hnest : nestExposed plan nested resolved job state = some (result, next)) :
    Stands start token next := by
  rw [nestExposed] at hnest
  dsimp only at hnest
  rw [Option.map_eq_some_iff] at hnest
  obtain ⟨⟨ended, session, line⟩, hended, hnext⟩ := hnest
  cases hnext
  have hline : state.line.Leads line :=
    (state.line.leads_issued rfl).trans (hnested _ _ _ _ _ _ _ hended)
  exact ⟨h.token_eq, h.leads.trans hline, fun hdropped => hline.isCancelled (h.dropped hdropped)⟩

theorem knows_loadBegun (hnested : Advances nested) {resolved : Resolved}
    {state next : Exposed} {result : Except Report Loaded} (h : Knows start token state)
    (hload : world.loadBegun plan nested resolved state = some (result, next)) :
    Knows start token next := by
  rw [loadBegun] at hload
  split at hload
  · cases hload
    exact h
  · split at hload
    · cases hload
      exact (h.toStands.absorb _).pass
    · rw [Option.map_eq_some_iff] at hload
      obtain ⟨⟨answer, reached⟩, hnest, heq⟩ := hload
      cases heq
      exact (stands_nestExposed hnested (h.toStands.withRunning _).tick.toStands hnest).pass

theorem knows_loadExposed (hnested : Advances nested) {resolved : Resolved}
    {state next : Exposed} {result : Except Report Loaded} (h : Knows start token state)
    (hload : world.loadExposed plan nested resolved state = some (result, next)) :
    Knows start token next :=
  knows_loadBegun hnested (h.toStands.begin .loading (state.stage ≠ .loading)) hload

theorem keeps_knows (hnested : Advances nested) :
    Loader.Keeps (world.exposedSteps plan nested) (Knows start token) (fun _ => True)
      (fun _ => True) where
  resolve importer specifier form _ h := knows_resolveExposed h importer specifier form
  load _ _ _ _ _ h hload := knows_loadExposed hnested h hload
  scan id loaded _ _ h := knows_scanExposed h id loaded

theorem leads_concludeExposed (plan : BuildPlan) (result : Except LoadFailure Graph)
    (state : Exposed) : state.line.Leads (concludeExposed plan result state).2.2 := by
  cases result with
  | error failure => exact state.line.leads_tick
  | ok graph =>
      have hsearched := state.line.leads_tick.trans
        (state.line.tick.leads_scanned state.token)
      exact (hsearched.trans (Timeline.leads_tick _)).trans (Timeline.leads_tick _)

/-- A build that begins its search stands at the time of its start. -/
theorem knows_start (running : Running) (line : Timeline) (token : CancelToken) :
    Knows line token ({ running, token, line } : Exposed).tick :=
  Stands.tick ⟨rfl, .refl line, fun hdropped => absurd hdropped (by simp)⟩

theorem advances_runExposed (world : World) (limit : Nat) : Advances (world.runExposed limit) := by
  induction limit with
  | zero =>
      intro _ _ _ _ _ _ _ hrun
      cases hrun
  | succ limit ih =>
      intro plan token session line ended after later hrun
      rw [runExposed] at hrun
      dsimp only at hrun
      refine line.leads_tick.trans ?_
      split at hrun
      · cases hrun
        exact Timeline.leads_tick _
      · rw [Option.map_eq_some_iff] at hrun
        obtain ⟨⟨result, state⟩, hload, hended⟩ := hrun
        have hstate := (keeps_knows ih).at_end (.always _) (knows_start _ _ _) hload
        have hlater := leads_concludeExposed plan result state
        rw [hended] at hlater
        exact hstate.leads.trans hlater

/-! ## Loads that succeed -/

/-- The nested build of a worklet that is loaded gave files. -/
theorem nestExposed_eq_ok {resolved : Resolved} {job : Worklet.Job Nat} {state next : Exposed}
    {loaded : Loaded} (hnest : nestExposed plan nested resolved job state = some (.ok loaded, next)) :
    ∃ ended session assets, ended.outcome = .assets assets ∧
      nested (innerPlan plan job) (state.token.derive state.line.next) state.running.session
        (state.line.note (.issued (state.token.derive state.line.next))) =
          some (ended, session, next.line) := by
  rw [nestExposed] at hnest
  dsimp only at hnest
  rw [Option.map_eq_some_iff] at hnest
  obtain ⟨⟨ended, session, line⟩, hended, hnext⟩ := hnest
  dsimp only at hnext
  rw [Prod.mk.injEq] at hnext
  obtain ⟨hfinish, rfl⟩ := hnext
  rw [finishLoading] at hfinish
  dsimp only at hfinish
  cases hconclude : (concludeWorklet plan job (ended.under
      (line.isCancelled (state.token.derive state.line.next)))
        { state.running with session }).1 with
  | error report =>
      rw [hconclude] at hfinish
      cases hfinish
  | ok code =>
      obtain ⟨assets, _, hassets, _⟩ := concludeWorklet_eq_ok hconclude
      refine ⟨ended, session, assets, ?_, hended⟩
      rw [Ended.under] at hassets
      split at hassets
      · split at hassets
        · cases hassets
        · exact hassets
      · exact hassets
      · exact hassets

/-- What is spared when a build comes to an end. -/
def Spares
    (nested : BuildPlan → CancelToken → Session → Timeline → Option (Ended × Session × Timeline)) :
    Prop :=
  ∀ plan token session line ended after later assets,
    nested plan token session line = some (ended, after, later) →
      ended.outcome = .assets assets →
        Spared line.past later.past token ∧ AllSpared line.past later.past

/-- A load that succeeds spares what it issues, if its nested build does. -/
theorem allSpared_loadExposed (hspares : Spares nested) (hadvances : Advances nested)
    {resolved : Resolved} {state next : Exposed} {loaded : Loaded}
    (h : AllSpared start.past state.line.past) (hstart : start.Leads state.line)
    (hload : world.loadExposed plan nested resolved state = some (.ok loaded, next)) :
    AllSpared start.past next.line.past := by
  have hbegun := h.begin .loading (state.stage ≠ .loading)
  have hlead : start.Leads (state.begin .loading (state.stage ≠ .loading)).line := by
    rw [line_begin]
    exact hstart.trans state.line.leads_tick
  rw [loadExposed] at hload
  generalize state.begin .loading (state.stage ≠ .loading) = begun at hload hbegun hlead
  rw [loadBegun] at hload
  split at hload
  · cases hload
  · split at hload
    · cases hload
      exact (hbegun.absorb _).pass
    · rename_i job running _
      rw [Option.map_eq_some_iff] at hload
      obtain ⟨⟨answer, reached⟩, hnest, heq⟩ := hload
      cases heq
      obtain ⟨ended, session, assets, hassets, hended⟩ := nestExposed_eq_ok hnest
      obtain ⟨hspared, hall⟩ := hspares _ _ _ _ _ _ _ assets hended hassets
      have hline := (Timeline.leads_issued _ rfl).trans (hadvances _ _ _ _ _ _ _ hended)
      exact (hbegun.tick.trans (hlead.trans begun.line.leads_tick).past
        (.issued hspared hall) hline.past).pass

/-- The search of a build that gives files spares what it issues. -/
theorem keeps_allSpared (hspares : Spares nested) (hadvances : Advances nested) :
    Loader.Keeps (world.exposedSteps plan nested)
      (fun state => Knows start token state ∧ AllSpared start.past state.line.past)
      (fun visit => ∃ loaded next,
        world.loadExposed plan nested visit.1 visit.2 = some (.ok loaded, next))
      (fun _ => True) where
  resolve importer specifier form state h := by
    refine ⟨knows_resolveExposed h.1 importer specifier form, ?_⟩
    have hbegun := h.2.begin .resolving (state.stage = .scanning)
    change AllSpared _ (world.resolveExposed plan importer specifier form state).2.line.past
    rw [resolveExposed]
    dsimp only
    split
    · exact hbegun
    · exact AllSpared.pass hbegun
  load resolved state result next hloadable h hload := by
    obtain ⟨loaded, last, hloaded⟩ := hloadable
    obtain ⟨rfl, rfl⟩ := Prod.mk.inj (Option.some.inj (hload.symm.trans hloaded))
    exact ⟨knows_loadExposed hadvances h.1 hload,
      allSpared_loadExposed hspares hadvances h.2 h.1.leads hload⟩
  scan id loaded state _ h :=
    ⟨knows_scanExposed h.1 id loaded, h.2.tick.tick⟩

/-- A build that gives files has looked at its token after its modules were scanned. -/
theorem spared_concludeExposed {result : Except LoadFailure Graph} {state : Exposed}
    {assets : List Asset}
    (hassets : (concludeExposed plan result state).1.outcome = .assets assets) :
    (∃ graph, result = .ok graph) ∧
      issuedIn (concludeExposed plan result state).2.2.past = issuedIn state.line.past ∧
      Spared state.line.past (concludeExposed plan result state).2.2.past state.token := by
  cases result with
  | error failure => cases failure <;> cases hassets
  | ok graph =>
      refine ⟨⟨graph, rfl⟩, ?_, ?_⟩
      · rw [concludeExposed]
        dsimp only
        rw [Timeline.issuedIn_tick, Timeline.issuedIn_tick, Timeline.issuedIn_scanned,
          Timeline.issuedIn_tick]
      · have hscanned := Timeline.leads_tick (state.line.tick.note (.scanned state.token))
        have hfirst := state.line.tick.leads_scanned state.token
        refine ⟨state.line.tick.past, state.line.leads_tick.past,
          (hscanned.trans (Timeline.leads_tick _)).past, ?_⟩
        rw [Bool.eq_false_iff]
        intro hcancelled
        have hlater := (hfirst.trans hscanned).isCancelled hcancelled
        rw [concludeExposed] at hassets
        dsimp only at hassets
        rw [if_pos hlater] at hassets
        cases hassets

/-- A build that gives files was not cancelled before its modules were scanned, and nor were those
that are nested in it. -/
theorem spares_runExposed (world : World) (limit : Nat) : Spares (world.runExposed limit) := by
  induction limit with
  | zero =>
      intro _ _ _ _ _ _ _ _ hrun
      cases hrun
  | succ limit ih =>
      intro plan token session line ended after later assets hrun hassets
      rw [runExposed] at hrun
      dsimp only at hrun
      split at hrun
      · rename_i hopening
        cases hrun
        exact absurd hassets ((outcome_of_opening hopening).1 assets)
      · rename_i entries running _
        rw [Option.map_eq_some_iff] at hrun
        obtain ⟨⟨result, state⟩, hload, hended⟩ := hrun
        dsimp only at hended
        have hadvances := world.advances_runExposed limit
        have hassets : (concludeExposed plan result state).1.outcome = .assets assets := by
          rw [hended]
          exact hassets
        obtain ⟨⟨graph, rfl⟩, hissued, hspared⟩ := spared_concludeExposed hassets
        have hlater := leads_concludeExposed plan (.ok graph) state
        rw [hended] at hissued hspared hlater
        have hbegin : Knows line.tick token ({ running, token, line := line.tick } : Exposed).tick :=
          knows_start running line.tick token
        have hloadable : ∀ visit ∈ Loader.loads (world.exposedSteps plan (world.runExposed limit))
            limit entries ({ running, token, line := line.tick } : Exposed).tick, ∃ loaded next,
              world.loadExposed plan (world.runExposed limit) visit.1 visit.2 =
                some (.ok loaded, next) := by
          intro visit hvisit
          obtain ⟨_, _, _, hloaded⟩ := Loader.exists_loaded hload visit hvisit
          exact hloaded
        obtain ⟨hstate, hall⟩ := (keeps_allSpared ih hadvances).at_end
          ⟨hloadable, fun _ _ => trivial⟩ ⟨hbegin, (allSpared_refl line.tick.past).tick⟩ hload
        rw [hstate.token_eq] at hspared
        have hstart := line.leads_tick.past
        exact ⟨hspared.mono (hstart.trans hstate.leads.past) (List.prefix_refl _),
          ((allSpared_refl line.past).tick.trans hstart hall hstate.leads.past).mono hlater.past
            hissued⟩

/-! ## Builds that end as cancelled ones -/

theorem isCancelled_of_conclude {plan : BuildPlan} {graph : Graph} {running : Running} :
    (conclude plan (.ok graph) running).1.outcome ≠ .cancelled := by
  rw [conclude, finish]
  dsimp only
  split <;> exact Outcome.noConfusion

/-- The token of a build that ends as a cancelled one is cancelled. -/
theorem isCancelled_of_runExposed {limit : Nat} {session after : Session} {line later : Timeline}
    {ended : Ended}
    (hrun : world.runExposed limit plan token session line = some (ended, after, later))
    (hended : ended.outcome = .cancelled) : later.isCancelled token = true := by
  cases limit with
  | zero => cases hrun
  | succ limit =>
      rw [runExposed] at hrun
      dsimp only at hrun
      split at hrun
      · rename_i hopening
        cases hrun
        exact (Timeline.leads_tick _).isCancelled ((outcome_of_opening hopening).2.mp hended)
      · rename_i entries running _
        rw [Option.map_eq_some_iff] at hrun
        obtain ⟨⟨result, state⟩, hload, hconclude⟩ := hrun
        have hstate := (keeps_knows (world.advances_runExposed limit)).at_end (.always _)
          (knows_start running line.tick token) hload
        cases result with
        | error failure =>
            cases failure with
            | reports reports =>
                cases hconclude
                cases hended
            | cancelled =>
                cases hconclude
                refine (Timeline.leads_tick _).isCancelled ?_
                rcases Bool.or_eq_true_iff.mp (Loader.isCancelled_of_load hload) with h | h
                · exact hstate.dropped h
                · exact hstate.isCancelled_eq ▸ (Bool.and_eq_true_iff.mp h).2
        | ok graph =>
            dsimp only at hconclude
            rw [concludeExposed] at hconclude
            dsimp only at hconclude
            split at hconclude
            · rename_i hcancelled
              cases hconclude
              rw [← hstate.token_eq]
              exact (Timeline.leads_tick _).isCancelled hcancelled
            · cases hconclude
              exact absurd hended isCancelled_of_conclude

end World

end WebBundle

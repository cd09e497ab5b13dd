import WebBundle.Proofs.Cancellation.Spared

/-!
# Who cancels a token

While a build runs, a token is cancelled by somebody who has it, in one of the moments ahead, or
by a hook of the build that it belongs to.  So whatever the builds do that are nested in a build,
its own token is cancelled by others or by its own hooks.
-/

namespace WebBundle

namespace Timeline

variable {line middle later : Timeline} {inside outside : CancelToken → Prop}

/-- What was cancelled between two times was to be cancelled by others, or from inside. -/
structure Traced (inside : CancelToken → Prop) (line later : Timeline) : Prop where
  ahead : later.ahead <:+ line.ahead
  cancelled : ∀ token, .cancelled token ∈ later.past → .cancelled token ∈ line.past ∨
    (∃ moment ∈ line.ahead, token ∈ moment.cancels) ∨ inside token

namespace Traced

theorem refl (line : Timeline) : Traced inside line line :=
  ⟨List.suffix_refl _, fun _ htoken => .inl htoken⟩

theorem trans (h : Traced inside line middle) (hnext : Traced inside middle later) :
    Traced inside line later := by
  refine ⟨hnext.ahead.trans h.ahead, fun token htoken => ?_⟩
  rcases hnext.cancelled token htoken with hbefore | ⟨moment, hmoment, hcancels⟩ | hinside
  · exact h.cancelled token hbefore
  · exact .inr (.inl ⟨moment, h.ahead.subset hmoment, hcancels⟩)
  · exact .inr (.inr hinside)

theorem mono (h : Traced inside line later) (hle : ∀ token, inside token → outside token) :
    Traced outside line later :=
  ⟨h.ahead, fun token htoken => (h.cancelled token htoken).imp_right (.imp_right (hle token))⟩

end Traced

theorem traced_note {event : TokenEvent} (hevent : ∀ token, event = .cancelled token → inside token) :
    Traced inside line (line.note event) := by
  refine ⟨List.suffix_refl _, fun token htoken => ?_⟩
  rcases List.mem_append.mp htoken with hbefore | hlast
  · exact .inl hbefore
  · exact .inr (.inr (hevent token (List.mem_singleton.mp hlast).symm))

theorem traced_cancel {token : CancelToken} (htoken : inside token) :
    Traced inside line (line.cancel token) := by
  rw [cancel]
  split
  · refine traced_note fun other hother => ?_
    cases hother
    exact htoken
  · exact .refl line

theorem traced_foldl_cancel {tokens : List CancelToken} (htokens : ∀ token ∈ tokens, inside token) :
    Traced inside line (tokens.foldl cancel line) := by
  induction tokens generalizing line with
  | nil => exact .refl line
  | cons token rest ih =>
      obtain ⟨htoken, hrest⟩ := List.forall_mem_cons.mp htokens
      exact (traced_cancel htoken).trans (ih hrest)

/-- A moment cancels what it is to cancel. -/
theorem traced_tick (line : Timeline) : Traced inside line line.tick := by
  rw [tick]
  split
  · exact .refl line
  · rename_i moment ahead hahead
    have hmoment : moment ∈ line.ahead := by
      rw [hahead]
      exact List.mem_cons_self
    have htraced : Traced (· ∈ moment.cancels) { line with ahead }
        (moment.cancels.foldl cancel { line with ahead }) :=
      traced_foldl_cancel fun _ htoken => htoken
    have hsuffix : ahead <:+ line.ahead := by
      rw [hahead]
      exact List.suffix_cons moment ahead
    refine ⟨htraced.ahead.trans hsuffix, fun token htoken => ?_⟩
    rcases htraced.cancelled token htoken with hbefore | ⟨other, hother, hcancels⟩ | hcancels
    · exact .inl hbefore
    · exact .inr (.inl ⟨other, hsuffix.subset hother, hcancels⟩)
    · exact .inr (.inl ⟨moment, hmoment, hcancels⟩)

end Timeline

namespace World

variable {world : World} {plan : BuildPlan} {token other : CancelToken}

/-! ## Hooks -/

/-- Some of the plugins cancel the build that they take part in. -/
def CancelsOwn (world : World) (plugins : List Nat) : Prop :=
  ∃ numbered ∈ world.pluginsOf plugins, ∃ rules id,
    numbered.plugin = .ruled rules ∧ rules.load? id = some .cancel

/-- A load cancels its build only by a plugin that does so. -/
theorem cancels_loading {resolved : Resolved} {plugins : List Numbered} {running next : Running}
    {result : Except Report Loaded}
    (hloading : world.loading plan resolved plugins running = .done result next)
    (hbefore : running.isCancelled = false) (hnext : next.isCancelled = true) :
    ∃ numbered ∈ plugins, ∃ rules id,
      numbered.plugin = .ruled rules ∧ rules.load? id = some .cancel := by
  induction plugins generalizing running with
  | nil =>
      cases hloading
      cases hbefore.symm.trans hnext
  | cons numbered rest ih =>
      have hlater : ∀ {running : Running},
          world.loading plan resolved rest running = .done result next →
            running.isCancelled = false → ∃ found ∈ numbered :: rest, ∃ rules id,
              found.plugin = .ruled rules ∧ rules.load? id = some .cancel := by
        intro running hrest hstart
        obtain ⟨found, hfound, hcancels⟩ := ih hrest hstart
        exact ⟨found, List.mem_cons_of_mem _ hfound, hcancels⟩
      rw [loading] at hloading
      split at hloading
      · exact hlater hloading hbefore
      · split at hloading
        · cases hloading
          cases hbefore.symm.trans hnext
        · exact hlater hloading hbefore
        · cases hloading
      · rename_i rules hrules
        dsimp only at hloading
        split at hloading
        · exact hlater hloading hbefore
        · rename_i hcancel
          exact ⟨numbered, List.mem_cons_self, rules, resolved.id, hrules, hcancel⟩
        · cases hloading
          cases hbefore.symm.trans hnext
        · cases hloading
          cases hbefore.symm.trans hnext

/-- The tokens that a build may cancel: those of builds that are nested in it, and its own if a
hook of its plugins does so. -/
def Inside (world : World) (plan : BuildPlan) (token other : CancelToken) : Prop :=
  token.Covers other ∧ (other = token → world.CancelsOwn plan.plugins)

theorem Inside.around {job : Worklet.Job Nat} {number : Nat}
    (h : world.Inside (innerPlan plan job) (token.derive number) other) :
    world.Inside plan token other := by
  refine ⟨(token.covers_derive number).trans h.1, ?_⟩
  rintro rfl
  have hlength := h.1.length_le
  simp [CancelToken.derive, CancelToken.path] at hlength

/-! ## Builds -/

open Exposed

variable {start : Timeline} {state next : Exposed}
  {nested : BuildPlan → CancelToken → Session → Timeline → Option (Ended × Session × Timeline)}

/-- Builds cancel from inside. -/
def CancelsInside (world : World)
    (nested : BuildPlan → CancelToken → Session → Timeline → Option (Ended × Session × Timeline)) :
    Prop :=
  ∀ plan token session line ended after later,
    nested plan token session line = some (ended, after, later) →
      line.Traced (world.Inside plan token) later

/-- A build with its token, some time after a start. -/
structure Traces (world : World) (plan : BuildPlan) (start : Timeline) (token : CancelToken)
    (state : Exposed) : Prop where
  token_eq : state.token = token
  line : start.Traced (world.Inside plan token) state.line

namespace Traces

theorem goOn (h : Traces world plan start token state) {next : Exposed}
    (htoken : next.token = state.token)
    (hline : state.line.Traced (world.Inside plan token) next.line) :
    Traces world plan start token next :=
  ⟨htoken.trans h.token_eq, h.line.trans hline⟩

theorem withRunning (h : Traces world plan start token state) (running : Running) :
    Traces world plan start token { state with running } :=
  ⟨h.token_eq, h.line⟩

theorem withStage (h : Traces world plan start token state) (stage : Stage) :
    Traces world plan start token { state with stage } :=
  ⟨h.token_eq, h.line⟩

theorem tick (h : Traces world plan start token state) :
    Traces world plan start token state.tick :=
  h.goOn rfl state.line.traced_tick

theorem token_pass (state : Exposed) : state.pass.token = state.token := by
  rw [Exposed.pass]
  split <;> rfl

theorem pass (h : Traces world plan start token state) :
    Traces world plan start token state.pass := by
  refine h.goOn (token_pass state) ?_
  rw [line_pass]
  exact state.line.traced_tick

theorem begin (h : Traces world plan start token state) (stage : Stage) (isFirst : Bool) :
    Traces world plan start token (state.begin stage isFirst) := by
  refine h.goOn ?_ ?_
  · rw [Exposed.begin]
    split <;> exact token_pass state
  · rw [line_begin]
    exact state.line.traced_tick

theorem resolveExposed (h : Traces world plan start token state) (importer : Option ModuleId)
    (specifier : String) (form : Scan.ImportForm) :
    Traces world plan start token (world.resolveExposed plan importer specifier form state).2 := by
  have hbegun := h.begin .resolving (state.stage = .scanning)
  rw [World.resolveExposed]
  dsimp only
  split
  · exact hbegun
  · exact (hbegun.withRunning _).pass

/-- A hook that cancels its build cancels the token of the build. -/
theorem absorb (h : Traces world plan start token state) {resolved : Resolved}
    {result : Except Report Loaded} {running : Running}
    (hloading : world.loading plan resolved (world.pluginsOf plan.plugins) state.running =
      .done result running) :
    Traces world plan start token (state.absorb running) := by
  refine h.goOn rfl ?_
  rw [Exposed.absorb]
  dsimp only
  split
  · rename_i hcancels
    rw [Bool.and_eq_true, Bool.not_eq_true'] at hcancels
    refine Timeline.traced_cancel ?_
    rw [h.token_eq]
    exact ⟨token.covers_refl, fun _ => cancels_loading hloading hcancels.2 hcancels.1⟩
  · exact .refl _

theorem nestExposed (hnested : world.CancelsInside nested) {resolved : Resolved}
    {job : Worklet.Job Nat} {result : Except Report Loaded}
    (h : Traces world plan start token state)
    (hnest : World.nestExposed plan nested resolved job state = some (result, next)) :
    Traces world plan start token next := by
  rw [World.nestExposed] at hnest
  dsimp only at hnest
  rw [Option.map_eq_some_iff] at hnest
  obtain ⟨⟨ended, session, line⟩, hended, heq⟩ := hnest
  cases heq
  have hissued : state.line.Traced (world.Inside plan token)
      (state.line.note (.issued (state.token.derive state.line.next))) :=
    Timeline.traced_note fun _ h => TokenEvent.noConfusion h
  refine h.goOn rfl (hissued.trans ((hnested _ _ _ _ _ _ _ hended).mono fun other hother => ?_))
  rw [h.token_eq] at hother
  exact hother.around

theorem loadBegun (hnested : world.CancelsInside nested) {resolved : Resolved}
    {result : Except Report Loaded} (h : Traces world plan start token state)
    (hload : world.loadBegun plan nested resolved state = some (result, next)) :
    Traces world plan start token next := by
  rw [World.loadBegun] at hload
  split at hload
  · cases hload
    exact h
  · split at hload
    · rename_i hloading
      cases hload
      exact (h.absorb hloading).pass
    · rw [Option.map_eq_some_iff] at hload
      obtain ⟨⟨answer, reached⟩, hnest, heq⟩ := hload
      cases heq
      exact ((h.withRunning _).tick.nestExposed hnested hnest).pass

end Traces

theorem keeps_traces (hnested : world.CancelsInside nested) :
    Loader.Keeps (world.exposedSteps plan nested) (Traces world plan start token) (fun _ => True)
      (fun _ => True) where
  resolve importer specifier form _ h := h.resolveExposed importer specifier form
  load _ state _ _ _ h hload := (h.begin .loading (state.stage ≠ .loading)).loadBegun hnested hload
  scan _ _ _ _ h := ((h.withStage .scanning).tick.withRunning _).tick

theorem traced_concludeExposed (result : Except LoadFailure Graph) (state : Exposed)
    {inside : CancelToken → Prop} :
    state.line.Traced inside (concludeExposed plan result state).2.2 := by
  cases result with
  | error failure => exact state.line.traced_tick
  | ok graph =>
      have hscanned : state.line.tick.Traced inside (state.line.tick.note (.scanned state.token)) :=
        Timeline.traced_note fun _ h => TokenEvent.noConfusion h
      exact ((state.line.traced_tick.trans hscanned).trans (Timeline.traced_tick _)).trans
        (Timeline.traced_tick _)

/-- A build cancels no tokens but its own and those of builds that are nested in it, and its own
only by a hook of its plugins. -/
theorem cancelsInside_runExposed (world : World) (limit : Nat) :
    world.CancelsInside (world.runExposed limit) := by
  induction limit with
  | zero =>
      intro _ _ _ _ _ _ _ hrun
      cases hrun
  | succ limit ih =>
      intro plan token session line ended after later hrun
      rw [runExposed] at hrun
      dsimp only at hrun
      split at hrun
      · cases hrun
        exact line.traced_tick.trans (Timeline.traced_tick _)
      · rename_i entries running _
        rw [Option.map_eq_some_iff] at hrun
        obtain ⟨⟨result, state⟩, hload, hended⟩ := hrun
        have hbegin : Traces world plan line token { running, token, line := line.tick } :=
          ⟨rfl, line.traced_tick⟩
        have hstate := (keeps_traces ih).at_end (.always _) hbegin.tick hload
        have hlater := @traced_concludeExposed plan result state (world.Inside plan token)
        rw [hended] at hlater
        exact hstate.line.trans hlater

end World

end WebBundle

import WebBundle.Proofs.Cancellation.Spared

/-!
# Tokens of other builds

A build is not touched by what happens to tokens that neither are its own nor cover it.  Two
timelines that differ in nothing but the cancellations of such tokens give the same end.
-/

namespace WebBundle

namespace Timeline

variable {foreign : List CancelToken} {line other third : Timeline}

/-- A moment in which some tokens are left alone. -/
def without (foreign : List CancelToken) (moment : Moment) : Moment :=
  { moment with cancels := moment.cancels.filter (· ∉ foreign) }

/-- A timeline on which some tokens are left alone from now on. -/
def spare (foreign : List CancelToken) (line : Timeline) : Timeline :=
  { line with ahead := line.ahead.map (without foreign) }

/-- Two timelines differ in nothing but the cancellations of some tokens. -/
structure AgreesBut (foreign : List CancelToken) (line other : Timeline) : Prop where
  issued : issuedIn line.past = issuedIn other.past
  cancelled : ∀ token ∉ foreign, .cancelled token ∈ line.past ↔ .cancelled token ∈ other.past
  ahead : line.ahead.map (without foreign) = other.ahead.map (without foreign)

namespace AgreesBut

theorem refl (line : Timeline) : AgreesBut foreign line line := ⟨rfl, fun _ _ => Iff.rfl, rfl⟩

theorem symm (h : AgreesBut foreign line other) : AgreesBut foreign other line :=
  ⟨h.issued.symm, fun token htoken => (h.cancelled token htoken).symm, h.ahead.symm⟩

theorem trans (h : AgreesBut foreign line other) (hnext : AgreesBut foreign other third) :
    AgreesBut foreign line third :=
  ⟨h.issued.trans hnext.issued,
    fun token htoken => (h.cancelled token htoken).trans (hnext.cancelled token htoken),
    h.ahead.trans hnext.ahead⟩

theorem note (h : AgreesBut foreign line other) (event : TokenEvent) :
    AgreesBut foreign (line.note event) (other.note event) := by
  refine ⟨?_, fun token htoken => ?_, h.ahead⟩
  · rw [Timeline.note, Timeline.note, issuedIn_append, issuedIn_append, h.issued]
  · rw [Timeline.note, Timeline.note, List.mem_append, List.mem_append]
    exact or_congr (h.cancelled token htoken) Iff.rfl

theorem cancel (h : AgreesBut foreign line other) (token : CancelToken) :
    AgreesBut foreign (line.cancel token) (other.cancel token) := by
  rw [Timeline.cancel, Timeline.cancel, ← h.issued]
  split
  · exact h.note _
  · exact h

theorem cancel_foreign (h : AgreesBut foreign line other) {token : CancelToken} (htoken : token ∈ foreign) :
    AgreesBut foreign (line.cancel token) other := by
  rw [Timeline.cancel]
  split
  · refine ⟨?_, fun found hfound => ?_, h.ahead⟩
    · rw [Timeline.note, issuedIn_append, ← h.issued]
      exact List.append_nil _
    · rw [Timeline.note, List.mem_append, ← h.cancelled found hfound]
      refine ⟨fun hmem => hmem.resolve_right fun hlast => ?_, .inl⟩
      cases List.mem_singleton.mp hlast
      exact hfound htoken
  · exact h

/-- What a moment does to foreign tokens makes no difference. -/
theorem foldl_cancel (tokens : List CancelToken) (h : AgreesBut foreign line other) :
    AgreesBut foreign (tokens.foldl Timeline.cancel line)
      ((tokens.filter (· ∉ foreign)).foldl Timeline.cancel other) := by
  induction tokens generalizing line other with
  | nil => exact h
  | cons token rest ih =>
      by_cases htoken : token ∈ foreign
      · rw [List.filter_cons_of_neg (by simpa using htoken)]
        exact ih (h.cancel_foreign htoken)
      · rw [List.filter_cons_of_pos (by simpa using htoken)]
        exact ih (h.cancel token)

theorem tick (h : AgreesBut foreign line other) : AgreesBut foreign line.tick other.tick := by
  have hahead := h.ahead
  rw [Timeline.tick, Timeline.tick]
  cases hline : line.ahead with
  | nil =>
      rw [hline, List.map_nil, eq_comm, List.map_eq_nil_iff] at hahead
      rw [hahead]
      exact h
  | cons moment ahead =>
      rw [hline, List.map_cons, eq_comm, List.map_eq_cons_iff] at hahead
      obtain ⟨twin, rest, hother, htwin, hrest⟩ := hahead
      rw [hother]
      have hbegin : AgreesBut foreign { line with ahead } { other with ahead := rest } :=
        ⟨h.issued, h.cancelled, hrest.symm⟩
      have hfirst := hbegin.foldl_cancel moment.cancels
      rw [show moment.cancels.filter (· ∉ foreign) = twin.cancels.filter (· ∉ foreign) from
        congrArg Moment.cancels htwin.symm] at hfirst
      exact hfirst.trans ((refl _).foldl_cancel twin.cancels).symm

theorem isPolled (h : AgreesBut foreign line other) : line.isPolled = other.isPolled := by
  have hhead := congrArg (fun ahead : List Moment => ahead.head?.any Moment.isPolled) h.ahead
  simp only [List.head?_map, Option.any_map] at hhead
  exact hhead

end AgreesBut

theorem agreesBut_spare (foreign : List CancelToken) (line : Timeline) :
    AgreesBut foreign line (line.spare foreign) := by
  refine ⟨rfl, fun _ _ => Iff.rfl, ?_⟩
  rw [spare, List.map_map]
  refine List.map_congr_left fun moment _ => ?_
  rw [Function.comp_apply, without, without, List.filter_filter]
  simp only [Bool.and_self]

end Timeline

/-- No foreign token covers a token. -/
def CancelToken.Apart (foreign : List CancelToken) (token : CancelToken) : Prop :=
  ∀ above, above.Covers token → above ∉ foreign

namespace CancelToken.Apart

variable {foreign : List CancelToken} {token : CancelToken} {line other : Timeline}

theorem isCancelled (h : token.Apart foreign) (hlines : line.AgreesBut foreign other) :
    line.isCancelled token = other.isCancelled token := by
  rw [Timeline.isCancelled, Timeline.isCancelled, Bool.eq_iff_iff, isCancelled_iff, isCancelled_iff]
  refine exists_congr fun above => and_congr_left fun hcovers => ?_
  exact hlines.cancelled above (h above hcovers)

theorem derive (h : token.Apart foreign) (hconsistent : Consistent line.past)
    (hknown : ∀ token ∈ foreign, token ∈ issuedIn line.past) :
    (token.derive line.next).Apart foreign := by
  intro above hcovers
  rcases covers_derive_iff.mp hcovers with rfl | hcovers
  · exact fun hforeign => hconsistent.fresh rfl (hknown _ hforeign)
  · exact h above hcovers

end CancelToken.Apart

/-! ## States that differ in foreign tokens -/

namespace Exposed

/-- Two states of a build differ in nothing but what happened to foreign tokens. -/
structure Twins (foreign : List CancelToken) (state other : Exposed) : Prop where
  other_eq : other = { state with line := other.line }
  lines : state.line.AgreesBut foreign other.line
  apart : state.token.Apart foreign
  consistent : Consistent state.line.past
  known : ∀ token ∈ foreign, token ∈ issuedIn state.line.past

namespace Twins

variable {foreign : List CancelToken} {state other : Exposed}

/-- The same is done to both states, and the timelines go on. -/
theorem goOn (h : Twins foreign state other) {next last : Exposed}
    (hother : last = { next with line := last.line }) (hlines : next.line.AgreesBut foreign last.line)
    (htoken : next.token = state.token) (hleads : state.line.Leads next.line) :
    Twins foreign next last :=
  { other_eq := hother
    lines := hlines
    apart := htoken ▸ h.apart
    consistent := hleads.consistent h.consistent
    known := fun token htoken => issuedIn_mono hleads.past (h.known token htoken) }

theorem withRunning (h : Twins foreign state other) (running : Running) :
    Twins foreign { state with running } { other with running } := by
  refine h.goOn ?_ h.lines rfl (.refl _)
  rw [h.other_eq]

theorem withStage (h : Twins foreign state other) (stage : Stage) :
    Twins foreign { state with stage } { other with stage } := by
  refine h.goOn ?_ h.lines rfl (.refl _)
  rw [h.other_eq]

theorem tick (h : Twins foreign state other) : Twins foreign state.tick other.tick := by
  refine h.goOn ?_ h.lines.tick rfl state.line.leads_tick
  rw [Exposed.tick, Exposed.tick, h.other_eq]
  dsimp only
  rw [h.apart.isCancelled h.lines.tick]

theorem look (h : Twins foreign state other) : Twins foreign state.look other.look := by
  refine h.goOn ?_ h.lines rfl (.refl _)
  rw [Exposed.look, Exposed.look, h.other_eq]

theorem pass (h : Twins foreign state other) : Twins foreign state.pass other.pass := by
  rw [Exposed.pass, Exposed.pass, h.lines.isPolled]
  split
  · exact h.tick.look
  · exact h.tick

theorem begin (h : Twins foreign state other) (stage : Stage) (isFirst : Bool) :
    Twins foreign (state.begin stage isFirst) (other.begin stage isFirst) := by
  rw [Exposed.begin, Exposed.begin]
  split
  · exact (h.pass.withStage stage).look
  · exact h.pass

theorem absorb (h : Twins foreign state other) (running : Running) :
    Twins foreign (state.absorb running) (other.absorb running) := by
  refine h.goOn ?_ ?_ rfl (state.leads_absorb running)
  · rw [Exposed.absorb, Exposed.absorb, h.other_eq]
  · rw [Exposed.absorb, Exposed.absorb, h.other_eq]
    dsimp only
    split
    · exact h.lines.cancel _
    · exact h.lines

end Twins

end Exposed

/-! ## Builds -/

namespace World

open Exposed

variable {foreign : List CancelToken} {world : World} {plan : BuildPlan}
  {nested : BuildPlan → CancelToken → Session → Timeline → Option (Ended × Session × Timeline)}

/-- Builds end in the same way whatever happens to foreign tokens. -/
def Unmoved (foreign : List CancelToken)
    (nested : BuildPlan → CancelToken → Session → Timeline → Option (Ended × Session × Timeline)) :
    Prop :=
  ∀ plan token session line other ended after later, line.AgreesBut foreign other →
    token.Apart foreign → Consistent line.past → (∀ token ∈ foreign, token ∈ issuedIn line.past) →
      nested plan token session line = some (ended, after, later) →
        ∃ last, nested plan token session other = some (ended, after, last) ∧
          later.AgreesBut foreign last

theorem twins_resolveExposed {state other : Exposed} (h : Twins foreign state other)
    (importer : Option ModuleId) (specifier : String) (form : Scan.ImportForm) :
    (world.resolveExposed plan importer specifier form state).1 =
        (world.resolveExposed plan importer specifier form other).1 ∧
      Twins foreign (world.resolveExposed plan importer specifier form state).2
        (world.resolveExposed plan importer specifier form other).2 := by
  have hstage : other.stage = state.stage := by rw [h.other_eq]
  have hbegun := h.begin .resolving (state.stage = .scanning)
  rw [resolveExposed, resolveExposed, hstage]
  dsimp only
  generalize state.begin .resolving (state.stage = .scanning) = begun at hbegun ⊢
  generalize other.begin .resolving (state.stage = .scanning) = twin at hbegun ⊢
  have hdropped : twin.isDropped = begun.isDropped := by rw [hbegun.other_eq]
  have hrunning : twin.running = begun.running := by rw [hbegun.other_eq]
  by_cases hgiven : begun.isDropped = true
  · rw [if_pos hgiven, if_pos (hdropped.trans hgiven)]
    exact ⟨rfl, hbegun⟩
  · rw [if_neg hgiven, if_neg (hdropped ▸ hgiven), hrunning]
    exact ⟨rfl, (hbegun.withRunning _).pass⟩

theorem twins_scanExposed {state other : Exposed} (h : Twins foreign state other) (id : ModuleId)
    (loaded : Loaded) :
    (world.scanExposed plan id loaded state).1 = (world.scanExposed plan id loaded other).1 ∧
      Twins foreign (world.scanExposed plan id loaded state).2
        (world.scanExposed plan id loaded other).2 := by
  have hbegun := (h.withStage .scanning).tick
  rw [scanExposed, scanExposed]
  generalize Exposed.tick { state with stage := .scanning } = begun at hbegun ⊢
  generalize Exposed.tick { other with stage := .scanning } = twin at hbegun ⊢
  have hrunning : twin.running = begun.running := by rw [hbegun.other_eq]
  dsimp only
  rw [hrunning]
  exact ⟨rfl, (hbegun.withRunning _).tick⟩

theorem twins_nestExposed (hnested : Unmoved foreign nested) (hadvances : Advances nested)
    {resolved : Resolved} {job : Worklet.Job Nat} {state other next : Exposed}
    {result : Except Report Loaded} (h : Twins foreign state other)
    (hnest : nestExposed plan nested resolved job state = some (result, next)) :
    ∃ last, nestExposed plan nested resolved job other = some (result, last) ∧
      Twins foreign next last := by
  have hnext : other.line.next = state.line.next := by
    rw [Timeline.next, Timeline.next, h.lines.issued]
  have htoken : other.token = state.token := by rw [h.other_eq]
  have hrunning : other.running = state.running := by rw [h.other_eq]
  rw [nestExposed] at hnest ⊢
  dsimp only at hnest ⊢
  rw [Option.map_eq_some_iff] at hnest
  obtain ⟨⟨ended, session, line⟩, hended, heq⟩ := hnest
  have hissued := state.line.leads_issued (rfl : (state.token.derive state.line.next).number = _)
  have hapart := h.apart.derive h.consistent h.known
  obtain ⟨last, hlast, hlines⟩ := hnested _ _ _ _ _ _ _ _
    (h.lines.note (.issued (state.token.derive state.line.next))) hapart
    (hissued.consistent h.consistent)
    (fun token htoken => issuedIn_mono hissued.past (h.known token htoken)) hended
  rw [htoken, hnext, hrunning, hlast, Option.map_some]
  dsimp only at heq ⊢
  rw [← hapart.isCancelled hlines]
  cases heq
  refine ⟨_, rfl, h.goOn ?_ hlines rfl (hissued.trans (hadvances _ _ _ _ _ _ _ hended))⟩
  rw [h.other_eq]

theorem twins_loadExposed (hnested : Unmoved foreign nested) (hadvances : Advances nested) :
    Loader.Follows (fun _ => True) (Twins foreign) (world.exposedSteps plan nested).load
      (world.exposedSteps plan nested).load := by
  intro resolved state other result next _ h hload
  change ∃ last, world.loadExposed plan nested resolved other = some (result, last) ∧ _
  change world.loadExposed plan nested resolved state = some (result, next) at hload
  have hstage : other.stage = state.stage := by rw [h.other_eq]
  have hbegun := h.begin .loading (state.stage ≠ .loading)
  rw [loadExposed] at hload ⊢
  rw [hstage]
  generalize state.begin .loading (state.stage ≠ .loading) = begun at hbegun hload
  generalize other.begin .loading (state.stage ≠ .loading) = twin at hbegun ⊢
  have hdropped : twin.isDropped = begun.isDropped := by rw [hbegun.other_eq]
  have hrunning : twin.running = begun.running := by rw [hbegun.other_eq]
  rw [loadBegun] at hload ⊢
  split at hload
  · rename_i hgiven
    cases hload
    exact ⟨twin, if_pos (hdropped.trans hgiven), hbegun⟩
  · rename_i hgoes
    rw [if_neg (hdropped ▸ hgoes), hrunning]
    split at hload
    · cases hload
      exact ⟨_, rfl, (hbegun.absorb _).pass⟩
    · rename_i job running _
      rw [Option.map_eq_some_iff] at hload
      obtain ⟨⟨answer, reached⟩, hnest, heq⟩ := hload
      cases heq
      obtain ⟨last, hlast, htwins⟩ :=
        twins_nestExposed hnested hadvances (hbegun.withRunning running).tick hnest
      dsimp only
      rw [hlast, Option.map_some]
      exact ⟨_, rfl, htwins.pass⟩

theorem simulates_twins (hnested : Unmoved foreign nested) (hadvances : Advances nested) :
    Loader.Simulates (world.exposedSteps plan nested) (world.exposedSteps plan nested)
      (Twins foreign) (fun _ => True) (fun _ => True) where
  resolve importer specifier form _ _ h := twins_resolveExposed h importer specifier form
  load := twins_loadExposed hnested hadvances
  scan id loaded _ _ _ h := twins_scanExposed h id loaded
  stableId _ := rfl
  isCancelled h := by
    rw [h.other_eq]
    rfl

theorem twins_concludeExposed {state other : Exposed} (h : Twins foreign state other)
    (result : Except LoadFailure Graph) :
    (concludeExposed plan result state).1 = (concludeExposed plan result other).1 ∧
      (concludeExposed plan result state).2.1 = (concludeExposed plan result other).2.1 ∧
      (concludeExposed plan result state).2.2.AgreesBut foreign
        (concludeExposed plan result other).2.2 := by
  have htoken : other.token = state.token := by rw [h.other_eq]
  have hrunning : other.running = state.running := by rw [h.other_eq]
  cases result with
  | error failure =>
      rw [concludeExposed, concludeExposed, hrunning]
      exact ⟨rfl, rfl, h.lines.tick⟩
  | ok graph =>
      have hlines := (h.lines.tick.note (.scanned state.token)).tick
      rw [concludeExposed, concludeExposed, hrunning, htoken]
      dsimp only
      rw [h.apart.isCancelled hlines]
      exact ⟨rfl, rfl, hlines.tick⟩

theorem unmoved_runExposed (world : World) (limit : Nat) (foreign : List CancelToken) :
    Unmoved foreign (world.runExposed limit) := by
  induction limit with
  | zero =>
      intro _ _ _ _ _ _ _ _ _ _ _ _ hrun
      cases hrun
  | succ limit ih =>
      intro plan token session line other ended after later hlines hapart hconsistent hknown hrun
      rw [runExposed] at hrun ⊢
      dsimp only at hrun ⊢
      rw [← hapart.isCancelled hlines.tick]
      have hleads := line.leads_tick
      split at hrun
      · cases hrun
        exact ⟨_, rfl, hlines.tick.tick⟩
      · rename_i entries running _
        rw [Option.map_eq_some_iff] at hrun
        obtain ⟨⟨result, state⟩, hload, hended⟩ := hrun
        have hbegin : Twins foreign { running, token, line := line.tick }
            { running, token, line := other.tick } :=
          ⟨rfl, hlines.tick, hapart, hleads.consistent hconsistent,
            fun token htoken => issuedIn_mono hleads.past (hknown token htoken)⟩
        obtain ⟨last, hlast, htwins, _⟩ :=
          (simulates_twins ih (world.advances_runExposed limit)).load_corresponds
            (Nat.le_refl limit) entries _ _ (.always _) hbegin.tick hload
        obtain ⟨houtcome, hsession, hagree⟩ := @twins_concludeExposed foreign plan state last htwins
          result
        dsimp only at hended ⊢
        rw [hlast, Option.map_some]
        rw [hended] at houtcome hsession hagree
        refine ⟨(concludeExposed plan result last).2.2, ?_, hagree⟩
        exact congrArg some (Prod.ext houtcome.symm (Prod.ext hsession.symm rfl))

end World

end WebBundle

import WebBundle.Proofs.Build.Partition
import WebBundle.Proofs.Cancellation.Spared

/-!
# Builds that nobody outside cancels

If nothing is ahead on the timeline, an exposed build does what a build does: only its own hooks
cancel it then, and it gives up the wave in which they do.
-/

namespace WebBundle

/-- What was cancelled since a start is covered by a token. -/
def CancelsBelow (start past : List TokenEvent) (token : CancelToken) : Prop :=
  ∀ other, .cancelled other ∈ past → .cancelled other ∈ start ∨ token.Covers other

namespace CancelsBelow

variable {start past later : List TokenEvent} {token : CancelToken}

theorem refl (past : List TokenEvent) (token : CancelToken) : CancelsBelow past past token :=
  fun _ hother => .inl hother

theorem trans (h : CancelsBelow start past token) (hnext : CancelsBelow past later token) :
    CancelsBelow start later token :=
  fun other hother => (hnext other hother).elim (h other) .inr

theorem covered {above : CancelToken} (h : CancelsBelow start past token) (hcovers : above.Covers token) :
    CancelsBelow start past above :=
  fun other hother => (h other hother).imp_right hcovers.trans

/-- An event that cancels nothing else. -/
theorem snoc {event : TokenEvent} (hevent : ∀ other, event = .cancelled other → token.Covers other) :
    CancelsBelow past (past ++ [event]) token := by
  intro other hother
  rcases List.mem_append.mp hother with hother | hother
  · exact .inl hother
  · exact .inr (hevent other (List.mem_singleton.mp hother).symm)

/-- Tokens that cover the one below which tokens were cancelled stay as they were. -/
theorem isCancelled_eq {number : Nat} (h : CancelsBelow start past (token.derive number))
    (hpast : start <+: past) : token.isCancelled past = token.isCancelled start := by
  rw [Bool.eq_iff_iff]
  refine ⟨fun hcancelled => ?_, CancelToken.isCancelled_mono hpast⟩
  obtain ⟨other, hevent, hcovers⟩ := CancelToken.isCancelled_iff.mp hcancelled
  rcases h other hevent with hevent | hbelow
  · exact CancelToken.isCancelled_iff.mpr ⟨other, hevent, hcovers⟩
  · have hlength := (hbelow.trans hcovers).length_le
    simp [CancelToken.derive, CancelToken.path] at hlength

end CancelsBelow

namespace World

variable {world : World} {plan : BuildPlan}

/-! ## Flags -/

/-- What a hook may do to the flags of its build: a build that it cancels waits. -/
structure FlagsStep (running next : Running) : Prop where
  isCancelled : running.isCancelled = true → next.isCancelled = true
  hasWaited : running.hasWaited = true → next.hasWaited = true
  waits : next.isCancelled = true → running.isCancelled = true ∨ next.hasWaited = true

theorem FlagsStep.of_eq {running next : Running} (hcancelled : next.isCancelled = running.isCancelled)
    (hwaited : next.hasWaited = running.hasWaited) : FlagsStep running next :=
  ⟨fun h => hcancelled ▸ h, fun h => hwaited ▸ h, fun h => .inl (hcancelled ▸ h)⟩

theorem flags_loading (world : World) (plan : BuildPlan) (resolved : Resolved)
    (plugins : List Numbered) (running : Running) :
    FlagsStep running (world.loading plan resolved plugins running).running ∧
      ∀ job next, world.loading plan resolved plugins running = .nested job next →
        next.isCancelled = running.isCancelled ∧ next.hasWaited = running.hasWaited := by
  induction plugins generalizing running with
  | nil => exact ⟨.of_eq rfl rfl, fun _ _ h => Loading.noConfusion h⟩
  | cons numbered rest ih =>
      rw [loading]
      cases numbered.plugin with
      | plain => exact ih running
      | worklets settings =>
          dsimp only
          split
          · exact ⟨.of_eq rfl rfl, fun _ _ h => Loading.noConfusion h⟩
          · exact ih running
          · refine ⟨.of_eq rfl rfl, fun _ _ h => ?_⟩
            cases h
            exact ⟨rfl, rfl⟩
      | ruled rules =>
          dsimp only
          split
          · obtain ⟨hflags, hnested⟩ := ih { running with session := { running.session with
              plugins := running.session.plugins.record rules.name (.load resolved.id) } }
            exact ⟨⟨hflags.isCancelled, hflags.hasWaited, hflags.waits⟩, hnested⟩
          · exact ⟨⟨fun _ => rfl, fun _ => rfl, fun _ => .inr rfl⟩,
              fun _ _ h => Loading.noConfusion h⟩
          · exact ⟨.of_eq rfl rfl, fun _ _ h => Loading.noConfusion h⟩
          · exact ⟨.of_eq rfl rfl, fun _ _ h => Loading.noConfusion h⟩

theorem flags_finishLoading (plan : BuildPlan) (resolved : Resolved) (job : Worklet.Job Nat)
    (ended : Ended) (running : Running) :
    (finishLoading plan resolved job ended running).2.isCancelled = running.isCancelled ∧
      (running.hasWaited = true →
        (finishLoading plan resolved job ended running).2.hasWaited = true) := by
  have hwaits : running.hasWaited = true → (running.hasWaited || ended.hasWaited) = true :=
    fun h => Bool.or_eq_true_iff.mpr (.inl h)
  rw [finishLoading]
  dsimp only
  rw [concludeWorklet]
  dsimp only
  split
  · split <;> exact ⟨rfl, hwaits⟩
  · split
    · split <;> exact ⟨rfl, hwaits⟩
    · split <;> exact ⟨rfl, hwaits⟩
  · split <;> exact ⟨rfl, hwaits⟩

/-! ## Quiet states -/

/-- An exposed build with nothing ahead, which does what a build does: if it is cancelled, it is so
by a hook and loads the rest of its wave. -/
structure QuietAt (start : Timeline) (token : CancelToken) (running : Running) (state : Exposed) :
    Prop where
  running_eq : state.running = running
  token_eq : state.token = token
  leads : start.Leads state.line
  ahead : state.line.ahead = []
  isCancelled_eq : state.line.isCancelled token = running.isCancelled
  below : CancelsBelow start.past state.line.past token
  isDropped : state.isDropped = false
  waits : running.isCancelled = true → state.stage = .loading ∧ running.hasWaited = true

variable {start : Timeline} {token : CancelToken} {running : Running} {state : Exposed}

theorem tick_of_nil {line : Timeline} (hahead : line.ahead = []) : line.tick = line := by
  rw [Timeline.tick, hahead]

namespace QuietAt

/-- A moment in which nothing happens changes nothing. -/
theorem tick (h : QuietAt start token running state) : state.tick = state := by
  have hflag : state.line.isCancelled state.token = state.running.isCancelled := by
    rw [h.token_eq, h.isCancelled_eq, h.running_eq]
  rw [Exposed.tick]
  dsimp only
  rw [tick_of_nil h.ahead, hflag]

theorem pass (h : QuietAt start token running state) : state.pass = state := by
  have hpolled : state.line.isPolled = false := by
    rw [Timeline.isPolled, h.ahead]
    rfl
  rw [Exposed.pass, hpolled, if_neg Bool.false_ne_true, h.tick]

/-- A build that is not cancelled yet may look at its token. -/
theorem begin (h : QuietAt start token running state) (stage : Stage) {isFirst : Bool}
    (hfirst : isFirst = true → running.isCancelled = false) :
    QuietAt start token running (state.begin stage isFirst) := by
  cases isFirst with
  | false =>
      rw [Exposed.begin, if_neg Bool.false_ne_true, h.pass]
      exact h
  | true =>
      have hnot := hfirst rfl
      rw [Exposed.begin, if_pos rfl, h.pass]
      exact
        { h with
          isDropped := by
            change (state.isDropped || state.running.isCancelled) = false
            rw [h.isDropped, h.running_eq, hnot, Bool.or_self]
          waits := fun hcancelled => by rw [hnot] at hcancelled; cases hcancelled }

theorem withRunning (h : QuietAt start token running state) {next : Running}
    (hcancelled : next.isCancelled = running.isCancelled)
    (hwaited : running.hasWaited = true → next.hasWaited = true) :
    QuietAt start token next { state with running := next } :=
  { h with
    running_eq := rfl
    isCancelled_eq := h.isCancelled_eq.trans hcancelled.symm
    waits := fun hnext =>
      have hwaits := h.waits (hcancelled ▸ hnext)
      ⟨hwaits.1, hwaited hwaits.2⟩ }

theorem not_isDropped (h : QuietAt start token running state) : ¬ state.isDropped = true := by
  rw [h.isDropped]
  exact Bool.false_ne_true

theorem not_isCancelled (h : QuietAt start token running state) (hstage : state.stage ≠ .loading) :
    running.isCancelled = false := by
  rw [Bool.eq_false_iff]
  exact fun hcancelled => hstage (h.waits hcancelled).1

/-- A hook that cancels its build cancels the token; the build waits. -/
theorem absorb (h : QuietAt start token running state) (htoken : token ∈ issuedIn start.past)
    (hstage : state.stage = .loading) {next : Running} (hflags : FlagsStep running next) :
    QuietAt start token next (state.absorb next) := by
  have hleads := state.leads_absorb next
  have hissued : state.token ∈ issuedIn state.line.past := by
    rw [h.token_eq]
    exact issuedIn_mono h.leads.past htoken
  have hwaits : next.isCancelled = true → next.hasWaited = true := fun hnext =>
    (hflags.waits hnext).elim (fun hcancelled => hflags.hasWaited (h.waits hcancelled).2) id
  by_cases hnew : (next.isCancelled && !state.running.isCancelled) = true
  · have hline : (state.absorb next).line = state.line.cancel token := by
      rw [Exposed.absorb, if_pos hnew, h.token_eq]
    rw [h.token_eq] at hissued
    have hpast : (state.line.cancel token).past = state.line.past ++ [.cancelled token] := by
      rw [Timeline.cancel, if_pos hissued]
      rfl
    refine ⟨rfl, h.token_eq, h.leads.trans hleads, ?_, ?_, ?_, h.isDropped,
      fun hnext => ⟨hstage, hwaits hnext⟩⟩
    · rw [hline, Timeline.cancel, if_pos hissued]
      exact h.ahead
    · rw [hline, Timeline.isCancelled_cancel hissued]
      exact (Bool.and_eq_true_iff.mp hnew).1.symm
    · rw [hline, hpast]
      refine h.below.trans (.snoc fun other hother => ?_)
      cases hother
      exact token.covers_refl
  · have hline : (state.absorb next).line = state.line := by
      rw [Exposed.absorb, if_neg hnew]
    refine ⟨rfl, h.token_eq, h.leads.trans hleads, ?_, ?_, ?_, h.isDropped,
      fun hnext => ⟨hstage, hwaits hnext⟩⟩
    · rw [hline]
      exact h.ahead
    · rw [hline, h.isCancelled_eq, Bool.eq_iff_iff]
      refine ⟨hflags.isCancelled, fun hnext => ?_⟩
      rw [hnext, h.running_eq, Bool.true_and, Bool.not_eq_true', Bool.not_eq_false] at hnew
      exact hnew
    · rw [hline]
      exact h.below

end QuietAt

theorem stage_begin_loading (state : Exposed) :
    (state.begin .loading (decide (state.stage ≠ .loading))).stage = .loading := by
  by_cases hstage : state.stage = .loading
  · have hfirst : decide (state.stage ≠ .loading) = false := decide_eq_false (not_not.mpr hstage)
    rw [hfirst, Exposed.begin, if_neg Bool.false_ne_true, Exposed.pass]
    split <;> exact hstage
  · rw [decide_eq_true hstage]
    rfl

/-! ## Quiet searches -/

section Search

variable {nested : BuildPlan → Bool → Session → Option (Ended × Session)}
  {exposed : BuildPlan → CancelToken → Session → Timeline → Option (Ended × Session × Timeline)}

/-- Builds that run as they do when nothing is ahead. -/
structure QuietEnd (line later : Timeline) (token : CancelToken) (ended : Ended) : Prop where
  leads : line.Leads later
  ahead : later.ahead = []
  below : CancelsBelow line.past later.past token
  reports : ∀ reports, ended.outcome = .reports reports → later.isCancelled token = false

/-- Exposed builds with nothing ahead end as builds do. -/
def QuietBuilds (nested : BuildPlan → Bool → Session → Option (Ended × Session))
    (exposed : BuildPlan → CancelToken → Session → Timeline → Option (Ended × Session × Timeline)) :
    Prop :=
  ∀ plan token session line ended after, line.ahead = [] → Consistent line.past →
    token ∈ issuedIn line.past →
      nested plan (line.isCancelled token) session = some (ended, after) →
        ∃ later, exposed plan token session line = some (ended, after, later) ∧
          QuietEnd line later token ended

theorem quiet_resolve (world : World) (plan : BuildPlan) (h : QuietAt start token running state)
    (importer : Option ModuleId) (specifier : String) (form : Scan.ImportForm) :
    (world.resolve plan importer specifier form running).1 =
        (world.resolveExposed plan importer specifier form state).1 ∧
      QuietAt start token (world.resolve plan importer specifier form running).2
        (world.resolveExposed plan importer specifier form state).2 := by
  have hbegun := @QuietAt.begin _ _ _ _ h .resolving (decide (state.stage = .scanning))
    fun hstage => h.not_isCancelled (by rw [of_decide_eq_true hstage]; exact Stage.noConfusion)
  rw [resolveExposed]
  dsimp only
  generalize state.begin .resolving (decide (state.stage = .scanning)) = begun at hbegun ⊢
  rw [if_neg hbegun.not_isDropped, hbegun.running_eq]
  have hresolved : QuietAt start token (world.resolve plan importer specifier form running).2
      { begun with running := (world.resolve plan importer specifier form running).2 } := by
    refine hbegun.withRunning ?_ fun hwaited => ?_
    · rw [resolve_snd]
    · rw [resolve_snd]
      exact hwaited
  dsimp only
  rw [hresolved.pass]
  exact ⟨rfl, hresolved⟩

theorem quiet_scan (world : World) (plan : BuildPlan) (h : QuietAt start token running state)
    (hnot : running.isCancelled = false) (id : ModuleId) (loaded : Loaded) :
    (world.scan plan id loaded running).1 = (world.scanExposed plan id loaded state).1 ∧
      QuietAt start token (world.scan plan id loaded running).2
        (world.scanExposed plan id loaded state).2 := by
  have hbegun : QuietAt start token running { state with stage := .scanning } :=
    { h with waits := fun hcancelled => by rw [hnot] at hcancelled; cases hcancelled }
  rw [scanExposed, hbegun.tick]
  dsimp only
  rw [h.running_eq]
  have hscanned : QuietAt start token (world.scan plan id loaded running).2
      { state with
        stage := .scanning
        running := (world.scan plan id loaded running).2 } := by
    refine hbegun.withRunning (isCancelled_scan id loaded running) fun hwaited => ?_
    cases loaded <;> exact hwaited
  rw [hscanned.tick]
  exact ⟨rfl, hscanned⟩

/-- A nested build starts with a new token, which is cancelled if the one above it is. -/
theorem isCancelled_issued {line : Timeline} (h : Consistent line.past) (token : CancelToken) :
    (line.note (.issued (token.derive line.next))).isCancelled (token.derive line.next) =
      line.isCancelled token := by
  rw [Timeline.isCancelled, Timeline.note, CancelToken.isCancelled_append]
  exact (Bool.or_false _).trans (h.isCancelled_derive token)

theorem quiet_nest (hbuilds : QuietBuilds nested exposed) (hstart : Consistent start.past)
    (h : QuietAt start token running state) {resolved : Resolved} {job : Worklet.Job Nat}
    {ended : Ended} {session : Session}
    (hended : nested (innerPlan plan job) running.isCancelled running.session =
      some (ended, session)) :
    ∃ next, nestExposed plan exposed resolved job state =
        some ((finishLoading plan resolved job ended { running with session }).1, next) ∧
      QuietAt start token (finishLoading plan resolved job ended { running with session }).2
        next := by
  have hconsistent := h.leads.consistent hstart
  have hfresh := isCancelled_issued hconsistent token
  rw [h.isCancelled_eq] at hfresh
  obtain ⟨later, hlater, hend⟩ := hbuilds (innerPlan plan job) (token.derive state.line.next)
    running.session (state.line.note (.issued (token.derive state.line.next))) ended session
    h.ahead (hconsistent.issued rfl) (by
      rw [Timeline.note, issuedIn_append]
      exact List.mem_append_right _ (List.mem_singleton_self _))
    (by rw [hfresh]; exact hended)
  have hunder : ended.under (later.isCancelled (token.derive state.line.next)) = ended := by
    rw [Ended.under]
    split
    · rename_i reports hreports
      rw [hend.reports reports hreports, if_neg Bool.false_ne_true]
    · rfl
    · rfl
  refine ⟨{ state with
    running := (finishLoading plan resolved job ended { running with session }).2
    line := later }, ?_, ?_⟩
  · rw [nestExposed]
    dsimp only
    rw [h.token_eq, h.running_eq, hlater, Option.map_some]
    dsimp only
    rw [hunder]
  · obtain ⟨hcancelled, hwaited⟩ := flags_finishLoading plan resolved job ended
      { running with session }
    have hissued := state.line.leads_issued (rfl : (token.derive state.line.next).number = _)
    have hbelow : CancelsBelow state.line.past later.past (token.derive state.line.next) :=
      .trans (.snoc fun _ hother => by cases hother) hend.below
    exact
      { running_eq := rfl
        token_eq := h.token_eq
        leads := h.leads.trans (hissued.trans hend.leads)
        ahead := hend.ahead
        isCancelled_eq := by
          rw [hcancelled, Timeline.isCancelled,
            hbelow.isCancelled_eq (hissued.trans hend.leads).past]
          exact h.isCancelled_eq
        below := h.below.trans (hbelow.covered (token.covers_derive _))
        isDropped := h.isDropped
        waits := fun hnext =>
          have hwaits := h.waits (hcancelled ▸ hnext)
          ⟨hwaits.1, hwaited hwaits.2⟩ }

theorem quiet_load (hbuilds : QuietBuilds nested exposed) (hstart : Consistent start.past)
    (htoken : token ∈ issuedIn start.past) :
    Loader.Follows (fun _ => True) (QuietAt start token) (world.steps plan nested).load
      (world.exposedSteps plan exposed).load := by
  intro resolved running state result next _ h hload
  change ∃ last, world.loadExposed plan exposed resolved state = some (result, last) ∧ _
  have hbegun := @QuietAt.begin _ _ _ _ h .loading (decide (state.stage ≠ .loading))
    fun hstage => h.not_isCancelled (of_decide_eq_true hstage)
  have hstage := stage_begin_loading state
  rw [loadExposed]
  generalize state.begin .loading (decide (state.stage ≠ .loading)) = begun at hbegun hstage ⊢
  rw [loadBegun, if_neg hbegun.not_isDropped, hbegun.running_eq]
  obtain ⟨hflags, hsame⟩ := world.flags_loading plan resolved (world.pluginsOf plan.plugins) running
  rcases load_cases hload with hdone | ⟨job, before, ended, session, hloading, hended, hfinish⟩
  · rw [hdone] at hflags ⊢
    have hafter := hbegun.absorb htoken hstage hflags
    exact ⟨_, rfl, hafter.pass.symm ▸ hafter⟩
  · obtain ⟨hcancelled, hwaited⟩ := hsame job before hloading
    have hbefore := hbegun.withRunning hcancelled fun h => hwaited.trans h
    obtain ⟨last, hnest, hlast⟩ := quiet_nest hbuilds hstart hbefore hended
    rw [hloading]
    dsimp only
    rw [hbefore.tick, hnest, Option.map_some, hfinish]
    rw [hfinish] at hlast
    exact ⟨_, rfl, hlast.pass.symm ▸ hlast⟩

theorem simulates_quiet (hbuilds : QuietBuilds nested exposed) (hstart : Consistent start.past)
    (htoken : token ∈ issuedIn start.past) :
    Loader.Simulates (world.steps plan nested) (world.exposedSteps plan exposed)
      (QuietAt start token) (fun _ => True) (fun visit => visit.2.isCancelled = false) where
  resolve importer specifier form _ _ h := quiet_resolve world plan h importer specifier form
  load := quiet_load hbuilds hstart htoken
  scan id loaded _ _ hnot h := quiet_scan world plan h hnot id loaded
  stableId _ := rfl
  isCancelled {running state} h := by
    change running.isCancelled =
      (state.isDropped || (state.running.hasWaited && state.running.isCancelled))
    rw [h.isDropped, h.running_eq, Bool.false_or]
    cases hcancelled : running.isCancelled with
    | false => rw [Bool.and_false]
    | true => rw [(h.waits hcancelled).2, Bool.and_self]

end Search

/-! ## Quiet builds -/

theorem quiet_conclude {result : Except LoadFailure Graph} (h : QuietAt start token running state)
    (hnot : result ≠ .error .cancelled → running.isCancelled = false) :
    ∃ later, concludeExposed plan result state =
        ((conclude plan result running).1, (conclude plan result running).2, later) ∧
      QuietEnd start later token (conclude plan result running).1 := by
  cases result with
  | error failure =>
      refine ⟨state.line, ?_, h.leads, h.ahead, h.below, fun reports hreports => ?_⟩
      · rw [concludeExposed, h.running_eq, tick_of_nil h.ahead]
      · rw [h.isCancelled_eq]
        refine hnot fun hfailure => ?_
        cases hfailure
        cases hreports
  | ok graph =>
      have hflag := hnot (by simp)
      have hahead : (state.line.note (.scanned token)).ahead = [] := h.ahead
      have hline : (state.line.note (.scanned token)).isCancelled token = false := by
        rw [Timeline.isCancelled, Timeline.note, CancelToken.isCancelled_append]
        exact (Bool.or_false _).trans (h.isCancelled_eq.trans hflag)
      refine ⟨state.line.note (.scanned token), ?_,
        h.leads.trans (state.line.leads_scanned token), hahead,
        h.below.trans (.snoc fun _ hother => by cases hother), fun _ _ => hline⟩
      rw [concludeExposed, h.token_eq, h.running_eq, tick_of_nil h.ahead, tick_of_nil hahead]
      dsimp only
      rw [hline, if_neg Bool.false_ne_true, tick_of_nil hahead]

/-- If nothing is ahead, an exposed build ends as a build does. -/
theorem quiet_run (world : World) (limit : Nat) :
    QuietBuilds (world.run limit) (world.runExposed limit) := by
  induction limit with
  | zero =>
      intro _ _ _ _ _ _ _ _ _ hrun
      cases hrun
  | succ limit ih =>
      intro plan token session line ended after hahead hconsistent htoken hrun
      change world.runFrom (limit + 1) ⟨plan, line.isCancelled token, session⟩ =
        some (ended, after) at hrun
      rw [runFrom_succ] at hrun
      rw [runExposed]
      dsimp only
      rw [tick_of_nil hahead]
      cases hopening : world.opening ⟨plan, line.isCancelled token, session⟩ with
      | error given =>
          simp only [hopening, Option.some.injEq] at hrun
          subst hrun
          dsimp only
          rw [tick_of_nil hahead]
          refine ⟨line, rfl, .refl line, hahead, .refl _ _, fun reports hreports => ?_⟩
          rw [Bool.eq_false_iff]
          intro hcancelled
          rw [(outcome_of_opening hopening).2.mpr hcancelled] at hreports
          cases hreports
      | ok opened =>
          obtain ⟨entries, running⟩ := opened
          simp only [hopening, Option.map_eq_some_iff] at hrun
          obtain ⟨⟨result, last⟩, hload, hconclude⟩ := hrun
          obtain ⟨plugins, hrunning⟩ := (world.opening_session _).2 _ _ hopening
          have hnot : line.isCancelled token = false := (opening_eq_ok hopening).1
          have hbegin : QuietAt line token running { running, token, line } := by
            refine ⟨rfl, rfl, .refl line, hahead, ?_, .refl _ _, rfl, fun hcancelled => ?_⟩
            · rw [hrunning]
              exact hnot
            · rw [hrunning] at hcancelled
              cases hcancelled
          have hscan : ∀ id loaded state, (world.steps plan (world.run limit)).isCancelled
              ((world.steps plan (world.run limit)).scan id loaded state).2 =
                (world.steps plan (world.run limit)).isCancelled state :=
            fun id loaded state => isCancelled_scan id loaded state
          obtain ⟨state, hstate, hend, _⟩ :=
            (simulates_quiet ih hconsistent htoken).load_corresponds (Nat.le_refl limit) entries
              running { running, token, line }
              ⟨fun _ _ => trivial, Loader.not_isCancelled_of_mem_scans hscan⟩ hbegin hload
          obtain ⟨later, hlater, hquiet⟩ := @quiet_conclude plan line token last state result hend
            fun hresult => Loader.not_isCancelled_of_load hscan hload
              (by rw [hrunning]; rfl) hresult
          dsimp only at hconclude ⊢
          rw [hconclude] at hlater hquiet
          refine ⟨later, ?_, hquiet⟩
          rw [hbegin.tick, hstate, Option.map_some, hlater]

end World

end WebBundle

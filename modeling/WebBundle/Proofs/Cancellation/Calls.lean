import WebBundle.Bundler
import WebBundle.Proofs.Cancellation.Ends
import WebBundle.Proofs.Cancellation.Foreign
import WebBundle.Proofs.Cancellation.Origin
import WebBundle.Proofs.Cancellation.Quiet
import WebBundle.Proofs.Worklet.Distinct

/-!
# Calls that can be cancelled

Whoever has a bundler may take its token at any time, call it again and again, and cancel any token
that was ever taken while a call runs or between two calls.  A token that is found cancelled at the
end of a call is replaced.
-/

namespace WebBundle

/-- A bundler with the token of its next build, and what happens to tokens. -/
structure Host where
  bundler : Bundler
  token : CancelToken
  line : Timeline

/-- A call of a bundler, with the files as they stand by then. -/
structure Call where
  limit : Nat
  files : FileTree
  /-- Whether the files of the build are written. -/
  isWrite : Bool := false

/-- What a call gives. -/
structure Answer where
  outcome : Outcome
  result : Except (List Report) Bundle
  /-- The files after the call. -/
  files : FileTree
  /-- What had happened to tokens when the build had ended. -/
  past : List TokenEvent
  /-- The host of the next call. -/
  host : Host

namespace Answer

/-- Writes the files of a build that succeeded. -/
def put (directory : String) (answer : Answer) : Answer :=
  match answer.result with
  | .error _ => answer
  | .ok bundle =>
    match Bundler.writeAssets directory bundle.assets answer.files with
    | (.ok (), files) => { answer with files }
    | (.error report, files) => { answer with result := .error [report], files }

/-- What there is to see of an answer. -/
def seen (answer : Answer) : Outcome × Except (List Report) Bundle × FileTree :=
  (answer.outcome, answer.result, answer.files)

end Answer

namespace Host

/-- A new bundler with its first token. -/
def start (bundler : Bundler) (ahead : List Moment) : Host :=
  { bundler, token := ⟨0, []⟩, line := { past := [.issued ⟨0, []⟩], ahead } }

/-- Replaces the token of the next build if it is cancelled. -/
def renew (host : Host) : Host :=
  if host.line.isCancelled host.token then
    let token : CancelToken := ⟨host.line.next, []⟩
    { host with token, line := host.line.note (.issued token) }
  else host

/-- The host after a build, with what the build left. -/
def after (host : Host) (session : Session) (line : Timeline) : Host :=
  { host with
    bundler := { host.bundler with
      cache := session.cache, memory := session.plugins, isCancelled := false }
    line }

/-- The answer when the build has ended. -/
def conclude (host : Host) (files : FileTree) (ended : Ended) (session : Session)
    (line : Timeline) : Answer :=
  let session := session.settle
  { outcome := ended.outcome
    result := Bundler.result ended.outcome session.diagnostics
    files
    past := line.past
    host := (host.after session line).renew }

/-- Builds the project. -/
def build (host : Host) (limit : Nat) (files : FileTree) : Option Answer :=
  let session : Session := { cache := host.bundler.cache, plugins := host.bundler.memory }
  (World.runExposed ⟨host.bundler.registry, files⟩ limit host.bundler.plan host.token session
    host.line).map fun (ended, session, line) => host.conclude files ended session line

/-- Answers a call; nothing if its limit is too small. -/
def answer? (host : Host) (call : Call) : Option Answer :=
  let built := host.build call.limit call.files
  if call.isWrite then built.map (Answer.put host.bundler.options.outputDirectory) else built

/-- Answers calls one after the other. -/
def run : List Call → Host → Option (List Answer)
  | [], _ => some []
  | call :: rest, host =>
    (host.answer? call).bind fun answer => (run rest answer.host).map (answer :: ·)

/-- The hosts that calls lead to, whatever is ahead. -/
inductive Reached : Host → Prop
  | start (bundler : Bundler) (ahead : List Moment) : Reached (start bundler ahead)
  | call {host : Host} {call : Call} {answer : Answer} :
      Reached host → host.answer? call = some answer → Reached answer.host

end Host

/-! ## Answers -/

namespace Answer

/-- Writing leaves everything about tokens as it is, and whatever a failed build left. -/
theorem put_spec (directory : String) (answer : Answer) :
    (answer.put directory).outcome = answer.outcome ∧
      (answer.put directory).past = answer.past ∧
      (answer.put directory).host = answer.host ∧
      ∀ reports, answer.result = .error reports → answer.put directory = answer := by
  rw [put]
  split
  · exact ⟨rfl, rfl, rfl, fun _ _ => rfl⟩
  · rename_i bundle hbundle
    have hfailed : ∀ reports, answer.result ≠ .error reports := by
      intro reports hreports
      cases hbundle.symm.trans hreports
    split
    · exact ⟨rfl, rfl, rfl, fun reports hreports => absurd hreports (hfailed reports)⟩
    · exact ⟨rfl, rfl, rfl, fun reports hreports => absurd hreports (hfailed reports)⟩

theorem put_congr {answer other : Answer} (h : answer.seen = other.seen) (directory : String) :
    (answer.put directory).seen = (other.put directory).seen := by
  obtain ⟨houtcome, hrest⟩ := Prod.mk.inj h
  obtain ⟨hresult, hfiles⟩ := Prod.mk.inj hrest
  rw [put, put, ← hresult, ← hfiles]
  split
  · exact h
  · split
    · exact Prod.ext houtcome rfl
    · exact Prod.ext houtcome rfl

end Answer

/-! ## Hosts -/

namespace Host

variable {host other : Host} {call : Call} {answer : Answer}

/-- The build behind an answer. -/
theorem build_eq_some {limit : Nat} {files : FileTree}
    (h : host.build limit files = some answer) :
    ∃ ended session line,
      World.runExposed ⟨host.bundler.registry, files⟩ limit host.bundler.plan host.token
        { cache := host.bundler.cache, plugins := host.bundler.memory } host.line =
          some (ended, session, line) ∧
      answer = host.conclude files ended session line := by
  obtain ⟨⟨ended, session, line⟩, hrun, heq⟩ := Option.map_eq_some_iff.mp h
  exact ⟨ended, session, line, hrun, heq.symm⟩

/-- The build behind a call, and what writing its files changes. -/
theorem answer_eq_some (h : host.answer? call = some answer) :
    ∃ built, host.build call.limit call.files = some built ∧
      answer.outcome = built.outcome ∧ answer.past = built.past ∧ answer.host = built.host ∧
      ∀ reports, built.result = .error reports → answer = built := by
  rw [answer?] at h
  split at h
  · obtain ⟨built, hbuilt, rfl⟩ := Option.map_eq_some_iff.mp h
    exact ⟨built, hbuilt, built.put_spec _⟩
  · exact ⟨answer, h, rfl, rfl, rfl, fun _ _ => rfl⟩

/-- Tokens are in order, and that of the next build is neither cancelled nor derived from another
one. -/
structure Sound (host : Host) : Prop where
  consistent : Consistent host.line.past
  issued : host.token ∈ issuedIn host.line.past
  root : host.token.above = []
  standing : host.line.isCancelled host.token = false

theorem sound_start (bundler : Bundler) (ahead : List Moment) : (start bundler ahead).Sound where
  consistent :=
    { number_lt := fun token htoken => by
        cases List.mem_singleton.mp htoken
        exact Nat.zero_lt_one
      known := fun token htoken => by cases List.mem_singleton.mp htoken }
  issued := List.mem_singleton_self _
  root := rfl
  standing := rfl

theorem renew_of_standing (h : host.line.isCancelled host.token = false) : host.renew = host := by
  rw [renew, h, if_neg Bool.false_ne_true]

/-- A token that is cancelled is replaced by a new one. -/
theorem renew_of_cancelled (h : host.line.isCancelled host.token = true) :
    host.renew = { host with
      token := ⟨host.line.next, []⟩
      line := host.line.note (.issued ⟨host.line.next, []⟩) } := by
  rw [renew, if_pos h]

theorem bundler_renew (host : Host) : host.renew.bundler = host.bundler := by
  rw [renew]
  split <;> rfl

theorem sound_renew (hconsistent : Consistent host.line.past)
    (hissued : host.token ∈ issuedIn host.line.past) (hroot : host.token.above = []) :
    host.renew.Sound := by
  cases hcancelled : host.line.isCancelled host.token with
  | false =>
      rw [renew_of_standing hcancelled]
      exact ⟨hconsistent, hissued, hroot, hcancelled⟩
  | true =>
      rw [renew_of_cancelled hcancelled]
      refine ⟨hconsistent.issued rfl, ?_, rfl, ?_⟩
      · rw [Timeline.note, issuedIn_append]
        exact List.mem_append_right _ (List.mem_singleton_self _)
      · rw [Timeline.isCancelled, Timeline.note, CancelToken.isCancelled_append]
        exact Bool.or_eq_false_iff.mpr ⟨hconsistent.not_isCancelled_root, rfl⟩

namespace Sound

theorem not_cancelled (h : host.Sound) : .cancelled host.token ∉ host.line.past := by
  intro hcancelled
  have hstanding := h.standing
  rw [Timeline.isCancelled, (CancelToken.isCancelled_root_iff h.root).mpr hcancelled] at hstanding
  cases hstanding

theorem of_build (h : host.Sound) {limit : Nat} {files : FileTree}
    (hbuild : host.build limit files = some answer) : answer.host.Sound := by
  obtain ⟨ended, session, line, hrun, rfl⟩ := build_eq_some hbuild
  have hleads := World.advances_runExposed _ _ _ _ _ _ _ _ _ hrun
  exact sound_renew (hleads.consistent h.consistent) (issuedIn_mono hleads.past h.issued) h.root

theorem of_answer (h : host.Sound) (hanswer : host.answer? call = some answer) :
    answer.host.Sound := by
  obtain ⟨built, hbuilt, -, -, hhost, -⟩ := answer_eq_some hanswer
  rw [hhost]
  exact h.of_build hbuilt

end Sound

theorem Reached.sound (h : host.Reached) : host.Sound := by
  induction h with
  | start bundler ahead => exact sound_start bundler ahead
  | call _ hanswer ih => exact ih.of_answer hanswer

theorem options_of_build {limit : Nat} {files : FileTree}
    (hbuild : host.build limit files = some answer) :
    answer.host.bundler.options = host.bundler.options := by
  obtain ⟨ended, session, line, -, rfl⟩ := build_eq_some hbuild
  change (host.after session.settle line).renew.bundler.options = _
  rw [bundler_renew]
  rfl

/-! ## Calls with nothing ahead -/

theorem build_quiet (hsound : host.Sound) (hahead : host.line.ahead = []) {limit : Nat}
    {files : FileTree} {result : Except (List Report) Bundle} {next : Bundler}
    (h : Bundler.generate limit files { host.bundler with isCancelled := false } =
      some (result, next)) :
    ∃ answer, host.build limit files = some answer ∧ answer.result = result ∧
      answer.files = files ∧ answer.host.bundler = next := by
  obtain ⟨⟨ended, session⟩, hrun, heq⟩ := Option.map_eq_some_iff.mp h
  cases heq
  obtain ⟨line, hexposed, -⟩ := World.quiet_run _ _ host.bundler.plan host.token _ host.line _ _
    hahead hsound.consistent hsound.issued (hsound.standing ▸ hrun)
  refine ⟨host.conclude files ended session line, ?_, rfl, rfl, bundler_renew _⟩
  rw [build]
  dsimp only
  rw [hexposed, Option.map_some]

/-- If nobody cancels anything, a call does what the bundler does. -/
theorem answer_quiet (hsound : host.Sound) (hahead : host.line.ahead = []) {limit : Nat}
    {files : FileTree} :
    (∀ result next, Bundler.generate limit files { host.bundler with isCancelled := false } =
        some (result, next) →
      ∃ answer, host.answer? { limit, files } = some answer ∧ answer.result = result ∧
        answer.files = files ∧ answer.host.bundler = next) ∧
    ∀ result written next, Bundler.write limit files { host.bundler with isCancelled := false } =
        some (result, written, next) →
      ∃ answer, host.answer? { limit, files, isWrite := true } = some answer ∧
        answer.result = result ∧ answer.files = written ∧ answer.host.bundler = next := by
  refine ⟨fun result next h => build_quiet hsound hahead h, fun result written next h => ?_⟩
  obtain ⟨⟨given, last⟩, hgenerate, heq⟩ := Option.map_eq_some_iff.mp h
  obtain ⟨built, hbuilt, rfl, rfl, rfl⟩ := build_quiet hsound hahead hgenerate
  refine ⟨built.put host.bundler.options.outputDirectory, ?_, ?_⟩
  · rw [answer?, if_pos rfl, hbuilt, Option.map_some]
  · have hoptions : built.host.bundler.options = host.bundler.options := options_of_build hbuilt
    dsimp only at heq
    rw [hoptions] at heq
    rw [Answer.put]
    cases hresult : built.result with
    | error reports =>
        rw [hresult] at heq
        cases heq
        exact ⟨hresult, rfl, rfl⟩
    | ok bundle =>
        rw [hresult] at heq
        dsimp only at heq ⊢
        cases hwritten : Bundler.writeAssets host.bundler.options.outputDirectory bundle.assets
          built.files with
        | mk outcome last =>
            rw [hwritten] at heq
            cases outcome <;> cases heq <;> exact ⟨rfl, rfl, rfl⟩

/-! ## Calls side by side -/

/-- Two hosts differ in nothing but the cancellations of some tokens. -/
structure AgreesBut (foreign : List CancelToken) (host other : Host) : Prop where
  bundler : other.bundler = host.bundler
  token : other.token = host.token
  lines : host.line.AgreesBut foreign other.line

/-- Tokens that were issued, but not for the next build. -/
def Foreign (foreign : List CancelToken) (host : Host) : Prop :=
  ∀ token ∈ foreign, token ∈ issuedIn host.line.past ∧ token ≠ host.token

theorem Foreign.apart {foreign : List CancelToken} (h : host.Foreign foreign)
    (hroot : host.token.above = []) : host.token.Apart foreign := by
  intro above hcovers hforeign
  exact (h above hforeign).2 ((CancelToken.covers_root_iff hroot).mp hcovers)

/-- The token of the next build may be replaced by a new one. -/
theorem Foreign.renew {foreign : List CancelToken} (h : host.Foreign foreign)
    (hconsistent : Consistent host.line.past) : host.renew.Foreign foreign := by
  cases hcancelled : host.line.isCancelled host.token with
  | false =>
      rw [renew_of_standing hcancelled]
      exact h
  | true =>
      rw [renew_of_cancelled hcancelled]
      intro token htoken
      refine ⟨issuedIn_mono (List.prefix_append _ _) (h token htoken).1, ?_⟩
      rintro rfl
      exact hconsistent.fresh rfl (h _ htoken).1

theorem AgreesBut.renew {foreign : List CancelToken} (h : AgreesBut foreign host other)
    (hapart : host.token.Apart foreign) : AgreesBut foreign host.renew other.renew := by
  have hcancelled : other.line.isCancelled other.token = host.line.isCancelled host.token := by
    rw [h.token]
    exact (hapart.isCancelled h.lines).symm
  have hnext : other.line.next = host.line.next := by
    rw [Timeline.next, Timeline.next, h.lines.issued]
  rw [Host.renew, Host.renew, hcancelled, hnext]
  split
  · exact ⟨h.bundler, rfl, h.lines.note _⟩
  · exact h

/-- Builds of hosts that differ in foreign tokens give answers that look the same. -/
theorem AgreesBut.build {foreign : List CancelToken} (h : AgreesBut foreign host other)
    (hsound : host.Sound) (hforeign : host.Foreign foreign) {limit : Nat} {files : FileTree}
    (hbuild : host.build limit files = some answer) :
    ∃ twin, other.build limit files = some twin ∧ twin.seen = answer.seen ∧
      AgreesBut foreign answer.host twin.host ∧ answer.host.Foreign foreign := by
  obtain ⟨ended, session, line, hrun, rfl⟩ := build_eq_some hbuild
  have hapart := hforeign.apart hsound.root
  have hleads := World.advances_runExposed _ _ _ _ _ _ _ _ _ hrun
  obtain ⟨last, hlast, hlines⟩ := World.unmoved_runExposed _ _ foreign _ _ _ _ _ _ _ _ h.lines
    hapart hsound.consistent (fun token htoken => (hforeign token htoken).1) hrun
  refine ⟨other.conclude files ended session last, ?_, rfl, ?_, ?_⟩
  · rw [Host.build, h.bundler, h.token]
    dsimp only
    rw [hlast, Option.map_some]
  · refine AgreesBut.renew ⟨?_, h.token, hlines⟩ hapart
    rw [after, after, h.bundler]
  · refine Foreign.renew (fun token htoken => ?_) (hleads.consistent hsound.consistent)
    exact ⟨issuedIn_mono hleads.past (hforeign token htoken).1, (hforeign token htoken).2⟩

theorem AgreesBut.answer? {foreign : List CancelToken} (h : AgreesBut foreign host other)
    (hsound : host.Sound) (hforeign : host.Foreign foreign)
    (hanswer : host.answer? call = some answer) :
    ∃ twin, other.answer? call = some twin ∧ twin.seen = answer.seen ∧
      AgreesBut foreign answer.host twin.host ∧ answer.host.Foreign foreign := by
  rw [Host.answer?] at hanswer ⊢
  rw [h.bundler]
  split at hanswer
  · obtain ⟨built, hbuilt, rfl⟩ := Option.map_eq_some_iff.mp hanswer
    obtain ⟨twin, htwin, hseen, hhosts, hnext⟩ := h.build hsound hforeign hbuilt
    rename_i hwrite
    rw [htwin, if_pos hwrite]
    refine ⟨_, rfl, Answer.put_congr hseen _, ?_⟩
    rw [(built.put_spec _).2.2.1, (twin.put_spec _).2.2.1]
    exact ⟨hhosts, hnext⟩
  · rename_i hread
    rw [if_neg hread]
    exact h.build hsound hforeign hanswer

theorem AgreesBut.symm {foreign : List CancelToken} (h : AgreesBut foreign host other) :
    AgreesBut foreign other host :=
  ⟨h.bundler.symm, h.token.symm, h.lines.symm⟩

theorem Foreign.agrees {foreign : List CancelToken} (hforeign : host.Foreign foreign)
    (h : AgreesBut foreign host other) : other.Foreign foreign := by
  intro token htoken
  rw [h.token, ← h.lines.issued]
  exact hforeign token htoken

/-- What was cancelled in one of the two hosts was issued in the other one. -/
theorem AgreesBut.sound {foreign : List CancelToken} (h : AgreesBut foreign host other)
    (hsound : host.Sound) (hforeign : host.Foreign foreign) : other.Sound where
  consistent :=
    { number_lt := h.lines.issued ▸ hsound.consistent.number_lt
      known := fun token htoken => by
        rw [← h.lines.issued]
        by_cases hmem : token ∈ foreign
        · exact (hforeign token hmem).1
        · exact hsound.consistent.known token ((h.lines.cancelled token hmem).mpr htoken) }
  issued := by
    rw [h.token, ← h.lines.issued]
    exact hsound.issued
  root := h.token ▸ hsound.root
  standing := by
    rw [h.token, ← (hforeign.apart hsound.root).isCancelled h.lines]
    exact hsound.standing

/-- Calls that are answered are answered in the same way whatever happens to foreign tokens. -/
theorem AgreesBut.run {foreign : List CancelToken} (calls : List Call) (h : AgreesBut foreign host other)
    (hsound : host.Sound) (hforeign : host.Foreign foreign) {answers : List Answer}
    (hrun : host.run calls = some answers) :
    ∃ twins, other.run calls = some twins ∧ twins.map Answer.seen = answers.map Answer.seen := by
  induction calls generalizing host other answers with
  | nil =>
      cases hrun
      exact ⟨[], rfl, rfl⟩
  | cons call rest ih =>
      rw [Host.run, Option.bind_eq_some_iff] at hrun
      obtain ⟨answer, hanswer, hrest⟩ := hrun
      obtain ⟨later, hlater, rfl⟩ := Option.map_eq_some_iff.mp hrest
      obtain ⟨twin, htwin, hseen, hhosts, hnext⟩ := h.answer? hsound hforeign hanswer
      obtain ⟨twins, htwins, hall⟩ := ih hhosts (hsound.of_answer hanswer) hnext hlater
      refine ⟨twin :: twins, ?_, ?_⟩
      · rw [Host.run, htwin, Option.bind_some, htwins, Option.map_some]
      · rw [List.map_cons, List.map_cons, hseen, hall]

/-- Calls look the same whatever happens to foreign tokens. -/
theorem AgreesBut.run_eq {foreign : List CancelToken} (h : AgreesBut foreign host other)
    (hsound : host.Sound) (hforeign : host.Foreign foreign) (calls : List Call) :
    (other.run calls).map (List.map Answer.seen) = (host.run calls).map (List.map Answer.seen) := by
  cases hrun : host.run calls with
  | some answers =>
      obtain ⟨twins, htwins, hseen⟩ := h.run calls hsound hforeign hrun
      rw [htwins, Option.map_some, Option.map_some, hseen]
  | none =>
      cases htwins : other.run calls with
      | none => rfl
      | some twins =>
          obtain ⟨answers, hanswers, -⟩ := h.symm.run calls (h.sound hsound hforeign)
            (hforeign.agrees h) htwins
          rw [hrun] at hanswers
          cases hanswers

/-! ## Cancellation -/

/-- The tokens of a call: that of its build, and those that are issued while it runs. -/
def Uses (host : Host) (answer : Answer) (token : CancelToken) : Prop :=
  token = host.token ∨ token ∈ issuedIn answer.past ∧ token ∉ issuedIn host.line.past

/-- The tokens that were issued, but not for the next build. -/
def older (host : Host) : List CancelToken :=
  (issuedIn host.line.past).filter (· ≠ host.token)

theorem foreign_older (host : Host) : host.Foreign host.older := by
  intro token htoken
  obtain ⟨hissued, hother⟩ := List.mem_filter.mp htoken
  exact ⟨hissued, of_decide_eq_true hother⟩

/-- The host when nobody cancels those tokens any more. -/
def spare (host : Host) : Host := { host with line := host.line.spare host.older }

theorem agreesBut_spare (host : Host) : AgreesBut host.older host host.spare :=
  ⟨rfl, rfl, Timeline.agreesBut_spare host.older host.line⟩

/-- What the cancellation of tokens does to a call. -/
structure CancelsRightly (host : Host) (call : Call) (answer : Answer) : Prop where
  /-- The call fails and writes nothing if any of its builds was cancelled in time. -/
  fails : ∀ token, host.Uses answer token → CancelledInTime host.line.past answer.past token →
    (∃ reports, answer.result = .error reports) ∧ answer.files = call.files
  /-- It fails as a cancelled one only if its own token was cancelled meanwhile. -/
  own : answer.outcome = .cancelled →
    .cancelled host.token ∈ answer.past ∧ .cancelled host.token ∉ host.line.past
  /-- Nobody else cancels its token than those who have it and the plugins of the bundler. -/
  traced : .cancelled host.token ∈ answer.past →
    (∃ moment ∈ host.line.ahead, host.token ∈ moment.cancels) ∨
      World.CancelsOwn ⟨host.bundler.registry, call.files⟩ host.bundler.plugins
  /-- At no time is its token cancelled together with another one. -/
  alone : ∀ past, past <+: answer.past →
    (host.token.isCancelled past = true ↔ .cancelled host.token ∈ past)
  /-- A token that is cancelled at the end is replaced by a new one, which is not cancelled. -/
  replaced : host.token.isCancelled answer.past = true →
    answer.host.token ∉ issuedIn answer.past ∧
      answer.host.line.isCancelled answer.host.token = false
  kept : host.token.isCancelled answer.past = false → answer.host.token = host.token

theorem fails_of_build (hbuild : host.build call.limit call.files = some answer) {token : CancelToken}
    (huses : host.Uses answer token)
    (hcancelled : CancelledInTime host.line.past answer.past token) :
    (∃ reports, answer.result = .error reports) ∧ answer.files = call.files := by
  obtain ⟨ended, session, line, hrun, rfl⟩ := build_eq_some hbuild
  refine ⟨?_, rfl⟩
  cases hended : ended.outcome with
  | assets assets =>
      obtain ⟨hown, hall⟩ := World.spares_runExposed _ _ _ _ _ _ _ _ _ assets hrun hended
      refine absurd hcancelled (Spared.not_cancelledInTime ?_)
      rcases huses with rfl | ⟨hissued, hnew⟩
      · exact hown
      · exact hall token hissued hnew
  | reports reports => exact ⟨reports, congrArg (Bundler.result · _) hended⟩
  | cancelled => exact ⟨[cancelledReport], congrArg (Bundler.result · _) hended⟩

theorem cancelsRightly_of_build (hsound : host.Sound)
    (hbuild : host.build call.limit call.files = some answer) :
    CancelsRightly host call answer where
  fails _ := fails_of_build hbuild
  own houtcome := by
    obtain ⟨ended, session, line, hrun, rfl⟩ := build_eq_some hbuild
    have hcancelled := World.isCancelled_of_runExposed hrun houtcome
    exact ⟨(CancelToken.isCancelled_root_iff hsound.root).mp hcancelled, hsound.not_cancelled⟩
  traced hcancelled := by
    obtain ⟨ended, session, line, hrun, rfl⟩ := build_eq_some hbuild
    have htraced := World.cancelsInside_runExposed _ _ _ _ _ _ _ _ _ hrun
    rcases htraced.cancelled _ hcancelled with hbefore | houtside | hinside
    · exact absurd hbefore hsound.not_cancelled
    · exact .inl houtside
    · exact .inr (hinside.2 rfl)
  alone _ _ := CancelToken.isCancelled_root_iff hsound.root
  replaced hcancelled := by
    have hnext := (hsound.of_build hbuild).standing
    obtain ⟨ended, session, line, hrun, rfl⟩ := build_eq_some hbuild
    have hleads := World.advances_runExposed _ _ _ _ _ _ _ _ _ hrun
    have htoken : (host.conclude call.files ended session line).host.token = ⟨line.next, []⟩ :=
      congrArg Host.token (@renew_of_cancelled (host.after session.settle line) hcancelled)
    rw [htoken] at hnext ⊢
    exact ⟨(hleads.consistent hsound.consistent).fresh rfl, hnext⟩
  kept hstanding := by
    obtain ⟨ended, session, line, hrun, rfl⟩ := build_eq_some hbuild
    change (host.after session.settle line).renew.token = host.token
    rw [@renew_of_standing (host.after session.settle line) hstanding]
    rfl

theorem cancelsRightly (hsound : host.Sound) (hanswer : host.answer? call = some answer) :
    CancelsRightly host call answer := by
  obtain ⟨built, hbuilt, houtcome, hpast, hhost, hfailed⟩ := answer_eq_some hanswer
  have h := cancelsRightly_of_build hsound hbuilt
  refine ⟨fun token huses hcancelled => ?_, ?_, ?_, ?_, ?_, ?_⟩
  · rw [Uses, hpast] at huses
    rw [hpast] at hcancelled
    obtain ⟨⟨reports, hreports⟩, hfiles⟩ := h.fails token huses hcancelled
    rw [hfailed reports hreports]
    exact ⟨⟨reports, hreports⟩, hfiles⟩
  · rw [houtcome, hpast]
    exact h.own
  · rw [hpast]
    exact h.traced
  · rw [hpast]
    exact h.alone
  · rw [hpast, hhost]
    exact h.replaced
  · rw [hpast, hhost]
    exact h.kept

theorem answer_ne_none {count : Nat} (hdue : host.line.Due host.token count)
    (hlimit : count < call.limit) : ∃ answer, host.answer? call = some answer := by
  have hends := World.ends_runExposed ⟨host.bundler.registry, call.files⟩ call.limit count hlimit
    host.token host.bundler.plan host.token
    { cache := host.bundler.cache, plugins := host.bundler.memory } host.line
    host.token.covers_refl hdue
  obtain ⟨ended, hended⟩ := Option.ne_none_iff_exists'.mp hends
  rw [answer?, build, hended]
  split
  · exact ⟨_, rfl⟩
  · exact ⟨_, rfl⟩

/-- Cancellation, for every host that calls lead to, whatever is cancelled and when.  A call ends if
its token is cancelled or will be, as soon as its limit allows it.  If the token of its build or of
a build that is nested in it is cancelled before the modules of that build are all scanned, the call
fails and writes nothing; it fails as a cancelled one only if its own token is cancelled, which is
never cancelled together with another one.  A token that is cancelled at the end is replaced by a
new one; and no token but that of the next build makes any difference to the calls that follow. -/
theorem cancellation (hhost : host.Reached) :
    (∀ call count, host.line.Due host.token count → count < call.limit →
      ∃ answer, host.answer? call = some answer) ∧
    (∀ call answer, host.answer? call = some answer → CancelsRightly host call answer) ∧
    ∀ other calls, AgreesBut host.older host other →
      (other.run calls).map (List.map Answer.seen) = (host.run calls).map (List.map Answer.seen) :=
  ⟨fun _ _ => answer_ne_none, fun _ _ => cancelsRightly hhost.sound,
    fun _ calls h => h.run_eq hhost.sound host.foreign_older calls⟩

/-- Some moments go by, and then tokens are cancelled. -/
def waitThenCancel (count : Nat) (cancels : List CancelToken) : List Moment :=
  List.replicate count ({} : Moment) ++ [{ cancels := cancels }]

/-- A host that builds worklets.  While the first call runs, the token of its first nested build is
cancelled, and while the second one runs, its own; both are cancelled again later. -/
def lateHost : Host :=
  start { options := World.lateStart.plan.options, registry := [.worklets {}], plugins := [0] }
    (waitThenCancel 14 [⟨1, [0]⟩] ++ waitThenCancel 20 [⟨0, []⟩] ++
      waitThenCancel 20 [⟨0, []⟩, ⟨1, [0]⟩])

/-- A call that writes the files of a project with worklets. -/
def lateCall : Call := { limit := 4, files := World.lateWorklet, isWrite := true }

set_option maxRecDepth 10000 in
/-- The first call fails and keeps its token, and the second one has it replaced.  Later calls would
look the same if nobody cancelled the old tokens again. -/
theorem cancellation_lateHost :
    ∃ first second, lateHost.answer? lateCall = some first ∧
      first.host.answer? lateCall = some second ∧
      CancelledInTime lateHost.line.past first.past ⟨1, [0]⟩ ∧
      (∃ reports, first.result = .error reports) ∧ first.files = lateCall.files ∧
      first.outcome ≠ .cancelled ∧ first.host.token = lateHost.token ∧
      first.host.token.isCancelled second.past = true ∧
      second.host.token ∉ issuedIn second.past ∧
      ∀ calls, (second.host.spare.run calls).map (List.map Answer.seen) =
        (second.host.run calls).map (List.map Answer.seen) := by
  have hcalls : ((lateHost.answer? lateCall).any fun first =>
      first.past = [.issued ⟨0, []⟩, .issued ⟨1, [0]⟩, .cancelled ⟨1, [0]⟩] &&
        (first.host.answer? lateCall).any fun second =>
          first.host.token.isCancelled second.past) = true := by
    decide +kernel
  obtain ⟨first, hfirst, hcalls⟩ := (Option.any_eq_true _ _).mp hcalls
  rw [Bool.and_eq_true, decide_eq_true_eq] at hcalls
  obtain ⟨hpast, hcalls⟩ := hcalls
  obtain ⟨second, hsecond, hcancelled⟩ := (Option.any_eq_true _ _).mp hcalls
  have hreached : lateHost.Reached := .start _ _
  have hone := (cancellation hreached).2.1 lateCall first hfirst
  have htwo := (cancellation (hreached.call hfirst)).2.1 lateCall second hsecond
  have hlater := (cancellation ((hreached.call hfirst).call hsecond)).2.2 second.host.spare
  have hintime : CancelledInTime lateHost.line.past first.past ⟨1, [0]⟩ := by
    rw [hpast]
    exact ⟨_, by decide, List.prefix_refl _, by decide, by decide⟩
  have huses : lateHost.Uses first ⟨1, [0]⟩ := by
    rw [Uses, hpast]
    decide
  obtain ⟨hfailed, hfiles⟩ := hone.fails _ huses hintime
  refine ⟨first, second, hfirst, hsecond, hintime, hfailed, hfiles, ?_, ?_, hcancelled,
    (htwo.replaced hcancelled).1, fun calls => hlater calls second.host.agreesBut_spare⟩
  · intro houtcome
    have hown := (hone.own houtcome).1
    rw [hpast] at hown
    revert hown
    decide
  · refine hone.kept ?_
    rw [hpast]
    decide

end Host

end WebBundle

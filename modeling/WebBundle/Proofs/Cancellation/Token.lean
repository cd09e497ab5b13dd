import Mathlib.Data.List.Infix

/-!
# Cancellation tokens

A build is cancelled by its token.  The token of a nested build is derived from that of the build
around it: it is cancelled together with it, but not the other way round.  What happens to tokens
is kept as a list of events, which tells at any time which tokens exist and which of them are
cancelled.  Between two steps of a build anybody who has a token may cancel it; when this will be
is written on a timeline.
-/

namespace WebBundle

/-- A handle by which builds are cancelled: its number, and the numbers of the tokens that it was
derived from, the nearest one first. -/
structure CancelToken where
  number : Nat
  above : List Nat := []
  deriving DecidableEq, Repr

/-- What happens to tokens. -/
inductive TokenEvent where
  | issued (token : CancelToken)
  | cancelled (token : CancelToken)
  /-- The modules of the build with this token are all found and scanned. -/
  | scanned (token : CancelToken)
  deriving DecidableEq, Repr

/-- The token that an event issues. -/
def TokenEvent.issued? : TokenEvent → Option CancelToken
  | issued token => some token
  | cancelled _ | scanned _ => none

/-- The tokens that exist. -/
def issuedIn (past : List TokenEvent) : List CancelToken := past.filterMap TokenEvent.issued?

namespace CancelToken

/-- The numbers of a token and of those that it was derived from. -/
def path (token : CancelToken) : List Nat := token.number :: token.above

/-- A token that is derived from another one. -/
def derive (token : CancelToken) (number : Nat) : CancelToken := ⟨number, token.path⟩

/-- A token covers itself and all that are derived from it. -/
def Covers (token other : CancelToken) : Prop := token.path <:+ other.path

instance (token other : CancelToken) : Decidable (token.Covers other) :=
  inferInstanceAs (Decidable (token.path <:+ other.path))

/-- Whether an event cancels a token, by itself or with one that covers it. -/
def isHitBy (token : CancelToken) : TokenEvent → Bool
  | .cancelled other => other.Covers token
  | .issued _ | .scanned _ => false

/-- Whether a token is cancelled after some events. -/
def isCancelled (token : CancelToken) (past : List TokenEvent) : Bool := past.any token.isHitBy

theorem covers_refl (token : CancelToken) : token.Covers token := List.suffix_refl _

theorem Covers.trans {token middle other : CancelToken} (h : token.Covers middle)
    (hnext : middle.Covers other) : token.Covers other :=
  List.IsSuffix.trans h hnext

theorem covers_derive (token : CancelToken) (number : Nat) : token.Covers (token.derive number) :=
  List.suffix_cons number token.path

theorem covers_derive_iff {other token : CancelToken} {number : Nat} :
    other.Covers (token.derive number) ↔ other = token.derive number ∨ other.Covers token := by
  rw [Covers, derive, path, path, List.suffix_cons_iff]
  refine or_congr ?_ Iff.rfl
  cases other
  simp only [List.cons.injEq, mk.injEq]

/-- Nothing but itself covers a token that is not derived from another one. -/
theorem covers_root_iff {other token : CancelToken} (hroot : token.above = []) :
    other.Covers token ↔ other = token := by
  obtain ⟨number, above⟩ := token
  cases hroot
  rw [Covers, path, path, List.suffix_cons_iff, List.suffix_nil]
  obtain ⟨_, _⟩ := other
  simp only [List.cons.injEq, reduceCtorEq, or_false, mk.injEq]

theorem isCancelled_iff {token : CancelToken} {past : List TokenEvent} :
    token.isCancelled past = true ↔ ∃ other, .cancelled other ∈ past ∧ other.Covers token := by
  rw [isCancelled, List.any_eq_true]
  constructor
  · rintro ⟨event, hevent, hhit⟩
    cases event with
    | issued _ => cases hhit
    | scanned _ => cases hhit
    | cancelled other => exact ⟨other, hevent, of_decide_eq_true hhit⟩
  · rintro ⟨other, hother, hcovers⟩
    exact ⟨.cancelled other, hother, decide_eq_true hcovers⟩

theorem isCancelled_append (token : CancelToken) (past more : List TokenEvent) :
    token.isCancelled (past ++ more) = (token.isCancelled past || token.isCancelled more) :=
  List.any_append

/-- A cancelled token stays cancelled. -/
theorem isCancelled_mono {token : CancelToken} {past more : List TokenEvent} (h : past <+: more)
    (hcancelled : token.isCancelled past = true) : token.isCancelled more = true := by
  obtain ⟨rest, rfl⟩ := h
  rw [isCancelled_append, hcancelled, Bool.true_or]

/-- What is derived from a cancelled token is cancelled with it. -/
theorem isCancelled_of_covers {token other : CancelToken} {past : List TokenEvent}
    (hcovers : token.Covers other) (hcancelled : token.isCancelled past = true) :
    other.isCancelled past = true := by
  obtain ⟨hit, hevent, hhit⟩ := isCancelled_iff.mp hcancelled
  exact isCancelled_iff.mpr ⟨hit, hevent, hhit.trans hcovers⟩

/-- A token that is not derived from another one is cancelled only by itself. -/
theorem isCancelled_root_iff {token : CancelToken} (hroot : token.above = []) {past : List TokenEvent} :
    token.isCancelled past = true ↔ .cancelled token ∈ past := by
  rw [isCancelled_iff]
  constructor
  · rintro ⟨other, hevent, hcovers⟩
    rwa [← (covers_root_iff hroot).mp hcovers]
  · exact fun hevent => ⟨token, hevent, token.covers_refl⟩

end CancelToken

/-! ## What is issued -/

theorem issuedIn_append (past more : List TokenEvent) :
    issuedIn (past ++ more) = issuedIn past ++ issuedIn more :=
  List.filterMap_append

theorem issuedIn_mono {past more : List TokenEvent} (h : past <+: more) {token : CancelToken}
    (htoken : token ∈ issuedIn past) : token ∈ issuedIn more := by
  obtain ⟨rest, rfl⟩ := h
  rw [issuedIn_append]
  exact List.mem_append_left _ htoken

/-- Tokens are numbered as they are issued, and only those that exist are cancelled. -/
structure Consistent (past : List TokenEvent) : Prop where
  number_lt : ∀ token ∈ issuedIn past, token.number < (issuedIn past).length
  known : ∀ token, .cancelled token ∈ past → token ∈ issuedIn past

namespace Consistent

variable {past : List TokenEvent}

theorem cancelled (h : Consistent past) {token : CancelToken} (htoken : token ∈ issuedIn past) :
    Consistent (past ++ [.cancelled token]) := by
  have hissued : issuedIn (past ++ [.cancelled token]) = issuedIn past := by
    rw [issuedIn_append]
    exact List.append_nil _
  refine ⟨hissued ▸ h.number_lt, fun other hother => ?_⟩
  rw [hissued]
  rcases List.mem_append.mp hother with hother | hother
  · exact h.known other hother
  · cases List.mem_singleton.mp hother
    exact htoken

theorem scanned (h : Consistent past) (token : CancelToken) : Consistent (past ++ [.scanned token]) := by
  have hissued : issuedIn (past ++ [.scanned token]) = issuedIn past := by
    rw [issuedIn_append]
    exact List.append_nil _
  refine ⟨hissued ▸ h.number_lt, fun other hother => ?_⟩
  rw [hissued]
  rcases List.mem_append.mp hother with hother | hother
  · exact h.known other hother
  · cases List.mem_singleton.mp hother

theorem issued (h : Consistent past) {token : CancelToken}
    (hnumber : token.number = (issuedIn past).length) : Consistent (past ++ [.issued token]) := by
  have hissued : issuedIn (past ++ [.issued token]) = issuedIn past ++ [token] :=
    issuedIn_append _ _
  refine ⟨fun other hother => ?_, fun other hother => ?_⟩
  · rw [hissued, List.length_append, List.length_singleton]
    rcases List.mem_append.mp (hissued ▸ hother) with hother | hother
    · have hlt := h.number_lt other hother
      omega
    · cases List.mem_singleton.mp hother
      omega
  · rw [hissued]
    rcases List.mem_append.mp hother with hother | hother
    · exact List.mem_append_left _ (h.known other hother)
    · cases List.mem_singleton.mp hother

/-- A number that is next was not issued before. -/
theorem fresh (h : Consistent past) {token : CancelToken}
    (hnumber : token.number = (issuedIn past).length) : token ∉ issuedIn past := by
  intro htoken
  have hlt := h.number_lt token htoken
  omega

/-- A new token is cancelled if the one is that it is derived from. -/
theorem isCancelled_derive (h : Consistent past) (token : CancelToken) :
    (token.derive (issuedIn past).length).isCancelled past = token.isCancelled past := by
  rw [Bool.eq_iff_iff, CancelToken.isCancelled_iff, CancelToken.isCancelled_iff]
  constructor
  · rintro ⟨other, hevent, hcovers⟩
    rcases CancelToken.covers_derive_iff.mp hcovers with rfl | hcovers
    · exact absurd (h.known _ hevent) (h.fresh rfl)
    · exact ⟨other, hevent, hcovers⟩
  · rintro ⟨other, hevent, hcovers⟩
    exact ⟨other, hevent, hcovers.trans (token.covers_derive _)⟩

/-- A new token that is not derived from another one is not cancelled. -/
theorem not_isCancelled_root (h : Consistent past) :
    (⟨(issuedIn past).length, []⟩ : CancelToken).isCancelled past = false := by
  rw [Bool.eq_false_iff, Ne, CancelToken.isCancelled_root_iff rfl]
  exact fun hevent => h.fresh rfl (h.known _ hevent)

end Consistent

/-! ## In time -/

/-- At some time since a start a token is cancelled, and the modules of its build are not all
scanned yet. -/
def CancelledInTime (start past : List TokenEvent) (token : CancelToken) : Prop :=
  ∃ before, start <+: before ∧ before <+: past ∧ token.isCancelled before = true ∧
    .scanned token ∉ before.drop start.length

/-- Since a start the modules of a build were all scanned before its token was cancelled. -/
def Spared (start past : List TokenEvent) (token : CancelToken) : Prop :=
  ∃ before, start <+: before ∧ before ++ [.scanned token] <+: past ∧
    token.isCancelled before = false

theorem Spared.mono {start first past last : List TokenEvent} {token : CancelToken}
    (hstart : first <+: start) (hlast : past <+: last) (h : Spared start past token) :
    Spared first last token := by
  obtain ⟨before, hbefore, hscanned, hcancelled⟩ := h
  exact ⟨before, hstart.trans hbefore, hscanned.trans hlast, hcancelled⟩

/-- A build that was scanned before its token was cancelled was not cancelled in time. -/
theorem Spared.not_cancelledInTime {start past : List TokenEvent} {token : CancelToken}
    (h : Spared start past token) : ¬ CancelledInTime start past token := by
  rintro ⟨before, hstart, hbefore, hcancelled, hscanned⟩
  obtain ⟨searched, hsearched, hpast, hspared⟩ := h
  have hfirst : searched <+: searched ++ [.scanned token] := List.prefix_append _ _
  rcases List.prefix_or_prefix_of_prefix hbefore hpast with hle | hle
  · rcases List.prefix_concat_iff.mp hle with rfl | hle
    · refine hscanned ?_
      obtain ⟨rest, rfl⟩ := hsearched
      rw [List.append_assoc, List.drop_left]
      exact List.mem_append_right _ (List.mem_singleton_self _)
    · rw [CancelToken.isCancelled_mono hle hcancelled] at hspared
      cases hspared
  · refine hscanned ?_
    obtain ⟨rest, rfl⟩ := hsearched
    obtain ⟨more, rfl⟩ := hle
    rw [List.append_assoc, List.append_assoc, List.drop_left]
    exact List.mem_append_right _ (List.mem_append_left _ (List.mem_singleton_self _))

/-! ## Timelines -/

/-- What may happen between two steps of a build. -/
structure Moment where
  cancels : List CancelToken := []
  /-- Whether the builds that run are polled again. -/
  isPolled : Bool := false

/-- What has happened to tokens, and what will happen between the next steps. -/
structure Timeline where
  past : List TokenEvent := []
  ahead : List Moment := []

namespace Timeline

/-- Whether a token is cancelled by now. -/
def isCancelled (line : Timeline) (token : CancelToken) : Bool := token.isCancelled line.past

/-- Something happens. -/
def note (line : Timeline) (event : TokenEvent) : Timeline :=
  { line with past := line.past ++ [event] }

/-- Cancels a token, if it exists. -/
def cancel (line : Timeline) (token : CancelToken) : Timeline :=
  if token ∈ issuedIn line.past then line.note (.cancelled token) else line

/-- The number of the next token. -/
def next (line : Timeline) : Nat := (issuedIn line.past).length

/-- Whether the builds that run are polled before the next step. -/
def isPolled (line : Timeline) : Bool := line.ahead.head?.any Moment.isPolled

/-- The next moment goes by. -/
def tick (line : Timeline) : Timeline :=
  match line.ahead with
  | [] => line
  | moment :: ahead => moment.cancels.foldl cancel { line with ahead }

/-- A token is cancelled, or it will be within so many moments. -/
def Due (line : Timeline) (token : CancelToken) (count : Nat) : Prop :=
  line.isCancelled token = true ∨
    token ∈ issuedIn line.past ∧ ∃ moment ∈ line.ahead.take count, token ∈ moment.cancels

/-- One timeline is another one some time later. -/
structure Leads (line later : Timeline) : Prop where
  past : line.past <+: later.past
  consistent : Consistent line.past → Consistent later.past
  due : ∀ token count, line.Due token count → later.Due token count

namespace Leads

theorem refl (line : Timeline) : line.Leads line := ⟨List.prefix_refl _, id, fun _ _ => id⟩

theorem trans {line middle later : Timeline} (h : line.Leads middle) (hnext : middle.Leads later) :
    line.Leads later :=
  ⟨h.past.trans hnext.past, hnext.consistent ∘ h.consistent,
    fun token count hdue => hnext.due token count (h.due token count hdue)⟩

theorem isCancelled {line later : Timeline} (h : line.Leads later) {token : CancelToken}
    (hcancelled : line.isCancelled token = true) : later.isCancelled token = true :=
  CancelToken.isCancelled_mono h.past hcancelled

end Leads

/-- Something that happens by itself leaves what is ahead. -/
theorem leads_note {line : Timeline} {event : TokenEvent}
    (hconsistent : Consistent line.past → Consistent (line.past ++ [event])) :
    line.Leads (line.note event) := by
  have hpast : line.past <+: (line.note event).past := List.prefix_append _ _
  refine ⟨hpast, hconsistent, fun token count hdue => ?_⟩
  exact hdue.imp (CancelToken.isCancelled_mono hpast) (And.imp_left (issuedIn_mono hpast))

theorem leads_cancel (line : Timeline) (token : CancelToken) : line.Leads (line.cancel token) := by
  rw [cancel]
  split
  · rename_i htoken
    exact leads_note fun h => h.cancelled htoken
  · exact .refl line

theorem leads_foldl_cancel (tokens : List CancelToken) (line : Timeline) :
    line.Leads (tokens.foldl cancel line) := by
  induction tokens generalizing line with
  | nil => exact .refl line
  | cons token rest ih => exact (line.leads_cancel token).trans (ih _)

theorem leads_scanned (line : Timeline) (token : CancelToken) :
    line.Leads (line.note (.scanned token)) :=
  leads_note fun h => h.scanned token

theorem leads_issued (line : Timeline) {token : CancelToken} (hnumber : token.number = line.next) :
    line.Leads (line.note (.issued token)) :=
  leads_note fun h => h.issued hnumber

theorem isCancelled_cancel {line : Timeline} {token : CancelToken} (htoken : token ∈ issuedIn line.past) :
    (line.cancel token).isCancelled token = true := by
  rw [cancel, if_pos htoken, isCancelled, CancelToken.isCancelled_iff]
  exact ⟨token, List.mem_append_right _ (List.mem_singleton_self _), token.covers_refl⟩

/-- A token that exists is cancelled by the tokens of a moment, if it is one of them. -/
theorem isCancelled_foldl_cancel {tokens : List CancelToken} {token : CancelToken} (hmem : token ∈ tokens)
    {line : Timeline} (htoken : token ∈ issuedIn line.past) :
    (tokens.foldl cancel line).isCancelled token = true := by
  induction hmem generalizing line with
  | head rest => exact (leads_foldl_cancel rest _).isCancelled (isCancelled_cancel htoken)
  | tail _ _ ih => exact ih (issuedIn_mono (line.leads_cancel _).past htoken)

theorem Due.mono {line : Timeline} {token : CancelToken} {count more : Nat} (hle : count ≤ more)
    (h : line.Due token count) : line.Due token more := by
  refine h.imp_right (And.imp_right ?_)
  rintro ⟨moment, hmoment, hcancels⟩
  exact ⟨moment, (List.take_prefix_take_left hle).subset hmoment, hcancels⟩

theorem Due.isCancelled {line : Timeline} {token : CancelToken} (h : line.Due token 0) :
    line.isCancelled token = true := by
  rcases h with h | ⟨_, moment, hmoment, _⟩
  · exact h
  · exact absurd hmoment List.not_mem_nil

/-- What is due comes closer. -/
theorem Due.tick {line : Timeline} {token : CancelToken} {count : Nat} (h : line.Due token (count + 1)) :
    line.tick.Due token count := by
  rw [Timeline.tick]
  split
  · rename_i hahead
    rcases h with h | ⟨_, moment, hmoment, _⟩
    · exact .inl h
    · rw [hahead, List.take_nil] at hmoment
      exact absurd hmoment List.not_mem_nil
  · rename_i moment ahead hahead
    have hleads := leads_foldl_cancel moment.cancels { line with ahead }
    rcases h with h | ⟨htoken, later, hlater, hcancels⟩
    · exact .inl (CancelToken.isCancelled_mono hleads.past h)
    · rw [hahead, List.take_succ_cons, List.mem_cons] at hlater
      rcases hlater with rfl | hlater
      · exact .inl (isCancelled_foldl_cancel hcancels htoken)
      · exact hleads.due token count (.inr ⟨htoken, later, hlater, hcancels⟩)

theorem leads_tick (line : Timeline) : line.Leads line.tick := by
  have hpast : line.past <+: line.tick.past ∧ (Consistent line.past → Consistent line.tick.past) := by
    rw [tick]
    split
    · exact ⟨List.prefix_refl _, id⟩
    · rename_i moment ahead _
      have hleads := leads_foldl_cancel moment.cancels { line with ahead }
      exact ⟨hleads.past, hleads.consistent⟩
  refine ⟨hpast.1, hpast.2, fun token count hdue => ?_⟩
  cases count with
  | zero => exact .inl (CancelToken.isCancelled_mono hpast.1 hdue.isCancelled)
  | succ count => exact hdue.tick.mono (Nat.le_succ count)

end Timeline

end WebBundle

import Mathlib.Data.List.Basic
import WebBundle.Diagnostics

/-!
# Diagnostics that builds share

A build and the builds nested in it give their warnings to the same diagnostics, in any order and
side by side.  Every access is a step of its own.  A warning under a key takes two: first the key is
put in, and then, if it was new, the warning is added; other callers may come in between.  Whatever
the order is, each key leads to one warning, and no warning gets lost, is repeated or changes its
place.
-/

namespace WebBundle

namespace Diagnostics

/-! ## Accesses -/

/-- What a caller does to the diagnostics in one step. -/
inductive Access where
  | warn (warning : Report)
  /-- Puts in the key of a warning that is given once. -/
  | insert (key : String) (warning : Report)
  /-- Adds the warning whose key was new. -/
  | add
  | take
  deriving DecidableEq, Repr

/-- What an access came to. -/
inductive Event where
  | warned (warning : Report)
  /-- A key was put in; the caller is told whether it is new. -/
  | inserted (key : String) (warning : Report) (isNew : Bool)
  | added (key : String) (warning : Report)
  | taken (warnings : List Report)
  deriving DecidableEq, Repr

namespace Event

/-- The warning that an event adds to those that are held. -/
def pushed? : Event → Option Report
  | warned warning | added _ warning => some warning
  | inserted _ _ _ | taken _ => none

/-- The warnings that an event takes out. -/
def takes : Event → List Report
  | taken warnings => warnings
  | warned _ | inserted _ _ _ | added _ _ => []

/-- A call that gives a warning once under a key: its warning and the answer it gets. -/
def call? (key : String) : Event → Option (Report × Bool)
  | inserted other warning isNew => if other = key then some (warning, isNew) else none
  | warned _ | added _ _ | taken _ => none

/-- The warning that is added under a key. -/
def addedUnder? (key : String) : Event → Option Report
  | added other warning => if other = key then some warning else none
  | warned _ | inserted _ _ _ | taken _ => none

end Event

/-- Diagnostics with the callers that have put in a new key and have its warning still to add. -/
structure Shared where
  diagnostics : Diagnostics := {}
  adding : List (Nat × String × Report) := []
  deriving DecidableEq, Repr

namespace Shared

/-- The warnings that are still to be added under a key. -/
def addingUnder (shared : Shared) (key : String) : List Report :=
  shared.adding.filterMap fun entry => if entry.2.1 = key then some entry.2.2 else none

/-- What a caller has still to add. -/
def adding? (shared : Shared) (caller : Nat) : Option (Nat × String × Report) :=
  shared.adding.find? fun entry => entry.1 = caller

/-- One access of a caller.  A caller that has a warning to add does nothing else before. -/
def step? (shared : Shared) (caller : Nat) (access : Access) : Option (Event × Shared) :=
  match shared.adding? caller with
  | some (_, key, warning) =>
    match access with
    | .add =>
      some (.added key warning,
        { diagnostics := shared.diagnostics.warn warning
          adding := shared.adding.eraseP fun entry => entry.1 = caller })
    | .warn _ | .insert _ _ | .take => none
  | none =>
    match access with
    | .add => none
    | .warn warning =>
      some (.warned warning, { shared with diagnostics := shared.diagnostics.warn warning })
    | .insert key warning =>
      let (isNew, diagnostics) := shared.diagnostics.insertKey key
      some (.inserted key warning isNew,
        { diagnostics
          adding := if isNew then (caller, key, warning) :: shared.adding else shared.adding })
    | .take =>
      let (warnings, diagnostics) := shared.diagnostics.take
      some (.taken warnings, { shared with diagnostics })

/-- Accesses one after the other, and the log of what they came to. -/
def run : List (Nat × Access) → Shared → Option (List Event × Shared)
  | [], shared => some ([], shared)
  | (caller, access) :: rest, shared =>
    (shared.step? caller access).bind fun (event, next) =>
      (run rest next).map fun (log, last) => (event :: log, last)

/-! ## What one access does -/

variable {shared next last : Shared} {log : List Event} {event : Event} {caller : Nat}
  {access : Access} {schedule : List (Nat × Access)} {key : String}

/-- The caller that adds a warning is the one that had it to add. -/
theorem adding_of_adding? {entry : Nat × String × Report}
    (h : shared.adding? caller = some entry) :
    entry.1 = caller ∧ ∃ before behind, shared.adding = before ++ entry :: behind ∧
      shared.adding.eraseP (fun entry => entry.1 = caller) = before ++ behind := by
  obtain ⟨hentry, before, behind, hadding, hbefore⟩ := List.find?_eq_some_iff_append.mp h
  refine ⟨of_decide_eq_true hentry, before, behind, hadding, ?_⟩
  rw [hadding, List.eraseP_append_right _ (by simpa using hbefore)]
  exact congrArg (before ++ ·) (List.eraseP_cons_of_pos hentry)

/-- The five things that an access can be. -/
theorem step_cases (h : shared.step? caller access = some (event, next)) :
    (∃ warning, event = .warned warning ∧
      next = { shared with diagnostics := shared.diagnostics.warn warning }) ∨
    (∃ key warning, key ∉ shared.diagnostics.keys ∧ event = .inserted key warning true ∧
      next =
        { diagnostics := { shared.diagnostics with keys := key :: shared.diagnostics.keys }
          adding := (caller, key, warning) :: shared.adding }) ∨
    (∃ key warning, key ∈ shared.diagnostics.keys ∧ event = .inserted key warning false ∧
      next = shared) ∨
    (∃ key warning before behind, shared.adding = before ++ (caller, key, warning) :: behind ∧
      event = .added key warning ∧
      next = ⟨shared.diagnostics.warn warning, before ++ behind⟩) ∨
    (event = .taken shared.diagnostics.warnings ∧
      next = { shared with diagnostics := { shared.diagnostics with warnings := [] } }) := by
  unfold step? at h
  split at h
  · rename_i number key warning hadding
    obtain ⟨rfl, before, behind, hsplit, herase⟩ := adding_of_adding? hadding
    cases access with
    | add =>
        cases h
        exact .inr (.inr (.inr (.inl ⟨key, warning, before, behind, hsplit, rfl, by rw [herase]⟩)))
    | warn | insert | take => cases h
  · cases access with
    | add => cases h
    | warn warning =>
        cases h
        exact .inl ⟨warning, rfl, rfl⟩
    | insert key warning =>
        by_cases hkey : key ∈ shared.diagnostics.keys
        · simp only [insertKey, if_pos hkey] at h
          cases h
          exact .inr (.inr (.inl ⟨key, warning, hkey, rfl, rfl⟩))
        · simp only [insertKey, if_neg hkey] at h
          cases h
          exact .inr (.inl ⟨key, warning, hkey, rfl, rfl⟩)
    | take =>
        cases h
        exact .inr (.inr (.inr (.inr ⟨rfl, rfl⟩)))

/-! ## What all accesses keep -/

/-- The calls that give a warning under a key, in the order in which the key was put in. -/
def calls (key : String) (log : List Event) : List (Report × Bool) :=
  log.filterMap (Event.call? key)

/-- The warnings that were added under a key. -/
def added (key : String) (log : List Event) : List Report := log.filterMap (Event.addedUnder? key)

/-- The warnings that were added, with a key or without one. -/
def pushed (log : List Event) : List Report := log.filterMap Event.pushed?

/-- The warnings that were taken, in the order in which they were taken. -/
def taken (log : List Event) : List Report := log.flatMap Event.takes

theorem filterMap_concat {α β : Type} (view : α → Option β) (items : List α) (item : α) :
    (items ++ [item]).filterMap view = items.filterMap view ++ (view item).toList := by
  rw [List.filterMap_append]
  cases hview : view item <;> simp [hview]

theorem calls_concat (key : String) (log : List Event) (event : Event) :
    calls key (log ++ [event]) = calls key log ++ (event.call? key).toList := filterMap_concat _ _ _

theorem added_concat (key : String) (log : List Event) (event : Event) :
    added key (log ++ [event]) = added key log ++ (event.addedUnder? key).toList :=
  filterMap_concat _ _ _

theorem pushed_concat (log : List Event) (event : Event) :
    pushed (log ++ [event]) = pushed log ++ event.pushed?.toList := filterMap_concat _ _ _

theorem taken_concat (log : List Event) (event : Event) :
    taken (log ++ [event]) = taken log ++ event.takes := by
  rw [taken, List.flatMap_append, List.flatMap_singleton]
  rfl

/-- The accesses of a caller that gives a warning once, where the key is new or not. -/
def once (caller : Nat) (key : String) (warning : Report) (isNew : Bool) : List (Nat × Access) :=
  (caller, .insert key warning) :: if isNew then [(caller, .add)] else []

/-- Where no other caller comes in between, these accesses are `warnOnce`. -/
theorem run_once (key : String) (warning : Report) (hidle : shared.adding? caller = none) :
    let (isNew, diagnostics) := shared.diagnostics.warnOnce key warning
    ∃ log, run (once caller key warning isNew) shared = some (log, { shared with diagnostics }) ∧
      calls key log = [(warning, isNew)] := by
  by_cases hkey : key ∈ shared.diagnostics.keys
  · have hinsert : shared.diagnostics.insertKey key = (false, shared.diagnostics) := if_pos hkey
    have honce : shared.diagnostics.warnOnce key warning = (false, shared.diagnostics) := by
      rw [warnOnce, hinsert]
      rfl
    rw [honce]
    refine ⟨[.inserted key warning false], ?_, by simp [calls, Event.call?]⟩
    simp [once, run, step?, hidle, hinsert]
  · have hinsert : shared.diagnostics.insertKey key =
        (true, { shared.diagnostics with keys := key :: shared.diagnostics.keys }) := if_neg hkey
    have honce : shared.diagnostics.warnOnce key warning =
        (true, warn { shared.diagnostics with keys := key :: shared.diagnostics.keys } warning) := by
      rw [warnOnce, hinsert]
      rfl
    rw [honce]
    refine ⟨[.inserted key warning true, .added key warning], ?_, by simp [calls, Event.call?]⟩
    simp [once, run, step?, hidle, hinsert]
    simp [adding?]

/-- Where the warning of a key is. -/
inductive Keyed (log : List Event) (shared : Shared) (key : String) : Prop
  /-- Nobody has given the key. -/
  | unused : calls key log = [] → key ∉ shared.diagnostics.keys → added key log = [] →
      shared.addingUnder key = [] → Keyed log shared key
  /-- The first caller is told that the key is new, and all others that it is not.  There is one
  warning, that of the first caller, which it has added or has still to add. -/
  | used {warning : Report} {later : List (Report × Bool)} :
      calls key log = (warning, true) :: later → (∀ call ∈ later, call.2 = false) →
      key ∈ shared.diagnostics.keys → added key log ++ shared.addingUnder key = [warning] →
      Keyed log shared key

/-- What holds of diagnostics and the log of all accesses to them. -/
structure Accounted (log : List Event) (shared : Shared) : Prop where
  held : taken log ++ shared.diagnostics.warnings = pushed log
  keyed : ∀ key, Keyed log shared key

theorem accounted_start : Accounted [] {} where
  held := rfl
  keyed _ := .unused rfl List.not_mem_nil rfl rfl

/-- Where the warning of a key is does not change by an event that does not concern it. -/
theorem Keyed.other (h : Keyed log shared key) (hcall : event.call? key = none)
    (hadded : event.addedUnder? key = none)
    (hkeys : key ∈ next.diagnostics.keys ↔ key ∈ shared.diagnostics.keys)
    (hadding : next.addingUnder key = shared.addingUnder key) : Keyed (log ++ [event]) next key := by
  have hcalls : calls key (log ++ [event]) = calls key log := by
    rw [calls_concat, hcall, Option.toList_none, List.append_nil]
  have haddeds : added key (log ++ [event]) = added key log := by
    rw [added_concat, hadded, Option.toList_none, List.append_nil]
  cases h with
  | unused hnone hkey hunadded hempty =>
      exact .unused (hcalls.trans hnone) (mt hkeys.mp hkey) (haddeds.trans hunadded)
        (hadding.trans hempty)
  | used hfirst hlater hkey hone =>
      exact .used (hcalls.trans hfirst) hlater (hkeys.mpr hkey) (by rw [haddeds, hadding, hone])

/-- A key that is put in for the first time. -/
theorem Keyed.insert_new {warning : Report} (h : Keyed log shared key)
    (hkey : key ∉ shared.diagnostics.keys) :
    Keyed (log ++ [.inserted key warning true])
      { diagnostics := { shared.diagnostics with keys := key :: shared.diagnostics.keys }
        adding := (caller, key, warning) :: shared.adding } key := by
  cases h with
  | used _ _ hknown _ => exact absurd hknown hkey
  | unused hnone _ hunadded hempty =>
      refine @Keyed.used _ _ _ warning [] ?_ (by simp) List.mem_cons_self ?_
      · simp [calls_concat, hnone, Event.call?]
      · rw [addingUnder] at hempty
        simp [added_concat, hunadded, Event.addedUnder?, addingUnder, hempty]

/-- A key that is put in again. -/
theorem Keyed.insert_known {warning : Report} (h : Keyed log shared key)
    (hkey : key ∈ shared.diagnostics.keys) :
    Keyed (log ++ [.inserted key warning false]) shared key := by
  cases h with
  | unused _ hunknown _ _ => exact absurd hkey hunknown
  | @used first later hfirst hlater _ hone =>
      refine @Keyed.used _ _ _ first (later ++ [(warning, false)]) ?_ ?_ hkey ?_
      · simp [calls_concat, hfirst, Event.call?]
      · intro call hcall
        rcases List.mem_append.mp hcall with hcall | hcall
        · exact hlater call hcall
        · rw [List.mem_singleton.mp hcall]
      · simpa [added_concat, Event.addedUnder?] using hone

/-- A warning is added by the caller that had it to add. -/
theorem Keyed.add {warning : Report} {before behind : List (Nat × String × Report)}
    (h : Keyed log shared key)
    (hadding : shared.adding = before ++ (caller, key, warning) :: behind) :
    Keyed (log ++ [.added key warning]) ⟨shared.diagnostics.warn warning, before ++ behind⟩ key := by
  have hunder : shared.addingUnder key = addingUnder ⟨shared.diagnostics, before⟩ key ++
      warning :: addingUnder ⟨shared.diagnostics, behind⟩ key := by
    rw [addingUnder, hadding, List.filterMap_append]
    simp [addingUnder]
  cases h with
  | unused _ _ _ hempty => simp [hunder] at hempty
  | @used first later hfirst hlater hkey hone =>
      rw [hunder] at hone
      -- the only warning of the key is the one that is added now
      obtain ⟨hnone, hrest⟩ : added key log = [] ∧
          addingUnder ⟨shared.diagnostics, before⟩ key ++
            warning :: addingUnder ⟨shared.diagnostics, behind⟩ key = [first] := by
        rcases List.append_eq_singleton_iff.mp hone with hleft | hright
        · exact hleft
        · simp at hright
      obtain ⟨hbefore, hsame⟩ : addingUnder ⟨shared.diagnostics, before⟩ key = [] ∧
          warning :: addingUnder ⟨shared.diagnostics, behind⟩ key = [first] := by
        rcases List.append_eq_singleton_iff.mp hrest with hleft | hright
        · exact hleft
        · simp at hright
      obtain ⟨rfl, hbehind⟩ := List.cons.inj hsame
      refine @Keyed.used _ _ _ warning later ?_ hlater hkey ?_
      · simpa [calls_concat, Event.call?] using hfirst
      · rw [addingUnder] at hbefore hbehind
        simp [added_concat, hnone, Event.addedUnder?, addingUnder, hbefore, hbehind]

theorem Keyed.step (h : ∀ key, Keyed log shared key)
    (hstep : shared.step? caller access = some (event, next)) (key : String) :
    Keyed (log ++ [event]) next key := by
  rcases step_cases hstep with ⟨warning, rfl, rfl⟩ | ⟨other, warning, hnew, rfl, rfl⟩ |
    ⟨other, warning, hknown, rfl, rfl⟩ | ⟨other, warning, before, behind, hadding, rfl, rfl⟩ |
    ⟨rfl, rfl⟩
  · exact (h key).other rfl rfl Iff.rfl rfl
  · by_cases hother : other = key
    · subst hother
      exact (h other).insert_new hnew
    · refine (h key).other (if_neg hother) rfl ?_ ?_
      · simp [Ne.symm hother]
      · simp [addingUnder, hother]
  · by_cases hother : other = key
    · subst hother
      exact (h other).insert_known hknown
    · exact (h key).other (if_neg hother) rfl Iff.rfl rfl
  · by_cases hother : other = key
    · subst hother
      exact (h other).add hadding
    · refine (h key).other rfl (if_neg hother) Iff.rfl ?_
      simp [addingUnder, hadding, hother]
  · exact (h key).other rfl rfl Iff.rfl rfl

/-- Every access keeps account. -/
theorem Accounted.step (h : Accounted log shared)
    (hstep : shared.step? caller access = some (event, next)) : Accounted (log ++ [event]) next where
  keyed := Keyed.step h.keyed hstep
  held := by
    rw [taken_concat, pushed_concat, ← h.held]
    rcases step_cases hstep with ⟨warning, rfl, rfl⟩ | ⟨other, warning, hnew, rfl, rfl⟩ |
      ⟨other, warning, hknown, rfl, rfl⟩ | ⟨other, warning, before, behind, hadding, rfl, rfl⟩ |
      ⟨rfl, rfl⟩
    all_goals simp [Event.takes, Event.pushed?, warn]

/-- All accesses one after the other keep account. -/
theorem Accounted.run {before : List Event} (h : Accounted before shared)
    (hrun : Shared.run schedule shared = some (log, last)) : Accounted (before ++ log) last := by
  induction schedule generalizing before shared log with
  | nil =>
      cases hrun
      rwa [List.append_nil]
  | cons entry rest ih =>
      obtain ⟨⟨event, next⟩, hstep, hrest⟩ := Option.bind_eq_some_iff.mp hrun
      obtain ⟨⟨behind, final⟩, hbehind, heq⟩ := Option.map_eq_some_iff.mp hrest
      cases heq
      rw [List.append_cons]
      exact ih (h.step hstep) hbehind

/-- Warnings of a session, whatever accesses its callers make and in whatever order.  What was taken,
followed by what is still held, is all that was added, in the order in which it was added.  The first
caller that gives a key is told that the key is new, and all later ones that it is not, also when
warnings were taken meanwhile; the warning of the first one is the only one that is added under the
key, and it is added as soon as no caller has a warning to add. -/
theorem warnings_once (hrun : run schedule {} = some (log, last)) :
    taken log ++ last.diagnostics.warnings = pushed log ∧
    ∀ key, (calls key log = [] ∧ added key log = []) ∨
      ∃ warning later, calls key log = (warning, true) :: later ∧
        (∀ call ∈ later, call.2 = false) ∧
        added key log ++ last.addingUnder key = [warning] ∧
        (last.adding = [] → added key log = [warning]) := by
  have haccounted := accounted_start.run hrun
  rw [List.nil_append] at haccounted
  refine ⟨haccounted.held, fun key => ?_⟩
  cases haccounted.keyed key with
  | unused hnone _ hunadded _ => exact .inl ⟨hnone, hunadded⟩
  | @used warning later hfirst hlater _ hone =>
      refine .inr ⟨warning, later, hfirst, hlater, hone, fun hidle => ?_⟩
      rwa [addingUnder, hidle, List.filterMap_nil, List.append_nil] at hone

/-- Two callers give a warning under one key.  The second one does so while the first one has its
warning still to add, and the warnings are taken before that and afterwards. -/
def crossing : List (Nat × Access) :=
  [(0, .insert "global-object" ⟨"first", []⟩), (1, .insert "global-object" ⟨"second", []⟩),
    (1, .warn ⟨"third", []⟩), (1, .take), (0, .add), (0, .take),
    (1, .insert "global-object" ⟨"fourth", []⟩)]

/-- The log of these accesses. -/
def crossingLog : List Event :=
  [.inserted "global-object" ⟨"first", []⟩ true, .inserted "global-object" ⟨"second", []⟩ false,
    .warned ⟨"third", []⟩, .taken [⟨"third", []⟩], .added "global-object" ⟨"first", []⟩,
    .taken [⟨"first", []⟩], .inserted "global-object" ⟨"fourth", []⟩ false]

theorem warnings_once_crossing :
    run crossing {} = some (crossingLog, { diagnostics := { keys := ["global-object"] } }) ∧
    taken crossingLog = pushed crossingLog ∧
    calls "global-object" crossingLog =
      [(⟨"first", []⟩, true), (⟨"second", []⟩, false), (⟨"fourth", []⟩, false)] ∧
    added "global-object" crossingLog = [⟨"first", []⟩] := by
  have hrun : run crossing {} =
      some (crossingLog, { diagnostics := { keys := ["global-object"] } }) := by decide
  obtain ⟨hheld, hkeys⟩ := warnings_once hrun
  refine ⟨hrun, by rwa [List.append_nil] at hheld, by decide, ?_⟩
  rcases hkeys "global-object" with ⟨hnone, -⟩ | ⟨warning, later, hcalls, -, -, hidle⟩
  · revert hnone
    decide
  · have hfirst : calls "global-object" crossingLog =
        (⟨"first", []⟩, true) :: [(⟨"second", []⟩, false), (⟨"fourth", []⟩, false)] := by decide
    obtain ⟨rfl, -⟩ := Prod.mk.inj (List.cons.inj (hfirst.symm.trans hcalls)).1
    exact hidle rfl

end Shared

end Diagnostics

end WebBundle

import WebBundle.Proofs.Scan.Calls
import WebBundle.Proofs.Search.Simulation

/-!
# Hooks and their states

Two properties of hooks carry over to whole scans.  A hook that respects a relation
does the same in related states and leaves related ones.  A steady hook has no use
for the state at calls that it does not accept: it does the same in every state and
changes nothing of account.
-/

namespace WebBundle.Scan

open Syntax

variable {σ : Type} {related unchanged : σ → σ → Prop}

namespace Findings

/-- What reactions consist of adds up over several calls. -/
theorem parts_addReactions {β : Type} (part : Reaction → List β)
    (hpart : ∀ first second : Reaction, part (first.followedBy second) = part first ++ part second)
    (findings : Findings) (reactions : List Reaction) :
    part (findings.addReactions reactions).reaction =
      part findings.reaction ++ reactions.flatMap part := by
  induction reactions generalizing findings with
  | nil => exact (List.append_nil _).symm
  | cons reaction rest ih =>
      rw [addReactions_cons, ih, List.flatMap_cons, ← List.append_assoc]
      exact congrArg (· ++ _) (hpart findings.reaction reaction)

theorem replacements_addReactions (findings : Findings) (reactions : List Reaction) :
    (findings.addReactions reactions).reaction.replacements =
      findings.reaction.replacements ++ reactions.flatMap Reaction.replacements :=
  parts_addReactions Reaction.replacements (fun _ _ => rfl) findings reactions

theorem boundRequests_addReactions (findings : Findings) (reactions : List Reaction) :
    (findings.addReactions reactions).reaction.boundRequests =
      findings.reaction.boundRequests ++ reactions.flatMap Reaction.boundRequests :=
  parts_addReactions Reaction.boundRequests (fun _ _ => rfl) findings reactions

theorem warnings_addReactions (findings : Findings) (reactions : List Reaction) :
    (findings.addReactions reactions).reaction.warnings =
      findings.reaction.warnings ++ reactions.flatMap Reaction.warnings :=
  parts_addReactions Reaction.warnings (fun _ _ => rfl) findings reactions

theorem accepted_addReactions (findings : Findings) (reactions : List Reaction) :
    (findings.addReactions reactions).accepted =
      findings.accepted + reactions.countP Reaction.isAccepted := by
  induction reactions generalizing findings with
  | nil => rfl
  | cons reaction rest ih =>
      rw [addReactions_cons, ih, List.countP_cons, Nat.add_comm (rest.countP _), ← Nat.add_assoc]
      rfl

/-- Reactions change nothing else. -/
theorem addReactions_eq (findings : Findings) (reactions : List Reaction) :
    findings.addReactions reactions =
      { findings with
        reaction := (findings.addReactions reactions).reaction
        accepted := (findings.addReactions reactions).accepted } := by
  induction reactions generalizing findings with
  | nil => rfl
  | cons reaction rest ih =>
      rw [addReactions_cons, ih]
      rfl

theorem records_addReactions (findings : Findings) (reactions : List Reaction) :
    (findings.addReactions reactions).records = findings.records := by
  rw [addReactions_eq]

theorem not_isAccepted_of_addReactions {findings : Findings} {reactions : List Reaction}
    (hnone : (findings.addReactions reactions).accepted = 0) :
    ∀ reaction ∈ reactions, reaction.isAccepted = false := by
  rw [accepted_addReactions] at hnone
  have hcount := List.countP_eq_zero.mp (Nat.eq_zero_of_add_eq_zero_left hnone)
  exact fun reaction hmem => Bool.eq_false_iff.mpr (hcount reaction hmem)

/-- A variable that hooks bind is the variable of an import record in the view. -/
theorem toView_bound {findings : Findings} {index : Nat} {name request : String}
    (hbound : findings.reaction.boundRequests[index]? = some (name, request)) (source : String) :
    (name, findings.nextRecord + index) ∈ (findings.toView source).boundRecords ∧
      (findings.toView source).records[findings.nextRecord + index]? =
        some ⟨request, .generated, ⟨0, 0⟩⟩ := by
  constructor
  · refine List.mk_add_mem_zipIdx_iff_getElem?.mpr ?_
    rw [List.getElem?_map, hbound]
    rfl
  · change (findings.records ++ findings.variableRecords)[findings.records.length + index]? = _
    rw [List.getElem?_append_right (Nat.le_add_right _ _), Nat.add_sub_cancel_left,
      variableRecords, List.getElem?_map, hbound]
    rfl

end Findings

theorem react_of_selected {hook : Hook σ} {rest : List (Hook σ)} {call : SeenCall} {state : σ}
    (hselector : hook.selector = call.selector) :
    react (hook :: rest) call state =
      if (hook.react call state).1.isAccepted then hook.react call state
      else ((hook.react call state).1.followedBy (react rest call (hook.react call state).2).1,
        (react rest call (hook.react call state).2).2) := by
  rw [react, runHooks, if_pos hselector]
  rfl

theorem react_of_other {hook : Hook σ} {rest : List (Hook σ)} {call : SeenCall} {state : σ}
    (hselector : hook.selector ≠ call.selector) :
    react (hook :: rest) call state = react rest call state := by
  rw [react, runHooks, if_neg hselector]
  rfl

/-! ## Hooks that respect a relation -/

/-- A hook does the same in related states and leaves related ones. -/
def Hook.Respects (hook : Hook σ) (related : σ → σ → Prop) : Prop :=
  ∀ call {state other}, related state other →
    (hook.react call state).1 = (hook.react call other).1 ∧
      related (hook.react call state).2 (hook.react call other).2

theorem react_respects {hooks : List (Hook σ)} (hhooks : ∀ hook ∈ hooks, hook.Respects related)
    (call : SeenCall) {state other : σ} (hrelated : related state other) :
    (react hooks call state).1 = (react hooks call other).1 ∧
      related (react hooks call state).2 (react hooks call other).2 := by
  induction hooks generalizing state other with
  | nil => exact ⟨rfl, hrelated⟩
  | cons hook rest ih =>
      rw [List.forall_mem_cons] at hhooks
      by_cases hselector : hook.selector = call.selector
      · obtain ⟨hvalue, hnext⟩ := hhooks.1 call hrelated
        rw [react_of_selected hselector, react_of_selected hselector, ← hvalue]
        split
        · exact ⟨hvalue, hnext⟩
        · obtain ⟨hlater, hlast⟩ := ih hhooks.2 hnext
          exact ⟨congrArg (Reaction.followedBy _) hlater, hlast⟩
      · rw [react_of_other hselector, react_of_other hselector]
        exact ih hhooks.2 hrelated

/-- Scans in related states find the same. -/
theorem scan_respects {hooks : List (Hook σ)} (hhooks : ∀ hook ∈ hooks, hook.Respects related)
    (program : Program) {state other : σ} (hrelated : related state other) :
    (scan hooks program state).1 = (scan hooks program other).1 ∧
      related (scan hooks program state).2 (scan hooks program other).2 := by
  obtain ⟨hreactions, hlast, _⟩ := Loader.forEach_related (react hooks) (react hooks)
    (fun _ => True) related (fun call _ _ _ h => react_respects hhooks call h) (shownCalls program) state other
    (fun _ _ => trivial) hrelated
  rw [scan_eq, scan_eq, hreactions]
  exact ⟨rfl, hlast⟩

/-! ## Steady hooks -/

/-- What a hook does with a call that it does not accept, it does in every state, and
it changes nothing of account then. -/
def Hook.Steady (hook : Hook σ) (unchanged : σ → σ → Prop) : Prop :=
  ∀ call state other, (hook.react call state).1.isAccepted = false →
    (hook.react call other).1 = (hook.react call state).1 ∧
      unchanged other (hook.react call other).2

theorem react_steady {hooks : List (Hook σ)} (hsteady : ∀ hook ∈ hooks, hook.Steady unchanged)
    (hrefl : ∀ state, unchanged state state)
    (htrans : ∀ {state middle last}, unchanged state middle → unchanged middle last →
      unchanged state last)
    (call : SeenCall) (state other : σ)
    (hopen : (react hooks call state).1.isAccepted = false) :
    (react hooks call other).1 = (react hooks call state).1 ∧
      unchanged other (react hooks call other).2 := by
  induction hooks generalizing state other with
  | nil => exact ⟨rfl, hrefl other⟩
  | cons hook rest ih =>
      rw [List.forall_mem_cons] at hsteady
      by_cases hselector : hook.selector = call.selector
      · rw [react_of_selected hselector] at hopen ⊢
        rw [react_of_selected hselector]
        cases haccepted : (hook.react call state).1.isAccepted with
        | true => simp [haccepted] at hopen
        | false =>
            obtain ⟨hvalue, hkept⟩ := hsteady.1 call state other haccepted
            simp only [haccepted, hvalue, Bool.false_eq_true, if_false] at hopen ⊢
            obtain ⟨hlater, hlast⟩ := ih hsteady.2 _ (hook.react call other).2 hopen
            exact ⟨congrArg (Reaction.followedBy _) hlater, htrans hkept hlast⟩
      · rw [react_of_other hselector] at hopen ⊢
        rw [react_of_other hselector]
        exact ih hsteady.2 state other hopen

theorem forEach_react_steady {hooks : List (Hook σ)}
    (hsteady : ∀ hook ∈ hooks, hook.Steady unchanged) (hrefl : ∀ state, unchanged state state)
    (htrans : ∀ {state middle last}, unchanged state middle → unchanged middle last →
      unchanged state last)
    (calls : List SeenCall) (state other : σ)
    (hopen : ∀ reaction ∈ (Loader.forEach (react hooks) calls state).1,
      reaction.isAccepted = false) :
    (Loader.forEach (react hooks) calls other).1 =
        (Loader.forEach (react hooks) calls state).1 ∧
      unchanged other (Loader.forEach (react hooks) calls other).2 := by
  induction calls generalizing state other with
  | nil => exact ⟨rfl, hrefl other⟩
  | cons call rest ih =>
      simp only [Loader.forEach, List.forall_mem_cons] at hopen ⊢
      obtain ⟨hvalue, hkept⟩ := react_steady hsteady hrefl htrans call state other hopen.1
      obtain ⟨hlater, hlast⟩ := ih _ (react hooks call other).2 hopen.2
      exact ⟨by rw [hvalue, hlater], htrans hkept hlast⟩

/-- A scan in which no call was accepted finds the same in every state. -/
theorem scan_steady {hooks : List (Hook σ)} (hsteady : ∀ hook ∈ hooks, hook.Steady unchanged)
    (hrefl : ∀ state, unchanged state state)
    (htrans : ∀ {state middle last}, unchanged state middle → unchanged middle last →
      unchanged state last)
    (program : Program) (state other : σ)
    (hopen : (scan hooks program state).1.accepted = 0) :
    (scan hooks program other).1 = (scan hooks program state).1 ∧
      unchanged other (scan hooks program other).2 := by
  rw [scan_eq] at hopen ⊢
  rw [scan_eq]
  obtain ⟨hreactions, hkept⟩ := forEach_react_steady hsteady hrefl htrans (shownCalls program)
    state other (Findings.not_isAccepted_of_addReactions hopen)
  exact ⟨congrArg (declared program).addReactions hreactions, hkept⟩

end WebBundle.Scan

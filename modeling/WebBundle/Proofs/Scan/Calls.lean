import WebBundle.Proofs.Search.Trace
import WebBundle.Scan.Findings

/-!
# What a scan makes of calls

A scan does two things that do not touch each other.  It looks at declarations and
`require` calls, which depends on the program alone, and it shows method calls to
hooks, which is all that depends on a state.  So a scan is a list of reactions that
is added to what the program declares.
-/

namespace WebBundle.Scan

open Syntax

variable {σ : Type}

/-- What hooks see of a site, if they see it. -/
def shown? (site : Site) : Option SeenCall :=
  if isCall site.node.kind then (selected? site).map (SeenCall.ofSite site) else none

/-- The calls of a program that hooks see, in order. -/
def shownCalls (program : Program) : List SeenCall :=
  (program.sites isScanned).filterMap shown?

/-- What the hooks do with a call. -/
def react (hooks : List (Hook σ)) (call : SeenCall) (state : σ) : Reaction × σ :=
  runHooks call hooks state

/-- Looks at one node without showing it to hooks. -/
def declare (findings : Findings) (site : Site) : Findings :=
  if isCall site.node.kind then findings.addRequire site else findings.addDeclaration site.node

/-- What a program declares and requires. -/
def declared (program : Program) : Findings := (program.sites isScanned).foldl declare {}

namespace Findings

/-- Adds what hooks did with several calls. -/
def addReactions (findings : Findings) (reactions : List Reaction) : Findings :=
  reactions.foldl addReaction findings

theorem addRequire_addReaction (findings : Findings) (reaction : Reaction) (site : Site) :
    (findings.addReaction reaction).addRequire site =
      (findings.addRequire site).addReaction reaction := by
  rw [addRequire, addRequire]
  split <;> rfl

theorem addDeclaration_addReaction (findings : Findings) (reaction : Reaction) (node : Node) :
    (findings.addReaction reaction).addDeclaration node =
      (findings.addDeclaration node).addReaction reaction := by
  rw [addDeclaration.eq_def, addDeclaration.eq_def]
  dsimp only
  split
  · rw [addImport.eq_def, addImport.eq_def]
    split <;> rfl
  · split
    · rw [addImport.eq_def, addImport.eq_def]
      split <;> rfl
    · rfl
  · rfl
  · split <;> rfl
  · rw [addImport.eq_def, addImport.eq_def]
    split <;> rfl
  · rw [addImport.eq_def, addImport.eq_def]
    split <;> rfl
  · rfl

theorem declare_addReaction (findings : Findings) (reaction : Reaction) (site : Site) :
    declare (findings.addReaction reaction) site =
      (declare findings site).addReaction reaction := by
  rw [declare, declare]
  split
  · exact findings.addRequire_addReaction reaction site
  · exact findings.addDeclaration_addReaction reaction site.node

theorem foldl_declare_addReaction (findings : Findings) (reaction : Reaction)
    (sites : List Site) :
    sites.foldl declare (findings.addReaction reaction) =
      (sites.foldl declare findings).addReaction reaction := by
  induction sites generalizing findings with
  | nil => rfl
  | cons site rest ih =>
      rw [List.foldl_cons, List.foldl_cons, declare_addReaction, ih]

theorem addReactions_cons (findings : Findings) (reaction : Reaction)
    (reactions : List Reaction) :
    findings.addReactions (reaction :: reactions) =
      (findings.addReaction reaction).addReactions reactions := rfl

/-- Declarations have nothing to do with hooks. -/
theorem addDeclaration_reaction (findings : Findings) (node : Node) :
    (findings.addDeclaration node).reaction = findings.reaction ∧
      (findings.addDeclaration node).accepted = findings.accepted := by
  rw [addDeclaration.eq_def]
  dsimp only
  split
  · rw [addImport.eq_def]
    split <;> exact ⟨rfl, rfl⟩
  · split
    · rw [addImport.eq_def]
      split <;> exact ⟨rfl, rfl⟩
    · exact ⟨rfl, rfl⟩
  · exact ⟨rfl, rfl⟩
  · split <;> exact ⟨rfl, rfl⟩
  · rw [addImport.eq_def]
    split <;> exact ⟨rfl, rfl⟩
  · rw [addImport.eq_def]
    split <;> exact ⟨rfl, rfl⟩
  · exact ⟨rfl, rfl⟩

theorem declare_reaction (findings : Findings) (site : Site) :
    (declare findings site).reaction = findings.reaction ∧
      (declare findings site).accepted = findings.accepted := by
  rw [declare]
  split
  · rw [addRequire]
    split <;> exact ⟨rfl, rfl⟩
  · exact addDeclaration_reaction findings site.node

theorem foldl_declare_reaction (findings : Findings) (sites : List Site) :
    (sites.foldl declare findings).reaction = findings.reaction ∧
      (sites.foldl declare findings).accepted = findings.accepted := by
  induction sites generalizing findings with
  | nil => exact ⟨rfl, rfl⟩
  | cons site rest ih =>
      obtain ⟨hreaction, haccepted⟩ := declare_reaction findings site
      rw [List.foldl_cons, ← hreaction, ← haccepted]
      exact ih _

end Findings

/-- Without hooks nothing is done with calls. -/
theorem declared_reaction (program : Program) :
    (declared program).reaction = {} ∧ (declared program).accepted = 0 :=
  Findings.foldl_declare_reaction {} (program.sites isScanned)

/-- One visit declares what the site declares and adds what the hooks do with it. -/
theorem visit_eq (hooks : List (Hook σ)) (findings : Findings) (state : σ) (site : Site) :
    visit hooks (findings, state) site =
      match shown? site with
      | some call =>
        ((declare findings site).addReaction (react hooks call state).1,
          (react hooks call state).2)
      | none => (declare findings site, state) := by
  rw [visit, shown?]
  cases hcall : isCall site.node.kind with
  | false => simp [declare, hcall]
  | true =>
      cases hselected : selected? site with
      | none => simp [declare, hcall]
      | some selected =>
          simp [declare, hcall, react, Findings.addRequire_addReaction]

theorem foldl_visit_eq (hooks : List (Hook σ)) (sites : List Site) (findings : Findings)
    (state : σ) :
    sites.foldl (visit hooks) (findings, state) =
      ((sites.foldl declare findings).addReactions
          (Loader.forEach (react hooks) (sites.filterMap shown?) state).1,
        (Loader.forEach (react hooks) (sites.filterMap shown?) state).2) := by
  induction sites generalizing findings state with
  | nil => rfl
  | cons site rest ih =>
      rw [List.foldl_cons, List.foldl_cons, visit_eq]
      cases hshown : shown? site with
      | none =>
          rw [List.filterMap_cons_none hshown]
          exact ih _ _
      | some call =>
          rw [List.filterMap_cons_some hshown, ih, Findings.foldl_declare_addReaction]
          rfl

/-- A scan is what the program declares and what the hooks do with its calls. -/
theorem scan_eq (hooks : List (Hook σ)) (program : Program) (state : σ) :
    scan hooks program state =
      ((declared program).addReactions
          (Loader.forEach (react hooks) (shownCalls program) state).1,
        (Loader.forEach (react hooks) (shownCalls program) state).2) :=
  foldl_visit_eq hooks (program.sites isScanned) {} state

/-- Without hooks, a scan finds what the program declares. -/
theorem scan_nil (program : Program) (state : σ) :
    scan [] program state = (declared program, state) := by
  have hnothing : (declared program).addReaction {} = declared program := by
    rw [Findings.addReaction, (declared_reaction program).1]
    exact congrArg (fun reaction => { declared program with reaction })
      (declared_reaction program).1.symm
  rw [scan_eq]
  induction shownCalls program with
  | nil => rfl
  | cons call rest ih =>
      rw [← ih]
      exact congrArg (fun findings => (Findings.addReactions findings _, _)) hnothing

end WebBundle.Scan

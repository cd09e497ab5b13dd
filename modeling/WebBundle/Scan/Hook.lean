import WebBundle.Diagnostics
import WebBundle.Scan.Evaluation
import WebBundle.Scan.Selector

/-!
# Hooks on calls

A hook is attached to a selector and sees every method call on it.  It may
replace parts of the source, bind variables to requests and warn, and it may
accept the call, which keeps later hooks from seeing it.
-/

namespace WebBundle.Scan

open Syntax

/-- What a hook sees of a call. -/
structure SeenCall where
  selector : String
  member : String
  span : Span
  /-- The range and the value of the first argument, unless it is a spread. -/
  argument : Option (Span × Evaluated)

namespace SeenCall

/-- The first argument of a call, unless it is missing or a spread. -/
def firstArgument? : Node → Option Node
  | ⟨.call _, _, [_, ⟨_, _, argument :: _⟩]⟩ =>
    match argument.kind with
    | .spread => none
    | _ => some argument
  | _ => none

/-- What hooks see of a call with a selector. -/
def ofSite (site : Site) (selected : Selected) : SeenCall :=
  { selector := selected.selector
    member := selected.member
    span := site.node.span
    argument := (firstArgument? site.node).map fun argument =>
      (argument.span, evaluate site.bound argument) }

end SeenCall

/-- What a hook does with a call. -/
structure Reaction where
  replacements : List (Span × String) := []
  /-- Names with the requests that they are bound to. -/
  boundRequests : List (String × String) := []
  warnings : List Report := []
  isAccepted : Bool := false

namespace Reaction

/-- One reaction after another. -/
def followedBy (first second : Reaction) : Reaction :=
  { replacements := first.replacements ++ second.replacements
    boundRequests := first.boundRequests ++ second.boundRequests
    warnings := first.warnings ++ second.warnings
    isAccepted := second.isAccepted }

end Reaction

/-- A hook on method calls; what it does may depend on a state. -/
structure Hook (σ : Type) where
  selector : String
  react : SeenCall → σ → Reaction × σ

/-- Shows a call to the hooks of its selector until one accepts it. -/
def runHooks {σ : Type} (call : SeenCall) : List (Hook σ) → σ → Reaction × σ
  | [], state => ({}, state)
  | hook :: rest, state =>
    if hook.selector = call.selector then
      let (reaction, state) := hook.react call state
      if reaction.isAccepted then (reaction, state)
      else
        let (later, state) := runHooks call rest state
        (reaction.followedBy later, state)
    else runHooks call rest state

end WebBundle.Scan

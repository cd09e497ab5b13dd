import WebBundle.Scan.Hook
import WebBundle.Worklet.Request

/-!
# Calls that add worklets

A call of `addModule` on one of the worklets of `CSS` gets a generated variable
in place of its argument, and the variable is bound to a loader request for the
worklet.  The variables are numbered.
-/

namespace WebBundle.Worklet

open Scan

/-- The warning for a call whose argument is not a known text. -/
def argumentWarning : Report :=
  { message := "addModule() worklet will only be bundled if passed a String." }

/-- The selectors of the worklets that are known. -/
def selectors : List String :=
  ["CSS.paintWorklet", "CSS.animationWorklet", "CSS.layoutWorklet"]

/-- The generated variable of a worklet. -/
def variableName (number : UInt32) : String :=
  "__houdini_worklet_" ++ toString number.toNat ++ "__"

/-- What happens to a call when the next worklet has a number: the reaction, and
whether the number is used. -/
def reactTo (call : SeenCall) (number : UInt32) : Reaction × Bool :=
  if call.member ≠ "addModule" then ({}, false)
  else
    match call.argument with
    | some (span, .text request) =>
      let loaderRequest := encodeLoaderRequest ⟨toString number.toNat⟩ request
      ({ replacements := [(span, variableName number)]
         boundRequests := [(variableName number, loaderRequest)]
         isAccepted := true }, true)
    | _ => ({ warnings := [argumentWarning] }, false)

/-- The hook on one of the selectors, over a counter that is part of a state. -/
def hook {σ : Type} (counter : σ → UInt32) (setCounter : UInt32 → σ → σ) (selector : String) :
    Hook σ where
  selector := selector
  react call state :=
    let (reaction, isUsed) := reactTo call (counter state)
    (reaction, if isUsed then setCounter (counter state + 1) state else state)

/-- The hooks on all worklets. -/
def hooks {σ : Type} (counter : σ → UInt32) (setCounter : UInt32 → σ → σ) : List (Hook σ) :=
  selectors.map (hook counter setCounter)

end WebBundle.Worklet

import WebBundle.Syntax.Scope

/-!
# Selectors of calls

A method call on a chain of names that begins with a global is known by its
selector: the chain without the method.  Parentheses end a chain; optional
accesses make no difference.
-/

namespace WebBundle.Scan

open Syntax

/-- The names of a chain of accesses that begins with a global, joined by points. -/
def globalChain? (bound : List String) : Node → Option String
  | ⟨.reference name, _, _⟩ => if bound.contains name.text then none else some name.text
  | ⟨.staticMember name _, _, [object]⟩ =>
    (globalChain? bound object).map fun chain => chain ++ "." ++ name
  | _ => none

/-- A method call on a global chain. -/
structure Selected where
  selector : String
  member : String
  deriving DecidableEq, Repr

/-- The selector of a call and the called method. -/
def selected? (site : Site) : Option Selected :=
  match site.node with
  | ⟨.call _, _, ⟨.staticMember member _, _, [object]⟩ :: _⟩ =>
    (globalChain? site.bound object).map (⟨·, member⟩)
  | _ => none

/-- Whether nodes of a kind are calls. -/
def isCall : Kind → Bool
  | .call _ => true
  | _ => false

/-- All calls of a program, outer ones before those inside of them. -/
def calls (program : Program) : List Site := program.sites isCall

end WebBundle.Scan

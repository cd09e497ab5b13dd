import WebBundle.Module.Id
import WebBundle.Module.Kind
import WebBundle.Scan.View

/-!
# Module graphs

The modules of a build are numbered in the order in which they were found.  A
module knows for each of its imports the number of the module it leads to.
-/

namespace WebBundle

/-- What a module consists of. -/
inductive ModuleContent where
  | script (view : Scan.View)
  /-- A file that is emitted beside the chunks. -/
  | asset (bytes : ByteArray)

namespace ModuleContent

/-- The view of a script. -/
def view? : ModuleContent → Option Scan.View
  | script view => some view
  | asset _ => none

/-- The bytes of an emitted file. -/
def bytes? : ModuleContent → Option ByteArray
  | script _ => none
  | asset bytes => some bytes

/-- The imports of a module. -/
def records : ModuleContent → List Scan.ImportRecord
  | script view => view.records
  | asset _ => []

end ModuleContent

/-- A module of a graph. -/
structure Module where
  id : ModuleId
  /-- The id under which the module is known in the output. -/
  stableId : String
  kind : ModuleKind
  content : ModuleContent
  /-- The number of the module behind each import record. -/
  dependencies : List Nat := []

/-- A graph of modules with the entries it was built from. -/
structure Graph where
  modules : List Module
  /-- The names that were given to entries, and their numbers. -/
  entries : List (Option String × Nat)

namespace Graph

/-- The dependencies of a numbered module. -/
def dependenciesOf (graph : Graph) (number : Nat) : List Nat :=
  match graph.modules[number]? with
  | some module => module.dependencies
  | none => []

theorem dependenciesOf_eq_nil {graph : Graph} {number : Nat}
    (hnumber : graph.modules.length ≤ number) : graph.dependenciesOf number = [] := by
  rw [dependenciesOf, List.getElem?_eq_none hnumber]

/-- How many dependencies the modules below a number have that were not visited. -/
def unseen (graph : Graph) (visited : List Nat) : (bound : Nat) → Nat
  | 0 => 0
  | bound + 1 =>
    unseen graph visited bound +
      if bound ∈ visited then 0 else (graph.dependenciesOf bound).length

theorem unseen_cons (graph : Graph) {visited : List Nat} {number : Nat}
    (hnumber : number ∉ visited) (bound : Nat) :
    unseen graph visited bound = unseen graph (number :: visited) bound +
      if number < bound then (graph.dependenciesOf number).length else 0 := by
  induction bound with
  | zero => rfl
  | succ bound ih =>
      rw [unseen, unseen, ih]
      by_cases hbound : bound = number
      · subst hbound
        simp [hnumber]
      · have hless : number < bound + 1 ↔ number < bound := by omega
        simp only [List.mem_cons, hbound, false_or, hless]
        omega

/-- Visits what lies on a stack.  A module that is visited for the first time puts its
dependencies on the stack, the last of them on top. -/
def walk (graph : Graph) (visited : List Nat) : (stack : List Nat) → List Nat
  | [] => visited
  | number :: rest =>
    if number ∈ visited then walk graph visited rest
    else walk graph (number :: visited) ((graph.dependenciesOf number).reverse ++ rest)
-- Every round takes one number from the stack; those that it adds were unseen before.
termination_by stack => unseen graph visited graph.modules.length + stack.length
decreasing_by
  · simp
  · rename_i hnumber
    have hunseen := unseen_cons graph hnumber graph.modules.length
    simp only [List.length_append, List.length_reverse, List.length_cons]
    split at hunseen
    · omega
    · rename_i hrange
      rw [dependenciesOf_eq_nil (Nat.le_of_not_lt hrange), List.length_nil]
      omega

/-- The modules that an entry needs, in the order of their numbers. -/
def reachable (graph : Graph) (entry : Nat) : List Nat :=
  (graph.walk [] [entry]).mergeSort

end Graph

end WebBundle

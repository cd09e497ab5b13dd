import Mathlib.Data.List.Sort
import Mathlib.Logic.Relation
import WebBundle.Graph.Basic

/-!
# What an entry needs

The walk through a graph keeps two things true from round to round: the dependencies of
what was visited were visited or lie on the stack, and nothing was visited twice.  So it
visits what its stack leads to, and nothing else.  What an entry needs are the modules that
dependencies lead to from it, each once and in the order of their numbers.
-/

namespace WebBundle.Graph

variable {graph : Graph}

/-- One module depends on another one. -/
def DependsOn (graph : Graph) (number other : Nat) : Prop := other ∈ graph.dependenciesOf number

/-- Dependencies lead from one module to another one. -/
abbrev LeadsTo (graph : Graph) : Nat → Nat → Prop := Relation.ReflTransGen graph.DependsOn

/-- The dependencies of what was visited were visited or are about to be. -/
def Covers (graph : Graph) (visited stack : List Nat) : Prop :=
  ∀ number ∈ visited, ∀ other, graph.DependsOn number other → other ∈ visited ∨ other ∈ stack

theorem Covers.skip {visited rest : List Nat} {number : Nat}
    (h : graph.Covers visited (number :: rest)) (hnumber : number ∈ visited) :
    graph.Covers visited rest := by
  intro other hother next hnext
  rcases h other hother next hnext with hvisited | hstack
  · exact .inl hvisited
  · rcases List.mem_cons.mp hstack with rfl | hrest
    · exact .inl hnumber
    · exact .inr hrest

theorem Covers.visit {visited rest : List Nat} {number : Nat}
    (h : graph.Covers visited (number :: rest)) :
    graph.Covers (number :: visited) ((graph.dependenciesOf number).reverse ++ rest) := by
  intro other hother next hnext
  rw [List.mem_append, List.mem_reverse]
  rcases List.mem_cons.mp hother with rfl | hother
  · exact .inr (.inl hnext)
  · rcases h other hother next hnext with hvisited | hstack
    · exact .inl (List.mem_cons_of_mem _ hvisited)
    · rcases List.mem_cons.mp hstack with rfl | hrest
      · exact .inl List.mem_cons_self
      · exact .inr (.inr hrest)

/-- A walk keeps what it has visited, visits what lies on its stack, and comes to an end
at which no dependency is left out. -/
theorem walk_closed (graph : Graph) (visited stack : List Nat) (h : graph.Covers visited stack) :
    graph.Covers (graph.walk visited stack) [] ∧
      ∀ number, number ∈ visited ∨ number ∈ stack → number ∈ graph.walk visited stack := by
  induction visited, stack using walk.induct graph with
  | case1 visited =>
      rw [walk]
      exact ⟨h, fun number hnumber => hnumber.resolve_right List.not_mem_nil⟩
  | case2 visited number rest hvisited ih =>
      rw [walk, if_pos hvisited]
      obtain ⟨hclosed, hkept⟩ := ih (h.skip hvisited)
      refine ⟨hclosed, fun other hother => ?_⟩
      rcases hother with hother | hother
      · exact hkept other (.inl hother)
      · rcases List.mem_cons.mp hother with rfl | hrest
        · exact hkept other (.inl hvisited)
        · exact hkept other (.inr hrest)
  | case3 visited number rest hvisited ih =>
      rw [walk, if_neg hvisited]
      obtain ⟨hclosed, hkept⟩ := ih h.visit
      refine ⟨hclosed, fun other hother => ?_⟩
      rcases hother with hother | hother
      · exact hkept other (.inl (List.mem_cons_of_mem _ hother))
      · rcases List.mem_cons.mp hother with rfl | hrest
        · exact hkept other (.inl List.mem_cons_self)
        · exact hkept other (.inr (List.mem_append_right _ hrest))

/-- A walk visits nothing but what its stack leads to. -/
theorem leadsTo_of_mem_walk (graph : Graph) (visited stack : List Nat) {number : Nat}
    (hnumber : number ∈ graph.walk visited stack) :
    number ∈ visited ∨ ∃ start ∈ stack, graph.LeadsTo start number := by
  induction visited, stack using walk.induct graph with
  | case1 visited =>
      rw [walk] at hnumber
      exact .inl hnumber
  | case2 visited next rest hvisited ih =>
      rw [walk, if_pos hvisited] at hnumber
      refine (ih hnumber).imp_right ?_
      rintro ⟨start, hstart, hleads⟩
      exact ⟨start, List.mem_cons_of_mem _ hstart, hleads⟩
  | case3 visited next rest hvisited ih =>
      rw [walk, if_neg hvisited] at hnumber
      rcases ih hnumber with hmem | ⟨start, hstart, hleads⟩
      · rcases List.mem_cons.mp hmem with rfl | hmem
        · exact .inr ⟨number, List.mem_cons_self, .refl⟩
        · exact .inl hmem
      · rw [List.mem_append, List.mem_reverse] at hstart
        rcases hstart with hdependency | hrest
        · exact .inr ⟨next, List.mem_cons_self, .head hdependency hleads⟩
        · exact .inr ⟨start, List.mem_cons_of_mem _ hrest, hleads⟩

theorem nodup_walk (graph : Graph) (visited stack : List Nat) (hvisited : visited.Nodup) :
    (graph.walk visited stack).Nodup := by
  induction visited, stack using walk.induct graph with
  | case1 visited =>
      rw [walk]
      exact hvisited
  | case2 visited number rest hmem ih =>
      rw [walk, if_pos hmem]
      exact ih hvisited
  | case3 visited number rest hmem ih =>
      rw [walk, if_neg hmem]
      exact ih (List.nodup_cons.mpr ⟨hmem, hvisited⟩)

/-- What an entry needs is what dependencies lead to from it. -/
theorem mem_reachable {entry number : Nat} :
    number ∈ graph.reachable entry ↔ graph.LeadsTo entry number := by
  rw [reachable, List.mem_mergeSort]
  constructor
  · intro hnumber
    rcases leadsTo_of_mem_walk graph [] [entry] hnumber with hnone | ⟨start, hstart, hleads⟩
    · exact absurd hnone List.not_mem_nil
    · rw [List.mem_singleton] at hstart
      exact hstart ▸ hleads
  · intro hleads
    obtain ⟨hclosed, hkept⟩ := walk_closed graph [] [entry] fun _ hnone => nomatch hnone
    induction hleads with
    | refl => exact hkept entry (.inr List.mem_cons_self)
    | tail _ hdependency ih =>
        exact (hclosed _ ih _ hdependency).resolve_right List.not_mem_nil

/-- The modules that an entry needs stand in the order of their numbers, each once. -/
theorem pairwise_reachable (graph : Graph) (entry : Nat) :
    (graph.reachable entry).Pairwise (· < ·) := by
  have hsorted : (graph.reachable entry).Pairwise (· ≤ ·) := List.pairwise_mergeSort' (· ≤ ·) _
  have hnodup : (graph.reachable entry).Nodup :=
    (List.mergeSort_perm _ _).nodup_iff.mpr (nodup_walk graph [] [entry] List.nodup_nil)
  exact (hsorted.and hnodup).imp fun h => lt_of_le_of_ne h.1 h.2

end WebBundle.Graph

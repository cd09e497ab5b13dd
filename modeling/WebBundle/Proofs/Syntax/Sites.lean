import WebBundle.Syntax.Scope

/-!
# The sites of a tree

A walk over a tree meets every node once, a node before what is inside of it and
everything in the order of the source.  A walk that looks for nodes of some kinds gives
those of all sites.
-/

namespace WebBundle.Syntax

mutual

/-- A node and all nodes inside of it, outer ones first. -/
def Node.nodes : Node → List Node
  | ⟨kind, span, children⟩ => ⟨kind, span, children⟩ :: Node.nodesIn children

/-- Several nodes and all nodes inside of them. -/
def Node.nodesIn : List Node → List Node
  | [] => []
  | node :: rest => node.nodes ++ Node.nodesIn rest

end

mutual

/-- What is inside of a node inside of another one is inside of the other one. -/
theorem Node.nodes_subset {inner : Node} :
    ∀ outer : Node, inner ∈ outer.nodes → inner.nodes ⊆ outer.nodes
  | ⟨kind, span, children⟩, hmem => by
      rw [Node.nodes] at hmem ⊢
      rcases List.mem_cons.mp hmem with rfl | hmem
      · rw [Node.nodes]
        exact List.Subset.refl _
      · exact List.subset_cons_of_subset _ (Node.nodesIn_subset children hmem)

theorem Node.nodesIn_subset {inner : Node} :
    ∀ nodes : List Node, inner ∈ Node.nodesIn nodes → inner.nodes ⊆ Node.nodesIn nodes
  | [], hmem => by
      rw [Node.nodesIn] at hmem
      exact absurd hmem List.not_mem_nil
  | node :: rest, hmem => by
      rw [Node.nodesIn] at hmem ⊢
      rcases List.mem_append.mp hmem with hmem | hmem
      · exact List.subset_append_of_subset_left _ (Node.nodes_subset node hmem)
      · exact List.subset_append_of_subset_right _ (Node.nodesIn_subset rest hmem)

end

/-- Every kind of node. -/
def anyKind : Kind → Bool := fun _ => true

mutual

theorem sitesFrom_filter (wanted : Kind → Bool) (bound : List String) :
    ∀ node, (sitesFrom anyKind bound node).filter (fun site => wanted site.node.kind) =
      sitesFrom wanted bound node
  | ⟨kind, span, children⟩ => by
      have hrest := sitesFromAll_filter wanted bound
        (scopeNames ⟨kind, span, children⟩ ++ bound) kind.outerChildren children
      simp only [sitesFrom, anyKind, if_true, List.filter_cons, Node.kind] at hrest ⊢
      rw [hrest]

theorem sitesFromAll_filter (wanted : Kind → Bool) (bound inner : List String) :
    ∀ outside nodes, (sitesFromAll anyKind bound inner outside nodes).filter
        (fun site => wanted site.node.kind) =
      sitesFromAll wanted bound inner outside nodes
  | _, [] => by simp only [sitesFromAll, List.filter_nil]
  | 0, node :: rest => by
      simp only [sitesFromAll, List.filter_append]
      rw [sitesFrom_filter, sitesFromAll_filter]
  | outside + 1, node :: rest => by
      simp only [sitesFromAll, List.filter_append]
      rw [sitesFrom_filter, sitesFromAll_filter]

end

mutual

theorem sitesFrom_nodes (bound : List String) :
    ∀ node, (sitesFrom anyKind bound node).map Site.node = node.nodes
  | ⟨kind, span, children⟩ => by
      simp only [sitesFrom, anyKind, if_true, List.map_cons, Node.nodes]
      exact congrArg _ (sitesFromAll_nodes bound _ kind.outerChildren children)

theorem sitesFromAll_nodes (bound inner : List String) :
    ∀ outside nodes, (sitesFromAll anyKind bound inner outside nodes).map Site.node =
      Node.nodesIn nodes
  | _, [] => by simp only [sitesFromAll, List.map_nil, Node.nodesIn]
  | 0, node :: rest => by
      simp only [sitesFromAll, List.map_append, Node.nodesIn]
      rw [sitesFrom_nodes, sitesFromAll_nodes]
  | outside + 1, node :: rest => by
      simp only [sitesFromAll, List.map_append, Node.nodesIn]
      rw [sitesFrom_nodes, sitesFromAll_nodes]

end

namespace Program

/-- The wanted sites are those of all sites. -/
theorem sites_filter (program : Program) (wanted : Kind → Bool) :
    (program.sites anyKind).filter (fun site => wanted site.node.kind) = program.sites wanted :=
  sitesFrom_filter wanted [] program.root

/-- Sites of fewer kinds are among those of more kinds. -/
theorem sites_filter_of_imp (program : Program) {fewer more : Kind → Bool}
    (himp : ∀ kind, fewer kind = true → more kind = true) :
    (program.sites more).filter (fun site => fewer site.node.kind) = program.sites fewer := by
  rw [← sites_filter program more, ← sites_filter program fewer, List.filter_filter]
  refine List.filter_congr fun site _ => ?_
  cases hfewer : fewer site.node.kind with
  | true => rw [himp _ hfewer, Bool.and_self]
  | false => rw [Bool.false_and]

/-- The sites of some kinds are the nodes of these kinds, each once and in order. -/
theorem sites_nodes (program : Program) (wanted : Kind → Bool) :
    (program.sites wanted).map Site.node =
      program.root.nodes.filter fun node => wanted node.kind := by
  rw [← sites_filter, ← sitesFrom_nodes [], List.filter_map]
  rfl

end Program

end WebBundle.Syntax

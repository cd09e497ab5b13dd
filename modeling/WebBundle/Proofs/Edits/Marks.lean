import Mathlib.Data.List.Flatten
import Mathlib.Order.Interval.Finset.Nat
import WebBundle.Proofs.Syntax.Entries
import WebBundle.Proofs.Syntax.Place
import WebBundle.Proofs.Syntax.Sites
import WebBundle.Scan.Findings

/-!
# Ranges that edits may replace

What an edit replaces can be told from the tree, whatever the hooks do: a whole import or
export list, the words in front of an exported declaration, a call of a name with one
argument, or the first argument of a call.  These ranges are the marks of a node.  A node
is marked as a whole only if nothing that is scanned stands inside of the range, so the
marks of a tree can lie apart; that they do is what a tree must satisfy to fit its source.
-/

namespace WebBundle.Syntax

open Scan (isScanned)

/-! ## Ranges -/

/-- Two ranges without a common byte. -/
def Span.Apart (first second : Span) : Prop :=
  first.stop ≤ second.start ∨ second.stop ≤ first.start

instance (first second : Span) : Decidable (first.Apart second) :=
  inferInstanceAs (Decidable (_ ∨ _))

/-- A range of whole characters between two offsets that is not empty. -/
structure Span.Covers (source : String) (lo hi : Nat) (span : Span) : Prop where
  lo_le : lo ≤ span.start
  lt : span.start < span.stop
  le_hi : span.stop ≤ hi
  start : (String.Pos.Raw.mk span.start).IsValid source
  stop : (String.Pos.Raw.mk span.stop).IsValid source

/-- Ranges between two offsets no two of which overlap. -/
structure Scattered (source : String) (lo hi : Nat) (spans : List Span) : Prop where
  covers : ∀ span ∈ spans, span.Covers source lo hi
  apart : spans.Pairwise Span.Apart

variable {source : String} {lo mid hi : Nat}

theorem Span.Apart.symm {first second : Span} (h : first.Apart second) : second.Apart first :=
  Or.symm h

theorem Span.Covers.mono {span : Span} {low high : Nat} (h : span.Covers source lo hi)
    (hlo : low ≤ lo) (hhi : hi ≤ high) : span.Covers source low high :=
  ⟨Nat.le_trans hlo h.lo_le, h.lt, Nat.le_trans h.le_hi hhi, h.start, h.stop⟩

namespace Scattered

variable {before after spans : List Span} {span : Span}

theorem nil : Scattered source lo hi [] := ⟨List.forall_mem_nil _, .nil⟩

theorem singleton (h : span.Covers source lo hi) : Scattered source lo hi [span] :=
  ⟨List.forall_mem_singleton.mpr h, List.pairwise_singleton _ _⟩

theorem mono {low high : Nat} (h : Scattered source lo hi spans) (hlo : low ≤ lo)
    (hhi : hi ≤ high) : Scattered source low high spans :=
  ⟨fun span hmem => (h.covers span hmem).mono hlo hhi, h.apart⟩

theorem sublist (h : Scattered source lo hi spans) (hsublist : before.Sublist spans) :
    Scattered source lo hi before :=
  ⟨fun span hmem => h.covers span (hsublist.subset hmem), h.apart.sublist hsublist⟩

/-- There are no more ranges than offsets. -/
theorem length_le (h : Scattered source lo hi spans) : spans.length ≤ hi - lo := by
  have hnodup : (spans.map Span.start).Nodup := by
    rw [List.Nodup, List.pairwise_map]
    refine List.Pairwise.imp_of_mem ?_ h.apart
    intro first second hfirst hsecond hapart
    have := (h.covers first hfirst).lt
    have := (h.covers second hsecond).lt
    rcases hapart with hapart | hapart <;> omega
  calc
    spans.length = (spans.map Span.start).toFinset.card := by
      rw [List.toFinset_card_of_nodup hnodup, List.length_map]
    _ ≤ (Finset.Ico lo hi).card := by
      refine Finset.card_le_card fun start hstart => ?_
      obtain ⟨span, hspan, rfl⟩ := List.mem_map.mp (List.mem_toFinset.mp hstart)
      have hcovers := h.covers span hspan
      exact Finset.mem_Ico.mpr ⟨hcovers.lo_le, by have := hcovers.lt; have := hcovers.le_hi; omega⟩
    _ = hi - lo := Nat.card_Ico lo hi

theorem perm (h : Scattered source lo hi before) (hperm : before.Perm after) :
    Scattered source lo hi after :=
  ⟨fun span hmem => h.covers span (hperm.mem_iff.mpr hmem),
    (hperm.pairwise_iff Span.Apart.symm).mp h.apart⟩

/-- Ranges in front of an offset lie apart from those behind it. -/
theorem append (hbefore : Scattered source lo mid before) (hafter : Scattered source mid hi after)
    (hlo : lo ≤ mid) (hhi : mid ≤ hi) : Scattered source lo hi (before ++ after) where
  covers := by
    intro span hmem
    rcases List.mem_append.mp hmem with hmem | hmem
    · exact (hbefore.covers span hmem).mono (Nat.le_refl lo) hhi
    · exact (hafter.covers span hmem).mono hlo (Nat.le_refl hi)
  apart := by
    refine List.pairwise_append.mpr ⟨hbefore.apart, hafter.apart, ?_⟩
    intro first hfirst second hsecond
    exact .inl (Nat.le_trans (hbefore.covers first hfirst).le_hi
      (hafter.covers second hsecond).lo_le)

end Scattered

/-! ## Marks -/

/-- Nothing that is scanned stands inside of some nodes. -/
def Quiet (nodes : List Node) : Prop := ∀ node ∈ Node.nodesIn nodes, isScanned node.kind = false

instance : DecidablePred Quiet := fun nodes =>
  inferInstanceAs (Decidable (∀ node ∈ Node.nodesIn nodes, isScanned node.kind = false))

/-- The ranges of a node itself that edits may replace. -/
def Node.marks : Node → List Span
  | ⟨.importDeclaration _ _, span, _⟩ => [span]
  | ⟨.exportNamed _, span, _⟩ => [span]
  | ⟨.exportAll _ _, span, _⟩ => [span]
  | ⟨.exportDeclaration, span, [inner]⟩ => [⟨span.start, inner.span.start⟩]
  | ⟨.exportDefault, span, [inner]⟩ => [⟨span.start, inner.span.start⟩]
  | ⟨.call _, span, [callee, ⟨_, _, argument :: rest⟩]⟩ =>
    if Quiet [callee, argument] then
      match callee.kind, rest with
      | .reference _, [] => [span]
      | _, _ => [argument.span]
    else []
  | _ => []

/-- The marks of several nodes and of all nodes inside of them. -/
def marksOf (nodes : List Node) : List Span := (Node.nodesIn nodes).flatMap Node.marks

theorem Node.nodesIn_eq (nodes : List Node) : Node.nodesIn nodes = nodes.flatMap Node.nodes := by
  induction nodes with
  | nil => rfl
  | cons node rest ih => rw [Node.nodesIn, List.flatMap_cons, ih]

theorem Node.mem_nodes_self (node : Node) : node ∈ node.nodes := by
  obtain ⟨_, _, _⟩ := node
  rw [Node.nodes]
  exact List.mem_cons_self

/-- The parts of a node are inside of it. -/
theorem Node.mem_nodes_of_mem_children {inner : Node} :
    ∀ outer : Node, inner ∈ outer.children → inner ∈ outer.nodes
  | ⟨_, _, _⟩, hinner => by
      rw [Node.nodes, Node.nodesIn_eq]
      exact List.mem_cons_of_mem _ (List.mem_flatMap_of_mem hinner inner.mem_nodes_self)

theorem Node.nodesIn_append (first second : List Node) :
    Node.nodesIn (first ++ second) = Node.nodesIn first ++ Node.nodesIn second := by
  rw [nodesIn_eq, nodesIn_eq, nodesIn_eq, List.flatMap_append]

theorem Node.nodesIn_sublist {first second : List Node} (h : first.Sublist second) :
    (Node.nodesIn first).Sublist (Node.nodesIn second) := by
  rw [nodesIn_eq, nodesIn_eq]
  exact h.flatMap _

theorem Node.nodesIn_singleton (kind : Kind) (span : Span) (children : List Node) :
    Node.nodesIn [⟨kind, span, children⟩] = ⟨kind, span, children⟩ :: Node.nodesIn children := by
  rw [Node.nodesIn, Node.nodesIn, Node.nodes, List.append_nil]

@[simp]
theorem marksOf_nil : marksOf [] = [] := rfl

theorem marksOf_append (first second : List Node) :
    marksOf (first ++ second) = marksOf first ++ marksOf second := by
  rw [marksOf, Node.nodesIn_append, List.flatMap_append]
  rfl

theorem marksOf_cons (node : Node) (rest : List Node) :
    marksOf (node :: rest) = marksOf [node] ++ marksOf rest := marksOf_append [node] rest

theorem marksOf_node (kind : Kind) (span : Span) (children : List Node) :
    marksOf [⟨kind, span, children⟩] = Node.marks ⟨kind, span, children⟩ ++ marksOf children := by
  rw [marksOf, Node.nodesIn_singleton, List.flatMap_cons]
  rfl

/-- Only nodes that are scanned have marks. -/
theorem Node.marks_eq_nil {kind : Kind} (h : isScanned kind = false) (span : Span)
    (children : List Node) : Node.marks ⟨kind, span, children⟩ = [] := by
  cases kind <;> first | rfl | cases h

/-- A call with a known argument is a mark, or that argument is. -/
theorem Node.marks_call {optional : Bool} {span place : Span} {kind : Kind}
    {callee argument : Node} {rest : List Node} (hquiet : Quiet [callee, argument]) :
    Node.marks ⟨.call optional, span, [callee, ⟨kind, place, argument :: rest⟩]⟩ =
      match callee.kind, rest with
      | .reference _, [] => [span]
      | _, _ => [argument.span] :=
  if_pos hquiet

theorem Quiet.marksOf {nodes : List Node} (h : Quiet nodes) : marksOf nodes = [] :=
  List.flatMap_eq_nil_iff.mpr fun ⟨_, span, children⟩ hmem =>
    Node.marks_eq_nil (h _ hmem) span children

theorem quiet_append {first second : List Node} :
    Quiet (first ++ second) ↔ Quiet first ∧ Quiet second := by
  rw [Quiet, Node.nodesIn_append, List.forall_mem_append]
  rfl

theorem quiet_cons {node : Node} {rest : List Node} :
    Quiet (node :: rest) ↔ Quiet [node] ∧ Quiet rest := by
  rw [← quiet_append]
  rfl

theorem quiet_node {kind : Kind} {span : Span} {children : List Node} :
    Quiet [⟨kind, span, children⟩] ↔ isScanned kind = false ∧ Quiet children := by
  rw [Quiet, Node.nodesIn_singleton, List.forall_mem_cons]
  rfl

/-! ## Trees that fit their source -/

/-- Whether the export entries of a node can be told. -/
abbrev Node.HasEntries (node : Node) : Prop := node.exportEntries?.isSome = true

/-- Literals and names have no parts, a template has more parts of text than substitutions,
and a declaration of exports has export entries. -/
def Node.Regular : Node → Prop
  | ⟨.stringLiteral _ _, _, children⟩ => children = []
  | ⟨.numberLiteral _, _, children⟩ => children = []
  | ⟨.booleanLiteral _, _, children⟩ => children = []
  | ⟨.nullLiteral, _, children⟩ => children = []
  | ⟨.reference _, _, children⟩ => children = []
  | ⟨.templateLiteral quasis, _, children⟩ => children.length < quasis.length
  | ⟨.exportNamed typeOnly, span, children⟩ =>
    Node.HasEntries ⟨.exportNamed typeOnly, span, children⟩
  | ⟨.exportDeclaration, span, children⟩ => Node.HasEntries ⟨.exportDeclaration, span, children⟩
  | ⟨.exportDefault, span, children⟩ => Node.HasEntries ⟨.exportDefault, span, children⟩
  | ⟨.exportAll exported typeOnly, span, children⟩ =>
    Node.HasEntries ⟨.exportAll exported typeOnly, span, children⟩
  | _ => True

/-- The export entries of a regular node can be told. -/
theorem Node.Regular.hasEntries : ∀ {node : Node}, node.Regular → node.HasEntries
  | ⟨kind, span, children⟩, h => by
      cases kind <;> first | exact h | rfl

/-- Whether nodes of a kind are not scanned and are regular whatever their parts are. -/
def Kind.isFree : Kind → Bool
  | .call _ | .importDeclaration _ _ | .exportNamed _ | .exportDeclaration | .exportDefault
  | .exportAll _ _ => false
  | .stringLiteral _ _ | .numberLiteral _ | .booleanLiteral _ | .nullLiteral | .reference _
  | .templateLiteral _ => false
  | _ => true

theorem Kind.not_isScanned_of_isFree {kind : Kind} (h : kind.isFree = true) :
    isScanned kind = false := by
  cases kind <;> first | rfl | cases h

theorem Kind.regular_of_isFree {kind : Kind} (h : kind.isFree = true) (span : Span)
    (children : List Node) : Node.Regular ⟨kind, span, children⟩ := by
  cases kind <;> trivial

/-- All nodes inside of several nodes are regular. -/
def Regular (nodes : List Node) : Prop := ∀ node ∈ Node.nodesIn nodes, node.Regular

/-- Regular nodes whose marks lie apart between two offsets of the source. -/
structure Fits (source : String) (lo hi : Nat) (nodes : List Node) : Prop where
  marks : Scattered source lo hi (marksOf nodes)
  regular : Regular nodes

/-- Regular nodes without anything that is scanned. -/
structure Plain (nodes : List Node) : Prop where
  quiet : Quiet nodes
  regular : Regular nodes

theorem regular_append {first second : List Node} :
    Regular (first ++ second) ↔ Regular first ∧ Regular second := by
  rw [Regular, Node.nodesIn_append, List.forall_mem_append]
  rfl

theorem regular_cons {node : Node} {rest : List Node} :
    Regular (node :: rest) ↔ Regular [node] ∧ Regular rest := by
  rw [← regular_append]
  rfl

theorem regular_node {kind : Kind} {span : Span} {children : List Node} :
    Regular [⟨kind, span, children⟩] ↔
      Node.Regular ⟨kind, span, children⟩ ∧ Regular children := by
  rw [Regular, Node.nodesIn_singleton, List.forall_mem_cons]
  rfl

/-! ## Nodes that stand for others -/

/-- Some nodes have the marks of others and are regular if these are. -/
structure Like (first second : List Node) : Prop where
  marks : marksOf second = marksOf first
  regular : Regular first → Regular second

namespace Like

variable {first second third fourth : List Node}

theorem refl (nodes : List Node) : Like nodes nodes := ⟨rfl, fun h => h⟩

theorem append (h : Like first second) (hrest : Like third fourth) :
    Like (first ++ third) (second ++ fourth) where
  marks := by rw [marksOf_append, marksOf_append, h.marks, hrest.marks]
  regular hregular :=
    regular_append.mpr ((regular_append.mp hregular).imp h.regular hrest.regular)

theorem node {kind other : Kind} {span place : Span} (h : Like first second)
    (hkind : kind.isFree = true) (hother : other.isFree = true) :
    Like [⟨kind, span, first⟩] [⟨other, place, second⟩] where
  marks := by
    rw [marksOf_node, marksOf_node, h.marks,
      Node.marks_eq_nil (Kind.not_isScanned_of_isFree hother),
      Node.marks_eq_nil (Kind.not_isScanned_of_isFree hkind)]
  regular hregular := regular_node.mpr
    ⟨Kind.regular_of_isFree hother place second, h.regular (regular_node.mp hregular).2⟩

/-- A node that is not scanned stands for its parts. -/
theorem free {kind : Kind} (hkind : kind.isFree = true) (span : Span) (children : List Node) :
    Like children [⟨kind, span, children⟩] where
  marks := by
    rw [marksOf_node, Node.marks_eq_nil (Kind.not_isScanned_of_isFree hkind), List.nil_append]
  regular hregular :=
    regular_node.mpr ⟨Kind.regular_of_isFree hkind span children, hregular⟩

end Like

/-! ## Fitting together -/

namespace Plain

variable {first second children : List Node}

theorem nil : Plain [] := ⟨List.forall_mem_nil _, List.forall_mem_nil _⟩

theorem append (hfirst : Plain first) (hsecond : Plain second) : Plain (first ++ second) :=
  ⟨quiet_append.mpr ⟨hfirst.quiet, hsecond.quiet⟩,
    regular_append.mpr ⟨hfirst.regular, hsecond.regular⟩⟩

theorem node {kind : Kind} {span : Span} (h : Plain children) (hkind : isScanned kind = false)
    (hregular : Node.Regular ⟨kind, span, children⟩) : Plain [⟨kind, span, children⟩] :=
  ⟨quiet_node.mpr ⟨hkind, h.quiet⟩, regular_node.mpr ⟨hregular, h.regular⟩⟩

theorem free {kind : Kind} {span : Span} (h : Plain children) (hkind : kind.isFree = true) :
    Plain [⟨kind, span, children⟩] :=
  h.node (Kind.not_isScanned_of_isFree hkind) (Kind.regular_of_isFree hkind span children)

theorem missing : Plain [Node.missing] := nil.free rfl

theorem fits (h : Plain first) : Fits source lo hi first :=
  ⟨h.quiet.marksOf ▸ Scattered.nil, h.regular⟩

end Plain

namespace Fits

variable {first second children : List Node} {kind : Kind} {span : Span}

theorem nil : Fits source lo hi [] := Plain.nil.fits

theorem mono {low high : Nat} (h : Fits source lo hi first) (hlo : low ≤ lo) (hhi : hi ≤ high) :
    Fits source low high first :=
  ⟨h.marks.mono hlo hhi, h.regular⟩

theorem append (hfirst : Fits source lo mid first) (hsecond : Fits source mid hi second)
    (hlo : lo ≤ mid) (hhi : mid ≤ hi) : Fits source lo hi (first ++ second) :=
  ⟨marksOf_append first second ▸ hfirst.marks.append hsecond.marks hlo hhi,
    regular_append.mpr ⟨hfirst.regular, hsecond.regular⟩⟩

/-- What fits still fits when some of it is left out. -/
theorem sublist (h : Fits source lo hi second) (hsublist : first.Sublist second) :
    Fits source lo hi first where
  marks := h.marks.sublist ((Node.nodesIn_sublist hsublist).flatMap _)
  regular := fun node hmem => h.regular node ((Node.nodesIn_sublist hsublist).subset hmem)

/-- A node that is not scanned fits if its parts do. -/
theorem node (h : Fits source lo hi children) (hkind : isScanned kind = false)
    (hregular : Node.Regular ⟨kind, span, children⟩) :
    Fits source lo hi [⟨kind, span, children⟩] where
  marks := by
    rw [marksOf_node, Node.marks_eq_nil hkind]
    exact h.marks
  regular := regular_node.mpr ⟨hregular, h.regular⟩

theorem like (h : Fits source lo hi first) (hlike : Like first second) :
    Fits source lo hi second :=
  ⟨hlike.marks ▸ h.marks, hlike.regular h.regular⟩

theorem free (h : Fits source lo hi children) (hkind : kind.isFree = true) :
    Fits source lo hi [⟨kind, span, children⟩] :=
  h.like (.free hkind span children)

/-- A node whose only mark is the node itself. -/
theorem whole (hspan : span.Covers source lo hi) (hchildren : Plain children)
    (hmarks : Node.marks ⟨kind, span, children⟩ = [span])
    (hregular : Node.Regular ⟨kind, span, children⟩) :
    Fits source lo hi [⟨kind, span, children⟩] where
  marks := by
    rw [marksOf_node, hmarks, hchildren.quiet.marksOf]
    exact .singleton hspan
  regular := regular_node.mpr ⟨hregular, hchildren.regular⟩

/-- A node whose only mark is what stands in front of its part, which may stand for nodes in
front of the mark as well. -/
theorem behindWords {here : Nat} {inner : Node} (hbefore : Fits source lo here first)
    (hwords : Span.Covers source here mid ⟨here, mid⟩) (hbehind : Fits source mid hi second)
    (hlo : lo ≤ here) (hhi : mid ≤ hi) (hlike : Like (first ++ second) [inner])
    (hmarks : Node.marks ⟨kind, span, [inner]⟩ = [⟨here, mid⟩])
    (hregular : Node.Regular ⟨kind, span, [inner]⟩) :
    Fits source lo hi [⟨kind, span, [inner]⟩] where
  marks := by
    have hparts : Scattered source lo hi (marksOf first ++ ([⟨here, mid⟩] ++ marksOf second)) :=
      hbefore.marks.append
        ((Scattered.singleton hwords).append hbehind.marks (Nat.le_of_lt hwords.lt) hhi)
        hlo (Nat.le_trans (Nat.le_of_lt hwords.lt) hhi)
    rw [marksOf_node, hmarks, hlike.marks, marksOf_append]
    exact hparts.perm (List.perm_append_comm_assoc _ _ _)
  regular := regular_node.mpr ⟨hregular, hlike.regular
    (regular_append.mpr ⟨hbefore.regular, hbehind.regular⟩)⟩

/-- A call fits if its callee and its arguments do and the range of the first argument lies
apart from the marks of the others. -/
theorem call {optional : Bool} {callee : Node} {place : Span} {arguments : List Node}
    (hcallee : Fits source lo mid [callee]) (harguments : Fits source mid hi arguments)
    (hfirst : ∀ argument rest, arguments = argument :: rest →
      Scattered source mid hi (argument.span :: marksOf rest))
    (hspan : span.Covers source lo hi) (hlo : lo ≤ mid) (hhi : mid ≤ hi) :
    Fits source lo hi [⟨.call optional, span, [callee, ⟨.list, place, arguments⟩]⟩] where
  marks := by
    have hparts : marksOf [callee, ⟨.list, place, arguments⟩] =
        marksOf [callee] ++ marksOf arguments := by
      rw [marksOf_cons, marksOf_node]
      rfl
    have hboth := hcallee.marks.append harguments.marks hlo hhi
    rw [marksOf_node, hparts]
    cases arguments with
    | nil => exact hboth
    | cons argument rest =>
        rw [Node.marks.eq_def]
        dsimp only
        split
        · -- nothing inside of the callee and of the first argument is marked
          rename_i hquiet
          obtain ⟨hcalleeQuiet, hargumentQuiet⟩ := quiet_cons.mp hquiet
          rw [hcalleeQuiet.marksOf, marksOf_cons, hargumentQuiet.marksOf]
          split
          · exact .singleton hspan
          · exact (hfirst argument _ rfl).mono hlo (Nat.le_refl hi)
        · exact hboth
  regular := by
    have hlist : Regular [callee, ⟨.list, place, arguments⟩] :=
      regular_cons.mpr ⟨hcallee.regular, regular_node.mpr ⟨trivial, harguments.regular⟩⟩
    exact regular_node.mpr ⟨trivial, hlist⟩

end Fits

end WebBundle.Syntax

import Mathlib.Data.List.Basic
import WebBundle.Proofs.Scan.Calls

/-!
# Selectors and chains of names

A selector is the text of a chain, and names have no points.  So a selector of two names
belongs to one chain only: the access of the second name on the global of the first.
-/

namespace WebBundle.Scan

open Syntax

theorem no_point_of_name (name : Identifier.Name) : '.' ∉ name.text.toList := by
  intro hmem
  have hpoint := List.all_eq_true.mp name.isPlain '.' hmem
  exact absurd hpoint (by decide)

/-- Texts without points are known from the text in which a point stands between them. -/
theorem append_point_inj {first second other last : String} (hfirst : '.' ∉ first.toList)
    (hsecond : '.' ∉ second.toList) :
    first ++ "." ++ second = other ++ "." ++ last ↔ first = other ∧ second = last := by
  have hlist : ∀ before after : String, (before ++ "." ++ after).toList =
      before.toList ++ '.' :: after.toList := by
    intro before after
    simp
  rw [← String.toList_inj, hlist, hlist, List.append_cons_inj_of_notMem hfirst hsecond,
    String.toList_inj, String.toList_inj]
  exact ⟨fun h => ⟨h.1, h.2.2⟩, fun h => ⟨h.1, rfl, h.2⟩⟩

theorem globalChain?_reference {bound : List String} {name : Identifier.Name} {span : Span}
    {parts : List Node} {chain : String} :
    globalChain? bound ⟨.reference name, span, parts⟩ = some chain ↔
      name.text = chain ∧ name.text ∉ bound := by
  rw [globalChain?]
  by_cases hbound : name.text ∈ bound <;> simp [hbound]

theorem globalChain?_member {bound : List String} {name : String} {optional : Bool} {span : Span}
    {object : Node} {chain : String} :
    globalChain? bound ⟨.staticMember name optional, span, [object]⟩ = some chain ↔
      ∃ inner, globalChain? bound object = some inner ∧ inner ++ "." ++ name = chain := by
  rw [globalChain?, Option.map_eq_some_iff]

/-- The chain of a global without an access on it is the one without a point. -/
theorem eq_reference_of_chain {bound : List String} {node : Node} {chain : String}
    (hchain : globalChain? bound node = some chain) (hpoint : '.' ∉ chain.toList) :
    ∃ name span parts, node = ⟨.reference name, span, parts⟩ := by
  fun_cases globalChain? bound node with
  | case1 name span parts => exact ⟨name, span, parts, rfl⟩
  | case2 name span parts => exact ⟨name, span, parts, rfl⟩
  | case3 name optional span object =>
      obtain ⟨inner, _, rfl⟩ := globalChain?_member.mp hchain
      exact absurd (by simp) hpoint
  | case4 => simp [globalChain?] at hchain

/-- A selector of two names is that of an access on a global, and of nothing else. -/
theorem globalChain?_eq_pair {bound : List String} {first second : String}
    (hfirst : '.' ∉ first.toList) (hsecond : '.' ∉ second.toList) (node : Node) :
    globalChain? bound node = some (first ++ "." ++ second) ↔
      ∃ optional span name inner parts, node =
          ⟨.staticMember second optional, span, [⟨.reference name, inner, parts⟩]⟩ ∧
        name.text = first ∧ first ∉ bound := by
  constructor
  · intro hchain
    fun_cases globalChain? bound node with
    | case1 name span parts =>
        obtain ⟨htext, _⟩ := globalChain?_reference.mp hchain
        exact absurd (htext ▸ by simp) (no_point_of_name name)
    | case2 name span parts =>
        obtain ⟨htext, _⟩ := globalChain?_reference.mp hchain
        exact absurd (htext ▸ by simp) (no_point_of_name name)
    | case3 name optional span object =>
        obtain ⟨chain, hobject, heq⟩ := globalChain?_member.mp hchain
        obtain ⟨rfl, rfl⟩ := (append_point_inj hfirst hsecond).mp heq.symm
        obtain ⟨global, inner, parts, rfl⟩ := eq_reference_of_chain hobject hfirst
        obtain ⟨rfl, hbound⟩ := globalChain?_reference.mp hobject
        exact ⟨optional, span, global, inner, parts, rfl, rfl, hbound⟩
    | case4 => simp [globalChain?] at hchain
  · rintro ⟨optional, span, name, inner, parts, rfl, rfl, hbound⟩
    exact globalChain?_member.mpr ⟨name.text, globalChain?_reference.mpr ⟨rfl, hbound⟩, rfl⟩

/-- A call is selected by a chain and a method if it is a call of this method on what the
chain leads to. -/
theorem selected?_eq_some {site : Site} {selected : Selected} :
    selected? site = some selected ↔
      ∃ optional span opened place object arguments, site.node = ⟨.call optional, span,
          ⟨.staticMember selected.member opened, place, [object]⟩ :: arguments⟩ ∧
        globalChain? site.bound object = some selected.selector := by
  constructor
  · intro hselected
    rw [selected?] at hselected
    split at hselected
    · rename_i optional span member opened place object arguments hnode
      rw [Option.map_eq_some_iff] at hselected
      obtain ⟨selector, hchain, rfl⟩ := hselected
      exact ⟨optional, span, opened, place, object, arguments, hnode, hchain⟩
    · cases hselected
  · rintro ⟨optional, span, opened, place, object, arguments, hnode, hchain⟩
    rw [selected?, hnode]
    simp only [hchain, Option.map_some]

end WebBundle.Scan

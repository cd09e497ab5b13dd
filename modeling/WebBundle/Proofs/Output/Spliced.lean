import WebBundle.Proofs.Output.Imports

/-!
# Edits in any order

The edits of a module come in an order of their own: those of plugins stand behind all others.
If the ranges that they replace do not overlap, the code of the module does not depend on this
order.  It is the source, copied from front to back, with the text of an edit in place of the
range that the edit replaces.
-/

namespace WebBundle

namespace Syntax

open Scan (Edit)

/-- Edits whose ranges do not overlap can be put in the order of their ranges. -/
theorem Scattered.exists_ordered {source : String} {lo hi : Nat} {edits : List Edit}
    (h : Scattered source lo hi (edits.map Edit.span)) :
    ∃ sorted : List Edit, sorted.Perm edits ∧ Ordered source lo hi (sorted.map Edit.span) := by
  have hperm := edits.mergeSort_perm fun first second =>
    decide (first.span.start ≤ second.span.start)
  have hsorted : (edits.mergeSort fun first second =>
      decide (first.span.start ≤ second.span.start)).Pairwise fun first second =>
        first.span.start ≤ second.span.start := by
    refine (List.pairwise_mergeSort ?_ ?_ edits).imp of_decide_eq_true
    · intro _ _ _ hfirst hsecond
      exact decide_eq_true (Nat.le_trans (of_decide_eq_true hfirst) (of_decide_eq_true hsecond))
    · intro first second
      simpa using Nat.le_total first.span.start second.span.start
  generalize edits.mergeSort _ = sorted at hperm hsorted
  have hspans := h.perm (hperm.map Edit.span).symm
  refine ⟨sorted, hperm, hspans.covers, List.pairwise_map.mpr ?_⟩
  refine ((List.pairwise_map.mp hspans.apart).and hsorted).imp_of_mem ?_
  intro first second hfirst hsecond ⟨hapart, hle⟩
  have hstart := (hspans.covers _ (List.mem_map_of_mem hfirst)).lt
  have hstop := (hspans.covers _ (List.mem_map_of_mem hsecond)).lt
  rw [Span.Apart] at hapart
  omega

end Syntax

namespace Output

open Scan Syntax

/-- Where nothing is replaced, a text is copied. -/
theorem splice_of_apart {replacements : List Replacement} {offset : Nat} {text : List Char}
    (hapart : Apart replacements offset (offset + byteLength text)) :
    splice replacements offset text = text := by
  have hmore := splice_append_of_apart [] hapart
  rwa [List.nil_append, splice_nil] at hmore

/-- A text, which begins at an offset, with the texts of edits in place of the ranges that they
replace: what stands between two ranges is copied. -/
inductive Woven (target : Nat → String) : Nat → List Char → List Edit → List Char → Prop
  | copied (offset : Nat) (text : List Char) : Woven target offset text [] text
  | edited {offset : Nat} {gap own rest code : List Char} {edit : Edit} {edits : List Edit}
    (start : edit.span.start = offset + byteLength gap)
    (stop : edit.span.stop = edit.span.start + byteLength own)
    (others : Woven target edit.span.stop rest edits code) :
    Woven target offset (gap ++ (own ++ rest)) (edit :: edits)
      (gap ++ ((editText target edit).toList ++ code))

variable {target : Nat → String} {source : String} {offset size : Nat} {text code : List Char}
variable {edits : List Edit}

/-- A source can be cut at the ranges of edits that stand in it one behind another. -/
theorem exists_woven (target : Nat → String) (htext : Cursor.StandsIn source ⟨text, offset⟩)
    (hordered : Syntax.Ordered source offset size (edits.map Edit.span)) :
    ∃ code, Woven target offset text edits code := by
  induction edits generalizing offset text with
  | nil => exact ⟨text, .copied offset text⟩
  | cons edit edits ih =>
      have hcovers := hordered.covers edit.span List.mem_cons_self
      obtain ⟨gap, back, rfl, hstart, hback⟩ := exists_cut htext hcovers.start hcovers.lo_le
      obtain ⟨own, rest, rfl, hstop, hrest⟩ :=
        exists_cut hback hcovers.stop (Nat.le_of_lt hcovers.lt)
      obtain ⟨code, hcode⟩ := ih hrest hordered.tail
      exact ⟨_, .edited hstart hstop hcode⟩

/-- If the replacements behind an offset are those of edits, each of which lies apart from all
others, then splicing weaves the texts of the edits in. -/
theorem splice_of_woven {replacements : List Replacement}
    (hwoven : Woven target offset text edits code)
    (hordered : Syntax.Ordered source offset size (edits.map Edit.span))
    (hown : ∀ edit ∈ edits, ⟨edit.span, (editText target edit).toList⟩ ∈ replacements ∧
      Alone replacements ⟨edit.span, (editText target edit).toList⟩)
    (hothers : ∀ replacement ∈ replacements, replacement.span.start < replacement.span.stop ∧
      (replacement.span.stop ≤ offset ∨ ∃ edit ∈ edits, replacement.span = edit.span)) :
    splice replacements offset text = code := by
  induction hwoven with
  | copied offset text =>
      refine splice_of_apart fun replacement hreplacement => ?_
      obtain ⟨hlt, hbefore | ⟨_, hedit, _⟩⟩ := hothers replacement hreplacement
      · omega
      · cases hedit
  | @edited offset gap own rest code edit edits start stop others ih =>
      obtain ⟨hedit, hedits⟩ := List.forall_mem_cons.mp hown
      have hcovers := hordered.covers edit.span List.mem_cons_self
      have hbehind : ∀ other ∈ edits, edit.span.stop ≤ other.span.start := fun other hother =>
        (List.pairwise_cons.mp hordered.ordered).1 _ (List.mem_map_of_mem hother)
      have hgap : splice replacements offset gap = gap := by
        refine splice_of_apart fun replacement hreplacement => ?_
        obtain ⟨hlt, hbefore | ⟨other, hother, hspan⟩⟩ := hothers replacement hreplacement
        · omega
        · rcases List.mem_cons.mp hother with rfl | hother
          · rw [hspan]
            omega
          · have hstart := hbehind other hother
            have hlt := hcovers.lt
            rw [hspan]
            omega
      have hplace : splice replacements edit.span.start own = (editText target edit).toList :=
        splice_own hedit.1 hedit.2 hcovers.lt stop
      have hrest : splice replacements edit.span.stop rest = code := by
        refine ih hordered.tail hedits fun replacement hreplacement => ?_
        obtain ⟨hlt, hbefore | ⟨other, hother, hspan⟩⟩ := hothers replacement hreplacement
        · exact ⟨hlt, .inl (by have := hcovers.lo_le; have := hcovers.lt; omega)⟩
        · rcases List.mem_cons.mp hother with rfl | hother
          · exact ⟨hlt, .inl (by rw [hspan])⟩
          · exact ⟨hlt, .inr ⟨other, hother, hspan⟩⟩
      rw [splice_append_text, splice_append_text, ← start, ← stop, hgap, hplace, hrest]

/-- A view whose edits stand at both ends of the source and next to each other, out of order. -/
def edgeView : View where
  source := "abcdé"
  edits := [.requiring ⟨4, 6⟩ 1, .replace ⟨0, 1⟩ "", .replace ⟨1, 3⟩ "xy"]
  hasDeclarations := true
  stars := [0]

end Output

end WebBundle

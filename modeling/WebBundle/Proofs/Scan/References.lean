import WebBundle.Proofs.Scan.Calls

/-!
# What edits refer to

A declaration or a `require` call adds an import record together with the edit that refers
to it.  So every edit of what a program declares refers to one of its import records, and
none of these records is generated.
-/

namespace WebBundle.Scan

open Syntax

/-- The import record that an edit refers to. -/
def Edit.record? : Edit → Option Nat
  | .replace _ _ => none
  | .importing _ record _ => some record
  | .requiring _ record => some record

namespace Findings

/-- Edits refer to records that exist, and the records stand in the source. -/
structure Sound (findings : Findings) : Prop where
  edits : ∀ edit ∈ findings.edits, ∀ record, edit.record? = some record →
    record < findings.records.length
  records : ∀ record ∈ findings.records, record.form ≠ .generated

namespace Sound

variable {findings : Findings}

theorem addReplacement (h : findings.Sound) (span : Span) (text : String) :
    (findings.addEdit (.replace span text)).Sound where
  edits := by
    intro edit hedit record hrecord
    rcases List.mem_append.mp hedit with hedit | hedit
    · exact h.edits edit hedit record hrecord
    · rw [List.mem_singleton.mp hedit] at hrecord
      cases hrecord
  records := h.records

/-- A record is added with the edit that refers to it. -/
theorem addRecord (h : findings.Sound) {record : ImportRecord} (hform : record.form ≠ .generated)
    {edit : Edit} (hedit : edit.record? = some findings.nextRecord) :
    ((findings.addRecord record).addEdit edit).Sound where
  edits := by
    intro other hother number hnumber
    have hlength : (findings.records ++ [record]).length = findings.records.length + 1 :=
      List.length_append
    change number < (findings.records ++ [record]).length
    rw [hlength]
    rcases List.mem_append.mp hother with hother | hother
    · exact Nat.lt_succ_of_lt (h.edits other hother number hnumber)
    · rw [List.mem_singleton.mp hother, hedit] at hnumber
      cases hnumber
      exact Nat.lt_succ_self _
  records := by
    intro other hother
    rcases List.mem_append.mp hother with hother | hother
    · exact h.records other hother
    · rw [List.mem_singleton.mp hother]
      exact hform

theorem addExports (h : findings.Sound) (exports : List Export) :
    (findings.addExports exports).Sound := ⟨h.edits, h.records⟩

theorem addImport (h : findings.Sound) (span : Span) (source : Node)
    (bindings : List ImportedBinding) : (findings.addImport span source bindings).Sound := by
  rw [Findings.addImport.eq_def]
  split
  · exact h.addRecord ImportForm.noConfusion rfl
  · exact h

theorem addDeclaration (h : findings.Sound) (node : Node) :
    (findings.addDeclaration node).Sound := by
  have hmarked : { findings with hasDeclarations := true }.Sound := ⟨h.edits, h.records⟩
  rw [Findings.addDeclaration.eq_def]
  dsimp only
  split
  · exact hmarked.addImport _ _ _
  · split
    · exact (hmarked.addExports _).addImport _ _ _
    · exact (hmarked.addExports _).addReplacement _ _
  · exact (hmarked.addExports _).addReplacement _ _
  · split
    · exact (hmarked.addReplacement _ _).addExports _
    · exact (hmarked.addReplacement _ _).addExports _
  · exact (hmarked.addExports _).addImport _ _ _
  · have hstar : { findings with
        hasDeclarations := true
        stars := findings.stars ++ [findings.nextRecord] }.Sound := ⟨h.edits, h.records⟩
    exact hstar.addImport _ _ _
  · exact hmarked

theorem addRequire (h : findings.Sound) (site : Site) : (findings.addRequire site).Sound := by
  rw [Findings.addRequire]
  split
  · exact h.addRecord ImportForm.noConfusion rfl
  · exact h

theorem declare (h : findings.Sound) (site : Site) : (Scan.declare findings site).Sound := by
  rw [Scan.declare]
  split
  · exact h.addRequire site
  · exact h.addDeclaration site.node

end Sound

end Findings

/-- What a program declares is sound. -/
theorem declared_sound (program : Program) : (declared program).Sound := by
  have hsites : ∀ (sites : List Site) (findings : Findings), findings.Sound →
      (sites.foldl declare findings).Sound := by
    intro sites
    induction sites with
    | nil => exact fun _ h => h
    | cons site rest ih => exact fun findings h => ih _ (h.declare site)
  exact hsites _ {} ⟨List.forall_mem_nil _, List.forall_mem_nil _⟩

end WebBundle.Scan

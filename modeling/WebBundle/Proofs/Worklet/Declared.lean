import WebBundle.Proofs.Edits.Apart
import WebBundle.Proofs.Output.Requires
import WebBundle.Proofs.Worklet.Conservative

/-!
# Variables of worklets

The argument of a rewritten call becomes a variable that is declared in front of the module.
The variables of a module are numbered one after the other, and a source of up to 2 ^ 32 bytes
has no more calls than there are numbers.  So each of them is declared once, as what is required
by one key.
-/

namespace WebBundle

open Syntax Scan Output

/-- A name is declared once in front of a module, as what is required by a key. -/
def DeclaresOnce (target : Nat → String) (view : View) (name key : String) : Prop :=
  ∃ before record after, view.boundRecords = before ++ (name, record) :: after ∧
    target record = key ∧ name ∉ before.map Prod.fst ∧ name ∉ after.map Prod.fst ∧
    prologue target view = boundCode target before ++
      ("var " ++ name ++ " = " ++ requireCode key ++ ";\n") ++
      boundCode target after ++ exportsCode view

/-- Up to 2 ^ 32 variables with numbers in a row have different names. -/
theorem nodup_variableNames {α : Type} (items : List α) (number : Nat)
    (hfew : items.length ≤ 2 ^ 32) :
    ((items.zipIdx number).map fun asked => Worklet.variableName (.ofNat asked.2)).Nodup := by
  have hnumbers : (items.zipIdx number).map (fun asked => Worklet.variableName (.ofNat asked.2)) =
      (List.range' number items.length).map fun number => Worklet.variableName (.ofNat number) := by
    rw [← List.zipIdx_map_snd number items, List.map_map]
    rfl
  rw [hnumbers]
  refine List.Nodup.map_on (fun first hfirst second hsecond hsame => ?_) List.nodup_range'
  have hsame := congrArg UInt32.toNat (Worklet.variableName_inj.mp hsame)
  rw [UInt32.toNat_ofNat', UInt32.toNat_ofNat'] at hsame
  rw [List.mem_range'_1] at hfirst hsecond
  omega

namespace AddsWorklets

variable {worklets : List (Span × String)} {number : Nat} {plain view : View}

theorem names (hadds : AddsWorklets worklets number plain view) :
    view.boundRecords.map Prod.fst =
      (worklets.zipIdx number).map fun asked => Worklet.variableName (.ofNat asked.2) := by
  rw [hadds.boundRecords, List.map_map]
  conv_rhs => rw [← List.zipIdx_map_fst plain.records.length (worklets.zipIdx number), List.map_map]
  rfl

/-- The variable of a rewritten call is declared once, as what its import record requires. -/
theorem declaresOnce (hadds : AddsWorklets worklets number plain view)
    (hfew : worklets.length ≤ 2 ^ 32) {index : Nat} {asked : Span × String}
    (hasked : worklets[index]? = some asked) (target : Nat → String) :
    DeclaresOnce target view (Worklet.variableName (.ofNat (number + index)))
      (target (plain.records.length + index)) := by
  have hmem : (Worklet.variableName (.ofNat (number + index)), plain.records.length + index) ∈
      view.boundRecords := by
    rw [hadds.boundRecords]
    refine List.mem_map.mpr ⟨((asked, number + index), plain.records.length + index), ?_, rfl⟩
    simp [List.mk_mem_zipIdx_iff_le_and_getElem?_sub, hasked]
  obtain ⟨before, after, hsplit⟩ := List.append_of_mem hmem
  have hnodup := nodup_variableNames worklets number hfew
  rw [← hadds.names, hsplit, List.map_append, List.map_cons, List.nodup_middle, List.nodup_cons,
    List.mem_append, not_or] at hnodup
  refine ⟨before, _, after, hsplit, rfl, hnodup.1.1, hnodup.1.2, ?_⟩
  rw [prologue_eq_boundCode, hsplit, boundCode_append, boundCode, boundCode, boundCode,
    List.map_cons, String.join_cons]
  simp only [String.append_assoc]

end AddsWorklets

/-- A script has no more calls that are rewritten than bytes, since each of them has an edit of
its own. -/
theorem World.length_askedWorklets_le {world : World} {plan : BuildPlan} {number : Nat}
    {settings : Worklet.Settings Nat}
    (hplugins : world.pluginsOf plan.plugins = [⟨number, .worklets settings⟩])
    {kind : ModuleKind} {source : String} {program : Program}
    (hread : ModuleSource.read kind source = .ok program) (memory : PluginMemory) :
    (askedWorklets kind program).length ≤ program.source.utf8ByteSize := by
  have hadds := addsWorklets_scan hplugins kind program memory
  have hscattered := edits_scattered hread [⟨number, .worklets settings⟩] (by simp) memory
  rw [hooks, hplugins] at hadds
  have hlength := hscattered.length_le
  rw [hadds.edits] at hlength
  simp only [List.map_append, List.length_append, List.length_map, List.length_zipIdx] at hlength
  exact Nat.le_trans (Nat.le_add_left _ _) hlength

end WebBundle

import WebBundle.Proofs.Build.Edited
import WebBundle.Proofs.Output.Chunks
import WebBundle.Proofs.Search.Later
import WebBundle.Proofs.Worklet.SideBySide

/-!
# Files of nested builds

A nested build with one entry gives the chunk of this entry as the first of its files.  What
nested builds give is collected and never dropped, so all their files are in the output of the
build that started them, and no other file of the output has one of their names.
-/

namespace WebBundle

open Output

namespace Output

/-- The first file of an output stays the first one. -/
theorem exists_of_finalize_cons {first : Asset} {rest kept : List Asset}
    (hfinal : finalize (first :: rest) = .ok kept) : ∃ others, kept = first :: others := by
  rw [finalize] at hfinal
  split at hfinal
  · cases hfinal
  · cases hfinal
    exact ⟨_, rfl⟩

end Output

namespace World

variable {world : World} {plan : BuildPlan}

/-! ## The first file -/

/-- A build gives the chunk of its only entry and some other files. -/
structure GivesChunk (world : World) (limit : Nat) (start : BuildStart) (name : String)
    (chunk : Asset) (others : List Asset) : Prop where
  gives : world.Gives limit start (chunk :: others)
  made : ∃ fewer graph last, limit = fewer + 1 ∧
    world.scanStage fewer start = some (.ok (graph, last)) ∧ graph.entries = [(some name, 0)] ∧
    Output.chunk start.plan.options graph (buildHash start.plan.options graph)
      ((some name, 0), 0) = some chunk

/-- A build with one entry finds a graph with one entry, which is its first module. -/
theorem entries_of_stage {limit : Nat} {start : BuildStart} {name request : String}
    (hinput : start.plan.options.input = [⟨some name, request⟩]) {graph : Graph} {last : Running}
    (hstage : world.scanStage limit start = some (.ok (graph, last))) :
    graph.entries = [(some name, 0)] := by
  obtain ⟨entries, running, hopening, hload⟩ := scanStage_eq_ok.mp hstage
  have hanswers := Loader.collect_eq_ok (entries_of_opening hopening)
  rw [hinput, List.map_singleton] at hanswers
  obtain ⟨entry, rfl⟩ : ∃ entry, entries = [entry] := by
    rw [← List.length_eq_one_iff, ← List.length_map, ← hanswers]
    rfl
  have hname := (eq_of_entryAnswer (List.cons.inj hanswers).1).1
  obtain ⟨given, target⟩ := entry
  subst hname
  exact (Loader.load_found hload).2.2.2

/-- The first file that a build with one entry gives is the chunk of this entry. -/
theorem givesChunk_of_gives {limit : Nat} {start : BuildStart} {name request : String}
    (hinput : start.plan.options.input = [⟨some name, request⟩]) {assets : List Asset}
    (hgives : world.Gives limit start assets) :
    ∃ chunk others, assets = chunk :: others ∧ world.GivesChunk limit start name chunk others := by
  obtain ⟨ended, session, hrun, hassets⟩ := hgives
  obtain ⟨fewer, graph, last, rfl, hstage, hfinish, _⟩ := stage_of_assets hrun hassets
  have hentries := entries_of_stage hinput hstage
  obtain ⟨_, _, _, hload⟩ := scanStage_eq_ok.mp hstage
  have hless : 0 < graph.modules.length :=
    (Loader.complete_of_load hload).entries (some name, 0)
      (by rw [hentries]; exact List.mem_singleton_self _)
  obtain ⟨chunk, hchunk⟩ : ∃ chunk, Output.chunk start.plan.options graph
      (buildHash start.plan.options graph) ((some name, 0), 0) = some chunk := by
    simp only [Output.chunk, List.getElem?_eq_getElem hless, Option.map_some]
    exact ⟨_, rfl⟩
  rw [finish] at hfinish
  split at hfinish
  · rename_i kept hfinal
    cases hfinish
    have hgenerate : generate start.plan.options graph = chunk ::
        graph.modules.filterMap (emittedFile? start.plan.options) := by
      rw [generate, hentries]
      simp only [List.zipIdx_cons, List.zipIdx_nil, List.filterMap_cons, hchunk, List.filterMap_nil]
      rfl
    rw [hgenerate, List.cons_append] at hfinal
    obtain ⟨others, rfl⟩ := exists_of_finalize_cons hfinal
    exact ⟨chunk, others, rfl, ⟨ended, session, hrun, hassets⟩,
      fewer, graph, last, rfl, hstage, hentries, hchunk⟩
  · cases hfinish

/-! ## Collected files -/

theorem emitted_loading (resolved : Resolved) (plugins : List Numbered) (running : Running) :
    (world.loading plan resolved plugins running).running.emitted = running.emitted := by
  induction plugins generalizing running with
  | nil => rfl
  | cons numbered rest ih =>
      rw [loading]
      cases numbered.plugin with
      | plain => exact ih running
      | worklets settings =>
          dsimp only
          split
          · rfl
          · exact ih running
          · rfl
      | ruled rules =>
          dsimp only
          split
          · exact ih _
          · rfl
          · rfl
          · rfl

theorem emitted_concludeWorklet (job : Worklet.Job Nat) (ended : Ended) (running : Running) :
    running.emitted ⊆ (concludeWorklet plan job ended running).2.emitted := by
  rw [concludeWorklet]
  cases ended.outcome with
  | assets assets =>
      dsimp only
      split <;> exact List.subset_append_left _ _
  | reports reports =>
      dsimp only
      split <;> split <;> exact List.Subset.refl _
  | cancelled =>
      dsimp only
      split <;> exact List.Subset.refl _

/-- What nested builds have given is kept until the build ends. -/
theorem keeps_emitted (limit : Nat) (assets : List Asset) :
    Loader.Keeps (world.steps plan (world.run limit)) (fun running => assets ⊆ running.emitted)
      (fun _ => True) (fun _ => True) where
  resolve importer specifier form running h := by
    change assets ⊆ (world.resolve plan importer specifier form running).2.emitted
    rw [resolve_snd]
    exact h
  load resolved running result next _ h hload := by
    have hbegun := @emitted_loading world plan resolved (world.pluginsOf plan.plugins) running
    rcases load_cases hload with hdone | ⟨job, before, ended, session, hnested, _, hfinish⟩
    · rw [hdone] at hbegun
      exact hbegun ▸ h
    · rw [hnested] at hbegun
      have hlast := @emitted_concludeWorklet plan job ended { before with session }
      rw [show (concludeWorklet plan job ended { before with session }).2 = next from
        congrArg Prod.snd hfinish] at hlast
      exact List.Subset.trans (hbegun ▸ h) hlast
  scan id loaded running _ h := by
    cases loaded <;> exact h

/-- A collected file is in the output, and no other file there has its name. -/
theorem mem_of_emitted {start : BuildStart} {graph : Graph} {last : Running} {assets : List Asset}
    (hfinish : finish start.plan graph last = .assets assets) {asset : Asset}
    (hasset : asset ∈ last.emitted) :
    asset ∈ assets ∧ ∀ other ∈ assets, other.filename = asset.filename → other = asset := by
  rw [finish] at hfinish
  split at hfinish
  · rename_i kept hfinal
    cases hfinish
    have hmem : asset ∈ assets := by
      refine ((kept_of_finalize hfinal).1 asset).mpr (List.mem_append_right _ ?_)
      exact (sortByName_perm last.emitted).mem_iff.mpr hasset
    exact ⟨hmem, fun other hother hname => eq_of_filename hfinal hother hmem hname⟩
  · cases hfinish

end World

end WebBundle

import WebBundle.Proofs.Output.Hashed
import WebBundle.Proofs.Search.Parallel

/-!
# Chunks of graphs that differ in contents

Two graphs that have the same modules with the same dependencies have chunks that hold the
same modules under the same keys.  Such chunks differ at most where the code of a module
differs: hashes in their names have no slashes, so the chunks lie equally deep.
-/

namespace WebBundle.Output

open Loader

variable {options : Options} {graph twin : Graph}
variable {alike : ModuleId → ModuleContent → ModuleContent → Prop}

/-- The chunks of a build. -/
def chunks (options : Options) (graph : Graph) : List Asset :=
  graph.entries.zipIdx.filterMap (chunk options graph (buildHash options graph))

/-- Two chunks that differ at most in the code of their modules. -/
def SameChunk (sameRow : String × String → String × String → Prop) (asset file : Asset) : Prop :=
  ∃ parts rows, List.Forall₂ sameRow parts.modules rows ∧
    asset.content = (chunkCode parts).toUTF8 ∧
    file.content = (chunkCode { parts with modules := rows }).toUTF8

/-- How deep a chunk lies does not depend on the hash of its content. -/
theorem depth_of_chunk {hash : String} {given : Option String} {number index : Nat}
    {module : Module} (hmodule : graph.modules[number]? = some module) {asset : Asset}
    (hchunk : chunk options graph hash ((given, number), index) = some asset) :
    directoryDepth asset.filename = directoryDepth (Filename.render options.entryFilenames
      ⟨some (entryName given module), some (toString index), some hash, none, some "js"⟩) := by
  rw [chunk, hmodule, Option.map_some, Option.some.injEq] at hchunk
  rw [← hchunk, directoryDepth_withContentHash]

section Twins

variable (htwins : List.Forall₂ (Twins alike) graph.modules twin.modules)
include htwins

theorem getElem?_twins (number : Nat) :
    Option.Rel (Twins alike) graph.modules[number]? twin.modules[number]? := by
  cases hmodule : graph.modules[number]? with
  | some module =>
      obtain ⟨other, hother, hsame⟩ := exists_getElem?_of_forall₂ htwins hmodule
      rw [hother]
      exact .some hsame
  | none =>
      rw [List.getElem?_eq_none_iff, htwins.length_eq, ← List.getElem?_eq_none_iff] at hmodule
      rw [hmodule]
      exact .none

theorem reachable_twins (entry : Nat) : graph.reachable entry = twin.reachable entry := by
  rw [Graph.reachable, Graph.reachable, Graph.walk_congr]
  intro number
  have hmodules := getElem?_twins htwins number
  rw [Graph.dependenciesOf, Graph.dependenciesOf]
  generalize graph.modules[number]? = found at hmodules ⊢
  generalize twin.modules[number]? = other at hmodules ⊢
  cases hmodules with
  | none => rfl
  | some hsame => exact hsame.dependencies_eq

theorem targets_twins {module other : Module}
    (hdependencies : module.dependencies = other.dependencies) :
    targets graph module = targets twin other := by
  funext record
  rw [targets, targets, hdependencies]
  cases other.dependencies[record]? with
  | none => rfl
  | some number =>
      have hmodules := getElem?_twins htwins number
      rw [Option.bind_some, Option.bind_some]
      generalize graph.modules[number]? = found at hmodules ⊢
      generalize twin.modules[number]? = target at hmodules ⊢
      cases hmodules with
      | none => rfl
      | some hsame => exact hsame.stableId_eq

/-- A module with the same content has the same code. -/
theorem moduleCode_twins {module other : Module} (hsame : Twins alike module other)
    (hcontent : module.content = other.content) :
    moduleCode options graph module = moduleCode options twin other := by
  rw [moduleCode, moduleCode, targets_twins htwins hsame.dependencies_eq]
  have hfile : emittedFile? options module = emittedFile? options other := by
    rw [emittedFile?, emittedFile?, hcontent, hsame.id_eq]
  rw [hfile, hcontent]

variable {sameRow : String × String → String × String → Prop}
  (hrows : ∀ module ∈ graph.modules, ∀ other, Twins alike module other →
    sameRow (module.stableId, moduleCode options graph module)
      (other.stableId, moduleCode options twin other))
include hrows

theorem table_twins (entry : Nat) :
    List.Forall₂ sameRow (table options graph entry) (table options twin entry) := by
  rw [table, table, ← reachable_twins htwins]
  refine List.rel_filterMap ?_ (List.forall₂_same.mpr fun _ _ => rfl : List.Forall₂ Eq _ _)
  rintro number _ rfl
  have hmodules := getElem?_twins htwins number
  dsimp only
  cases hmodule : graph.modules[number]? with
  | none =>
      rw [hmodule] at hmodules
      generalize twin.modules[number]? = target at hmodules ⊢
      cases hmodules
      exact .none
  | some module =>
      rw [hmodule] at hmodules
      generalize twin.modules[number]? = target at hmodules ⊢
      cases hmodules with
      | some hsame => exact .some (hrows module (List.mem_of_getElem? hmodule) _ hsame)

/-- Two chunks of one entry differ at most in the code of their modules, whatever the hashes of
their builds are. -/
theorem chunk_twins {hash digest : String} (hhash : '/' ∉ hash.toList)
    (hdigest : '/' ∉ digest.toList) (given : Option String) (number index : Nat) :
    Option.Rel (SameChunk sameRow) (chunk options graph hash ((given, number), index))
      (chunk options twin digest ((given, number), index)) := by
  have htable := @table_twins options graph twin alike htwins sameRow hrows number
  have hmodules := getElem?_twins htwins number
  cases hmodule : graph.modules[number]? with
  | none =>
      cases hother : twin.modules[number]? with
      | none =>
          simp only [chunk, hmodule, hother, Option.map_none]
          exact .none
      | some other =>
          rw [hmodule, hother] at hmodules
          cases hmodules
  | some module =>
      cases hother : twin.modules[number]? with
      | none =>
          rw [hmodule, hother] at hmodules
          cases hmodules
      | some other =>
          rw [hmodule, hother] at hmodules
          cases hmodules with
          | some hsame =>
              obtain ⟨asset, hasset⟩ := exists_chunk hmodule options hash given index
              obtain ⟨file, hfile⟩ := exists_chunk hother options digest given index
              obtain ⟨found, hfound, hcontent⟩ := content_of_chunk hasset
              obtain ⟨again, hagain, hrecontent⟩ := content_of_chunk hfile
              have hdepth := depth_of_chunk hmodule hasset
              have hredepth := depth_of_chunk hother hfile
              have hname : entryName given module = entryName given other := by
                unfold entryName
                rw [hsame.id_eq]
              rw [hmodule, Option.some.injEq] at hfound
              rw [hother, Option.some.injEq] at hagain
              have hlevel : directoryDepth asset.filename = directoryDepth file.filename := by
                rw [hdepth, hredepth, hname]
                refine Filename.directoryDepth_render _ ⟨rfl, rfl, rfl⟩ ⟨?_, ?_⟩ ⟨?_, ?_⟩
                · exact fun given hgiven => Option.mem_some.mp hgiven ▸ hhash
                · exact fun _ hnone => absurd hnone (Option.not_mem_none _)
                · exact fun given hgiven => Option.mem_some.mp hgiven ▸ hdigest
                · exact fun _ hnone => absurd hnone (Option.not_mem_none _)
              rw [hasset, hfile]
              refine .some ⟨_, _, htable, hcontent, ?_⟩
              rw [hrecontent, ← hfound, ← hagain, hsame.stableId_eq, hlevel]

/-- Chunks differ at most in the code of their modules. -/
theorem chunks_twins (hentries : graph.entries = twin.entries) :
    List.Forall₂ (SameChunk sameRow) (chunks options graph) (chunks options twin) := by
  rw [chunks, chunks, ← hentries]
  refine List.rel_filterMap ?_ (List.forall₂_same.mpr fun _ _ => rfl : List.Forall₂ Eq _ _)
  rintro ⟨⟨given, number⟩, index⟩ _ rfl
  exact chunk_twins htwins hrows (Digest.slash_notMem_toHex _) (Digest.slash_notMem_toHex _) _ _ _

end Twins

end WebBundle.Output

import Mathlib.Data.List.Nodup
import WebBundle.Bundler
import WebBundle.Proofs.Files.Tree

/-!
# Written files

A bundler writes the files of an output one after the other.  Each of them is read again
from its path afterwards unless a later file is written to the same place.  Names of files
are told apart as texts when an output is put together, but a place is where a path leads:
so all files are read again exactly if the files that lead to one place have one content.
-/

namespace WebBundle

/-- The path of a file of an output in the output directory. -/
def Asset.pathIn (directory : String) (asset : Asset) : String :=
  Path.join directory asset.filename

/-- The names that the path of a file of an output leads to. -/
def Asset.placeIn (directory : String) (asset : Asset) : List String :=
  Path.names (asset.pathIn directory)

namespace Bundler

variable {directory path : String} {files after : FileTree} {content : ByteArray}

/-- A file of an output is written into a tree that has the directories above it. -/
theorem writeAsset_eq_ok {asset : Asset}
    (hwrite : writeAsset directory files asset = (.ok (), after)) :
    ∃ created, FileTree.Includes files created ∧
      created.write (asset.pathIn directory) asset.content = .ok after := by
  rw [Asset.pathIn]
  unfold writeAsset at hwrite
  dsimp only at hwrite
  generalize Path.join directory asset.filename = path at hwrite ⊢
  generalize (Path.parent? path).getD "" = parent at hwrite
  cases hcreate : files.createDirectories parent with
  | error fault =>
      rw [hcreate] at hwrite
      cases hwrite
  | ok created =>
      rw [hcreate] at hwrite
      dsimp only at hwrite
      cases hwritten : created.write path asset.content with
      | error fault =>
          rw [hwritten] at hwrite
          cases hwrite
      | ok written =>
          rw [hwritten] at hwrite
          cases hwrite
          exact ⟨created, FileTree.includes_createDirectories hcreate, hwritten⟩

theorem writeInTurn_cons {write : FileTree → Asset → Except Report Unit × FileTree}
    {asset : Asset} {rest : List Asset}
    (hwrite : writeInTurn write (asset :: rest) files = (.ok (), after)) :
    ∃ written, write files asset = (.ok (), written) ∧
      writeInTurn write rest written = (.ok (), after) := by
  rw [writeInTurn] at hwrite
  split at hwrite
  · cases hwrite
  · exact ⟨_, by assumption, hwrite⟩

/-- A file that could be read is read again after files were written, or the content of
one that was written to its place is. -/
theorem read_writeAssets {assets : List Asset} (hread : files.read path = .ok content)
    (hwrite : writeAssets directory assets files = (.ok (), after)) :
    ∃ found, after.read path = .ok found ∧ (found = content ∨
      ∃ asset ∈ assets, asset.placeIn directory = Path.names path ∧ found = asset.content) := by
  induction assets generalizing files content with
  | nil =>
      cases hwrite
      exact ⟨content, hread, .inl rfl⟩
  | cons asset rest ih =>
      obtain ⟨written, hfirst, hrest⟩ := writeInTurn_cons hwrite
      obtain ⟨created, hcreated, hwritten⟩ := writeAsset_eq_ok hfirst
      have hnext := FileTree.read_write_of_read hwritten (hcreated.read hread)
      obtain ⟨found, hfound, hsource⟩ := ih hnext hrest
      refine ⟨found, hfound, ?_⟩
      rcases hsource with hsource | ⟨other, hother, hplace, hcontent⟩
      · split at hsource
        · rename_i hplace
          exact .inr ⟨asset, List.mem_cons_self, hplace.symm, hsource⟩
        · exact .inl hsource
      · exact .inr ⟨other, List.mem_cons_of_mem _ hother, hplace, hcontent⟩

/-- From the path of a file that was written, a file that was written to its place is read. -/
theorem reads_writeAssets {assets : List Asset}
    (hwrite : writeAssets directory assets files = (.ok (), after)) :
    ∀ asset ∈ assets, ∃ other ∈ assets, other.placeIn directory = asset.placeIn directory ∧
      after.read (asset.pathIn directory) = .ok other.content := by
  induction assets generalizing files with
  | nil => exact List.forall_mem_nil _
  | cons asset rest ih =>
      obtain ⟨written, hfirst, hrest⟩ := writeInTurn_cons hwrite
      obtain ⟨created, _, hwritten⟩ := writeAsset_eq_ok hfirst
      obtain ⟨found, hfound, hsource⟩ := read_writeAssets (FileTree.read_write hwritten) hrest
      refine List.forall_mem_cons.mpr ⟨?_, ?_⟩
      · rcases hsource with rfl | ⟨other, hother, hplace, rfl⟩
        · exact ⟨asset, List.mem_cons_self, rfl, hfound⟩
        · exact ⟨other, List.mem_cons_of_mem _ hother, hplace, hfound⟩
      · intro later hlater
        obtain ⟨other, hother, hplace, hread⟩ := ih hrest later hlater
        exact ⟨other, List.mem_cons_of_mem _ hother, hplace, hread⟩

theorem write_eq_ok {limit : Nat} {bundler next : Bundler} {bundle : Bundle}
    (hwrite : bundler.write limit files = some (.ok bundle, after, next)) :
    writeAssets bundler.options.outputDirectory bundle.assets files = (.ok (), after) := by
  rw [write, Option.map_eq_some_iff] at hwrite
  obtain ⟨⟨result, reached⟩, hgenerate, hresult⟩ := hwrite
  have hoptions : reached.options = bundler.options := by
    rw [generate, Option.map_eq_some_iff] at hgenerate
    obtain ⟨ended, _, hended⟩ := hgenerate
    cases hended
    rfl
  cases result with
  | error reports => cases hresult
  | ok found =>
      simp only [hoptions] at hresult
      generalize hassets : writeAssets bundler.options.outputDirectory found.assets files =
        written at hresult
      obtain ⟨_ | _, tree⟩ := written
      · cases hresult
      · cases hresult
        exact hassets

/-- From one place one content is read. -/
theorem content_eq_of_read {first second : Asset}
    (hfirst : files.read (first.pathIn directory) = .ok first.content)
    (hsecond : files.read (second.pathIn directory) = .ok second.content)
    (hplace : first.placeIn directory = second.placeIn directory) :
    first.content = second.content := by
  have hstands := (FileTree.read_eq_ok.mp hfirst).2
  have hother := (FileTree.read_eq_ok.mp hsecond).2
  rw [Asset.placeIn, Asset.placeIn] at hplace
  rw [hplace, hother, Option.some.injEq, FileEntry.file.injEq] at hstands
  exact hstands.symm

/-- After a build that was written, every file of the output is read from its path with its
own content exactly if the files that lead to one place have one content. -/
theorem write_reads_back {limit : Nat} {bundler next : Bundler} {bundle : Bundle}
    (hwrite : bundler.write limit files = some (.ok bundle, after, next)) :
    (∀ asset ∈ bundle.assets,
        after.read (asset.pathIn bundler.options.outputDirectory) = .ok asset.content) ↔
      ∀ first ∈ bundle.assets, ∀ second ∈ bundle.assets,
        first.placeIn bundler.options.outputDirectory =
            second.placeIn bundler.options.outputDirectory →
          first.content = second.content := by
  have hreads := reads_writeAssets (write_eq_ok hwrite)
  constructor
  · intro hback first hfirst second hsecond
    exact content_eq_of_read (hback first hfirst) (hback second hsecond)
  · intro hsame asset hasset
    obtain ⟨other, hother, hplace, hread⟩ := hreads asset hasset
    rw [hread, hsame other hother asset hasset hplace]

/-- A project of two files. -/
def twoFiles : FileTree :=
  ⟨[(["p"], .directory), (["p", "a.js"], .file "1".toUTF8), (["p", "b.js"], .file "22".toUTF8)]⟩

/-- The builds of this project, with a chunk for each file. -/
def ofNames (first second : String) : Bundler where
  options := { input := [⟨some first, "./a.js"⟩, ⟨some second, "./b.js"⟩], workingDirectory := "/p" }

/-- Both chunks are read again after a build. -/
theorem write_reads_back_twoFiles :
    ∃ bundle after next,
      (ofNames "main" "other").write 2 twoFiles = some (.ok bundle, after, next) ∧
      bundle.assets.length = 2 ∧
      ∀ asset ∈ bundle.assets,
        after.read (asset.pathIn (ofNames "main" "other").options.outputDirectory) =
          .ok asset.content := by
  have hcases : (((ofNames "main" "other").write 2 twoFiles).any fun ended =>
      ended.1.toOption.any fun bundle => bundle.assets.length = 2 &&
        (bundle.assets.map (Asset.placeIn (ofNames "main" "other").options.outputDirectory)).Nodup) =
      true := by
    decide +kernel
  rw [Option.any_eq_true] at hcases
  obtain ⟨⟨result, after, next⟩, hwrite, hresult⟩ := hcases
  cases result with
  | error reports => cases hresult
  | ok bundle =>
      simp only [Except.toOption, Option.any_some, Bool.and_eq_true, decide_eq_true_eq] at hresult
      refine ⟨bundle, after, next, hwrite, hresult.1, ?_⟩
      apply (write_reads_back hwrite).mpr
      intro first hfirst second hsecond hplace
      exact congrArg Asset.content (List.inj_on_of_nodup_map hresult.2 hfirst hsecond hplace)

/-- Two names of chunks are different texts that lead to one place: the build succeeds, and
one of the two files holds the code of the other chunk. -/
theorem write_overwrites :
    ∃ bundle after next,
      (ofNames "main" "./main").write 2 twoFiles = some (.ok bundle, after, next) ∧
      ¬∀ asset ∈ bundle.assets,
        after.read (asset.pathIn (ofNames "main" "./main").options.outputDirectory) =
          .ok asset.content := by
  have hcases : (((ofNames "main" "./main").write 2 twoFiles).any fun ended =>
      ended.1.toOption.any fun bundle => bundle.assets.any fun first =>
        bundle.assets.any fun second =>
          first.placeIn (ofNames "main" "./main").options.outputDirectory =
              second.placeIn (ofNames "main" "./main").options.outputDirectory &&
            first.content.size ≠ second.content.size) = true := by
    decide +kernel
  rw [Option.any_eq_true] at hcases
  obtain ⟨⟨result, after, next⟩, hwrite, hresult⟩ := hcases
  cases result with
  | error reports => cases hresult
  | ok bundle =>
      obtain ⟨first, hfirst, hsecond⟩ := List.any_eq_true.mp hresult
      obtain ⟨second, hsecond, hsame⟩ := List.any_eq_true.mp hsecond
      simp only [Bool.and_eq_true, decide_eq_true_eq] at hsame
      refine ⟨bundle, after, next, hwrite, ?_⟩
      intro hback
      have hcontent := content_eq_of_read (hback first hfirst) (hback second hsecond) hsame.1
      exact hsame.2 (congrArg ByteArray.size hcontent)

end Bundler

end WebBundle

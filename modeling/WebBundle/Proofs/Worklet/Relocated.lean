import WebBundle.Proofs.Output.Keys
import WebBundle.Proofs.Path.Below
import WebBundle.Worklet.Compilation

/-!
# Builds at another place

The stable id of a file leads from the working directory back to the file.  It is made of the
way between the two and of nothing above them: a project that is built at another place gets
the same stable ids, and its worklets get the same virtual modules.
-/

namespace WebBundle

open WebBundle.Path (Descends)

namespace ModuleId

theorem isAbsolute_withDot {path : String} (hpath : Path.isAbsolute path = false) :
    Path.isAbsolute (withDot path) = false := by
  rw [withDot]
  split
  · exact hpath
  · rw [Path.isAbsolute, String.toList_append]
    rfl

/-- The dot in front of a relative path does not change where it leads. -/
theorem walk_withDot (names : List String) (path : String) :
    Path.walk names (Path.segments (withDot path).toList) =
      Path.walk names (Path.segments path.toList) := by
  rw [withDot]
  split
  · rfl
  · have hdot : ("./" ++ path).toList = ['.'] ++ '/' :: path.toList := by
      rw [String.toList_append]
      rfl
    rw [hdot, Path.segments_append, Path.walk_append]
    rfl

/-- A directory that is continued by the stable id of a file leads to the file. -/
theorem normalize_join_stabilize {id : ModuleId} (habsolute : Path.isAbsolute id.text = true)
    (directory : String) :
    Path.normalize (Path.join directory (id.stabilize directory)) = Path.normalize id.text := by
  rw [Path.normalize, Path.normalize, stabilize_of_absolute habsolute,
    Path.names_join _ (isAbsolute_withDot (Path.not_isAbsolute_relative _ _)), walk_withDot,
    ← Path.names_join _ (Path.not_isAbsolute_relative _ _), Path.names_join_relative habsolute]

variable {root other below path : String}

/-- The stable id of a file below a directory does not depend on the directory. -/
theorem stabilize_join (hroot : Path.isAbsolute root = true)
    (hother : Path.isAbsolute other = true) (hbelow : Descends below) (hpath : Descends path) :
    (ModuleId.mk (Path.join root path)).stabilize (Path.join root below) =
      (ModuleId.mk (Path.join other path)).stabilize (Path.join other below) := by
  have hfirst := Path.isAbsolute_join hroot hpath.relative
  have hsecond := Path.isAbsolute_join hother hpath.relative
  rw [@stabilize_of_absolute ⟨Path.join root path⟩ hfirst,
    @stabilize_of_absolute ⟨Path.join other path⟩ hsecond,
    Path.relative_of_names hfirst (Path.names_join_descends root hpath)
      (Path.names_join_descends root hbelow),
    Path.relative_of_names hsecond (Path.names_join_descends other hpath)
      (Path.names_join_descends other hbelow)]

end ModuleId

namespace Worklet

variable {root other below path : String} {options elsewhere : Options}

/-- Of the place where a file stands, only the way from the working directory to its parent
matters for what its requests resolve to. -/
theorem resolve?_congr {file parent moved movedParent : String}
    (hfile : Path.isAbsolute file = true) (hparent : Path.parent? file = some parent)
    (hmoved : Path.isAbsolute moved = true) (hmovedParent : Path.parent? moved = some movedParent)
    (hsame : Path.relative parent options.workingDirectory =
      Path.relative movedParent elsewhere.workingDirectory) (specifier : String) :
    resolve? options (some ⟨file⟩) specifier = resolve? elsewhere (some ⟨moved⟩) specifier := by
  have hfirst : ModuleId.isVirtual ⟨file⟩ = false := ModuleId.not_isVirtual hfile
  have hsecond : ModuleId.isVirtual ⟨moved⟩ = false := ModuleId.not_isVirtual hmoved
  simp only [resolve?, hfirst, hsecond, hparent, hmovedParent, Option.getD_some, hsame,
    Bool.false_eq_true, if_false]

/-- What a request of a file below a directory resolves to does not depend on the directory. -/
theorem resolve?_join (hroot : Path.isAbsolute root = true)
    (hother : Path.isAbsolute other = true) (hbelow : Descends below) (hpath : Descends path)
    (hne : Path.names path ≠ []) (hoptions : options.workingDirectory = Path.join root below)
    (helsewhere : elsewhere.workingDirectory = Path.join other below) (specifier : String) :
    resolve? options (some ⟨Path.join root path⟩) specifier =
      resolve? elsewhere (some ⟨Path.join other path⟩) specifier := by
  obtain ⟨directory, hparent, hdirectory, hnames⟩ :=
    Path.exists_parent_of_descends hroot hpath hne
  obtain ⟨directory', hparent', hdirectory', hnames'⟩ :=
    Path.exists_parent_of_descends hother hpath hne
  have hsame : Path.relative directory options.workingDirectory =
      Path.relative directory' elsewhere.workingDirectory := by
    rw [hoptions, helsewhere,
      Path.relative_of_names hdirectory hnames (Path.names_join_descends root hbelow),
      Path.relative_of_names hdirectory' hnames' (Path.names_join_descends other hbelow)]
  exact resolve?_congr (Path.isAbsolute_join hroot hpath.relative) hparent
    (Path.isAbsolute_join hother hpath.relative) hparent' hsame specifier

end Worklet

/-- Stable ids lead back to the files they name, so different files have different ones, and
neither they nor the virtual modules of worklets tell where the project stands. -/
theorem stable_ids_faithful_and_relocatable :
    (∀ (directory : String) (id : ModuleId), Path.isAbsolute directory = true →
      Path.isAbsolute id.text = true →
      Path.normalize (Path.join directory (id.stabilize directory)) = Path.normalize id.text) ∧
    (∀ (directory : String) (first second : ModuleId), Path.isAbsolute directory = true →
      Path.isAbsolute first.text = true → Path.isAbsolute second.text = true →
      Path.normalize first.text ≠ Path.normalize second.text →
      first.stabilize directory ≠ second.stabilize directory) ∧
    (∀ root other below path : String, Path.isAbsolute root = true →
      Path.isAbsolute other = true → Descends below → Descends path →
      (ModuleId.mk (Path.join root path)).stabilize (Path.join root below) =
        (ModuleId.mk (Path.join other path)).stabilize (Path.join other below) ∧
      (Path.names path ≠ [] → ∀ options elsewhere : Options,
        options.workingDirectory = Path.join root below →
        elsewhere.workingDirectory = Path.join other below → ∀ specifier : String,
        Worklet.resolve? options (some ⟨Path.join root path⟩) specifier =
          Worklet.resolve? elsewhere (some ⟨Path.join other path⟩) specifier)) := by
  refine ⟨fun directory id _ hid => ModuleId.normalize_join_stabilize hid directory, ?_, ?_⟩
  · intro directory first second _ hfirst hsecond hdifferent hsame
    apply hdifferent
    rw [← ModuleId.normalize_join_stabilize hfirst directory, hsame,
      ModuleId.normalize_join_stabilize hsecond directory]
  · intro root other below path hroot hother hbelow hpath
    exact ⟨ModuleId.stabilize_join hroot hother hbelow hpath,
      fun hne options elsewhere hoptions helsewhere specifier =>
        Worklet.resolve?_join hroot hother hbelow hpath hne hoptions helsewhere specifier⟩

/-- Names that begin with dots: the id of a hidden file beside the working directory, and a
project that is moved to the root. -/
theorem stable_ids_of_dotted_names :
    (ModuleId.mk "/a/.b/x.js").stabilize "/a/..c" = "../.b/x.js" ∧
    Path.normalize (Path.join "/a/..c" ((ModuleId.mk "/a/.b/x.js").stabilize "/a/..c")) =
      "/a/.b/x.js" ∧
    (ModuleId.mk "/a/..x.js").stabilize "/a" ≠ (ModuleId.mk "/a/.x.js").stabilize "/a" ∧
    (ModuleId.mk "/a/.b/..x.js").stabilize "/a/..c" = (ModuleId.mk "/.b/..x.js").stabilize "/..c" ∧
    Worklet.resolve? { workingDirectory := "/a/..c" } (some ⟨"/a/.b/..x.js"⟩)
        (Worklet.encodeLoaderRequest ⟨"w"⟩ "./w.js") =
      .ok (some ⟨Worklet.encodeModuleId ⟨"w", "../.b"⟩ "./w.js"⟩) ∧
    Worklet.resolve? { workingDirectory := "/a/..c" } (some ⟨"/a/.b/..x.js"⟩)
        (Worklet.encodeLoaderRequest ⟨"w"⟩ "./w.js") =
      Worklet.resolve? { workingDirectory := "/..c" } (some ⟨"/.b/..x.js"⟩)
        (Worklet.encodeLoaderRequest ⟨"w"⟩ "./w.js") := by
  obtain ⟨hback, happart, hmoved⟩ := stable_ids_faithful_and_relocatable
  have hbelow : Descends "..c" := ⟨by decide, by decide⟩
  have hpath : Descends ".b/..x.js" := ⟨by decide, by decide⟩
  obtain ⟨hstable, hworklet⟩ :=
    hmoved "/a" "/" "..c" ".b/..x.js" (by decide) (by decide) hbelow hpath
  exact ⟨by decide +kernel,
    (hback "/a/..c" ⟨"/a/.b/x.js"⟩ (by decide) (by decide)).trans (by decide +kernel),
    happart "/a" ⟨"/a/..x.js"⟩ ⟨"/a/.x.js"⟩ (by decide) (by decide) (by decide)
      (by decide +kernel),
    hstable, by decide +kernel,
    hworklet (by decide +kernel) { workingDirectory := "/a/..c" } { workingDirectory := "/..c" }
      rfl rfl (Worklet.encodeLoaderRequest ⟨"w"⟩ "./w.js")⟩

end WebBundle

import Mathlib.Data.Option.Basic
import WebBundle.Proofs.Files.Tree
import WebBundle.Proofs.Path.Names

/-!
# Trees that differ in one file

Two trees hold the same files but for the content of one of them.  Every path leads to the
same names in both, and to a file or a directory in both; only what is read from the one file
may differ.
-/

namespace WebBundle

/-- What stands at a place looks the same if the content of files is not read. -/
inductive FileEntry.Alike : FileEntry → FileEntry → Prop
  | directory : Alike .directory .directory
  | file (content other : ByteArray) : Alike (.file content) (.file other)

theorem FileEntry.Alike.refl (entry : FileEntry) : Alike entry entry := by
  cases entry with
  | directory => exact .directory
  | file content => exact .file content content

theorem FileEntry.Alike.isFile {entry other : FileEntry} (h : Alike entry other) :
    entry.isFile = other.isFile := by
  cases h <;> rfl

/-- An absolute path leads to some names. -/
structure Path.LeadsTo (path : String) (place : List String) : Prop where
  isAbsolute : Path.isAbsolute path = true
  names_eq : Path.names path = place

namespace FileTree

/-- Two trees hold the same, but for the content of the file behind some names. -/
structure SameBut (place : List String) (first second : FileTree) : Prop where
  elsewhere : ∀ names, names ≠ place → first.at? names = second.at? names
  first_file : ∃ content, first.at? place = some (.file content)
  second_file : ∃ content, second.at? place = some (.file content)

namespace SameBut

variable {place : List String} {first second : FileTree}

theorem refl {tree : FileTree} (hfile : ∃ content, tree.at? place = some (.file content)) :
    SameBut place tree tree :=
  ⟨fun _ _ => rfl, hfile, hfile⟩

/-- A file may be put in the place of another one. -/
theorem put {tree : FileTree} (hplace : place ≠ []) {content : ByteArray}
    (hfile : tree.at? place = some (.file content)) (other : ByteArray) :
    SameBut place tree (tree.put place (.file other)) where
  elsewhere names hnames := by rw [at?_put hplace, if_neg hnames]
  first_file := ⟨content, hfile⟩
  second_file := ⟨other, by rw [at?_put hplace, if_pos rfl]⟩

variable (h : SameBut place first second)
include h

theorem at? (names : List String) :
    Option.Rel FileEntry.Alike (first.at? names) (second.at? names) := by
  by_cases hnames : names = place
  · obtain ⟨content, hfirst⟩ := h.first_file
    obtain ⟨other, hsecond⟩ := h.second_file
    rw [hnames, hfirst, hsecond]
    exact .some (.file content other)
  · rw [h.elsewhere names hnames]
    cases second.at? names with
    | none => exact .none
    | some entry => exact .some (.refl entry)

theorem find? (path : String) :
    Option.Rel FileEntry.Alike (first.find? path) (second.find? path) := by
  rw [FileTree.find?, FileTree.find?]
  split
  · exact h.at? _
  · exact .none

theorem find?_eq {path : String} (hpath : Path.names path ≠ place) :
    first.find? path = second.find? path := by
  rw [FileTree.find?, FileTree.find?, h.elsewhere _ hpath]

theorem descend (names : List String) (components : List Path.Component) :
    first.descend names components = second.descend names components := by
  induction components generalizing names with
  | nil => rfl
  | cons component rest ih =>
      have hstands := h.at? names
      rw [FileTree.descend, FileTree.descend]
      generalize first.at? names = stands at hstands ⊢
      generalize second.at? names = others at hstands ⊢
      cases hstands with
      | none => rfl
      | some halike =>
          cases halike with
          | directory => simp only [ih]
          | file content other => rfl

theorem locate (path : String) : first.locate path = second.locate path := by
  rw [FileTree.locate, FileTree.locate]
  cases takenComponents path with
  | error fault => rfl
  | ok components => exact h.descend [] components

/-- Only the one file is read differently. -/
theorem read {path : String} (hpath : ¬ Path.LeadsTo path place) :
    first.read path = second.read path := by
  rw [FileTree.read, FileTree.read, ← h.locate]
  cases hlocate : first.locate path with
  | error fault => rfl
  | ok names =>
      have hnames : names ≠ place := by
        rintro rfl
        exact hpath ⟨isAbsolute_of_locate hlocate, (locate_eq_ok hlocate).symm⟩
      simp only [h.elsewhere names hnames]

theorem readText {path : String} (hpath : ¬ Path.LeadsTo path place) :
    first.readText path = second.readText path := by
  rw [FileTree.readText, FileTree.readText, h.read hpath]

end SameBut

end FileTree

namespace Path

theorem toList_join {base : String} (hbase : base ≠ "") {path : String}
    (hpath : isAbsolute path = false) :
    ∃ before, (join base path).toList = before ++ '/' :: path.toList := by
  rw [join, hpath, Bool.false_or, decide_eq_false hbase, if_neg Bool.false_ne_true]
  split
  · rename_i hslash
    obtain ⟨before, hbefore⟩ := List.getLast?_eq_some_iff.mp hslash
    exact ⟨before, by simp [hbefore]⟩
  · exact ⟨base.toList, by simp⟩

/-- A path that is continued by a name ends with the name, whatever it leads to. -/
theorem getLast?_names_join (base : String) {name : String} (hname : Proper name) :
    (names (join base name)).getLast? = some name := by
  have hslash : '/' ∉ name.toList := hname.noSlash
  have hsegments : segments name.toList = [name.toList] := by
    rw [segments_eq_splitOn, List.splitOn_eq_singleton hslash]
  have hpath : isAbsolute name = false := by
    rw [isAbsolute]
    split
    · rename_i rest heq
      rw [heq] at hslash
      exact absurd List.mem_cons_self hslash
    · rfl
  by_cases hbase : base = ""
  · rw [hbase, join, decide_eq_true rfl, Bool.or_true, if_pos rfl, names_eq, hsegments,
      walk_cons_of_proper _ hname]
    rfl
  · obtain ⟨before, hbefore⟩ := toList_join hbase hpath
    rw [names_eq, hbefore, segments_append, walk_append, hsegments,
      walk_cons_of_proper _ hname]
    simp [walk]

end Path

end WebBundle

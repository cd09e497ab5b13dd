import WebBundle.Files.Tree

/-!
# Reading what was written

A path leads to the same names in every tree in which the directories on the way stand.
Writing keeps all directories, and creating directories keeps all that stands.  So a file
that was written is read again, until another file is written to the same names: two paths
are told apart by the names that they lead to and not by their texts.
-/

namespace WebBundle.FileTree

variable {tree later : FileTree} {path other : String} {content known : ByteArray}

/-! ## Entries -/

theorem at?_put {names : List String} (hnames : names ≠ []) (entry : FileEntry)
    (others : List String) :
    (tree.put names entry).at? others = if others = names then some entry else tree.at? others := by
  by_cases hsame : others = names
  · subst hsame
    simp [at?, put, hnames]
  · have hfind : ((names, entry) :: tree.entries.filter fun other => other.1 ≠ names).find?
        (fun other => other.1 = others) = tree.entries.find? fun other => other.1 = others := by
      rw [List.find?_cons_of_neg (by simpa using Ne.symm hsame), List.find?_filter]
      congr 1
      funext other
      by_cases hother : other.1 = others
      · simp [hother, hsame]
      · simp [hother]
    rw [if_neg hsame, at?, at?, put, hfind]

/-- The directories of a tree are directories of a later one. -/
def KeepsDirectories (tree later : FileTree) : Prop :=
  ∀ names, tree.at? names = some .directory → later.at? names = some .directory

/-- Everything that stands in a tree stands in a later one. -/
def Includes (tree later : FileTree) : Prop :=
  ∀ names entry, tree.at? names = some entry → later.at? names = some entry

theorem Includes.keepsDirectories (h : Includes tree later) : KeepsDirectories tree later :=
  fun names => h names .directory

/-- A file may be put where no directory stands. -/
theorem keepsDirectories_put {names : List String} (hnames : tree.at? names ≠ some .directory) :
    KeepsDirectories tree (tree.put names (.file content)) := by
  have hroot : names ≠ [] := by
    rintro rfl
    exact hnames rfl
  intro others hothers
  have hne : others ≠ names := by
    rintro rfl
    exact hnames hothers
  rw [at?_put hroot, if_neg hne]
  exact hothers

/-! ## Paths -/

theorem descend_eq_ok {names found : List String} {components : List Path.Component}
    (hdescend : tree.descend names components = .ok found) :
    found = components.foldl Path.step names := by
  induction components generalizing names with
  | nil =>
      cases hdescend
      rfl
  | cons component rest ih =>
      rw [descend] at hdescend
      split at hdescend
      · cases hdescend
      · cases hdescend
      · split at hdescend
        · cases hdescend
        · exact ih hdescend

theorem KeepsDirectories.descend (h : KeepsDirectories tree later) {names found : List String}
    {components : List Path.Component} (hdescend : tree.descend names components = .ok found) :
    later.descend names components = .ok found := by
  induction components generalizing names with
  | nil => exact hdescend
  | cons component rest ih =>
      rw [FileTree.descend] at hdescend ⊢
      cases hstands : tree.at? names with
      | none => simp [hstands] at hdescend
      | some entry =>
          cases entry with
          | file content => simp [hstands] at hdescend
          | directory =>
              simp only [hstands] at hdescend
              simp only [h names hstands]
              split at hdescend
              · cases hdescend
              · rename_i hshort
                rw [if_neg hshort]
                exact ih hdescend

theorem locate_eq_ok {names : List String} (hlocate : tree.locate path = .ok names) :
    names = Path.names path := by
  rw [locate, takenComponents] at hlocate
  split at hlocate
  · rename_i components htaken
    split at htaken
    · cases htaken
    · split at htaken
      · cases htaken
        exact descend_eq_ok hlocate
      · cases htaken
  · cases hlocate

/-- Only paths from the root are located. -/
theorem isAbsolute_of_locate {names : List String} (hlocate : tree.locate path = .ok names) :
    Path.isAbsolute path = true := by
  rw [locate, takenComponents] at hlocate
  split at hlocate
  · rename_i components htaken
    split at htaken
    · cases htaken
    · split at htaken
      · assumption
      · cases htaken
  · cases hlocate

theorem KeepsDirectories.locate (h : KeepsDirectories tree later) {names : List String}
    (hlocate : tree.locate path = .ok names) : later.locate path = .ok names := by
  rw [FileTree.locate] at hlocate ⊢
  split at hlocate
  · exact h.descend hlocate
  · cases hlocate

/-- The path of a file in a tree: the directories on its way stand, and it does not end as
only the path of a directory may. -/
structure IsFilePath (tree : FileTree) (path : String) : Prop where
  locate : tree.locate path = .ok (Path.names path)
  noSlash : endsWithSlash path = false
  noDot : endsWithDot path = false

theorem IsFilePath.mono (h : tree.IsFilePath path) (hkeeps : KeepsDirectories tree later) :
    later.IsFilePath path :=
  ⟨hkeeps.locate h.locate, h.noSlash, h.noDot⟩

/-! ## Reading and writing -/

theorem read_eq_ok : tree.read path = .ok content ↔
    tree.IsFilePath path ∧ tree.at? (Path.names path) = some (.file content) := by
  constructor
  · intro hread
    rw [read] at hread
    cases hlocate : tree.locate path with
    | error fault => simp [hlocate] at hread
    | ok names =>
        simp only [hlocate] at hread
        obtain rfl := locate_eq_ok hlocate
        split at hread
        · rename_i stands hstands
          split at hread
          · cases hread
          · rename_i hend
            cases hread
            simp only [Bool.or_eq_true, not_or, Bool.not_eq_true] at hend
            exact ⟨⟨hlocate, hend.1, hend.2⟩, hstands⟩
        · cases hread
        · cases hread
  · rintro ⟨hpath, hstands⟩
    simp [read, hpath.locate, hstands, hpath.noSlash, hpath.noDot]

/-- The path of a text has a parent, which is a path from the root as well. -/
theorem exists_parent_of_readText {source : String} (hread : tree.readText path = .ok source) :
    ∃ directory, Path.parent? path = some directory ∧ Path.isAbsolute directory = true := by
  rw [readText] at hread
  cases hcontent : tree.read path with
  | error fault =>
      rw [hcontent] at hread
      cases hread
  | ok content =>
      obtain ⟨hfile, hstands⟩ := read_eq_ok.mp hcontent
      have habsolute := isAbsolute_of_locate hfile.locate
      cases hparent : Path.parent? path with
      | none =>
          have hroot : Path.names path = [] := by
            rw [Path.names, Path.namesFrom, Path.components_of_parent?_eq_none habsolute hparent]
            rfl
          rw [hroot] at hstands
          cases hstands
      | some directory =>
          exact ⟨directory, rfl, Path.isAbsolute_of_parent? habsolute hparent⟩

theorem write_eq_ok (hwrite : tree.write path content = .ok later) :
    tree.IsFilePath path ∧ tree.at? (Path.names path) ≠ some .directory ∧
      later = tree.put (Path.names path) (.file content) := by
  rw [write] at hwrite
  cases hlocate : tree.locate path with
  | error fault => simp [hlocate] at hwrite
  | ok names =>
      simp only [hlocate] at hwrite
      obtain rfl := locate_eq_ok hlocate
      split at hwrite
      · cases hwrite
      · rename_i hslash
        split at hwrite
        · cases hwrite
        · rename_i hdot
          cases hwrite
          simp only [Bool.or_eq_true, not_or, Bool.not_eq_true] at hslash
          refine ⟨⟨hlocate, hslash.1, Bool.eq_false_iff.mpr hdot⟩, ?_, rfl⟩
          intro hstands
          rw [hstands] at hslash
          exact absurd hslash.2 (by decide)

theorem KeepsDirectories.of_write (hwrite : tree.write path content = .ok later) :
    KeepsDirectories tree later := by
  obtain ⟨_, hstands, rfl⟩ := write_eq_ok hwrite
  exact keepsDirectories_put hstands

/-- A file that was written is read again. -/
theorem read_write (hwrite : tree.write path content = .ok later) :
    later.read path = .ok content := by
  have hkeeps := KeepsDirectories.of_write hwrite
  obtain ⟨hpath, hstands, rfl⟩ := write_eq_ok hwrite
  have hroot : Path.names path ≠ [] := by
    intro hnil
    rw [hnil] at hstands
    exact hstands rfl
  apply read_eq_ok.mpr
  refine ⟨hpath.mono hkeeps, ?_⟩
  rw [at?_put hroot, if_pos rfl]

/-- Writing changes what is read only where a path leads to the names that were written to. -/
theorem read_write_of_read (hwrite : tree.write path content = .ok later)
    (hread : tree.read other = .ok known) :
    later.read other = .ok (if Path.names other = Path.names path then content else known) := by
  have hkeeps := KeepsDirectories.of_write hwrite
  obtain ⟨hpath, hstands, rfl⟩ := write_eq_ok hwrite
  have hroot : Path.names path ≠ [] := by
    intro hnil
    rw [hnil] at hstands
    exact hstands rfl
  obtain ⟨hother, hknown⟩ := read_eq_ok.mp hread
  apply read_eq_ok.mpr
  refine ⟨hother.mono hkeeps, ?_⟩
  rw [at?_put hroot]
  split
  · rfl
  · exact hknown

theorem Includes.read (h : Includes tree later) (hread : tree.read path = .ok content) :
    later.read path = .ok content := by
  obtain ⟨hpath, hstands⟩ := read_eq_ok.mp hread
  exact read_eq_ok.mpr ⟨hpath.mono h.keepsDirectories, h _ _ hstands⟩

/-! ## Creating directories -/

theorem includes_createAlong {names : List String} {components : List Path.Component}
    (hcreate : tree.createAlong names components = .ok later) : Includes tree later := by
  induction components generalizing tree names with
  | nil =>
      cases hcreate
      exact fun _ _ h => h
  | cons component rest ih =>
      rw [createAlong] at hcreate
      split at hcreate
      · cases hcreate
      · split at hcreate
        · exact ih hcreate
        · cases hcreate
        · rename_i hnone
          have hroot : Path.step names component ≠ [] := by
            intro hnil
            rw [hnil] at hnone
            cases hnone
          intro others entry hentry
          apply ih hcreate
          rw [at?_put hroot, if_neg]
          · exact hentry
          · rintro rfl
            rw [hnone] at hentry
            cases hentry

/-- Creating directories keeps all that stands. -/
theorem includes_createDirectories (hcreate : tree.createDirectories path = .ok later) :
    Includes tree later := by
  rw [createDirectories] at hcreate
  split at hcreate
  · exact includes_createAlong hcreate
  · cases hcreate

end WebBundle.FileTree

import WebBundle.Proofs.Path.Names

/-!
# Paths below a directory

A relative path that never goes up leads below the place where it starts, by the same names
from every place.  So the relative path between two paths below one directory does not depend on
the directory, and neither does the way to the parent of one of them.
-/

namespace WebBundle.Path

/-- A relative path that never goes up. -/
structure Descends (path : String) : Prop where
  relative : isAbsolute path = false
  parent : ['.', '.'] ∉ segments path.toList

/-- The parts of a path that never goes up are names. -/
theorem eq_normal_of_mem {parts : List (List Char)} (hparts : ['.', '.'] ∉ parts)
    {component : Component} (hcomponent : component ∈ parts.filterMap Component.ofSegment?) :
    ∃ name, component = .normal name := by
  obtain ⟨part, hpart, hmeans⟩ := List.mem_filterMap.mp hcomponent
  have hparent : part ≠ ['.', '.'] := fun h => hparts (h ▸ hpart)
  rw [Component.ofSegment?, if_neg hparent] at hmeans
  split at hmeans
  · cases hmeans
  · exact ⟨_, (Option.some.inj hmeans).symm⟩

/-- Segments that never go up lead to the same names from every place. -/
theorem walk_of_notMem (names : List String) {parts : List (List Char)}
    (hparts : ['.', '.'] ∉ parts) : walk names parts = names ++ walk [] parts := by
  have hnormal := fun component => @eq_normal_of_mem parts hparts component
  rw [walk, walk]
  generalize parts.filterMap Component.ofSegment? = all at hnormal
  induction all using List.reverseRecOn with
  | nil => exact (List.append_nil names).symm
  | append_singleton all last ih =>
      obtain ⟨name, rfl⟩ := hnormal last (by simp)
      rw [List.foldl_append, List.foldl_append,
        ih fun component hcomponent => hnormal component (List.mem_append_left _ hcomponent)]
      exact List.append_assoc _ _ _

/-- A path below a directory leads to the names of the directory and its own ones. -/
theorem names_join_descends (base : String) {path : String} (hpath : Descends path) :
    names (join base path) = names base ++ names path := by
  rw [names_join base hpath.relative, walk_of_notMem _ hpath.parent, ← names_eq]

theorem isAbsolute_join {base path : String} (hbase : isAbsolute base = true)
    (hpath : isAbsolute path = false) : isAbsolute (join base path) = true := by
  rw [isAbsolute] at hbase
  split at hbase
  · rename_i rest htext
    have hne : base ≠ "" := by
      rintro rfl
      cases htext
    rw [join, hpath, Bool.false_or, if_neg (by simpa using hne)]
    split <;> simp [isAbsolute, htext]
  · cases hbase

/-! ## Relative paths -/

theorem dropCommon_append (before target base : List String) :
    dropCommon (before ++ target) (before ++ base) = dropCommon target base := by
  induction before with
  | nil => rfl
  | cons name rest ih => rw [List.cons_append, List.cons_append, dropCommon, if_pos rfl, ih]

theorem relative_of_absolute {target : String} (htarget : isAbsolute target = true)
    (base : String) :
    relative target base = String.intercalate "/" (relativeNames (names target) (names base)) := by
  rw [relative, namesFrom_eq, if_pos htarget, ← names_eq]

/-- The relative path between two paths that begin with the same names is that between what comes
behind these names. -/
theorem relative_of_names {target base : String} (htarget : isAbsolute target = true)
    {before down up : List String} (hdown : names target = before ++ down)
    (hup : names base = before ++ up) :
    relative target base = String.intercalate "/" (relativeNames down up) := by
  rw [relative_of_absolute htarget, hdown, hup, relativeNames, relativeNames, dropCommon_append]

/-! ## Parents -/

theorem segments_joinSegments {parts : List (List Char)} (hparts : ∀ part ∈ parts, '/' ∉ part)
    (hne : parts ≠ []) : segments (joinSegments parts) = parts := by
  induction parts with
  | nil => exact absurd rfl hne
  | cons part rest ih =>
      rw [List.forall_mem_cons] at hparts
      have hpart : segments part = [part] := by
        simpa using @segments_intercalate [part] (by simpa using hparts.1) (by simp)
      cases rest with
      | nil => exact hpart
      | cons next more =>
          rw [joinSegments, segments_append, hpart, ih hparts.2 (by simp)]
          · rfl
          · simp

theorem segments_ne_nil (text : List Char) : segments text ≠ [] := by
  rw [segments_eq_splitOn]
  exact List.splitOn_ne_nil '/' text

theorem components_of_absolute {path : String} (habsolute : isAbsolute path = true) :
    components path =
      .root :: ((segments path.toList).drop 1).filterMap Component.ofSegment? := by
  rw [components]
  cases hsegments : segments path.toList with
  | nil => exact absurd hsegments (segments_ne_nil _)
  | cons first rest =>
      simp only [habsolute, if_true]
      rfl

theorem components_join {base path : String} (hbase : isAbsolute base = true)
    (hpath : isAbsolute path = false) :
    components (join base path) =
      components base ++ (segments path.toList).filterMap Component.ofSegment? := by
  rw [components_of_absolute (isAbsolute_join hbase hpath), components_of_absolute hbase]
  have hdrop (before : List Char) (more : List (List Char)) :
      (segments before ++ more).drop 1 = (segments before).drop 1 ++ more :=
    List.drop_append_of_le_length (List.length_pos_of_ne_nil (segments_ne_nil before))
  have hne : base ≠ "" := by
    rintro rfl
    cases hbase
  rw [join, hpath, Bool.false_or, decide_eq_false hne, if_neg Bool.false_ne_true]
  split
  · rename_i hslash
    obtain ⟨before, hbefore⟩ := List.getLast?_eq_some_iff.mp hslash
    have hend : segments (before ++ ['/']) = segments before ++ [[]] := segments_append before []
    rw [String.toList_append, hbefore, List.append_assoc, List.singleton_append, segments_append,
      hend, hdrop, hdrop, List.filterMap_append, List.filterMap_append,
      List.filterMap_cons_none rfl, List.filterMap_nil, List.append_nil]
    rfl
  · have hslash : (base ++ "/" ++ path).toList = base.toList ++ '/' :: path.toList := by simp
    rw [hslash, segments_append, hdrop, List.filterMap_append]
    rfl

/-- The parent of an absolute path leads there without the last part. -/
theorem exists_last_of_parent? {path directory : String} (habsolute : isAbsolute path = true)
    (hparent : parent? path = some directory) :
    ∃ last, components path = components directory ++ [last] := by
  obtain ⟨kept, blanks, segment, after, hbody, hblanks, hafter, hsegment, rfl⟩ :=
    exists_parts_of_parent? habsolute hparent
  obtain ⟨last, hlast⟩ := Option.isSome_iff_exists.mp hsegment
  have hslash : ∀ part ∈ kept, '/' ∉ part := fun part hpart =>
    noSlash_of_mem_segments (List.mem_of_mem_drop (hbody ▸ List.mem_append_left _ hpart))
  have hkept : (segments (joinSegments kept)).filterMap Component.ofSegment? =
      kept.filterMap Component.ofSegment? := by
    cases kept with
    | nil => rfl
    | cons part rest => rw [segments_joinSegments hslash (by simp)]
  have hdirectory : isAbsolute (String.ofList ('/' :: joinSegments kept)) = true := by
    rw [isAbsolute, String.toList_ofList]
    rfl
  refine ⟨last, ?_⟩
  rw [components_of_absolute habsolute, hbody, components_of_absolute hdirectory,
    String.toList_ofList, segments, if_pos rfl, List.drop_one, List.tail_cons, hkept,
    List.filterMap_append, List.filterMap_append, hblanks, List.filterMap_cons_some hlast, hafter]
  rfl

/-- A path below a directory has a parent, at the names of the directory and its own ones but the
last. -/
theorem exists_parent_of_descends {base path : String} (hbase : isAbsolute base = true)
    (hpath : Descends path) (hne : names path ≠ []) :
    ∃ directory, parent? (join base path) = some directory ∧ isAbsolute directory = true ∧
      names directory = names base ++ (names path).dropLast := by
  have habsolute := isAbsolute_join hbase hpath.relative
  have hparts := components_join hbase hpath.relative
  have hnames := names_join_descends base hpath
  have hown : (segments path.toList).filterMap Component.ofSegment? ≠ [] := by
    intro hnil
    rw [names_eq, walk, hnil] at hne
    exact hne rfl
  cases hparent : parent? (join base path) with
  | none =>
      rw [components_of_parent?_eq_none habsolute hparent, components_of_absolute hbase] at hparts
      exact absurd (List.append_eq_nil_iff.mp (List.cons.inj hparts).2.symm).2 hown
  | some directory =>
      obtain ⟨last, hlast⟩ := exists_last_of_parent? habsolute hparent
      have hlastMem : last ∈ (segments path.toList).filterMap Component.ofSegment? := by
        have hlastOf := congrArg List.getLast? (hlast.symm.trans hparts)
        rw [List.getLast?_concat, List.getLast?_append_of_ne_nil _ hown] at hlastOf
        exact List.mem_of_getLast? hlastOf.symm
      obtain ⟨name, rfl⟩ := eq_normal_of_mem hpath.parent hlastMem
      have hstep : names base ++ names path = names directory ++ [name] := by
        rw [← hnames, names, namesFrom, hlast, List.foldl_append]
        rfl
      refine ⟨directory, rfl, isAbsolute_of_parent? habsolute hparent, ?_⟩
      have hdrop := congrArg List.dropLast hstep
      rw [List.dropLast_append_of_ne_nil hne, List.dropLast_concat] at hdrop
      exact hdrop.symm

end WebBundle.Path

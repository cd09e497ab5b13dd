import Mathlib.Data.List.Infix
import WebBundle.Path

/-!
# Names and paths

A path is walked segment by segment, so a path that continues another one is walked
from where that one leads.  The names that a path leads to can be joined to a path
again, and every list of names has one path of this form.  The relative path between
two paths leads from the one to the other.
-/

namespace WebBundle.Path

/-- A name that a segment can stand for. -/
structure Proper (name : String) : Prop where
  noSlash : '/' ∉ name.toList
  ne_empty : name ≠ ""
  ne_current : name ≠ "."
  ne_parent : name ≠ ".."

theorem segments_eq_splitOn (text : List Char) : segments text = text.splitOn '/' := by
  induction text with
  | nil => rfl
  | cons c rest ih =>
      rw [segments, List.splitOn_cons_eq_if_modifyHead, ih]
      by_cases hslash : c = '/'
      · rw [if_pos hslash, if_pos (by simpa using hslash)]
      · rw [if_neg hslash, if_neg (by simpa using hslash)]
        cases hrest : rest.splitOn '/' with
        | nil => exact (List.splitOn_ne_nil '/' rest hrest).elim
        | cons first more => rfl

theorem segments_append (before after : List Char) :
    segments (before ++ '/' :: after) = segments before ++ segments after := by
  simp only [segments_eq_splitOn]
  exact List.splitOn_append_cons_self before after

theorem noSlash_of_mem_segments {text segment : List Char} (hsegment : segment ∈ segments text) :
    '/' ∉ segment := by
  induction text generalizing segment with
  | nil =>
      rw [segments, List.mem_singleton] at hsegment
      simp [hsegment]
  | cons c rest ih =>
      rw [segments] at hsegment
      by_cases hslash : c = '/'
      · rw [if_pos hslash, List.mem_cons] at hsegment
        rcases hsegment with rfl | hsegment
        · simp
        · exact ih hsegment
      · rw [if_neg hslash] at hsegment
        cases hrest : segments rest with
        | nil =>
            rw [segments_eq_splitOn] at hrest
            exact (List.splitOn_ne_nil '/' rest hrest).elim
        | cons first more =>
            rw [hrest] at ih hsegment
            rw [List.mem_cons] at hsegment
            rcases hsegment with rfl | hsegment
            · have hfirst := ih List.mem_cons_self
              simpa [Ne.symm hslash] using hfirst
            · exact ih (List.mem_cons_of_mem _ hsegment)

/-! ## Walks -/

/-- The names that segments lead to from a starting place. -/
def walk (names : List String) (segments : List (List Char)) : List String :=
  (segments.filterMap Component.ofSegment?).foldl step names

theorem walk_append (names : List String) (before after : List (List Char)) :
    walk names (before ++ after) = walk (walk names before) after := by
  rw [walk, walk, walk, List.filterMap_append, List.foldl_append]

theorem walk_cons_empty (names : List String) (rest : List (List Char)) :
    walk names ([] :: rest) = walk names rest := by
  rw [walk, walk, List.filterMap_cons_none rfl]

/-- A segment of a proper name leads to that name. -/
theorem walk_cons_of_proper (names : List String) {name : String} (hname : Proper name)
    (rest : List (List Char)) :
    walk names (name.toList :: rest) = walk (names ++ [name]) rest := by
  have hempty : name.toList ≠ [] := by
    simpa using hname.ne_empty
  have hcurrent : name.toList ≠ ['.'] := fun h =>
    hname.ne_current (String.toList_inj.mp (h.trans rfl))
  have hparent : name.toList ≠ ['.', '.'] := fun h =>
    hname.ne_parent (String.toList_inj.mp (h.trans rfl))
  have hsegment : Component.ofSegment? name.toList = some (.normal name) := by
    simp [Component.ofSegment?, hempty, hcurrent, hparent]
  rw [walk, walk, List.filterMap_cons_some hsegment]
  rfl

/-- Segments of proper names lead to these names. -/
theorem walk_proper (names : List String) {more : List String} (hmore : ∀ name ∈ more, Proper name) :
    walk names (more.map String.toList) = names ++ more := by
  induction more generalizing names with
  | nil =>
      rw [List.append_nil]
      rfl
  | cons name rest ih =>
      rw [List.forall_mem_cons] at hmore
      rw [List.map_cons, walk_cons_of_proper names hmore.1, ih _ hmore.2, List.append_assoc]
      rfl

/-- A path is walked from the root if it is absolute. -/
theorem namesFrom_eq (start : List String) (path : String) :
    namesFrom start path = walk (if isAbsolute path then [] else start) (segments path.toList) := by
  rw [namesFrom, components]
  cases hsegments : segments path.toList with
  | nil =>
      rw [segments_eq_splitOn] at hsegments
      exact (List.splitOn_ne_nil '/' _ hsegments).elim
  | cons first rest =>
      by_cases habsolute : isAbsolute path = true
      · have hfirst : first = [] := by
          rw [isAbsolute] at habsolute
          split at habsolute
          · rename_i text htext
            rw [htext, segments, if_pos rfl] at hsegments
            exact (List.cons.inj hsegments).1.symm
          · cases habsolute
        simp only [habsolute, if_true, hfirst, walk_cons_empty]
        rfl
      · simp only [Bool.not_eq_true] at habsolute
        simp only [habsolute, Bool.false_eq_true, if_false]
        by_cases hcurrent : first = ['.']
        · rw [if_pos hcurrent, hcurrent]
          rfl
        · rw [if_neg hcurrent, walk, List.filterMap_cons]
          cases Component.ofSegment? first <;> rfl

theorem names_eq (path : String) : names path = walk [] (segments path.toList) := by
  rw [names, namesFrom_eq, ite_self]

theorem proper_step {names : List String} (hnames : ∀ name ∈ names, Proper name)
    {segment : List Char} (hsegment : '/' ∉ segment) {component : Component}
    (hcomponent : Component.ofSegment? segment = some component) :
    ∀ name ∈ step names component, Proper name := by
  rw [Component.ofSegment?] at hcomponent
  split at hcomponent
  · cases hcomponent
  · rename_i hplain
    split at hcomponent
    · cases hcomponent
      intro name hname
      exact hnames name (List.mem_of_mem_dropLast hname)
    · rename_i hparent
      cases hcomponent
      intro name hname
      rcases List.mem_append.mp hname with hname | hname
      · exact hnames name hname
      · rw [List.mem_singleton] at hname
        simp only [Bool.or_eq_true, decide_eq_true_eq, not_or] at hplain
        subst hname
        refine ⟨by simpa using hsegment, ?_, ?_, ?_⟩
        · intro h
          exact hplain.1 (by simpa using congrArg String.toList h)
        · intro h
          exact hplain.2 (by simpa using congrArg String.toList h)
        · intro h
          exact hparent (by simpa using congrArg String.toList h)

theorem proper_walk {names : List String} (hnames : ∀ name ∈ names, Proper name)
    {segments : List (List Char)} (hsegments : ∀ segment ∈ segments, '/' ∉ segment) :
    ∀ name ∈ walk names segments, Proper name := by
  induction segments generalizing names with
  | nil => exact hnames
  | cons segment rest ih =>
      rw [List.forall_mem_cons] at hsegments
      rw [walk, List.filterMap_cons]
      cases hcomponent : Component.ofSegment? segment with
      | none => exact ih hnames hsegments.2
      | some component => exact ih (proper_step hnames hsegments.1 hcomponent) hsegments.2

/-- A path leads to proper names. -/
theorem proper_namesFrom {start : List String} (hstart : ∀ name ∈ start, Proper name)
    (path : String) : ∀ name ∈ namesFrom start path, Proper name := by
  rw [namesFrom_eq]
  apply proper_walk
  · split
    · simp
    · exact hstart
  · exact fun segment => noSlash_of_mem_segments

theorem proper_names (path : String) : ∀ name ∈ names path, Proper name :=
  proper_namesFrom (by simp) path

/-! ## Paths of names -/

theorem segments_intercalate {parts : List (List Char)} (hparts : ∀ part ∈ parts, '/' ∉ part)
    (hne : parts ≠ []) : segments (['/'].intercalate parts) = parts := by
  rw [segments_eq_splitOn]
  exact List.splitOn_intercalate '/' hparts hne

theorem intercalate_append_last (separator : List Char) (parts : List (List Char))
    (last more : List Char) :
    separator.intercalate (parts ++ [last ++ more]) =
      separator.intercalate (parts ++ [last]) ++ more := by
  induction parts with
  | nil => simp
  | cons part rest ih =>
      rw [List.cons_append, List.cons_append, List.intercalate_cons_of_ne_nil (by simp),
        List.intercalate_cons_of_ne_nil (by simp), ih, List.append_assoc, List.append_assoc,
        List.append_assoc]

theorem toList_ofNames (names : List String) :
    (ofNames names).toList = '/' :: ['/'].intercalate (names.map String.toList) := by
  rw [ofNames, String.toList_append, String.toList_intercalate]
  rfl

/-- The path of proper names leads to them. -/
theorem names_ofNames {path : List String} (hproper : ∀ name ∈ path, Proper name) :
    names (ofNames path) = path := by
  rw [names_eq, toList_ofNames]
  cases path with
  | nil => rfl
  | cons name rest =>
      have hparts : ∀ part ∈ (name :: rest).map String.toList, '/' ∉ part := by
        intro part hpart
        obtain ⟨other, hother, rfl⟩ := List.mem_map.mp hpart
        exact (hproper other hother).noSlash
      have hsegments := segments_intercalate hparts (by simp)
      rw [segments, if_pos rfl, walk_cons_empty, hsegments, walk_proper [] hproper]
      rfl

/-- A path that is written as the path of its names. -/
def IsPlain (path : String) : Prop := ofNames (names path) = path

theorem isPlain_ofNames {path : List String} (hproper : ∀ name ∈ path, Proper name) :
    IsPlain (ofNames path) := by
  rw [IsPlain, names_ofNames hproper]

theorem isPlain_normalize (path : String) : IsPlain (normalize path) :=
  isPlain_ofNames (proper_names path)

/-- A plain path stays plain when its last name gets an extension. -/
theorem IsPlain.append {path extension : String} (hpath : IsPlain path)
    (hextension : ∀ name, (name = "" ∨ Proper name) → Proper (name ++ extension)) :
    IsPlain (path ++ extension) := by
  rw [IsPlain] at hpath
  have hproper := proper_names path
  generalize names path = all at hpath hproper
  subst hpath
  rcases List.eq_nil_or_concat all with rfl | ⟨before, last, rfl⟩
  · have hplain : IsPlain (ofNames ["" ++ extension]) := isPlain_ofNames (by
      simpa using hextension "" (.inl rfl))
    simpa [ofNames, String.append_assoc] using hplain
  · have hall : ∀ name ∈ before ++ [last ++ extension], Proper name := by
      intro name hname
      rcases List.mem_append.mp hname with hname | hname
      · exact hproper name (by simp [hname])
      · rw [List.mem_singleton.mp hname]
        exact hextension last (.inr (hproper last (by simp)))
    have hsame : ofNames (before ++ [last ++ extension]) =
        ofNames (before.concat last) ++ extension := by
      rw [← String.toList_inj]
      simp only [toList_ofNames, String.toList_append, List.concat_eq_append, List.map_append,
        List.map_cons, List.map_nil, List.cons_append, List.cons.injEq, true_and]
      exact intercalate_append_last _ _ _ _
    rw [← hsame]
    exact isPlain_ofNames hall

/-! ## Relative paths -/

theorem dropCommon_spec (target base : List String) :
    ∃ common, target = common ++ (dropCommon target base).1 ∧
      base = common ++ (dropCommon target base).2 := by
  induction target generalizing base with
  | nil => exact ⟨[], by cases base <;> exact ⟨rfl, rfl⟩⟩
  | cons name rest ih =>
      cases base with
      | nil => exact ⟨[], rfl, rfl⟩
      | cons other more =>
          rw [dropCommon]
          by_cases hsame : name = other
          · obtain ⟨common, htarget, hbase⟩ := ih more
            rw [if_pos hsame]
            refine ⟨name :: common, ?_, ?_⟩
            · rw [List.cons_append, ← htarget]
            · rw [List.cons_append, ← hbase, hsame]
          · rw [if_neg hsame]
            exact ⟨[], rfl, rfl⟩

/-- Going up as often as there are names leads back before them. -/
theorem walk_up (before names : List String) :
    walk (before ++ names) (List.replicate names.length "..".toList) = before := by
  induction names using List.reverseRecOn with
  | nil => exact List.append_nil before
  | append_singleton names name ih =>
      have hup : walk (before ++ (names ++ [name])) ["..".toList] = before ++ names := by
        rw [← List.append_assoc]
        exact List.dropLast_concat
      have hsplit : List.replicate (names ++ [name]).length "..".toList =
          ["..".toList] ++ List.replicate names.length "..".toList := by
        rw [List.length_append, List.length_singleton, List.replicate_succ]
        rfl
      rw [hsplit, walk_append, hup, ih]

/-- The relative path between two paths leads from the one to the other. -/
theorem walk_relative (target base : String) :
    walk (names base) (segments (relative target base).toList) =
      namesFrom (names base) target := by
  have hproper := proper_namesFrom (proper_names base) target
  rw [relative, relativeNames]
  dsimp only
  obtain ⟨common, hto, hfrom⟩ := dropCommon_spec (namesFrom (names base) target) (names base)
  generalize dropCommon (namesFrom (names base) target) (names base) = split at hto hfrom ⊢
  obtain ⟨down, up⟩ := split
  dsimp only at hto hfrom ⊢
  rw [hto] at hproper ⊢
  rw [hfrom]
  have hdown : ∀ name ∈ down, Proper name := fun name hname =>
    hproper name (List.mem_append_right common hname)
  have hparts : (up.map (fun _ => "..") ++ down).map String.toList =
      List.replicate up.length "..".toList ++ down.map String.toList := by
    rw [List.map_append, List.map_map, ← List.map_const']
    rfl
  rw [String.toList_intercalate, hparts]
  generalize hall : List.replicate up.length "..".toList ++ down.map String.toList = parts
  have hwalk : walk (common ++ up) parts = common ++ down := by
    rw [← hall, walk_append, walk_up, walk_proper common hdown]
  cases parts with
  | nil => exact hwalk
  | cons part rest =>
      have hslash : ∀ piece ∈ part :: rest, '/' ∉ piece := by
        intro piece hpiece
        rw [← hall, List.mem_append] at hpiece
        rcases hpiece with hpiece | hpiece
        · rw [List.eq_of_mem_replicate hpiece]
          decide
        · obtain ⟨name, hname, rfl⟩ := List.mem_map.mp hpiece
          exact (hdown name hname).noSlash
      have hsegments := segments_intercalate hslash (by simp)
      rw [← hwalk]
      exact congrArg (walk (common ++ up)) hsegments

/-- A relative path is empty, or it goes up and down along names. -/
theorem relative_cases (target base : String) :
    relative target base = "" ∨ ∀ segment ∈ segments (relative target base).toList,
      segment = "..".toList ∨ ∃ name, Proper name ∧ segment = name.toList := by
  have hproper := proper_namesFrom (proper_names base) target
  rw [relative, relativeNames]
  dsimp only
  obtain ⟨common, hto, _⟩ := dropCommon_spec (namesFrom (names base) target) (names base)
  generalize dropCommon (namesFrom (names base) target) (names base) = split at hto ⊢
  obtain ⟨down, up⟩ := split
  dsimp only at hto ⊢
  rw [hto] at hproper
  have hparts : ∀ part ∈ up.map (fun _ => "..") ++ down, part = ".." ∨ Proper part := by
    intro part hpart
    rcases List.mem_append.mp hpart with hup | hdown
    · obtain ⟨_, _, rfl⟩ := List.mem_map.mp hup
      exact .inl rfl
    · exact .inr (hproper part (List.mem_append_right common hdown))
  generalize up.map (fun _ => "..") ++ down = parts at hparts ⊢
  cases parts with
  | nil => exact .inl rfl
  | cons part rest =>
      have hslash : ∀ piece ∈ (part :: rest).map String.toList, '/' ∉ piece := by
        intro piece hpiece
        obtain ⟨name, hname, rfl⟩ := List.mem_map.mp hpiece
        rcases hparts name hname with rfl | hname
        · decide
        · exact hname.noSlash
      right
      rw [String.toList_intercalate]
      change ∀ segment ∈ segments (['/'].intercalate _), _
      rw [segments_intercalate hslash (by simp)]
      intro segment hsegment
      obtain ⟨name, hname, rfl⟩ := List.mem_map.mp hsegment
      exact (hparts name hname).imp (congrArg String.toList) fun hname => ⟨name, hname, rfl⟩

theorem not_isAbsolute_relative (target base : String) :
    isAbsolute (relative target base) = false := by
  rcases relative_cases target base with hempty | hsegments
  · rw [hempty]
    rfl
  · rw [isAbsolute]
    split
    · rename_i rest htext
      rw [htext] at hsegments
      rcases hsegments [] List.mem_cons_self with hparent | ⟨name, hname, heq⟩
      · exact absurd hparent (by decide)
      · exact absurd (String.toList_inj.mp heq.symm) hname.ne_empty
    · rfl

/-- A path that continues another one is walked from where that one leads. -/
theorem names_join (base : String) {path : String} (hpath : isAbsolute path = false) :
    names (join base path) = walk (names base) (segments path.toList) := by
  rw [join, hpath, Bool.false_or, names_eq, names_eq]
  by_cases hbase : base = ""
  · subst hbase
    rfl
  · rw [decide_eq_false hbase, if_neg Bool.false_ne_true]
    split
    · rename_i hslash
      obtain ⟨before, hbefore⟩ := List.getLast?_eq_some_iff.mp hslash
      have hend : segments (before ++ ['/']) = segments before ++ [[]] :=
        segments_append before []
      rw [String.toList_append, hbefore, List.append_assoc, List.singleton_append,
        segments_append, hend, walk_append, walk_append, walk_cons_empty]
      rfl
    · have hslash : (base ++ "/" ++ path).toList = base.toList ++ '/' :: path.toList := by simp
      rw [hslash, segments_append, walk_append]

/-- A base that is continued by the relative path to a target leads to the target. -/
theorem names_join_relative {target : String} (htarget : isAbsolute target = true) (base : String) :
    names (join base (relative target base)) = names target := by
  rw [names_join base (not_isAbsolute_relative target base), walk_relative, namesFrom_eq,
    if_pos htarget, ← names_eq]

end WebBundle.Path

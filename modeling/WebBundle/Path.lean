/-!
# Paths

A path is a text whose segments are separated by slashes.  Empty segments, and
`.` anywhere but at the start of a relative path, carry no meaning.  An absolute
path denotes a list of names: `.` stays, `..` goes up and the root is its own
parent.  The relative path between two absolute ones climbs from the base to
the longest common list of names and descends from there.
-/

namespace WebBundle.Path

/-- The segments between slashes; there is always at least one. -/
def segments : List Char → List (List Char)
  | [] => [[]]
  | c :: rest =>
    if c = '/' then [] :: segments rest
    else match segments rest with
      | [] => [[c]]
      | first :: more => (c :: first) :: more

/-- Segments joined by slashes. -/
def joinSegments : List (List Char) → List Char
  | [] => []
  | [segment] => segment
  | segment :: rest => segment ++ '/' :: joinSegments rest

/-- Whether a path starts at the root. -/
def isAbsolute (path : String) : Bool :=
  match path.toList with
  | '/' :: _ => true
  | _ => false

/-- A meaningful part of a path. -/
inductive Component where
  | root
  | current
  | parent
  | normal (name : String)
  deriving DecidableEq, Repr

/-- The meaning of a segment that is not first. -/
def Component.ofSegment? (segment : List Char) : Option Component :=
  if segment = [] || segment = ['.'] then none
  else if segment = ['.', '.'] then some .parent
  else some (.normal (String.ofList segment))

/-- The meaningful parts of a path, in order. -/
def components (path : String) : List Component :=
  match segments path.toList with
  | [] => []
  | first :: rest =>
    let head : List Component :=
      if isAbsolute path then [.root]
      else if first = ['.'] then [.current]
      else (Component.ofSegment? first).toList
    head ++ rest.filterMap Component.ofSegment?

/-- One step from a list of names: up, down or nowhere. -/
def step (names : List String) : Component → List String
  | .root => []
  | .current => names
  | .parent => names.dropLast
  | .normal name => names ++ [name]

/-- The names a path leads to from a starting place. -/
def namesFrom (start : List String) (path : String) : List String :=
  (components path).foldl step start

/-- The names an absolute path denotes. -/
def names (path : String) : List String := namesFrom [] path

/-- The absolute path of a list of names. -/
def ofNames (names : List String) : String :=
  "/" ++ String.intercalate "/" names

/-- An absolute path without `.`, `..` and needless slashes. -/
def normalize (path : String) : String := ofNames (names path)

/-- Drops the longest common start of two lists. -/
def dropCommon : List String → List String → List String × List String
  | left :: lefts, right :: rights =>
    if left = right then dropCommon lefts rights else (left :: lefts, right :: rights)
  | lefts, rights => (lefts, rights)

/-- The segments that lead from one list of names to another. -/
def relativeNames (target base : List String) : List String :=
  let (down, up) := dropCommon target base
  up.map (fun _ => "..") ++ down

/-- The path that leads from an absolute base to an absolute target; a relative
target is taken from the base. -/
def relative (target base : String) : String :=
  let start := names base
  String.intercalate "/" (relativeNames (namesFrom start target) start)

/-- A path continued by another one, which replaces it when absolute. -/
def join (base path : String) : String :=
  if isAbsolute path || base = "" then path
  else if base.toList.getLast? = some '/' then base ++ path
  else base ++ "/" ++ path

/-- Drops segments without meaning from the front of a reversed body. -/
private def dropBlank (leadingDot : Bool) : List (List Char) → List (List Char)
  | [] => []
  | segment :: rest =>
    if segment = [] then dropBlank leadingDot rest
    else if segment = ['.'] && !(leadingDot && rest.isEmpty) then dropBlank leadingDot rest
    else segment :: rest

/-- The path without its last meaningful part; the root and the empty path have
no parent. -/
def parent? (path : String) : Option String :=
  let absolute := isAbsolute path
  let body := if absolute then (segments path.toList).drop 1 else segments path.toList
  match dropBlank (!absolute) body.reverse with
  | [] => none
  | _ :: before =>
    let text := joinSegments (dropBlank (!absolute) before).reverse
    some (String.ofList (if absolute then '/' :: text else text))

/-- What is dropped from the front of a reversed body has no meaning. -/
private theorem exists_blanks (parts : List (List Char)) :
    ∃ blanks, parts = blanks ++ dropBlank false parts ∧
      blanks.filterMap Component.ofSegment? = [] := by
  induction parts with
  | nil => exact ⟨[], rfl, rfl⟩
  | cons segment rest ih =>
      obtain ⟨blanks, hrest, hblanks⟩ := ih
      have hmore (hblank : Component.ofSegment? segment = none)
          (hdrop : dropBlank false (segment :: rest) = dropBlank false rest) :
          ∃ blanks, segment :: rest = blanks ++ dropBlank false (segment :: rest) ∧
            blanks.filterMap Component.ofSegment? = [] :=
        ⟨segment :: blanks, by rw [hdrop, List.cons_append, ← hrest],
          by rw [List.filterMap_cons_none hblank, hblanks]⟩
      by_cases hempty : segment = []
      · exact hmore (by simp [Component.ofSegment?, hempty]) (by rw [dropBlank, if_pos hempty])
      · by_cases hdot : segment = ['.']
        · exact hmore (by simp [Component.ofSegment?, hdot]) (by simp [dropBlank, hdot])
        · exact ⟨[], by simp [dropBlank, hempty, hdot], rfl⟩

/-- Only the root has no parent among absolute paths. -/
theorem components_of_parent?_eq_none {path : String} (habsolute : isAbsolute path = true)
    (hnone : parent? path = none) : components path = [.root] := by
  rw [parent?] at hnone
  simp only [habsolute, if_true, Bool.not_true] at hnone
  split at hnone
  · rename_i hblank
    obtain ⟨blanks, hbody, hrest⟩ := exists_blanks ((segments path.toList).drop 1).reverse
    rw [hblank, List.append_nil] at hbody
    rw [← hbody, List.filterMap_reverse, List.reverse_eq_nil_iff] at hrest
    rw [components]
    cases hsegments : segments path.toList with
    | nil =>
        rw [isAbsolute] at habsolute
        split at habsolute
        · rename_i rest htext
          rw [htext, segments, if_pos rfl] at hsegments
          cases hsegments
        · cases habsolute
    | cons first rest =>
        rw [hsegments] at hrest
        simp only [habsolute, if_true]
        exact congrArg (Component.root :: ·) hrest
  · cases hnone

theorem isAbsolute_of_parent? {path directory : String} (habsolute : isAbsolute path = true)
    (hparent : parent? path = some directory) : isAbsolute directory = true := by
  rw [parent?] at hparent
  simp only [habsolute, if_true, Bool.not_true] at hparent
  split at hparent
  · cases hparent
  · rw [Option.some.injEq] at hparent
    rw [← hparent, isAbsolute, String.toList_ofList]
    rfl

private theorem ofSegment?_of_dropBlank {parts rest : List (List Char)} {segment : List Char}
    (hparts : dropBlank false parts = segment :: rest) :
    (Component.ofSegment? segment).isSome = true := by
  induction parts with
  | nil => cases hparts
  | cons first more ih =>
      rw [dropBlank] at hparts
      split at hparts
      · exact ih hparts
      · rename_i hempty
        split at hparts
        · exact ih hparts
        · rename_i hdot
          obtain ⟨rfl, -⟩ := List.cons.inj hparts
          simp only [Bool.false_and, Bool.not_false, Bool.and_true, decide_eq_true_eq] at hdot
          simp only [Component.ofSegment?, hempty, hdot, decide_false, Bool.or_self,
            Bool.false_eq_true, if_false]
          split <;> rfl

/-- The parent of an absolute path is what stands in front of its last meaningful segment. -/
theorem exists_parts_of_parent? {path directory : String} (habsolute : isAbsolute path = true)
    (hparent : parent? path = some directory) :
    ∃ kept blanks segment after,
      (segments path.toList).drop 1 = kept ++ (blanks ++ segment :: after) ∧
      blanks.filterMap Component.ofSegment? = [] ∧ after.filterMap Component.ofSegment? = [] ∧
      (Component.ofSegment? segment).isSome = true ∧
      directory = String.ofList ('/' :: joinSegments kept) := by
  rw [parent?] at hparent
  simp only [habsolute, if_true, Bool.not_true] at hparent
  obtain ⟨after, hbody, hafter⟩ := exists_blanks ((segments path.toList).drop 1).reverse
  split at hparent
  · cases hparent
  · rename_i segment before hlast
    rw [Option.some.injEq] at hparent
    obtain ⟨blanks, hbefore, hblanks⟩ := exists_blanks before
    refine ⟨(dropBlank false before).reverse, blanks.reverse, segment, after.reverse, ?_, ?_, ?_,
      ofSegment?_of_dropBlank hlast, hparent.symm⟩
    · rw [hlast, hbefore] at hbody
      have hwhole := congrArg List.reverse hbody
      simpa using hwhole
    · rw [List.filterMap_reverse, hblanks, List.reverse_nil]
    · rw [List.filterMap_reverse, hafter, List.reverse_nil]

/-- The last part of a path, if it is a name. -/
def fileName? (path : String) : Option String :=
  match (components path).getLast? with
  | some (.normal name) => some name
  | _ => none

/-- Splits a name at its last dot, which must not be its first character. -/
def splitExtension (name : List Char) : List Char × Option (List Char) :=
  match name.reverse.takeWhile (· ≠ '.'), name.reverse.dropWhile (· ≠ '.') with
  | extension, _ :: before =>
    if before.isEmpty then (name, none) else (before.reverse, some extension.reverse)
  | _, [] => (name, none)

/-- The file name without its extension. -/
def fileStem? (path : String) : Option String :=
  (fileName? path).map fun name => String.ofList (splitExtension name.toList).1

/-- The extension of the file name, without its dot. -/
def extension? (path : String) : Option String :=
  (fileName? path).bind fun name => (splitExtension name.toList).2.map String.ofList

/-- The name that stands for a file: its stem, or the stem of its directory for
`index` and `mod`. -/
def representativeName (path : String) : String :=
  let stem := (fileStem? path).getD path
  if stem = "index" || stem = "mod" then
    ((parent? path).bind fileStem?).getD stem
  else stem

end WebBundle.Path

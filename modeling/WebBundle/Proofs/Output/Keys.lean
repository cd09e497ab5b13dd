import WebBundle.Proofs.Output.Chunks
import WebBundle.Proofs.Path.Names

/-!
# Keys of modules

A chunk knows its modules by their stable ids, and three kinds of ids are made stable by
different rules into one set of keys.  The key of a file begins with a dot.  So keys tell
modules apart if files are named by plain paths and virtual modules by names that begin
neither with a dot nor with another NUL: then a call reaches the module that its import was
resolved to.  A virtual module whose name looks like the key of a file is taken for it.
-/

namespace WebBundle

namespace Path

/-- No segment of a relative path between two absolute ones stays where it is. -/
theorem current_notMem_relative (target base : String) :
    ['.'] ∉ segments (relative target base).toList := by
  rcases relative_cases target base with hempty | hsegments
  · rw [hempty]
    decide
  · intro hcurrent
    rcases hsegments _ hcurrent with hparent | ⟨name, hname, heq⟩
    · exact absurd hparent (by decide)
    · exact hname.ne_current (String.toList_inj.mp heq.symm)

/-- The relative paths to two plain absolute paths are different. -/
theorem relative_injective {first second base : String} (hfirst : isAbsolute first = true)
    (hsecond : isAbsolute second = true) (hplain : IsPlain first) (hother : IsPlain second)
    (hsame : relative first base = relative second base) : first = second := by
  have hwalk := walk_relative first base
  rw [hsame, walk_relative, namesFrom_eq, namesFrom_eq, if_pos hfirst, if_pos hsecond,
    ← names_eq, ← names_eq] at hwalk
  rw [← hplain, ← hother, hwalk]

end Path

namespace ModuleId

/-- An id that is the only one with its stable id: the plain absolute path of a file, or a NUL
and a name that cannot be taken for the key of a file. -/
inductive Canonical (id : ModuleId) : Prop
  | file (habsolute : Path.isAbsolute id.text = true) (hplain : Path.IsPlain id.text)
  | virtual (name : List Char) (htext : id.text.toList = '\x00' :: name)
    (hnul : name.head? ≠ some '\x00') (hdot : name.head? ≠ some '.')

theorem isVirtual_iff {id : ModuleId} : id.isVirtual = true ↔
    ∃ name, id.text.toList = '\x00' :: name := by
  rw [isVirtual]
  split
  · rename_i name htext
    exact ⟨fun _ => ⟨name, htext⟩, fun _ => rfl⟩
  · rename_i hnone
    refine ⟨fun h => (Bool.false_ne_true h).elim, ?_⟩
    rintro ⟨name, htext⟩
    exact (hnone name htext).elim

theorem not_isVirtual {id : ModuleId} (habsolute : Path.isAbsolute id.text = true) :
    id.isVirtual = false := by
  rw [Bool.eq_false_iff, Ne, isVirtual_iff]
  rintro ⟨name, htext⟩
  rw [Path.isAbsolute, htext] at habsolute
  cases habsolute

theorem head?_withDot (path : String) : (withDot path).toList.head? = some '.' := by
  rw [withDot]
  split
  · rename_i rest htext
    rw [htext]
    rfl
  · rw [String.toList_append]
    rfl

/-- Making a path visibly relative keeps relative paths apart. -/
theorem withDot_injective {first second : String} (hfirst : ['.'] ∉ Path.segments first.toList)
    (hsecond : ['.'] ∉ Path.segments second.toList) (hsame : withDot first = withDot second) :
    first = second := by
  have hmem (path : String) : ['.'] ∈ Path.segments ("./" ++ path).toList := by
    have hsplit : ("./" ++ path).toList = ['.'] ++ '/' :: path.toList := by
      rw [String.toList_append]
      rfl
    rw [hsplit, Path.segments_append]
    exact List.mem_append_left _ (by decide)
  rw [withDot, withDot] at hsame
  split at hsame <;> split at hsame
  · exact hsame
  · exact (hfirst (hsame ▸ hmem second)).elim
  · exact (hsecond (hsame ▸ hmem first)).elim
  · rw [← String.toList_inj, String.toList_append, String.toList_append,
      List.append_cancel_left_eq] at hsame
    exact String.toList_inj.mp hsame

theorem stabilize_of_absolute {id : ModuleId} (habsolute : Path.isAbsolute id.text = true)
    (directory : String) :
    id.stabilize directory = withDot (Path.relative id.text directory) := by
  rw [stabilize, if_neg (by rw [not_isVirtual habsolute]; decide), if_pos habsolute]

theorem stabilize_of_virtual {id : ModuleId} {name : List Char}
    (htext : id.text.toList = '\x00' :: name) (hnul : name.head? ≠ some '\x00')
    (directory : String) : id.stabilize directory = String.ofList name := by
  rw [stabilize, if_pos (isVirtual_iff.mpr ⟨name, htext⟩), htext]
  refine congrArg String.ofList ?_
  rw [List.dropWhile_cons_of_pos (by decide)]
  cases name with
  | nil => rfl
  | cons c rest =>
      refine List.dropWhile_cons_of_neg ?_
      rw [List.head?_cons, Ne, Option.some.injEq] at hnul
      simpa using hnul

/-- Canonical ids have different stable ids. -/
theorem Canonical.stabilize_injective {first second : ModuleId} (hfirst : first.Canonical)
    (hsecond : second.Canonical) {directory : String}
    (hsame : first.stabilize directory = second.stabilize directory) : first = second := by
  obtain ⟨text⟩ := first
  obtain ⟨other⟩ := second
  rw [ModuleId.mk.injEq]
  cases hfirst with
  | file habsolute hplain =>
      rw [stabilize_of_absolute habsolute] at hsame
      cases hsecond with
      | file habsolute' hplain' =>
          rw [stabilize_of_absolute habsolute'] at hsame
          exact Path.relative_injective habsolute habsolute' hplain hplain'
            (withDot_injective (Path.current_notMem_relative _ _)
              (Path.current_notMem_relative _ _) hsame)
      | virtual name htext hnul hdot =>
          rw [stabilize_of_virtual htext hnul] at hsame
          have hhead := head?_withDot (Path.relative text directory)
          rw [hsame, String.toList_ofList] at hhead
          exact (hdot hhead).elim
  | virtual name htext hnul hdot =>
      rw [stabilize_of_virtual htext hnul] at hsame
      cases hsecond with
      | file habsolute hplain =>
          rw [stabilize_of_absolute habsolute] at hsame
          have hhead := head?_withDot (Path.relative other directory)
          rw [← hsame, String.toList_ofList] at hhead
          exact (hdot hhead).elim
      | virtual name' htext' hnul' hdot' =>
          rw [stabilize_of_virtual htext' hnul', String.ofList_inj] at hsame
          rw [← String.toList_inj]
          exact htext.trans (hsame ▸ htext'.symm)

end ModuleId

namespace Output

variable {options : Options} {graph : Graph} {entry : Nat}

/-- The function that the runtime finds under a key: of rows with one key the last counts. -/
def lookup? (table : List (String × String)) (key : String) : Option String :=
  (table.reverse.find? fun row => row.1 = key).map Prod.snd

/-- If a key belongs to one row only, the runtime finds the function of this row. -/
theorem lookup?_of_unique {rows : List (String × String)} {row : String × String}
    (hrow : row ∈ rows) (hunique : ∀ other ∈ rows, other.1 = row.1 → other = row) :
    lookup? rows row.1 = some row.2 := by
  rw [lookup?]
  cases hfind : rows.reverse.find? fun other => other.1 = row.1 with
  | none =>
      rw [List.find?_eq_none] at hfind
      exact (hfind row (List.mem_reverse.mpr hrow) (decide_eq_true rfl)).elim
  | some other =>
      have hkey : other.1 = row.1 := by simpa using List.find?_some hfind
      have hmem := List.mem_reverse.mp (List.mem_of_find?_eq_some hfind)
      rw [hunique other hmem hkey]
      rfl

theorem lookup?_of_nodup {rows : List (String × String)} (hnodup : (rows.map Prod.fst).Nodup)
    {row : String × String} (hrow : row ∈ rows) : lookup? rows row.1 = some row.2 :=
  lookup?_of_unique hrow fun _ hother hkey => List.inj_on_of_nodup_map hnodup hother hrow hkey

/-- If stable ids tell the modules of a graph apart, no key of a table stands for two rows. -/
theorem nodup_keys (hself : SelfContained options graph entry)
    (hstable : (graph.modules.map Module.stableId).Nodup) : (keys options graph entry).Nodup := by
  have hrows := hself.rows
  have hordered := hself.ordered
  rw [keys]
  generalize graph.reachable entry = numbers at hrows hordered
  generalize table options graph entry = rows at hrows
  induction hrows with
  | nil => exact List.nodup_nil
  | @cons number row numbers rows hrow hrest ih =>
      obtain ⟨hless, hordered⟩ := List.pairwise_cons.mp hordered
      rw [List.map_cons, List.nodup_cons]
      refine ⟨fun hmem => ?_, ih hordered⟩
      obtain ⟨other, hother, hkey⟩ := List.mem_map.mp hmem
      obtain ⟨later, hlater, twin, htwin, rfl⟩ :=
        Loader.exists_left_of_forall₂ hrest hother
      obtain ⟨module, hmodule, rfl⟩ := hrow
      have hfirst : (graph.modules.map Module.stableId)[number]? = some module.stableId := by
        rw [List.getElem?_map, hmodule]
        rfl
      have hsecond : (graph.modules.map Module.stableId)[later]? = some module.stableId := by
        rw [List.getElem?_map, htwin]
        exact congrArg some hkey
      have hnumber := (List.getElem?_eq_some_iff.mp hfirst).1
      have heq := (List.getElem?_inj hnumber hstable).mp (hfirst.trans hsecond.symm)
      have := hless later hlater
      omega

end Output

namespace World

/-- A module that imports a file and a virtual module whose name looks like its key. -/
def lookalikes : FileTree :=
  ⟨[(["p"], .directory), (["p", "m.js"], .file "import './b.js'; import 'v'".toUTF8),
    (["p", "b.js"], .file "1".toUTF8)]⟩

/-- A bundler whose plugin provides the virtual module. -/
def forLookalikes : Bundler :=
  .fresh { input := [⟨none, "./m.js"⟩], workingDirectory := "/p" }
    [.ruled {
      resolve := [⟨"v", .ok ⟨⟨"\x00./b.js"⟩, some .script⟩⟩]
      load := [⟨⟨"\x00./b.js"⟩, .code "2" none⟩] }] [0]

end World

end WebBundle

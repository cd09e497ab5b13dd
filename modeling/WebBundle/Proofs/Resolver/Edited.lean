import WebBundle.Proofs.Files.Edited
import WebBundle.Resolver.Basic

/-!
# Requests in trees that differ in one file

A request looks at the file tree in two ways: it asks what stands at a path, and it reads the
package files of directories.  So if two trees differ in the content of one file, and this is
not the file of a package, every request leads to the same path in both.  What is remembered
of the two trees differs at most in the content of the one file.
-/

namespace WebBundle.Resolver

variable {place : List String}

/-- Two things that are remembered differ at most in the content of one file. -/
structure SameLook (place : List String) (known other : String × Option FileEntry) : Prop where
  path : known.1 = other.1
  entry : Option.Rel FileEntry.Alike known.2 other.2
  elsewhere : Path.names known.1 ≠ place → known.2 = other.2

/-- Two resolutions stand at the same point, in trees that differ in one file. -/
structure Course.Alike (place : List String) (course other : Course) : Prop where
  memory : List.Forall₂ (SameLook place) course.memory other.memory
  query : course.query = other.query
  fragment : course.fragment = other.fragment
  replacement : course.replacement = other.replacement

/-- Two steps fail in the same way, or give values that match. -/
inductive SameResult {α : Type} (matching : α → α → Prop) :
    Except Failure α → Except Failure α → Prop
  | error (failure : Failure) : SameResult matching (.error failure) (.error failure)
  | ok {value other : α} (h : matching value other) : SameResult matching (.ok value) (.ok other)

theorem SameResult.eq {α : Type} {result other : Except Failure α}
    (h : SameResult Eq result other) : result = other := by
  cases h with
  | error failure => rfl
  | ok hvalue => rw [hvalue]

/-- Two steps, taken at the same point in trees that differ in one file, give results that match
and end at the same point. -/
def Agrees {α : Type} (place : List String) (matching : α → α → Prop)
    (step next : Resolving α) : Prop :=
  ∀ rules files edited course other, FileTree.SameBut place files edited →
    Course.Alike place course other →
      SameResult matching ((step.run ⟨rules, files⟩).run.run course).1
        ((next.run ⟨rules, edited⟩).run.run other).1 ∧
      Course.Alike place ((step.run ⟨rules, files⟩).run.run course).2
        ((next.run ⟨rules, edited⟩).run.run other).2

/-- A step gives the same in trees that differ in one file. -/
abbrev Blind {α : Type} (place : List String) (step : Resolving α) : Prop :=
  Agrees place Eq step step

namespace Agrees

variable {α β : Type} {matching : α → α → Prop} {after : β → β → Prop}

theorem pure {value other : α} (h : matching value other) :
    Agrees place matching (Pure.pure value) (Pure.pure other) :=
  fun _ _ _ _ _ _ halike => ⟨.ok h, halike⟩

theorem throw (failure : Failure) : Agrees place matching
    (MonadExcept.throw failure : Resolving α) (MonadExcept.throw failure) :=
  fun _ _ _ _ _ _ halike => ⟨.error failure, halike⟩

theorem read : Agrees place (fun here there => here.rules = there.rules ∧
      FileTree.SameBut place here.files there.files)
    (MonadReaderOf.read : Resolving Place) MonadReaderOf.read :=
  fun _ _ _ _ _ hfiles halike => ⟨.ok ⟨rfl, hfiles⟩, halike⟩

theorem get : Agrees place (Course.Alike place) (get : Resolving Course) get :=
  fun _ _ _ _ _ _ halike => ⟨.ok halike, halike⟩

theorem modify {change other : Course → Course}
    (hchange : ∀ {course reached}, Course.Alike place course reached →
      Course.Alike place (change course) (other reached)) :
    Agrees place (fun _ _ => True) (modify change : Resolving Unit) (modify other) :=
  fun _ _ _ _ _ _ halike => ⟨.ok trivial, hchange halike⟩

theorem run_bind (step : Resolving α) (next : α → Resolving β) (here : Place) (course : Course) :
    (((step >>= next).run here).run.run course) =
      match (step.run here).run.run course with
      | (.ok value, course) => ((next value).run here).run.run course
      | (.error failure, course) => (.error failure, course) := by
  simp only [ReaderT.run_bind, ExceptT.run_bind, StateT.run_bind]
  rcases (step.run here).run.run course with ⟨_ | value, reached⟩ <;> rfl

theorem bind {step other : Resolving α} {next last : α → Resolving β}
    (hstep : Agrees place matching step other)
    (hnext : ∀ value found, matching value found → Agrees place after (next value) (last found)) :
    Agrees place after (step >>= next) (other >>= last) := by
  intro rules files edited course reached hfiles halike
  obtain ⟨hresult, hcourse⟩ := hstep rules files edited course reached hfiles halike
  rw [run_bind, run_bind]
  generalize (step.run ⟨rules, files⟩).run.run course = done at hresult hcourse ⊢
  generalize (other.run ⟨rules, edited⟩).run.run reached = redone at hresult hcourse ⊢
  obtain ⟨result, middle⟩ := done
  obtain ⟨answer, center⟩ := redone
  cases hresult with
  | error failure => exact ⟨.error failure, hcourse⟩
  | ok hvalue => exact hnext _ _ hvalue rules files edited middle center hfiles hcourse

theorem run_tryCatch (step : Resolving α) (handler : Failure → Resolving α) (here : Place)
    (course : Course) :
    ((MonadExcept.tryCatch step handler : Resolving α).run here).run.run course =
      match (step.run here).run.run course with
      | (.ok value, course) => (.ok value, course)
      | (.error failure, course) => ((handler failure).run here).run.run course := by
  simp only [MonadExcept.tryCatch, tryCatchThe, MonadExceptOf.tryCatch, ReaderT.run,
    ExceptT.tryCatch, ExceptT.run, ExceptT.mk, StateT.run_bind]
  simp only [StateT.run]
  rcases step here course with ⟨_ | value, reached⟩ <;> rfl

theorem tryCatch {step other : Resolving α} {handler : Failure → Resolving α}
    (hstep : Agrees place matching step other)
    (hhandler : ∀ failure, Agrees place matching (handler failure) (handler failure)) :
    Agrees place matching (MonadExcept.tryCatch step handler)
      (MonadExcept.tryCatch other handler) := by
  intro rules files edited course reached hfiles halike
  obtain ⟨hresult, hcourse⟩ := hstep rules files edited course reached hfiles halike
  rw [run_tryCatch, run_tryCatch]
  generalize (step.run ⟨rules, files⟩).run.run course = done at hresult hcourse ⊢
  generalize (other.run ⟨rules, edited⟩).run.run reached = redone at hresult hcourse ⊢
  obtain ⟨result, middle⟩ := done
  obtain ⟨answer, center⟩ := redone
  cases hresult with
  | error failure => exact hhandler failure rules files edited middle center hfiles hcourse
  | ok hvalue => exact ⟨.ok hvalue, hcourse⟩

end Agrees

namespace Blind

variable {α β : Type}

theorem pure (value : α) : Blind place (Pure.pure value : Resolving α) := Agrees.pure rfl

theorem throw (failure : Failure) : Blind place (MonadExcept.throw failure : Resolving α) :=
  Agrees.throw failure

theorem bind {step : Resolving α} {next : α → Resolving β} (hstep : Blind place step)
    (hnext : ∀ value, Blind place (next value)) : Blind place (step >>= next) := by
  refine Agrees.bind hstep ?_
  rintro value _ rfl
  exact hnext value

/-- What comes behind a failure does not run. -/
theorem throw_bind (failure : Failure) (next : α → Resolving β) :
    Blind place (MonadExcept.throw failure >>= next) :=
  fun _ _ _ _ _ _ halike => ⟨.error failure, halike⟩

/-- What follows a search is blind if it is for a path that was found and for none. -/
theorem onFound {next : Option α → Resolving β} (hfound : ∀ value, Blind place (next (some value)))
    (hnone : Blind place (next none)) (found : Option α) : Blind place (next found) := by
  cases found with
  | some value => exact hfound value
  | none => exact hnone

/-- What is asked of the place is what the rules say. -/
theorem read {next : Place → Resolving β}
    (hnext : ∀ rules files edited, Agrees place Eq (next ⟨rules, files⟩) (next ⟨rules, edited⟩)) :
    Blind place (MonadReaderOf.read >>= next) := by
  refine Agrees.bind Agrees.read ?_
  rintro ⟨rules, files⟩ ⟨_, edited⟩ ⟨rfl, _⟩
  exact hnext rules files edited

/-- What is asked of the course is not what is remembered. -/
theorem get {next : Course → Resolving β}
    (hnext : ∀ memory known query fragment replacement,
      Agrees place Eq (next ⟨memory, query, fragment, replacement⟩)
        (next ⟨known, query, fragment, replacement⟩)) :
    Blind place (MonadStateOf.get >>= next) := by
  refine Agrees.bind Agrees.get ?_
  rintro ⟨memory, query, fragment, replacement⟩ ⟨known, _, _, _⟩ ⟨_, rfl, rfl, rfl⟩
  exact hnext memory known query fragment replacement

theorem modify {change : Course → Course}
    (hchange : ∀ {course reached}, Course.Alike place course reached →
      Course.Alike place (change course) (change reached))
    {next : Resolving β} (hnext : Blind place next) :
    Blind place (do modify change; next) :=
  Agrees.bind (Agrees.modify hchange) fun _ _ _ => hnext

end Blind

/-! ## Looking at files -/

theorem find?_alike {memory known : Memory} (h : List.Forall₂ (SameLook place) memory known)
    (path : String) :
    Option.Rel (SameLook place) (memory.find? fun known => known.1 = path)
      (known.find? fun known => known.1 = path) := by
  induction h with
  | nil => exact .none
  | @cons head other rest more hhead _ ih =>
      rw [List.find?_cons, List.find?_cons, ← hhead.path]
      by_cases hpath : head.1 = path
      · rw [decide_eq_true hpath]
        exact .some hhead
      · rw [decide_eq_false hpath]
        exact ih

/-- What stands at a path looks the same, and is the same but for the one file. -/
theorem agrees_entry (path : String) :
    Agrees place (fun entry other => Option.Rel FileEntry.Alike entry other ∧
      (Path.names path ≠ place → entry = other)) ( entry? path) ( entry? path) := by
  refine .bind .get fun course other halike => ?_
  have hfound := find?_alike halike.memory path
  have hpath : ∀ found, course.memory.find? (fun known => known.1 = path) = some found →
      found.1 = path := by
    intro found hsome
    simpa using List.find?_some hsome
  generalize course.memory.find? (fun known => known.1 = path) = found at hfound hpath ⊢
  generalize other.memory.find? (fun known => known.1 = path) = again at hfound ⊢
  cases hfound with
  | @some known other hlook =>
      obtain rfl := hpath known rfl
      exact .pure ⟨hlook.entry, hlook.elsewhere⟩
  | none =>
      refine .bind .read fun here there hplaces => ?_
      refine .bind (.modify fun {course reached} hcourse => ?_) fun _ _ _ =>
        .pure ⟨hplaces.2.find? path, fun hpath => hplaces.2.find?_eq hpath⟩
      exact { hcourse with
        memory := .cons ⟨rfl, hplaces.2.find? path, fun hpath => hplaces.2.find?_eq hpath⟩
          hcourse.memory }

theorem blind_isFile (path : String) : Blind place (isFile path) := by
  refine Agrees.bind (agrees_entry path) fun entry other halike => ?_
  cases halike.1 with
  | none => exact .pure rfl
  | some hentry =>
      dsimp only
      rw [hentry.isFile]
      exact .pure rfl

theorem blind_isDirectory (path : String) : Blind place (isDirectory path) := by
  refine Agrees.bind (agrees_entry path) fun entry other halike => ?_
  cases halike.1 with
  | none => exact .pure rfl
  | some hentry =>
      dsimp only
      rw [hentry.isFile]
      exact .pure rfl

theorem blind_firstOf {α β : Type} {search : α → Resolving (Option β)}
    (hsearch : ∀ item, Blind place (search item)) (items : List α) :
    Blind place (firstOf search items) := by
  induction items with
  | nil => exact .pure none
  | cons item rest ih =>
      refine .bind (hsearch item) fun found => ?_
      cases found with
      | none => exact ih
      | some value => exact .pure (some value)

theorem blind_ending : Blind place ending :=
  .get fun _ _ _ _ _ => Agrees.pure rfl

theorem blind_orNotFound (specifier : String) (found : Option String) :
    Blind place (orNotFound specifier found) := by
  cases found with
  | some path => exact .pure path
  | none => exact .throw _

/-! ## Packages and files -/

section NoPackageFile

variable (hplace : place.getLast? ≠ some "package.json")
include hplace

/-- The file of a package is not the one that differs. -/
theorem names_packageFile (directory : String) :
    Path.names (Path.join directory "package.json") ≠ place := by
  have hproper : Path.Proper "package.json" := ⟨by decide, by decide, by decide, by decide⟩
  intro hsame
  rw [← hsame, Path.getLast?_names_join directory hproper] at hplace
  exact hplace rfl

theorem blind_packageAt? (directory : String) : Blind place (packageAt? directory) := by
  refine Agrees.bind (agrees_entry _) fun entry other halike => ?_
  obtain rfl := halike.2 (names_packageFile hplace directory)
  split
  · split
    · exact .pure rfl
    · exact .throw _
  · exact .pure rfl

theorem blind_nearestPackage? (path : String) : Blind place (nearestPackage? path) := by
  refine blind_firstOf (fun directory => ?_) _
  refine .bind (blind_isDirectory directory) fun _ => ?_
  split
  · exact blind_packageAt? hplace directory
  · exact .pure none

variable {nested : Nested} (hnested : ∀ directory specifier,
  Blind place (nested directory specifier))
include hnested

omit hplace in
theorem blind_follow (package : Package) (path : String) (request replacement : Option String) :
    Blind place (follow nested package path request replacement) := by
  unfold follow
  cases replacement with
  | none => exact .pure none
  | some specifier =>
      dsimp only
      split
      · exact .pure none
      · have hnext : Blind place (do
            modify fun course => { course with replacement := some specifier }
            return some (← nested package.directory specifier)) := by
          refine .modify ?_ (.bind (hnested _ _) fun _ => .pure _)
          exact fun h => ⟨h.memory, h.query, h.fragment, rfl⟩
        refine .get fun memory known query fragment replacement => ?_
        dsimp only
        split
        · have hitself : Blind place (do
              if ← isFile path then return some path
              throw (.notFound specifier)
              modify fun course => { course with replacement := some specifier }
              return some (← nested package.directory specifier)) := by
            refine .bind (blind_isFile path) fun _ => ?_
            split
            · exact .pure _
            · exact .bind (.throw _) fun _ => hnext
          split
          · exact Blind.bind (.throw _) fun _ => hitself
          · exact hitself
        · exact hnext

theorem blind_fileOrReplacement (path : String) :
    Blind place (fileOrReplacement nested path) := by
  have hself : Blind place (do
      if ← isFile path then return some path else return (none : Option String)) := by
    refine .bind (blind_isFile path) fun _ => ?_
    split
    · exact .pure _
    · exact .pure none
  unfold fileOrReplacement
  refine .read fun rules files edited => ?_
  dsimp only
  split
  · refine Blind.bind (blind_nearestPackage? hplace path) fun package => ?_
    cases package with
    | none => exact Blind.bind (.pure none) (.onFound (fun _ => .pure _) hself)
    | some package =>
        have hlift : ∀ replacement : Except Failure (Option String),
            Blind place (fileOrReplacement.liftExcept replacement) := by
          intro replacement
          cases replacement with
          | error failure => exact .throw failure
          | ok value => exact .pure value
        exact Blind.bind (hlift _) fun replacement =>
          .bind (blind_follow hnested package path none replacement)
            (.onFound (fun _ => .pure _) hself)
  · exact Blind.bind (.pure none) (.onFound (fun _ => .pure _) hself)

theorem blind_withExtension (path : String) : Blind place (withExtension nested path) :=
  blind_firstOf (fun _ => blind_fileOrReplacement hplace hnested _) _

omit hplace hnested in
theorem blind_firstSearch {searches : List (Nested → String → Resolving (Option String))}
    (hsearches : ∀ search ∈ searches, ∀ path, Blind place (search nested path)) (path : String) :
    Blind place (firstOf (fun search => search nested path) searches) := by
  induction searches with
  | nil => exact .pure none
  | cons search rest ih =>
      rw [List.forall_mem_cons] at hsearches
      refine .bind (hsearches.1 path) fun found => ?_
      cases found with
      | some path => exact .pure _
      | none => exact ih hsearches.2

theorem blind_asFile (path : String) : Blind place (asFile nested path) :=
  blind_firstSearch (by simpa using
    ⟨blind_fileOrReplacement hplace hnested, blind_withExtension hplace hnested⟩) path

theorem blind_indexOf (directory : String) : Blind place (indexOf nested directory) :=
  blind_asFile hplace hnested _

theorem blind_asDirectory (directory : String) : Blind place (asDirectory nested directory) := by
  have hmains : ∀ mains : List String, Blind place (firstOf (fun main => do
      let isRelative := main.startsWith "./" || main.startsWith "../"
      let path := Package.within directory (if isRelative then main else "./" ++ main)
      firstOf (fun search => search nested path) [asFile, indexOf]) mains) :=
    blind_firstOf fun main => blind_firstSearch (by simpa using
      ⟨blind_asFile hplace hnested, blind_indexOf hplace hnested⟩) _
  have hindex := blind_indexOf hplace hnested directory
  unfold asDirectory
  refine .bind (blind_packageAt? hplace directory) fun package => ?_
  cases package with
  | none =>
      exact .bind (.pure []) fun mains => .bind (hmains mains) (.onFound (fun _ => .pure _) hindex)
  | some package =>
      exact .read fun rules files edited => Blind.bind (.pure _) fun mains =>
        .bind (hmains mains) (.onFound (fun _ => .pure _) hindex)

theorem blind_asFileOrDirectory (path specifier : String) :
    Blind place (asFileOrDirectory nested path specifier) := by
  have hdirectory : Blind place (do
      if ← isDirectory path then asDirectory nested path else return none) := by
    refine .bind (blind_isDirectory path) fun _ => ?_
    split
    · exact blind_asDirectory hplace hnested path
    · exact .pure none
  unfold asFileOrDirectory
  dsimp only
  split
  · exact .bind (.pure none) (.onFound (fun _ => .pure _) hdirectory)
  · exact .bind (blind_asFile hplace hnested path) (.onFound (fun _ => .pure _) hdirectory)

/-- A path as a file or a directory, which must be there. -/
theorem blind_found (path specifier request : String) : Blind place (do
    orNotFound specifier (← asFileOrDirectory nested path request)) :=
  .bind (blind_asFileOrDirectory hplace hnested path request) (blind_orNotFound specifier)

/-! ## Packages -/

theorem blind_exportedFile (package : Package) (specifier subpath : String) :
    Blind place (exportedFile nested package specifier subpath) := by
  unfold exportedFile
  split
  · exact .pure none
  · refine .read fun rules files edited => Blind.bind blind_ending fun ending => ?_
    dsimp only
    split
    · exact .throw _
    · exact .bind (blind_asFileOrDirectory hplace hnested _ _) fun found =>
        .bind (blind_orNotFound specifier found) fun _ => .pure _
    · exact .throw _

theorem blind_fromOwnPackage (directory specifier : String) :
    Blind place (fromOwnPackage nested directory specifier) := by
  unfold fromOwnPackage
  refine .bind (blind_nearestPackage? hplace directory) fun package? => ?_
  cases package? with
  | none => exact .pure none
  | some package =>
      dsimp only
      split
      case' h_1 => refine .bind (blind_exportedFile hplace hnested package specifier _) ?_
      case' h_2 => refine Blind.bind (.pure none) ?_
      -- Either way, the map for browsers comes next.
      all_goals
        refine Blind.onFound (fun _ => .pure _) (.read fun rules files edited => ?_)
        dsimp only
        split
        · split
          · exact .throw _
          · exact blind_follow hnested package directory _ _
        · exact .pure rfl

theorem blind_fromModules (modules specifier : String) :
    Blind place (fromModules nested modules specifier) := by
  have hplain : ∀ skips : Bool, Blind place (do
      if skips then return none
      asFileOrDirectory nested (Package.within modules specifier) specifier) := by
    intro skips
    cases skips with
    | true => exact .pure none
    | false => exact blind_asFileOrDirectory hplace hnested _ _
  unfold fromModules
  dsimp only
  refine .bind (blind_isDirectory _) fun hasPackage => ?_
  split
  · refine .bind (blind_packageAt? hplace _) fun package? => ?_
    cases package? with
    | none => exact .bind (.pure none) (.onFound (fun _ => .pure _) (hplain _))
    | some package =>
        exact .bind (blind_exportedFile hplace hnested package specifier _)
          (.onFound (fun _ => .pure _) (hplain _))
  · exact .bind (.pure none) (.onFound (fun _ => .pure _) (hplain _))

omit hplace hnested in
theorem blind_inModules {search : String → Resolving (Option String)}
    (hsearch : ∀ modules, Blind place (search modules)) (directory : String) :
    Blind place (inModules search directory) := by
  refine blind_firstOf (fun above => ?_) _
  refine .bind (blind_isDirectory _) fun _ => .bind (blind_isDirectory _) fun _ => ?_
  split
  · exact hsearch _
  · exact .pure none

theorem blind_bare (directory specifier : String) :
    Blind place (bare nested directory specifier) := by
  refine .bind (blind_fromOwnPackage hplace hnested directory specifier) fun own => ?_
  cases own with
  | some found => exact .pure _
  | none =>
      exact .bind (blind_inModules (fun modules => blind_fromModules hplace hnested modules
        specifier) directory) (blind_orNotFound specifier)

theorem blind_importedPackage (directory specifier : String) :
    Blind place (importedPackage nested directory specifier) := by
  unfold importedPackage
  dsimp only
  refine .bind (blind_inModules (fun modules => ?_) directory) (blind_orNotFound specifier)
  have hplain : ∀ directory subpath : String, Blind place (do
      return some (← nested directory subpath)) :=
    fun directory subpath => .bind (hnested directory subpath) fun _ => .pure _
  refine .bind (blind_isDirectory _) fun _ => ?_
  split
  · refine .bind (blind_packageAt? hplace _) fun package? => ?_
    cases package? with
    | none => exact .bind (.pure none) (.onFound (fun _ => .pure _) (hplain _ _))
    | some package =>
        exact .bind (blind_exportedFile hplace hnested package specifier _)
          (.onFound (fun _ => .pure _) (hplain _ _))
  · exact .pure none

theorem blind_hashed (directory specifier : String) :
    Blind place (hashed nested directory specifier) := by
  unfold hashed
  refine .bind (blind_nearestPackage? hplace directory) fun package? => ?_
  split
  · exact blind_bare hplace hnested directory specifier
  · rename_i package map _
    dsimp only
    split
    · exact .throw_bind _ _
    · refine .read fun rules files edited => ?_
      dsimp only
      split
      · exact .throw _
      · exact .throw _
      · exact blind_found hplace hnested _ _ _
      · exact blind_importedPackage hplace hnested _ _

/-! ## Requests -/

theorem blind_locate (directory specifier : String) :
    Blind place (locate nested directory specifier) := by
  unfold locate
  split
  · exact blind_found hplace hnested _ _ _
  · exact blind_found hplace hnested _ _ _
  · exact blind_found hplace hnested _ _ _
  · split
    · exact blind_hashed hplace hnested directory specifier
    · exact blind_bare hplace hnested directory specifier

theorem blind_withFragment (directory path fragment : String) :
    Blind place (withFragment nested directory path fragment) := by
  refine .bind (Agrees.tryCatch (Blind.bind (blind_locate hplace hnested _ _) ?_) ?_) ?_
  · exact fun found => Blind.pure _
  · exact fun failure => Blind.pure _
  · intro outcome
    cases outcome with
    | error found => exact .pure _
    | ok found => exact .pure _

omit hnested in
theorem blind_request (depth : Nat) (directory text : String) :
    Blind place (request depth directory text) := by
  induction depth generalizing directory text with
  | zero => exact .throw _
  | succ depth ih =>
      rw [request]
      split
      · exact .throw _
      · rename_i specifier _
        have hlocate := blind_locate hplace ih directory (String.ofList specifier.path)
        dsimp only
        refine .modify ?_ (.get fun memory known query fragment replacement => ?_)
        · intro course reached h
          exact ⟨h.memory, by rw [h.query], by rw [h.fragment], h.replacement⟩
        · have hfragment : ∀ fragment : Option String, ∀ {course reached : Course},
              Course.Alike place course reached →
              Course.Alike place { course with fragment } { reached with fragment } :=
            fun _ _ _ h => ⟨h.memory, h.query, rfl, h.replacement⟩
          dsimp only
          split
          · refine Blind.modify (hfragment none) ?_
            refine .bind (blind_withFragment hplace ih _ _ _) fun found => ?_
            cases found with
            | some path => exact .bind (.pure (some path)) (.onFound (fun _ => .pure _) hlocate)
            | none =>
                exact .modify (hfragment _)
                  (.bind (.pure none) (.onFound (fun _ => .pure _) hlocate))
          · exact Blind.bind (.pure none) (.onFound (fun _ => .pure _) hlocate)

omit hnested

/-- A request leads to the same path in both trees. -/
theorem resolveOnce_edited (rules : Rules) {files edited : FileTree}
    (hfiles : FileTree.SameBut place files edited) (directory specifier : String)
    {memory known : Memory} (hmemory : List.Forall₂ (SameLook place) memory known) :
    (resolveOnce ⟨rules, files⟩ directory specifier memory).1 =
        (resolveOnce ⟨rules, edited⟩ directory specifier known).1 ∧
      List.Forall₂ (SameLook place) (resolveOnce ⟨rules, files⟩ directory specifier memory).2
        (resolveOnce ⟨rules, edited⟩ directory specifier known).2 := by
  have hblind : Blind place (do
      let path ← request maximumDepth directory specifier
      return path ++ (← ending)) :=
    .bind (blind_request hplace maximumDepth directory specifier) fun path =>
      .bind blind_ending fun ending => .pure _
  obtain ⟨hresult, hcourse⟩ := hblind rules files edited { memory } { memory := known } hfiles
    ⟨hmemory, rfl, rfl, rfl⟩
  exact ⟨hresult.eq, hcourse.memory⟩

/-- A request from a file, or from the context of an entry, leads to the same path in both
trees. -/
theorem resolve_edited (rules : Rules) {files edited : FileTree}
    (hfiles : FileTree.SameBut place files edited) (workingDirectory : String)
    (importer context : Option String) (specifier : String) :
    (resolve ⟨rules, files⟩ workingDirectory importer context specifier []).1 =
      (resolve ⟨rules, edited⟩ workingDirectory importer context specifier []).1 := by
  rw [resolve, resolve]
  dsimp only
  generalize directoryOf workingDirectory importer context = directory
  obtain ⟨hresult, hmemory⟩ := resolveOnce_edited hplace rules hfiles directory specifier .nil
  generalize resolveOnce ⟨rules, files⟩ directory specifier [] = first at hresult hmemory ⊢
  generalize resolveOnce ⟨rules, edited⟩ directory specifier [] = again at hresult hmemory ⊢
  obtain ⟨result, memory⟩ := first
  obtain ⟨_, known⟩ := again
  cases hresult
  cases result with
  | ok path => rfl
  | error failure =>
      obtain ⟨hsecond, _⟩ :=
        resolveOnce_edited hplace rules hfiles directory ("./" ++ specifier) hmemory
      dsimp only at hsecond ⊢
      split
      · generalize resolveOnce ⟨rules, files⟩ directory ("./" ++ specifier) memory = first
          at hsecond ⊢
        generalize resolveOnce ⟨rules, edited⟩ directory ("./" ++ specifier) known = again
          at hsecond ⊢
        obtain ⟨result, memory⟩ := first
        obtain ⟨_, known⟩ := again
        cases hsecond
        cases result <;> rfl
      · rfl

end NoPackageFile

end WebBundle.Resolver

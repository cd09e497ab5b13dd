import WebBundle.Resolver.Basic

/-!
# Resolved paths

A request leads to a file that was found in the file tree, and only absolute paths lead
anywhere there.  So every resolved path is absolute, with its query and its fragment, and
no file is ever taken for a virtual module.
-/

namespace WebBundle.Resolver

/-- A path leads somewhere from the root. -/
def IsRooted (path : String) : Prop := Path.isAbsolute path = true

/-- Only absolute paths are remembered to lead somewhere. -/
def Memory.Sound (memory : Memory) : Prop :=
  ∀ known ∈ memory, known.2.isSome = true → IsRooted known.1

/-- A step leaves a sound memory sound, and what it returns has a property. -/
def Ensures {α : Type} (post : α → Prop) (step : Resolving α) : Prop :=
  ∀ place course, Memory.Sound course.memory →
    Memory.Sound ((step.run place).run.run course).2.memory ∧
      ∀ value, ((step.run place).run.run course).1 = .ok value → post value

namespace Ensures

variable {α β : Type} {post : α → Prop} {after : β → Prop}

theorem pure {value : α} (hvalue : post value) : Ensures post (Pure.pure value) := by
  intro place course hsound
  refine ⟨hsound, ?_⟩
  rintro _ heq
  cases heq
  exact hvalue

theorem throw (failure : Failure) : Ensures post (MonadExcept.throw failure : Resolving α) := by
  intro place course hsound
  refine ⟨hsound, ?_⟩
  rintro _ heq
  cases heq

theorem read : Ensures (fun _ => True) (MonadReaderOf.read : Resolving Place) :=
  fun _ _ hsound => ⟨hsound, fun _ _ => trivial⟩

theorem get : Ensures (fun course => Memory.Sound course.memory) (get : Resolving Course) := by
  intro place course hsound
  refine ⟨hsound, ?_⟩
  rintro _ heq
  cases heq
  exact hsound

theorem modify {change : Course → Course}
    (hchange : ∀ course, Memory.Sound course.memory → Memory.Sound (change course).memory) :
    Ensures (fun _ => True) (modify change : Resolving Unit) :=
  fun _ course hsound => ⟨hchange course hsound, fun _ _ => trivial⟩

theorem bind {step : Resolving α} {next : α → Resolving β} (hstep : Ensures post step)
    (hnext : ∀ value, post value → Ensures after (next value)) : Ensures after (step >>= next) := by
  intro place course hsound
  obtain ⟨hmiddle, hvalue⟩ := hstep place course hsound
  have hbind : (((step >>= next).run place).run.run course) =
      match (step.run place).run.run course with
      | (.ok value, course) => ((next value).run place).run.run course
      | (.error failure, course) => (.error failure, course) := by
    simp only [ReaderT.run_bind, ExceptT.run_bind, StateT.run_bind]
    rcases (step.run place).run.run course with ⟨_ | value, reached⟩ <;> rfl
  rw [hbind]
  rcases hrun : (step.run place).run.run course with ⟨failure | value, reached⟩
  · rw [hrun] at hmiddle
    exact ⟨hmiddle, fun _ heq => nomatch heq⟩
  · rw [hrun] at hmiddle hvalue
    exact hnext value (hvalue value rfl) place reached hmiddle

theorem tryCatch {step : Resolving α} {handler : Failure → Resolving α} (hstep : Ensures post step)
    (hhandler : ∀ failure, Ensures post (handler failure)) :
    Ensures post (MonadExcept.tryCatch step handler) := by
  intro place course hsound
  obtain ⟨hmiddle, hvalue⟩ := hstep place course hsound
  have hcatch : ((MonadExcept.tryCatch step handler : Resolving α).run place).run.run course =
      match (step.run place).run.run course with
      | (.ok value, course) => (.ok value, course)
      | (.error failure, course) => ((handler failure).run place).run.run course := by
    simp only [MonadExcept.tryCatch, tryCatchThe, MonadExceptOf.tryCatch, ReaderT.run,
      ExceptT.tryCatch, ExceptT.run, ExceptT.mk, StateT.run_bind]
    simp only [StateT.run]
    rcases step place course with ⟨_ | value, reached⟩ <;> rfl
  rw [hcatch]
  rcases hrun : (step.run place).run.run course with ⟨failure | value, reached⟩
  · rw [hrun] at hmiddle
    exact hhandler failure place reached hmiddle
  · rw [hrun] at hmiddle hvalue
    refine ⟨hmiddle, ?_⟩
    rintro _ heq
    cases heq
    exact hvalue value rfl

theorem throw_bind (failure : Failure) (next : α → Resolving β) :
    Ensures after ((MonadExcept.throw failure : Resolving α) >>= next) := by
  have hthrow : Ensures (fun _ => False) (MonadExcept.throw failure : Resolving α) := .throw failure
  exact hthrow.bind fun _ hnone => hnone.elim

theorem pure_bind {value : α} {next : α → Resolving β} (hnext : Ensures after (next value)) :
    Ensures after ((Pure.pure value : Resolving α) >>= next) := by
  have hvalue : Ensures (· = value) (Pure.pure value : Resolving α) := .pure rfl
  refine hvalue.bind ?_
  rintro _ rfl
  exact hnext

end Ensures

/-- A path that was found is absolute. -/
def Rooted (found? : Option String) : Prop := ∀ path, found? = some path → IsRooted path

theorem rooted_none : Rooted none := fun _ heq => nomatch heq

/-- What was found, or else what another step finds. -/
theorem Ensures.orElse (found? : Option String) (next : Resolving (Option String)) :
    Rooted found? → Ensures Rooted next → Ensures Rooted (match found? with
      | some found => Pure.pure (some found)
      | none => next) := by
  intro hfound hnext
  cases found? with
  | some found => exact .pure hfound
  | none => exact hnext

theorem rooted_some {path : String} (hpath : IsRooted path) : Rooted (some path) := by
  rintro _ ⟨⟩
  exact hpath

/-! ## Looking at files -/

theorem isAbsolute_of_find? {files : FileTree} {path : String}
    (hfound : (files.find? path).isSome = true) : Path.isAbsolute path = true := by
  rw [FileTree.find?] at hfound
  split at hfound
  · assumption
  · cases hfound

theorem ensures_lookup (path : String) :
    Ensures (fun entry => entry.isSome = true → IsRooted path) ( entry? path) := by
  refine .bind .get fun course hsound => ?_
  split
  · rename_i known entry hknown
    refine .pure fun hentry => ?_
    have hpath := List.find?_some hknown
    rw [decide_eq_true_eq] at hpath
    rw [← hpath]
    exact hsound _ (List.mem_of_find?_eq_some hknown) hentry
  · refine .bind .read fun place _ => .bind (.modify fun course hsound => ?_) fun _ _ =>
      .pure isAbsolute_of_find?
    exact List.forall_mem_cons.mpr ⟨isAbsolute_of_find?, hsound⟩

theorem ensures_isFile (path : String) :
    Ensures (fun found => found = true → IsRooted path) (isFile path) := by
  refine .bind (ensures_lookup path) fun entry hentry => ?_
  cases entry with
  | none => exact .pure fun hfound => nomatch hfound
  | some entry => exact .pure fun _ => hentry rfl

theorem ensures_isDirectory (path : String) : Ensures (fun _ => True) (isDirectory path) := by
  refine .bind (ensures_lookup path) fun entry _ => ?_
  cases entry with
  | none => exact .pure trivial
  | some entry => exact .pure trivial

theorem ensures_packageAt? (directory : String) :
    Ensures (fun _ => True) (packageAt? directory) := by
  refine .bind (ensures_lookup _) fun entry _ => ?_
  split
  · split
    · exact .pure trivial
    · exact .throw _
  · exact .pure trivial

theorem ensures_firstOf {α β : Type} {post : Option β → Prop} {search : α → Resolving (Option β)}
    (hnone : post none) (hsearch : ∀ place, Ensures post (search place)) (places : List α) :
    Ensures post (firstOf search places) := by
  induction places with
  | nil => exact .pure hnone
  | cons place rest ih =>
      refine .bind (hsearch place) fun found hfound => ?_
      cases found with
      | none => exact ih
      | some value => exact .pure hfound

theorem ensures_nearestPackage? (path : String) :
    Ensures (fun _ => True) (nearestPackage? path) := by
  refine ensures_firstOf trivial (fun directory => ?_) _
  refine .bind (ensures_isDirectory directory) fun _ _ => ?_
  split
  · exact ensures_packageAt? directory
  · exact .pure trivial

/-! ## Files and directories -/

section Nested

variable {nested : Nested} (hnested : ∀ directory specifier,
  Ensures IsRooted (nested directory specifier))
include hnested

theorem ensures_follow (package : Package) (path : String) (request replacement : Option String) :
    Ensures Rooted (follow nested package path request replacement) := by
  unfold follow
  cases replacement with
  | none => exact .pure rooted_none
  | some specifier =>
      dsimp only
      split
      · exact .pure rooted_none
      · have hnext : Ensures Rooted (do
            modify fun course => { course with replacement := some specifier }
            return some (← nested package.directory specifier)) :=
          .bind (.modify fun _ hsound => hsound) fun _ _ =>
            .bind (hnested _ _) fun _ hfound => .pure (rooted_some hfound)
        refine .bind .get fun course _ => ?_
        split
        · split
          · exact .throw_bind _ _
          · refine .bind (ensures_isFile path) fun found hfound => ?_
            split
            · rename_i hfile
              exact .pure (rooted_some (hfound hfile))
            · exact .throw_bind _ _
        · exact hnext

theorem ensures_fileOrReplacement (path : String) :
    Ensures Rooted (fileOrReplacement nested path) := by
  have hself : Ensures Rooted (do if ← isFile path then return some path else return none) := by
    refine .bind (ensures_isFile path) fun found hfound => ?_
    split
    · rename_i hfile
      exact .pure (rooted_some (hfound hfile))
    · exact .pure rooted_none
  unfold fileOrReplacement
  refine .bind .read fun place _ => ?_
  dsimp only
  split
  · refine .bind (ensures_nearestPackage? path) fun package _ => ?_
    cases package with
    | none => exact .pure_bind hself
    | some package =>
        have hlift : ∀ replacement : Except Failure (Option String),
            Ensures (fun _ => True) (fileOrReplacement.liftExcept replacement) := by
          intro replacement
          cases replacement with
          | error failure => exact .throw failure
          | ok value => exact .pure trivial
        exact .bind (hlift _) fun replacement _ =>
          .bind (ensures_follow hnested package path none replacement) fun _ h =>
            .orElse _ _ h hself
  · exact .pure_bind hself

theorem ensures_withExtension (path : String) : Ensures Rooted (withExtension nested path) :=
  ensures_firstOf rooted_none (fun _ => ensures_fileOrReplacement hnested _) _

omit hnested in
theorem ensures_firstSearch {searches : List (Nested → String → Resolving (Option String))}
    (hsearches : ∀ search ∈ searches, ∀ path, Ensures Rooted (search nested path)) (path : String) :
    Ensures Rooted (firstOf (fun search => search nested path) searches) := by
  induction searches with
  | nil => exact .pure rooted_none
  | cons search rest ih =>
      rw [List.forall_mem_cons] at hsearches
      refine .bind (hsearches.1 path) fun found hfound => ?_
      cases found with
      | some path => exact .pure hfound
      | none => exact ih hsearches.2

theorem ensures_asFile (path : String) : Ensures Rooted (asFile nested path) :=
  ensures_firstSearch (by simpa using
    ⟨ensures_fileOrReplacement hnested, ensures_withExtension hnested⟩) path

theorem ensures_indexOf (directory : String) : Ensures Rooted (indexOf nested directory) :=
  ensures_asFile hnested _

theorem ensures_asDirectory (directory : String) :
    Ensures Rooted (asDirectory nested directory) := by
  have hmains : ∀ mains : List String, Ensures Rooted (do
      let named ← firstOf (fun main => do
        let isRelative := main.startsWith "./" || main.startsWith "../"
        let path := Package.within directory (if isRelative then main else "./" ++ main)
        firstOf (fun search => search nested path) [asFile, indexOf]) mains
      match named with
      | some found => return some found
      | none => indexOf nested directory) := by
    intro mains
    refine .bind (ensures_firstOf rooted_none (fun main => ?_) mains) fun named hnamed =>
      .orElse _ _ hnamed (ensures_indexOf hnested directory)
    exact ensures_firstSearch (by simpa using
      ⟨ensures_asFile hnested, ensures_indexOf hnested⟩) _
  unfold asDirectory
  refine .bind (ensures_packageAt? directory) fun package _ => ?_
  cases package with
  | none => exact .pure_bind (hmains _)
  | some package => exact .bind .read fun place _ => .pure_bind (hmains _)

theorem ensures_asFileOrDirectory (path specifier : String) :
    Ensures Rooted (asFileOrDirectory nested path specifier) := by
  have hdirectory : Ensures Rooted (do
      if ← isDirectory path then asDirectory nested path else return none) := by
    refine .bind (ensures_isDirectory path) fun _ _ => ?_
    split
    · exact ensures_asDirectory hnested path
    · exact .pure rooted_none
  unfold asFileOrDirectory
  dsimp only
  split
  · exact .pure_bind hdirectory
  · exact .bind (ensures_asFile hnested path) fun _ hfound => .orElse _ _ hfound hdirectory

omit hnested in
theorem ensures_orNotFound (specifier : String) {found : Option String} (hfound : Rooted found) :
    Ensures IsRooted (orNotFound specifier found) := by
  cases found with
  | some path => exact .pure (hfound path rfl)
  | none => exact .throw _

/-! ## Packages -/

omit hnested in
theorem ensures_ending : Ensures (fun _ => True) ending :=
  .bind .get fun _ _ => .pure trivial

theorem ensures_exportedFile (package : Package) (specifier subpath : String) :
    Ensures Rooted (exportedFile nested package specifier subpath) := by
  unfold exportedFile
  split
  · exact .pure rooted_none
  · refine .bind .read fun place _ => .bind ensures_ending fun ending _ => ?_
    split
    · exact .throw _
    · exact .bind (ensures_asFileOrDirectory hnested _ _) fun found hfound =>
        .bind (ensures_orNotFound specifier hfound) fun _ hpath => .pure (rooted_some hpath)
    · exact .throw _

theorem ensures_fromOwnPackage (directory specifier : String) :
    Ensures Rooted (fromOwnPackage nested directory specifier) := by
  unfold fromOwnPackage
  refine .bind (ensures_nearestPackage? directory) fun package? _ => ?_
  cases package? with
  | none => exact .pure rooted_none
  | some package =>
      dsimp only
      split
      case' h_1 =>
        refine .bind (ensures_exportedFile hnested package specifier _) fun _ hown =>
          .orElse _ _ hown ?_
      case' h_2 => refine .pure_bind ?_
      -- Either way, the map for browsers comes next.
      all_goals
        refine .bind .read fun place _ => ?_
        split
        · split
          · exact .throw _
          · exact ensures_follow hnested package directory _ _
        · exact .pure rooted_none

theorem ensures_fromModules (modules specifier : String) :
    Ensures Rooted (fromModules nested modules specifier) := by
  have hplain : ∀ skips : Bool, Ensures Rooted (do
      if skips then return none
      asFileOrDirectory nested (Package.within modules specifier) specifier) := by
    intro skips
    cases skips with
    | true => exact .pure rooted_none
    | false => exact ensures_asFileOrDirectory hnested _ _
  unfold fromModules
  dsimp only
  refine .bind (ensures_isDirectory _) fun hasPackage _ => ?_
  split
  · refine .bind (ensures_packageAt? _) fun package? _ => ?_
    cases package? with
    | none => exact .pure_bind (hplain _)
    | some package => 
        exact .bind (ensures_exportedFile hnested package specifier _) fun _ hexported =>
          .orElse _ _ hexported (hplain _)
  · exact .pure_bind (hplain _)

omit hnested in
theorem ensures_inModules {search : String → Resolving (Option String)}
    (hsearch : ∀ modules, Ensures Rooted (search modules)) (directory : String) :
    Ensures Rooted (inModules search directory) := by
  refine ensures_firstOf rooted_none (fun above => ?_) _
  refine .bind (ensures_isDirectory _) fun _ _ => .bind (ensures_isDirectory _) fun _ _ => ?_
  split
  · exact hsearch _
  · exact .pure rooted_none

theorem ensures_bare (directory specifier : String) :
    Ensures IsRooted (bare nested directory specifier) := by
  refine .bind (ensures_fromOwnPackage hnested directory specifier) fun own hown => ?_
  cases own with
  | some found => exact .pure (hown found rfl)
  | none =>
      exact .bind (ensures_inModules (fun modules => ensures_fromModules hnested modules specifier)
        directory) fun _ hfound => ensures_orNotFound specifier hfound

theorem ensures_importedPackage (directory specifier : String) :
    Ensures IsRooted (importedPackage nested directory specifier) := by
  unfold importedPackage
  dsimp only
  refine .bind (ensures_inModules (fun modules => ?_) directory) fun _ hfound =>
    ensures_orNotFound specifier hfound
  have hplain : ∀ directory specifier, Ensures Rooted (do
      return some (← nested directory specifier)) := fun directory specifier =>
    .bind (hnested directory specifier) fun _ hpath => .pure (rooted_some hpath)
  refine .bind (ensures_isDirectory _) fun _ _ => ?_
  split
  · refine .bind (ensures_packageAt? _) fun package? _ => ?_
    cases package? with
    | none => exact .pure_bind (hplain _ _)
    | some package => 
        exact .bind (ensures_exportedFile hnested package specifier _) fun _ hexported =>
          .orElse _ _ hexported (hplain _ _)
  · exact .pure rooted_none

theorem ensures_hashed (directory specifier : String) :
    Ensures IsRooted (hashed nested directory specifier) := by
  unfold hashed
  refine .bind (ensures_nearestPackage? directory) fun package? _ => ?_
  split
  · exact ensures_bare hnested directory specifier
  · dsimp only
    split
    · exact .throw_bind _ _
    · refine .bind .read fun place _ => ?_
      split
      · exact .throw _
      · exact .throw _
      · exact .bind (ensures_asFileOrDirectory hnested _ _) fun _ hfound =>
          ensures_orNotFound specifier hfound
      · exact ensures_importedPackage hnested _ _

/-! ## Requests -/

theorem ensures_locate (directory specifier : String) :
    Ensures IsRooted (locate nested directory specifier) := by
  unfold locate
  split
  · exact .bind (ensures_asFileOrDirectory hnested _ _) fun _ hfound =>
      ensures_orNotFound specifier hfound
  · exact .bind (ensures_asFileOrDirectory hnested _ _) fun _ hfound =>
      ensures_orNotFound specifier hfound
  · exact .bind (ensures_asFileOrDirectory hnested _ _) fun _ hfound =>
      ensures_orNotFound specifier hfound
  · split
    · exact ensures_hashed hnested directory specifier
    · exact ensures_bare hnested directory specifier

theorem ensures_withFragment (directory path fragment : String) :
    Ensures Rooted (withFragment nested directory path fragment) := by
  -- An early return is an error of the block that it leaves.
  have hleft : ∀ found, Rooted found → Ensures
      (fun outcome => ∃ found, Rooted found ∧ outcome = .error found)
      (Pure.pure (.error found) : Resolving (Except (Option String) (Option String))) :=
    fun found hfound => .pure ⟨found, hfound, rfl⟩
  have hblock := Ensures.tryCatch (.bind (ensures_locate hnested directory (path ++ fragment))
    fun found hfound => hleft (some found) (rooted_some hfound)) fun _ => hleft none rooted_none
  refine .bind hblock fun outcome houtcome => ?_
  obtain ⟨found, hfound, rfl⟩ := houtcome
  exact .pure hfound

end Nested

theorem ensures_request (depth : Nat) (directory text : String) :
    Ensures IsRooted (request depth directory text) := by
  induction depth generalizing directory text with
  | zero => exact .throw _
  | succ depth ih =>
      rw [request]
      split
      · exact .throw _
      · rename_i specifier _
        dsimp only
        refine .bind (.modify fun _ hsound => hsound) fun _ _ => .bind .get fun course _ => ?_
        split
        · refine .bind (.modify fun _ hsound => hsound) fun _ _ =>
            .bind (ensures_withFragment ih _ _ _) fun found hfound => ?_
          cases found with
          | some path => exact .pure_bind (.pure (hfound path rfl))
          | none =>
              exact .bind (.modify fun _ hsound => hsound) fun _ _ =>
                .pure_bind (ensures_locate ih _ _)
        · exact .pure_bind (ensures_locate ih _ _)

theorem isAbsolute_append {path : String} (hpath : IsRooted path) (more : String) :
    IsRooted (path ++ more) := by
  rw [IsRooted, Path.isAbsolute] at hpath ⊢
  rw [String.toList_append]
  split at hpath
  · rename_i rest htext
    rw [htext]
    rfl
  · cases hpath

theorem isAbsolute_resolveOnce {place : Place} {directory specifier : String} {memory : Memory}
    (hsound : memory.Sound) :
    Memory.Sound (resolveOnce place directory specifier memory).2 ∧
      ∀ path, (resolveOnce place directory specifier memory).1 = .ok path → IsRooted path :=
  Ensures.bind (ensures_request maximumDepth directory specifier)
    (fun _ hpath => .bind ensures_ending fun ending _ => .pure (isAbsolute_append hpath ending))
    place { memory } hsound

/-- A request leads to an absolute path. -/
theorem isAbsolute_resolve {place : Place} {workingDirectory specifier path : String}
    {importer context : Option String}
    (hresolve : (resolve place workingDirectory importer context specifier []).1 = .ok path) :
    Path.isAbsolute path = true := by
  rw [resolve] at hresolve
  dsimp only at hresolve
  have hempty : Memory.Sound [] := fun _ hnone => nomatch hnone
  generalize directoryOf workingDirectory importer context = directory at hresolve
  have hfirst := @isAbsolute_resolveOnce place directory specifier [] hempty
  generalize resolveOnce place directory specifier [] = first at hresolve hfirst
  obtain ⟨failure | found, memory⟩ := first
  · dsimp only at hresolve hfirst
    split at hresolve
    · have hsecond := @isAbsolute_resolveOnce place directory ("./" ++ specifier) memory hfirst.1
      generalize resolveOnce place directory ("./" ++ specifier) memory = second at hresolve hsecond
      obtain ⟨other | found, last⟩ := second
      · cases hresolve
      · cases hresolve
        exact hsecond.2 _ rfl
    · cases hresolve
  · cases hresolve
    exact hfirst.2 _ rfl

end WebBundle.Resolver

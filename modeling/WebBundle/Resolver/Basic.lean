import WebBundle.Files.Tree
import WebBundle.Options
import WebBundle.Resolver.Package
import WebBundle.Resolver.Specifier

/-!
# Resolving requests

A request from a directory leads to a file: a relative or absolute path to the
file itself, to the file with one of the usual extensions or to the main file of
a directory, and a bare name to a package in the nearest `node_modules`
directory that has it.  Packages may redirect requests.  What was once looked up
in the file tree is remembered until it is forgotten on purpose.
-/

namespace WebBundle.Resolver

/-- What the platform changes about resolution. -/
structure Rules where
  conditions : List String
  mainFields : List String
  /-- Whether the browser maps of packages are followed. -/
  followsBrowserMap : Bool

/-- The rules of a platform. -/
def Rules.ofPlatform : Platform → Rules
  | .node => ⟨["import", "default", "node"], ["main", "module"], false⟩
  | .browser => ⟨["import", "default", "browser"], ["browser", "module", "main"], true⟩
  | .worker => ⟨["import", "default", "worker", "browser"], ["browser", "module", "main"], true⟩
  | .neutral => ⟨["import", "default"], [], false⟩

/-- The extensions that are tried, in order. -/
def extensions : List String := [".js", ".mjs", ".ts", ".json"]

/-- What is remembered of the file tree: entries and missing entries. -/
abbrev Memory := List (String × Option FileEntry)

/-- What one resolution carries along. -/
structure Course where
  memory : Memory
  query : Option String := none
  fragment : Option String := none
  /-- The last replacement that is being resolved. -/
  replacement : Option String := none

/-- Where a resolution happens. -/
structure Place where
  rules : Rules
  files : FileTree

/-- A step of a resolution. -/
abbrev Resolving := ReaderT Place (ExceptT Failure (StateM Course))

/-- A resolution of requests that packages make: from a directory, of a
specifier. -/
abbrev Nested := String → String → Resolving String

/-! ## Looking at files -/

/-- The entry at a path, as it was when it was looked up first. -/
def entry? (path : String) : Resolving (Option FileEntry) := do
  match (← get).memory.find? fun known => known.1 = path with
  | some (_, entry) => return entry
  | none =>
    let entry := (← read).files.find? path
    modify fun course => { course with memory := (path, entry) :: course.memory }
    return entry

/-- Whether there is a file at a path. -/
def isFile (path : String) : Resolving Bool := do
  match ← entry? path with
  | some entry => return entry.isFile
  | none => return false

/-- Whether there is a directory at a path. -/
def isDirectory (path : String) : Resolving Bool := do
  match ← entry? path with
  | some entry => return !entry.isFile
  | none => return false

/-- A path and the directories above it, the nearest first. -/
def upwards (path : String) : List String :=
  let names := Path.names path
  (List.range (names.length + 1)).reverse.map fun count => Path.ofNames (names.take count)

/-- The package in a directory, if there is one. -/
def packageAt? (directory : String) : Resolving (Option Package) := do
  let file := Path.join directory "package.json"
  match ← entry? file with
  | some (.file content) =>
    match (String.fromUTF8? content).bind Json.readDocument? with
    | some json => return some ⟨directory, json⟩
    | none => throw (.invalidPackage file)
  | _ => return none

/-- The first result that a search over several places gives. -/
def firstOf {α β : Type} (search : α → Resolving (Option β)) : List α → Resolving (Option β)
  | [] => return none
  | place :: rest => do
    match ← search place with
    | some found => return some found
    | none => firstOf search rest

/-- The package that a path belongs to: the nearest one above it. -/
def nearestPackage? (path : String) : Resolving (Option Package) :=
  firstOf (fun directory => do
    if ← isDirectory directory then packageAt? directory else return none) (upwards path)

/-! ## Files and directories -/

/-- Follows what a package puts in the place of a file or of a request. -/
def follow (nested : Nested) (package : Package) (path : String) (request : Option String)
    (replacement : Option String) : Resolving (Option String) := do
  match replacement with
  | none => return none
  | some specifier =>
    if request = some specifier then return none
    if (← get).replacement = some specifier then
      let isItself := specifier.startsWith "./" &&
        (Path.names (String.ofList (specifier.toList.drop 2))).isSuffixOf (Path.names path)
      if !isItself then throw .recursion
      if ← isFile path then return some path
      throw (.notFound specifier)
    modify fun course => { course with replacement := some specifier }
    return some (← nested package.directory specifier)

/-- A file itself, or what its package puts in its place. -/
def fileOrReplacement (nested : Nested) (path : String) : Resolving (Option String) := do
  let replaced ← if (← read).rules.followsBrowserMap then
      match ← nearestPackage? path with
      | some package => do
        let replacement ← liftExcept (package.fileReplacement path)
        follow nested package path none replacement
      | none => pure none
    else pure none
  match replaced with
  | some found => return some found
  | none => if ← isFile path then return some path else return none
where
  /-- A result that may be a failure. -/
  liftExcept {α : Type} : Except Failure α → Resolving α
    | .ok value => pure value
    | .error failure => throw failure

/-- A path with one of the usual extensions. -/
def withExtension (nested : Nested) (path : String) : Resolving (Option String) :=
  firstOf (fun extension => fileOrReplacement nested (path ++ extension)) extensions

/-- A path as a file, perhaps with an extension. -/
def asFile (nested : Nested) (path : String) : Resolving (Option String) :=
  firstOf (fun search => search nested path) [fileOrReplacement, withExtension]

/-- The index file of a directory. -/
def indexOf (nested : Nested) (directory : String) : Resolving (Option String) :=
  asFile nested (Package.within directory "index")

/-- The main file of a directory. -/
def asDirectory (nested : Nested) (directory : String) : Resolving (Option String) := do
  let mains ← match ← packageAt? directory with
    | some package => pure (package.mainFiles (← read).rules.mainFields)
    | none => pure []
  let named ← firstOf (fun main => do
    let isRelative := main.startsWith "./" || main.startsWith "../"
    let path := Package.within directory (if isRelative then main else "./" ++ main)
    firstOf (fun search => search nested path) [asFile, indexOf]) mains
  match named with
  | some found => return some found
  | none => indexOf nested directory

/-- A path as a file or a directory; with a slash at the end of the specifier
only as a directory. -/
def asFileOrDirectory (nested : Nested) (path specifier : String) :
    Resolving (Option String) := do
  let file ← if FileTree.endsWithSlash specifier then pure none else asFile nested path
  match file with
  | some found => return some found
  | none => if ← isDirectory path then asDirectory nested path else return none

/-- A result that must be there. -/
def orNotFound (specifier : String) : Option String → Resolving String
  | some found => return found
  | none => throw (.notFound specifier)

/-! ## Packages -/

/-- Splits a bare specifier into the name of a package, perhaps with a scope,
and the path behind it. -/
def splitPackage (specifier : String) : String × String :=
  let chars := specifier.toList
  let first := chars.takeWhile (· ≠ '/')
  let rest := chars.dropWhile (· ≠ '/')
  let (name, subpath) := match chars, rest with
    | '@' :: _, _ :: behind =>
      (first ++ '/' :: behind.takeWhile (· ≠ '/'), behind.dropWhile (· ≠ '/'))
    | _, _ => (first, rest)
  (String.ofList name, String.ofList subpath)

/-- The query and the fragment so far. -/
def ending : Resolving String := do
  let course ← get
  return course.query.getD "" ++ course.fragment.getD ""

/-- The exported file of a subpath, if the package has exports. -/
def exportedFile (nested : Nested) (package : Package) (specifier subpath : String) :
    Resolving (Option String) := do
  match package.field? "exports" with
  | none => return none
  | some map =>
    match package.exported (← read).rules.conditions ("." ++ subpath) (← ending) map with
    | .error failure => throw failure
    | .ok (.path path) => return some (← orNotFound specifier (← asFileOrDirectory nested path ""))
    | .ok (.request _) => throw (.notFound specifier)

/-- What the package around a directory gives for a request: its own exports if
it is asked for by its name, and what it puts in the place of a request. -/
def fromOwnPackage (nested : Nested) (directory specifier : String) :
    Resolving (Option String) := do
  match ← nearestPackage? directory with
  | none => return none
  | some package =>
    let own? := package.name?.bind fun name =>
      if name.toList.isPrefixOf specifier.toList then
        let subpath := specifier.toList.drop name.length
        if subpath.isEmpty || subpath.head? = some '/' then some (String.ofList subpath) else none
      else none
    let own ← match own? with
      | some subpath => exportedFile nested package specifier subpath
      | none => pure none
    match own with
    | some found => return some found
    | none =>
      if (← read).rules.followsBrowserMap then
        match package.requestReplacement directory specifier with
        | .error failure => throw failure
        | .ok replacement => follow nested package directory (some specifier) replacement
      else return none

/-- A request in one `node_modules` directory. -/
def fromModules (nested : Nested) (modules specifier : String) : Resolving (Option String) := do
  let (name, subpath) := splitPackage specifier
  let packagePath := Package.within modules name
  let hasPackage ← isDirectory packagePath
  let exported ← if name ≠ "" && hasPackage then
      match ← packageAt? packagePath with
      | some package => exportedFile nested package specifier subpath
      | none => pure none
    else pure none
  match exported with
  | some found => return some found
  | none =>
    if name ≠ "" && !hasPackage && subpath ≠ "" then return none
    asFileOrDirectory nested (Package.within modules specifier) specifier

/-- The `node_modules` directories above a directory, the nearest first. -/
def inModules {α : Type} (search : String → Resolving (Option α)) (directory : String) :
    Resolving (Option α) :=
  firstOf (fun above => do
    let modules := Package.within above "node_modules"
    if (← isDirectory above) && (← isDirectory modules) then search modules else return none)
    (upwards directory)

/-- A request for a package. -/
def bare (nested : Nested) (directory specifier : String) : Resolving String := do
  match ← fromOwnPackage nested directory specifier with
  | some found => return found
  | none =>
    orNotFound specifier (← inModules (fun modules => fromModules nested modules specifier) directory)

/-- A package that an import of another package is mapped to. -/
def importedPackage (nested : Nested) (directory specifier : String) : Resolving String := do
  let (name, subpath) := splitPackage specifier
  let found ← inModules (fun modules => do
    let packagePath := Package.within modules name
    if ← isDirectory packagePath then
      let exported ← match ← packageAt? packagePath with
        | some package => exportedFile nested package specifier subpath
        | none => pure none
      match exported with
      | some found => return some found
      | none => return some (← nested packagePath ("." ++ subpath))
    else return none) directory
  orNotFound specifier found

/-- A request that begins with `#`: an import of the own package. -/
def hashed (nested : Nested) (directory specifier : String) : Resolving String := do
  let package? ← nearestPackage? directory
  match package?.bind fun package => (package.field? "imports").map (package, ·) with
  | none => bare nested directory specifier
  | some (package, map) =>
    if specifier = "#" || specifier.startsWith "#/" then
      throw (.invalidSpecifier specifier package.file)
    match package.mapped true (← read).rules.conditions specifier map with
    | .error failure => throw failure
    | .ok none => throw (.importNotDefined specifier package.file)
    | .ok (some (.path path)) => orNotFound specifier (← asFileOrDirectory nested path "")
    | .ok (some (.request request)) => importedPackage nested package.directory request

/-! ## Requests -/

/-- A request without query and fragment. -/
def locate (nested : Nested) (directory specifier : String) : Resolving String := do
  match Path.components specifier with
  | .root :: _ =>
    orNotFound specifier (← asFileOrDirectory nested (Path.normalize specifier) specifier)
  | .current :: _ | .parent :: _ =>
    let path := Package.within directory specifier
    orNotFound specifier
      (← asFileOrDirectory nested path (if specifier = "." then "./" else specifier))
  | _ =>
    if specifier.startsWith "#" then hashed nested directory specifier
    else bare nested directory specifier

/-- Whether a request with a fragment may lead to a file with the mark in its
name, and where. -/
def withFragment (nested : Nested) (directory path fragment : String) :
    Resolving (Option String) := do
  try
    return some (← locate nested directory (path ++ fragment))
  catch _ => return none

/-- A request from a directory; `depth` bounds how far packages redirect it. -/
def request : (depth : Nat) → Nested
  | 0, _, _ => throw .recursion
  | depth + 1, directory, text => do
    match Specifier.read? text with
    | none => throw (.emptySpecifier text)
    | some specifier =>
      let nested := request depth
      let path := String.ofList specifier.path
      modify fun course => { course with
        query := (specifier.query.map String.ofList).or course.query
        fragment := (specifier.fragment.map String.ofList).or course.fragment }
      let course ← get
      let direct ← match course.fragment, course.query with
        | some fragment, none => do
          modify fun course => { course with fragment := none }
          match ← withFragment nested directory path fragment with
          | some found => pure (some found)
          | none =>
            modify fun course => { course with fragment := some fragment }
            pure none
        | _, _ => pure none
      match direct with
      | some found => return found
      | none => locate nested directory path

/-- The number of redirections after which a request is given up. -/
def maximumDepth : Nat := 64

/-- The file a request leads to, with its query and fragment, and what is
remembered from then on. -/
def resolveOnce (place : Place) (directory specifier : String) (memory : Memory) :
    Except Failure String × Memory :=
  let resolving : Resolving String := do
    let path ← request maximumDepth directory specifier
    return path ++ (← ending)
  let (result, course) := (resolving.run place).run.run { memory }
  (result, course.memory)

/-- The directory from which a request is resolved: that of the importing file, or the
context if no file imports it. -/
def directoryOf (workingDirectory : String) (importer context : Option String) : String :=
  let parent? := (importer.bind Path.parent?).filter fun parent => !(Path.components parent).isEmpty
  parent?.getD (context.getD workingDirectory)

/-- Resolves a specifier from a file, or from a context for an entry.  An entry
that is found nowhere else is looked for in the context itself. -/
def resolve (place : Place) (workingDirectory : String) (importer context : Option String)
    (specifier : String) (memory : Memory) : Except Failure String × Memory :=
  let directory := directoryOf workingDirectory importer context
  let (result, memory) := resolveOnce place directory specifier memory
  match result with
  | .ok path => (.ok path, memory)
  | .error failure =>
    let isPath := specifier.startsWith "." || specifier.startsWith "/"
    if importer.isNone && !isPath then
      match resolveOnce place directory ("./" ++ specifier) memory with
      | (.ok path, memory) => (.ok path, memory)
      | (.error _, memory) => (.error failure, memory)
    else (.error failure, memory)

end WebBundle.Resolver
